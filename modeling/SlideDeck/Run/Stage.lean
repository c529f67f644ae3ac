import SlideDeck.Deck.Revision
import SlideDeck.Deck.Finalization
import SlideDeck.Deck.Template
import SlideDeck.Run.State

/-!
# The stages of a run

A deck is made in five stages, from a look at the surroundings to the last words; it is finalized in
three. Which failures a stage reports as messages depends on the stage: reading a layout and
finalizing report wrong inputs and conflicts, and making and revising a deck also refusals by the
tree.
-/

namespace SlideDeck.Run

open SlideDeck.Action (note)

/-- The stages of a run. -/
inductive Stage where
  | checkSurroundings
  | readLayout
  | makeDeck
  | revisePage
  | announceDeck
  | finalize
  | announceReport
  deriving DecidableEq, Repr

/-- The stages in which a deck is made. -/
def Stage.making : List Stage :=
  [.checkSurroundings, .readLayout, .makeDeck, .revisePage, .announceDeck]

/-- The stages in which a deck is finalized. -/
def Stage.finalizing : List Stage := [.checkSurroundings, .finalize, .announceReport]

/-- The lines that a run opens with. -/
def titleLines : List Text :=
  ["     _           _                  _ _   _",
   "  __| | ___  ___| | _____ _ __ ___ (_) |_| |__",
   " / _` |/ _ \\/ __| |/ / __| '_ ` _ \\| | __| '_ \\",
   "| (_| |  __/ (__|   <\\__ \\ | | | | | | |_| | | |",
   " \\__,_|\\___|\\___|_|\\_\\___/_| |_| |_|_|\\__|_| |_|",
   "",
   "  reveal.js deck scaffolding"].map String.toList

/-- What a run opens with. -/
def displayTitle : Text := '\n' :: titleLines.flatMap (· ++ ['\n'])

namespace State

/-- The archive that a request means. -/
def archiveOr (s : State) (settings : Settings) : Path :=
  match nonempty? s.templateFile with
  | some name => s.input.child name
  | none => settings.templateArchive

/-- Finds out which archive and which deck are meant. -/
def checkSurroundings (s : State) (c : Context) : RunAction State := do
  note 2 displayTitle
  note 2 "Checking environment...".toList
  let s ← if s.finalize then
      if nonempty? s.slug =
        none then throw (.message "--finalize requires --slug to locate the deck".toList)
      else pure s
    else do
      let archive := s.archiveOr c.settings
      if !(← reporting (fun _ => false) (TreeAction.ask Tree.isFile archive)) then
        throw (.message (Failure.archiveMissing archive).message)
      note 2 ("Template archive: ".toList ++ archive.toText)
      let slug ← match nonempty? s.slug with
        | some slug => pure slug
        | none => reporting (fun _ => false) (Slug.generate c.random c.settings.slugBytes)
      pure { s with archive := archive, slug := some slug }
  let deck := c.settings.deckPath (s.slug.getD []) s.output
  note 2 ("Deck directory: ".toList ++ deck.toText)
  return { s with deck := deck, ready := true }

/-- Reads the layout. -/
def readLayout (s : State) (c : Context) : RunAction State := do
  let groups ← reporting (·.isReported)
    (Layout.read c.settings.dividerToken c.settings.defaultSlideCount s.layout :
      Except Failure Layout)
  note 2 ("Structure: ".toList ++ groups.describe Layout.defaultMarker)
  return { s with groups := some groups }

/-- Makes the deck from the template. -/
def makeDeck (s : State) (c : Context) : RunAction State := do
  let template := Template.choose c.settings (some s.archive) []
  let deck ← reporting (fun e => e.isReported || e.isSystem)
    (template.makeDeck c.settings c.suffixes (s.slug.getD []) s.output)
  return { s with deck := deck }

/-- Revises the deck's page. -/
def revisePage [Record.Nesting] (s : State) (c : Context) : RunAction State :=
  reporting (fun e => e.isReported || e.isSystem) do
    let page ← Deck.openPage s.deck s.deck.toText c.settings.markupEntry
    match s.groups with
    | none => throw .layoutMissing
    | some groups =>
      let outline ← Deck.revisePage c.settings c.settings.configMarker ⟨s.title, s.slug.getD []⟩
          page groups
      return { s with creation := some ⟨s.deck, page, outline.slideCount,
        groups.describe Layout.defaultMarker⟩ }

/-- Tells the user what has been made. -/
def announceDeck (s : State) : RunAction State := do
  match s.creation with
  | none => throw (.message "Deck creation failed".toList)
  | some made =>
    note 1 ("\n✓ Presentation created: ".toList ++ made.deck.toText)
    note 1 ("  - ".toList ++ Text.ofNat made.slideCount ++ " slides (structure: ".toList ++
      made.tokens ++ ")".toList)
    note 1 ("  - Open ".toList ++ made.page.toText ++ " in a browser to view".toList)
    return s

/-- Finalizes the deck. -/
def finalizeDeck (s : State) (c : Context) : RunAction State := do
  let report ← reporting (·.isReported) (Deck.finalize ⟨s.deck, c.settings⟩)
  return { s with report := some report }

/-- Tells the user what the finalization came to. -/
def announceReport (s : State) (c : Context) : RunAction State := do
  match s.report with
  | none => throw (.failure .reportMissing)
  | some report =>
    report.outcomes.forM fun o => do
      let mark := if o.ok then "✓ ".toList else "⚠ ".toList
      note 1 (mark ++ o.step ++ ": ".toList ++ o.messages.getLast?.getD [])
    note 1 (if report.ok then "\n✓ Presentation finalized successfully!".toList
      else "\n⚠ Presentation finalized with warnings".toList)
    let deck : Deck := ⟨s.deck, c.settings⟩
    note 1 "\nNext steps:".toList
    note 1 ("  - Add images/docs to ".toList ++ deck.assets.toText ++ "/".toList)
    note 1 ("  - Open ".toList ++ deck.page.toText ++ " in a browser to view".toList)
    return s

end State

/-- What a stage does to the state. -/
def Stage.run [Record.Nesting] (c : Context) (s : State) : Stage → RunAction State
  | .checkSurroundings => s.checkSurroundings c
  | .readLayout => s.readLayout c
  | .makeDeck => s.makeDeck c
  | .revisePage => s.revisePage c
  | .announceDeck => s.announceDeck
  | .finalize => s.finalizeDeck c
  | .announceReport => s.announceReport c

/-- Goes through stages one after another. -/
def Stage.runAll [Record.Nesting] (c : Context) : List Stage → State → RunAction State
  | [], s => return s
  | stage :: stages, s => do runAll c stages (← stage.run c s)

/-- How a run ends: its exit code and what it printed. -/
structure Exit where
  code : Nat := 0
  output : Text := []
  errors : Text := []
  deriving DecidableEq, Repr

/-- How a run ends that halted, unless nobody has a word for the failure. -/
def Halt.exit : Halt → Except Failure Exit
  | .message text => .ok { code := 1, errors := "Error: ".toList ++ text ++ ['\n'] }
  | .failure cause => .error cause

end SlideDeck.Run
