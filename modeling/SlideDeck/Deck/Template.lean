import SlideDeck.Deck.Slug
import SlideDeck.Tree.Unpack

/-!
# Templates

A deck is made from a template: an archive, of which some entries are kept. `Template.makeDeck`
unpacks the archive into a scratch directory beside the new deck, checks that all entries to be kept
are there, and only then makes the deck's directory and moves them into it. The scratch directory is
removed at the end, whether that fails or not.

The name of a scratch directory ends in a random text (`Template.Suffix`). Some are tried one after
another until one is met that is not taken.
-/

namespace SlideDeck

/-- An archive and the entries that are kept of it. -/
structure Template where
  archive : Path
  entries : List Text
  deriving DecidableEq, Repr

namespace Template

open SlideDeck.Action (look find change note warn)
open TreeAction (ask)

/-- The template that is meant: what is not given is as the settings say, and so is an empty list of
entries. -/
def choose (s : Settings) (archive : Option Path) (entries : List Text) : Template :=
  ⟨archive.getD s.templateArchive, if entries = [] then [s.markupEntry, s.assetLibrary]
    else entries⟩

/-- What is in the archive, if it is there and is taken for an archive. -/
def contents (t : Template) (tree : Tree) : Except Failure Archive := do
  if !(← tree.ask Tree.isFile true t.archive) then throw (.archiveMissing t.archive)
  match (tree.file? t.archive).bind (·.archive) with
  | none => throw (.archiveUnreadable t.archive)
  | some archive => return archive

/-- The characters that end the names of scratch directories. -/
def suffixLetters : Text := "abcdefghijklmnopqrstuvwxyz0123456789_".toList

/-- A random text of eight such characters, each given by its number. -/
abbrev Suffix : Type := Fin 8 → Fin 37

/-- The text of a suffix. -/
def Suffix.text (s : Suffix) : Text := List.ofFn fun i => suffixLetters.getD (s i) '_'

/-- What the name of a scratch directory starts with. -/
def scratchPrefix : Text := ".extract-".toList

/-- The name of the scratch directory with a suffix. -/
def scratchName (s : Suffix) : Text := scratchPrefix ++ s.text

/-- The path of the scratch directory with a suffix. -/
def scratchPath (out : Path) (s : Suffix) : Path := out.append ⟨[], [scratchName s]⟩

/-- Makes a scratch directory with the first suffix that is not taken. -/
def makeScratch (out : Path) : List Suffix → TreeAction Path
  | [] => throw .scratchNamesTaken
  | s :: rest =>
    Action.rescue (do change (·.makeDirectory (scratchPath out s)); return scratchPath out s)
      fun e => do
      match e with
      | .refused .exists _ => makeScratch out rest
      | e => throw e

/-- Runs an action with a scratch directory, which is removed afterwards; that it cannot be removed
is only a warning. -/
def withScratch (out : Path) (suffixes : List Suffix) (body : Path → TreeAction Unit) :
    TreeAction Unit := do
  let scratch ← makeScratch out suffixes
  note 3 ("Scratch directory: ".toList ++ scratch.toText)
  (body scratch).ensuring do
    Action.rescue (change (·.removeAll scratch)) fun e => do
      if e.isSystem then
        warn ("Could not remove scratch directory ".toList ++ scratch.toText ++ ": ".toList ++
          e.message)
      else throw e

/-- Makes the deck's directory of the entries in the scratch directory. -/
def install (t : Template) (deck scratch : Path) : TreeAction Unit := do
  let missing ← t.entries.filterM fun e => return !(← ask Tree.contains (scratch.child e))
  if missing ≠ [] then throw (.archiveIncomplete t.archive missing)
  let names ← find (·.list scratch)
  let extra := Text.sort (names.filter fun name => !t.entries.contains name)
  if extra ≠ [] then
    note 2 ("Discarding extra template entries: ".toList ++ Text.join ", ".toList extra)
  Action.rescue (change (·.makeDirectory deck)) fun e => do
    match e with
    | .refused .exists _ => throw (.deckExists deck)
    | e => throw e
  t.entries.forM fun e => do
    TreeAction.move (scratch.child e) (deck.child e)
    note 3 ("Moved ".toList ++ e ++ " into ".toList ++ deck.name)

/-- Makes a deck in the directory `out`, which is made if it is missing; the suffixes are those that
are tried for the scratch directory. -/
def makeDeck (t : Template) (s : Settings) (suffixes : List Suffix) (slug : Text) (out : Path) :
    TreeAction Path := do
  let archive ← find t.contents
  let deck := s.deckPath slug out
  if ← ask Tree.contains deck then throw (.deckExists deck)
  TreeAction.makeDirectories true out
  note 1 ("Extracting template to ".toList ++ deck.name ++ "...".toList)
  withScratch out suffixes fun scratch => do
    TreeAction.unpack archive scratch
    t.install deck scratch
  return deck

end Template

end SlideDeck
