import SlideDeck.Deck.Basic
import SlideDeck.Deck.Step
import SlideDeck.Markup.Stylesheet
import SlideDeck.Text.Blank

/-!
# Finalization

Before it is handed out, a deck goes through four steps: its directory of assets is made, loose
stylesheets are merged into the canonical one, the links to all other stylesheets are taken out of
the page, and build outputs are removed. A step that fails does not keep the others from running.

A stylesheet is merged as a block that names it. A block that the canonical stylesheet holds already
is not written again, so that a merge whose removals failed can be repeated.
-/

namespace SlideDeck

/-- The steps of a finalization. -/
inductive Step where
  | assets
  | stylesheets
  | links
  | artifacts
  deriving DecidableEq, Repr

/-- The name of a step. -/
def Step.name : Step → Text
  | .assets => "assets".toList
  | .stylesheets => "stylesheets".toList
  | .links => "links".toList
  | .artifacts => "artifacts".toList

/-- The steps in the order in which they are run. -/
def Step.all : List Step := [.assets, .stylesheets, .links, .artifacts]

namespace Deck

open StepAction (onTree ask report reportChange)

/-- Makes the directory of assets. -/
def ensureAssets (d : Deck) : StepAction Unit := do
  if ← ask Tree.isDirectory d.assets then report "Assets folder already exists".toList
  else
    onTree (TreeAction.makeDirectories true d.assets)
    reportChange
    report "Created assets folder".toList

/-- What the name of a stylesheet ends in. -/
def stylesheetSuffix : Text := ".css".toList

/-- The names of the stylesheets in the deck's directory other than the canonical one. What is in
the directory is gone through in the order of the names. -/
def looseStylesheets (d : Deck) (t : Tree) : Except Failure (List Text) := do
  let names := Text.sort (← t.list d.path)
  let files ← names.filterM fun name => t.ask Tree.isFile true (d.path.append ⟨[], [name]⟩)
  return files.filter fun name => stylesheetSuffix.isSuffixOf name &&
    name != d.settings.canonicalName

/-- What separates the merged stylesheets from what was there before. -/
def banner : Text := "\n\n/* === Custom Styles === */\n".toList

/-- How the block of a stylesheet with some content reads. -/
def block (name content : Text) : Text :=
  "\n/* Integrated from ".toList ++ name ++ " */\n".toList ++ content ++ "\n".toList

/-- What is to be written behind the canonical stylesheet: the blocks of the loose ones that it does
not hold. -/
def newBlocks (d : Deck) (canonical : Text) : List Text → StepAction Text
  | [] => return []
  | name :: names => do
    let content ← Action.find (·.tree.readText (d.path.append ⟨[], [name]⟩))
    let block := block name content
    if Text.holds block canonical then
      report (name ++ " already integrated".toList)
      newBlocks d canonical names
    else
      report ("Integrating ".toList ++ name)
      return block ++ (← newBlocks d canonical names)

/-- Merges the loose stylesheets into the canonical one and removes them. -/
def mergeStylesheets (d : Deck) : StepAction Unit := do
  if !(← ask Tree.isFile d.stylesheet) then
    let message := d.settings.canonicalStylesheet ++ " not found, skipping CSS integration".toList
    Action.warn message
    report message
  else
    let loose ← Action.find (d.looseStylesheets ·.tree)
    if loose = [] then report "No custom CSS files found".toList
    else
      let canonical ← Action.find (·.tree.readText d.stylesheet)
      let blocks ← d.newBlocks canonical loose
      if blocks ≠ [] then
        let added := if Text.holds (Text.strip banner) canonical then blocks else banner ++ blocks
        onTree (Action.change (·.append d.stylesheet (Utf8.encode added)))
        report ("Integrated custom CSS into ".toList ++ d.settings.canonicalStylesheet)
      loose.forM fun name => do
        onTree (Action.change (·.unlink (d.path.append ⟨[], [name]⟩)))
        report ("Removed ".toList ++ name)
      reportChange

/-- Takes the links to other stylesheets than the canonical one out of the page. -/
def stripLinks (d : Deck) : StepAction Unit := do
  let html ← Action.find (·.tree.readText d.page)
  let stripped := Markup.Stylesheet.strip d.settings.canonicalStylesheet html
  if stripped = html then report "HTML CSS references already clean".toList
  else
    onTree (Action.change (·.write d.page (Utf8.encode stripped)))
    reportChange
    report "Updated HTML CSS references (removed external CSS links)".toList

/-- Removes one build output, if it is there. -/
def removeArtifact (d : Deck) (artifact : Text) : StepAction Unit := do
  let path := d.path.child artifact
  let isLink := Action.find (·.tree.ask Tree.isLink false path)
  if ← (ask Tree.isDirectory path <&&> not <$> isLink) then
    onTree (Action.change (·.removeAll path))
    report ("Removed directory: ".toList ++ artifact ++ "/".toList)
    reportChange
  else if ← (ask Tree.contains path <||> isLink) then
    onTree (Action.change (·.unlink path))
    report ("Removed file: ".toList ++ artifact)
    reportChange

/-- Removes the build outputs. -/
def removeArtifacts (d : Deck) (artifacts : List Text) : StepAction Unit := do
  artifacts.forM d.removeArtifact
  if !(← Action.look (·.outcome.changed)) then report "No build artifacts found".toList

/-- The work of a step. -/
def work (d : Deck) : Step → StepAction Unit
  | .assets => d.ensureAssets
  | .stylesheets => d.mergeStylesheets
  | .links => d.stripLinks
  | .artifacts => d.removeArtifacts d.settings.ephemeralArtifacts

/-- Runs a step. -/
def runStep (d : Deck) (step : Step) : TreeAction Outcome := StepAction.run step.name (d.work step)

/-- Runs all steps on a deck that is there and has a page. -/
def finalize (d : Deck) : TreeAction Report := do
  Action.find d.check
  Action.note 1 ("Finalizing presentation: ".toList ++ d.path.toText)
  return ⟨← Step.all.mapM d.runStep⟩

end Deck

end SlideDeck
