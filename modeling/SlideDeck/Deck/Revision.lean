import SlideDeck.Deck.Basic
import SlideDeck.Page.Basic
import SlideDeck.Tree.Action

/-!
# Revision

A deck fresh from the template shows the template's slides. Its page is revised to show the slides
of a layout, under a title, and to carry the deck's own configuration.
-/

namespace SlideDeck

/-- What a deck's page is to show. -/
structure Cover where
  title : Text
  slug : Text
  deriving DecidableEq, Repr

namespace Deck

/-- The path of the page `entry` of the deck at a path, which is there; the deck is called `shown`
if it is not. -/
def openPage (path : Path) (shown entry : Text) : TreeAction Path := do
  let page := path.child entry
  if !(← TreeAction.ask Tree.isFile page) then throw (.pageMissing entry shown)
  Action.note 1 "Customizing template HTML...".toList
  return page

/-- Revises a page to show a layout under a cover. -/
def revisePage [Record.Nesting] (s : Settings) (marker : Text) (cover : Cover) (page : Path)
    (layout : Layout) :
    TreeAction Outline := do
  let outline ← (layout.compile : Attempt Failure Outline)
  let html ← Action.find (·.readText page)
  let new ← Page.revise marker ⟨s.deckDirname cover.slug, cover.title, outline⟩ html
  Action.change (·.write page (Utf8.encode new))
  return outline

end Deck

end SlideDeck
