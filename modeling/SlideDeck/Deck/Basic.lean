import SlideDeck.Deck.Slug
import SlideDeck.Tree.Walk

/-!
# Decks

A deck is a directory with a page, a canonical stylesheet and a directory of assets, which are
called as the settings say.
-/

namespace SlideDeck

/-- A deck's directory and the settings that name what is in it. -/
structure Deck where
  path : Path
  settings : Settings
  deriving DecidableEq, Repr

namespace Deck

/-- The path of a deck's page. -/
def page (d : Deck) : Path := d.path.child d.settings.markupEntry

/-- The path of a deck's canonical stylesheet. -/
def stylesheet (d : Deck) : Path := d.path.child d.settings.canonicalStylesheet

/-- The path of a deck's own assets. -/
def assets (d : Deck) : Path := d.path.child d.settings.assetsDirname

/-- Whether the deck and its page are there. -/
def check (d : Deck) (t : Tree) : Except Failure Unit := do
  if !(← t.ask Tree.isDirectory true d.path) then throw (.deckMissing d.path)
  if !(← t.ask Tree.isFile true d.page) then
    throw (.pageMissing d.settings.markupEntry d.path.toText)

end Deck

end SlideDeck
