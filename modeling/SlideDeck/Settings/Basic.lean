import SlideDeck.Tree.Path

/-!
# Settings

The names and defaults that a deck is built from. The only derived values are the name of a deck's
directory and the name under which the canonical stylesheet is known.
-/

namespace SlideDeck

/-- The settings of all operations. -/
structure Settings where
  /-- The archive of the template from which decks are made. -/
  templateArchive : Path
  /-- What a deck's directory name starts with, before the slug. -/
  deckPrefix : Text
  /-- The name of a deck's page. -/
  markupEntry : Text
  /-- The name of the directory of assets that comes with the template. -/
  assetLibrary : Text
  /-- The stylesheet, seen from the deck, into which others are merged. -/
  canonicalStylesheet : Text
  /-- The name of the directory for a deck's own assets. -/
  assetsDirname : Text
  /-- The build outputs that finalization removes. -/
  ephemeralArtifacts : List Text
  /-- The variable that holds a page's embedded record. -/
  configMarker : Text
  /-- The token of dividers in structure texts. -/
  dividerToken : Text
  /-- The number of slides where no layout is asked for. -/
  defaultSlideCount : Int
  /-- The number of random bytes of a slug. -/
  slugBytes : Int
  deriving DecidableEq, Repr

namespace Settings

/-- The settings that hold where nothing is configured; the archive depends on where the program
lives. -/
def defaults (templateArchive : Path) : Settings where
  templateArchive := templateArchive
  deckPrefix := "deck-".toList
  markupEntry := "index.html".toList
  assetLibrary := "lib".toList
  canonicalStylesheet := "lib/offline-v2.css".toList
  assetsDirname := "assets".toList
  ephemeralArtifacts := ["screenshots".toList, "output.pdf".toList]
  configMarker := "SLConfig".toList
  dividerToken := ['d']
  defaultSlideCount := 5
  slugBytes := 3

/-- The name of the directory of the deck with a slug. -/
def deckDirname (s : Settings) (slug : Text) : Text := s.deckPrefix ++ slug

/-- The name of the canonical stylesheet without its directory. -/
def canonicalName (s : Settings) : Text := (Path.ofText s.canonicalStylesheet).name

/-- The variable to look for: the given one, if there is one with a name, else the configured
one. -/
def markerOr (s : Settings) (given : Option Text) : Text :=
  match given with
  | none | some [] => s.configMarker
  | some marker => marker

end Settings

end SlideDeck
