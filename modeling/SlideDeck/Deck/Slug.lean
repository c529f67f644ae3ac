import SlideDeck.Failure
import SlideDeck.Settings.Basic

/-!
# Slugs

A deck is known by its slug, which ends the name of its directory. Where none is given, one is made
of random bytes.
-/

namespace SlideDeck.Slug

/-- The hexadecimal text of some bytes, two digits each. -/
def ofBytes (bytes : List UInt8) : Text := bytes.flatMap fun b => Text.hex 2 b.toNat

/-- A slug of `count` bytes from a source of random bytes. -/
def generate (random : Nat → List UInt8) (count : Int) : Except Failure Text :=
  if count < 0 then .error .negativeCount else .ok (ofBytes (random count.toNat))

end SlideDeck.Slug

namespace SlideDeck.Settings

/-- The directory, in the directory `out`, of the deck with a slug. -/
def deckPath (s : Settings) (slug : Text) (out : Path) : Path := out.child (s.deckDirname slug)

end SlideDeck.Settings
