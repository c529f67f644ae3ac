import SlideDeck.Text.Basic

/-!
# Ranges of characters

A class of characters is given by the ranges of its code points, both ends included.
-/

namespace SlideDeck.Text

/-- Whether a code point lies in one of the ranges. -/
def inRanges (ranges : List (Nat × Nat)) (n : Nat) : Bool :=
  ranges.any fun (first, last) => first ≤ n && n ≤ last

end SlideDeck.Text
