import SlideDeck.Text.Range

/-!
# Blanks

The white space of all scripts, and a text without the blanks around it.
`stripRight_append_trailing` says that a text is what `stripRight` leaves followed by the blanks it
takes away.
-/

namespace SlideDeck.Text

/-- White space: the ASCII controls from tab to carriage return and from file to unit separator, the
space, the next-line control, and the spaces and line separators beyond. -/
def blankRanges : List (Nat × Nat) :=
  [(0x9, 0xd), (0x1c, 0x20), (0x85, 0x85), (0xa0, 0xa0), (0x1680, 0x1680), (0x2000, 0x200a),
   (0x2028, 0x2029), (0x202f, 0x202f), (0x205f, 0x205f), (0x3000, 0x3000)]

/-- Whether a character is white space. -/
def isBlank (c : Char) : Bool := inRanges blankRanges c.toNat

/-- A text without the blanks at its start. -/
def stripLeft (s : Text) : Text := s.dropWhile isBlank

/-- A text without the blanks at its end. -/
def stripRight (s : Text) : Text := (s.reverse.dropWhile isBlank).reverse

/-- A text without the blanks around it. -/
def strip (s : Text) : Text := stripRight (stripLeft s)

/-- The blanks at the end of a text. -/
def trailing (s : Text) : Text := (s.reverse.takeWhile isBlank).reverse

theorem stripRight_append_trailing (s : Text) : stripRight s ++ trailing s = s := by
  rw [stripRight, trailing, ← List.reverse_append, List.takeWhile_append_dropWhile,
    List.reverse_reverse]

/-- The words of a text: its longest stretches without blanks. -/
def words (s : Text) : List Text := (splitWhere isBlank s).filter (· ≠ [])

end SlideDeck.Text
