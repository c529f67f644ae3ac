import SlideDeck.Text.Basic

/-!
# Positions in a text

A position is a line, counted from one, and a column, counted from zero; a line ends after its line
feed. `Position.after` counts lines and columns over a text, and `offset?` goes back from a line and
a column to the offset.
-/

namespace SlideDeck

/-- A line, from one, and a column, from zero. -/
structure Position where
  line : Nat
  column : Nat
  deriving DecidableEq, Repr

namespace Position

/-- The position at which a text starts. -/
def start : Position := ⟨1, 0⟩

/-- The position behind a character. -/
def step (p : Position) (c : Char) : Position :=
  if c = '\n' then ⟨p.line + 1, 0⟩ else ⟨p.line, p.column + 1⟩

/-- The position behind a text that starts at `p`. -/
def after (p : Position) (s : Text) : Position := s.foldl step p

/-- The offset behind the `n`-th line feed of a text, if it has so many. -/
def lineStart? : Nat → Text → Option Nat
  | 0, _ => some 0
  | _ + 1, [] => none
  | n + 1, c :: r => (lineStart? (if c = '\n' then n else n + 1) r).map (· + 1)

/-- The offset of a line and a column; every line below the first counts as the first. -/
def locate? (html : Text) (line column : Int) : Option Int :=
  (lineStart? (line - 1).toNat html).map fun start => (start : Int) + column

/-- The offset of a position. -/
def offset? (html : Text) (p : Position) : Option Nat :=
  (lineStart? (p.line - 1) html).map (· + p.column)

end Position

end SlideDeck
