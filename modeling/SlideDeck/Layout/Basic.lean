import SlideDeck.Text.Basic

/-!
# Layouts

A layout is the sequence of a deck's slide groups: single slides, section dividers, and stacks of
several slides below one another. `Layout.slideCount` counts slides, and `Layout.describe` writes a
layout as a structure text, one token per group.
-/

namespace SlideDeck

/-- A group of slides that takes one horizontal position. -/
inductive Group where
  /-- One slide. -/
  | single
  /-- A slide that opens a section. -/
  | divider
  /-- `size` slides below one another. -/
  | stack (size : Nat) (pos : 0 < size)
  deriving DecidableEq, Repr

/-- The groups of a deck from left to right. -/
abbrev Layout := List Group

/-- The number of slides of a group. -/
def Group.slideCount : Group → Nat
  | .single => 1
  | .divider => 1
  | .stack size _ => size

/-- The token of a group in a structure text whose dividers are written `marker`. -/
def Group.token (marker : Text) : Group → Text
  | .single => ['1']
  | .divider => marker
  | .stack size _ => Text.ofNat size

namespace Layout

/-- The number of slides of a layout. -/
def slideCount : Layout → Nat
  | [] => 0
  | g :: gs => g.slideCount + slideCount gs

/-- The marker of dividers where none is configured. -/
def defaultMarker : Text := ['d']

/-- The structure text of a layout. -/
def describe (layout : Layout) (marker : Text) : Text :=
  Text.join [','] (layout.map (Group.token marker))

end Layout

end SlideDeck
