import SlideDeck.Markup.Span

/-!
# Edits

An edit replaces a stretch of a text. Several edits are applied from the last one to the first, each
at its offsets in the text as it was; edits at one start are ordered by where they stop, and then by
their texts.
-/

namespace SlideDeck.Markup

/-- A replacement for a stretch of a text. -/
structure Edit where
  span : Span
  text : Text
  deriving DecidableEq, Repr

namespace Edit

/-- A text with an edit made. -/
def apply (html : Text) (e : Edit) : Text :=
  html.take e.span.start ++ e.text ++ html.drop e.span.stop

/-- Whether an edit comes before another, or is the same: by start, by stop, by text, the greater
first. -/
def precedes (a b : Edit) : Bool :=
  if a.span.start ≠ b.span.start then b.span.start < a.span.start
  else if a.span.stop ≠ b.span.stop then b.span.stop < a.span.stop
  else Text.upTo b.text a.text

/-- A text with all edits made. -/
def applyAll (html : Text) (edits : List Edit) : Text :=
  (edits.mergeSort precedes).foldl apply html

end Edit

end SlideDeck.Markup
