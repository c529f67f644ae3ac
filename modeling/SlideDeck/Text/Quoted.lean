import SlideDeck.Text.Printable

/-!
# Quoted text

A text between quotation marks in which every character can be seen. The mark is an apostrophe,
unless the text holds apostrophes and no double quotes; the mark and the backslash are escaped, and
so is what cannot be printed.
-/

namespace SlideDeck.Text

/-- The hexadecimal digits of a number, at least `width` of them. -/
def hex (width n : Nat) : Text :=
  let digits := Nat.toDigits 16 n
  List.replicate (width - digits.length) '0' ++ digits

/-- A character as it stands between two marks `mark`. -/
def quoteChar (mark c : Char) : Text :=
  if c = mark ∨ c = '\\' then ['\\', c]
  else if c = '\t' then ['\\', 't']
  else if c = '\n' then ['\\', 'n']
  else if c = '\r' then ['\\', 'r']
  else if isPrintable c then [c]
  else if c.toNat ≤ 0xff then '\\' :: 'x' :: hex 2 c.toNat
  else if c.toNat ≤ 0xffff then '\\' :: 'u' :: hex 4 c.toNat
  else '\\' :: 'U' :: hex 8 c.toNat

/-- The mark that quotes a text. -/
def quoteMark (s : Text) : Char :=
  if '\'' ∈ s ∧ '"' ∉ s then '"' else '\''

/-- A text between quotation marks. -/
def quote (s : Text) : Text :=
  let mark := quoteMark s
  mark :: s.flatMap (quoteChar mark) ++ [mark]

end SlideDeck.Text
