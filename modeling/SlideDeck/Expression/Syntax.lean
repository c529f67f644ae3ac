import SlideDeck.Text.Lowercase
import SlideDeck.Text.Numeral
import SlideDeck.Text.Word

/-!
# Expressions

An expression is a pattern that a text is searched for. It is made of tests for one character, of
anchors, which take no character, and of parts in a row, one part or another, parts that are
repeated, and looks ahead or behind. A group numbers what its part has taken, so that it can be
asked for again.

Whether letters are met in either case, and what counts as a letter, a digit or the end of a line,
is the `Mode` of a test or an anchor.
-/

namespace SlideDeck

namespace Expression

/-- How the characters and the anchors of an expression are meant. -/
structure Mode where
  /-- A letter stands for all of its forms. -/
  anyCase : Bool
  /-- Letters, digits and blanks are those of ASCII. -/
  ascii : Bool
  /-- Every line has a start and an end, not only the text. -/
  lines : Bool
  /-- A dot stands for a line feed too. -/
  dotAll : Bool
  /-- Blanks and remarks between the parts are passed over. -/
  spaced : Bool
  deriving DecidableEq, Repr

/-- The mode in which nothing is set but that letters are met in either case. -/
def Mode.fresh : Mode := ⟨true, false, false, false, false⟩

/-- A kind of characters. -/
inductive CharKind where
  | digit
  | blank
  | word
  deriving DecidableEq, Repr

/-- Whether a character is of a kind. -/
def CharKind.has (ascii : Bool) (c : Char) : CharKind → Bool
  | .digit => if ascii then c.isDigit else (Numeral.digit? c).isSome
  | .blank => if ascii then c == ' ' || (9 ≤ c.toNat && c.toNat ≤ 13) else Text.isBlank c
  | .word => if ascii then c.isAlphanum || c == '_' else Text.isWord c

/-- A member of a class of characters; characters are given by their code points. -/
inductive Member where
  | char (code : Nat)
  | range (first last : Nat)
  | kind (k : CharKind)
  deriving DecidableEq, Repr

/-- A code point of ASCII without regard to case. -/
def asciiLower (code : Nat) : Nat := if 0x41 ≤ code ∧ code ≤ 0x5a then code + 0x20 else code

/-- The code points that a character stands for in a mode. -/
def Mode.forms (m : Mode) (c : Char) : List Nat :=
  if !m.anyCase then [c.toNat]
  else if m.ascii then [c.toNat, c.toLower.toNat, c.toUpper.toNat]
  else Text.letterCodes c

/-- Whether a character is the one of a code point. -/
def Mode.isChar (m : Mode) (code : Nat) (c : Char) : Bool :=
  if !m.anyCase then c.toNat == code
  else if m.ascii then asciiLower c.toNat == asciiLower code
  else code.isValidChar && Text.sameLetter (Char.ofNat code) c

/-- Whether a member stands for a character. -/
def Member.isMet (m : Mode) (c : Char) : Member → Bool
  | .char code => m.isChar code c
  | .range first last => (m.forms c).any fun code => first ≤ code && code ≤ last
  | .kind k => k.has m.ascii c

/-- A place that takes no character. -/
inductive Anchor where
  /-- The end of a word. -/
  | boundary
  /-- The start of the text, or of a line. -/
  | start
  /-- The end of the text or of its last line, or of a line. -/
  | stop
  deriving DecidableEq, Repr

/-- How often a part is repeated, within its bounds. -/
inductive Greed where
  /-- As often as possible. -/
  | most
  /-- As rarely as possible. -/
  | least
  /-- As often as possible, and what has been taken is not given back. -/
  | firm
  deriving DecidableEq, Repr

/-- The fewest and the most characters that a part takes, if there is a most. -/
abbrev Width : Type := Nat × Option Nat

end Expression

open Expression in
/-- An expression. -/
inductive Expression where
  /-- What takes nothing. -/
  | nothing
  /-- A character that is one of the members, or is none of them. -/
  | char (mode : Mode) (negated : Bool) (members : List Member)
  /-- Any character. -/
  | any (mode : Mode)
  | anchor (mode : Mode) (a : Anchor)
  /-- A part behind another. -/
  | seq (first second : Expression)
  /-- A part or, where it fails, another. -/
  | either (first second : Expression)
  /-- A part whose text is kept under a number. -/
  | group (number : Nat) (part : Expression)
  /-- A part that is repeated. -/
  | times (greed : Greed) (least : Nat) (most : Option Nat) (part : Expression)
  /-- A part that stands, or does not stand, ahead or behind. -/
  | look (behind negated : Bool) (part : Expression)
  /-- The text of a group once more; the width is that of the group. -/
  | again (mode : Mode) (number : Nat) (width : Width)
  /-- A part if a group has a text, or another if it has none. -/
  | given (number : Nat) (yes no : Expression)
  deriving DecidableEq, Repr

namespace Expression

/-- Widths one behind another. -/
def Width.add (a b : Width) : Width := (a.1 + b.1, do return (← a.2) + (← b.2))

/-- The width of one of two. -/
def Width.either (a b : Width) : Width := (min a.1 b.1, do return max (← a.2) (← b.2))

/-- The width of a repetition. -/
def Width.times (least : Nat) (most : Option Nat) (w : Width) : Width :=
  (least * w.1, if w.2 = some 0 ∨ most = some 0 then some 0 else do return (← most) * (← w.2))

/-- The width of an expression. -/
def width : Expression → Width
  | nothing | anchor .. | look .. => (0, some 0)
  | char .. | any .. => (1, some 1)
  | seq a b => a.width.add b.width
  | either a b => a.width.either b.width
  | group _ e => e.width
  | times _ least most e => e.width.times least most
  | again _ _ width => width
  | given _ yes no => yes.width.either no.width

end Expression

end SlideDeck
