import SlideDeck.Text.Blank

/-!
# Numerals

A plain numeral is a run of ASCII digits. `readInt?` reads the wider form in which an integer may be
typed: blanks around it, a sign, decimal digits of any script, and single underscores between
digits.

A numeral of more than `maxDigits` digits is refused, leading zeros included.
-/

namespace SlideDeck.Numeral

/-- The longest numeral that is read, in digits. -/
def maxDigits : Nat := 4300

/-- Whether a text is a nonempty run of ASCII digits. -/
def isPlain (s : Text) : Bool := !s.isEmpty && s.all Char.isDigit

/-- The number that a list of decimal digits denotes. -/
def ofDigits (digits : List Nat) : Nat := digits.foldl (fun n d => 10 * n + d) 0

/-- The number that a run of ASCII digits denotes. -/
def value (s : Text) : Nat := ofDigits (s.map fun c => c.toNat - '0'.toNat)

/-- The number of a plain numeral, or how many digits it has if they are too many. -/
def read (s : Text) : Except Nat Nat :=
  if s.length ≤ maxDigits then .ok (value s) else .error s.length

/-- The zeros of the scripts beyond ASCII; the digits one to nine follow each. -/
def zeros : List Nat :=
  [0x660, 0x6f0, 0x7c0, 0x966, 0x9e6, 0xa66, 0xae6, 0xb66, 0xbe6, 0xc66, 0xce6, 0xd66, 0xde6,
   0xe50, 0xed0, 0xf20, 0x1040, 0x1090, 0x17e0, 0x1810, 0x1946, 0x19d0, 0x1a80, 0x1a90, 0x1b50,
   0x1bb0, 0x1c40, 0x1c50, 0xa620, 0xa8d0, 0xa900, 0xa9d0, 0xa9f0, 0xaa50, 0xabf0, 0xff10, 0x104a0,
   0x10d30, 0x11066, 0x110f0, 0x11136, 0x111d0, 0x112f0, 0x11450, 0x114d0, 0x11650, 0x116c0,
   0x11730, 0x118e0, 0x11950, 0x11c50, 0x11d50, 0x11da0, 0x16a60, 0x16ac0, 0x16b50, 0x1d7ce,
   0x1d7d8, 0x1d7e2, 0x1d7ec, 0x1d7f6, 0x1e140, 0x1e2f0, 0x1e950, 0x1fbf0]

/-- The value of a decimal digit of any script. -/
def digit? (c : Char) : Option Nat :=
  if c.toNat < 0x80 then if c.isDigit then some (c.toNat - '0'.toNat) else none
  else (zeros.find? fun z => z ≤ c.toNat && c.toNat < z + 10).map (c.toNat - ·)

/-- The digits of a run of digits in which single underscores may stand between two digits. -/
def grouped? : Text → Option (List Nat)
  | [] => none
  | [c] => (digit? c).map ([·])
  | c :: '_' :: r => do return (← digit? c) :: (← grouped? r)
  | c :: r => do return (← digit? c) :: (← grouped? r)

/-- The blanks that may surround a typed integer: all but the four separator controls. -/
def isPadding (c : Char) : Bool := Text.isBlank c && !(0x1c ≤ c.toNat && c.toNat ≤ 0x1f)

/-- A text without the padding around it. -/
def unpad (s : Text) : Text := ((s.dropWhile isPadding).reverse.dropWhile isPadding).reverse

/-- The integer a text denotes, if it is one. -/
def readInt? (s : Text) : Option Int :=
  let digits (r : Text) : Option Nat := do
    let ds ← grouped? r
    if ds.length ≤ maxDigits then some (ofDigits ds) else none
  match unpad s with
  | '-' :: r => (digits r).map fun n => -(n : Int)
  | '+' :: r => (digits r).map fun n => (n : Int)
  | r => (digits r).map fun n => (n : Int)

end SlideDeck.Numeral
