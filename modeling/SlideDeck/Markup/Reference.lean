import SlideDeck.Failure
import SlideDeck.Markup.Names
import SlideDeck.Text.Numeral

/-!
# Character references

Markup writes a character as an ampersand and a number or a name. Inside text a reference needs a
character behind it; inside an attribute's value a reference may end the value, and a name without
its semicolon is read as far as it is known.

Numbers from 128 to 159 are read as the bytes of the Western Windows character set.
-/

namespace SlideDeck.Markup

/-- The characters of the bytes from 128 to 159, where they are not the control of that number. -/
def westernBytes : List (Nat × Nat) :=
  [(0x80, 0x20ac), (0x82, 0x201a), (0x83, 0x192), (0x84, 0x201e), (0x85, 0x2026), (0x86, 0x2020),
   (0x87, 0x2021), (0x88, 0x2c6), (0x89, 0x2030), (0x8a, 0x160), (0x8b, 0x2039), (0x8c, 0x152),
   (0x8e, 0x17d), (0x91, 0x2018), (0x92, 0x2019), (0x93, 0x201c), (0x94, 0x201d), (0x95, 0x2022),
   (0x96, 0x2013), (0x97, 0x2014), (0x98, 0x2dc), (0x99, 0x2122), (0x9a, 0x161), (0x9b, 0x203a),
   (0x9c, 0x153), (0x9e, 0x17e), (0x9f, 0x178)]

/-- The character that stands for what is no character. -/
def replacement : Char := Char.ofNat 0xfffd

/-- The character of a number. -/
def numbered (n : Nat) : Char :=
  match westernBytes.lookup n with
  | some m => Char.ofNat m
  | none => if n.isValidChar then Char.ofNat n else replacement

/-- The numbers that stand for nothing in a value: controls and code points set aside. -/
def isSetAside (n : Nat) : Bool :=
  (1 ≤ n && n ≤ 8) || n == 0xb || (0xe ≤ n && n ≤ 0x1f) || n == 0x7f || (0xfdd0 ≤ n && n ≤ 0xfdef)
    || (n ≤ 0x10ffff && 0xfffe ≤ n % 0x10000)

/-- The characters of a number in a value. -/
def numberedInValue (n : Nat) : Text :=
  if n = 0 then [replacement] else if isSetAside n then [] else [numbered n]

/-- Whether a character is a hexadecimal digit. -/
def isHexDigit (c : Char) : Bool :=
  c.isDigit || ('a' ≤ c && c ≤ 'f') || ('A' ≤ c && c ≤ 'F')

/-- The number of a run of digits; a decimal one is bounded in length. -/
def readNumber (hex : Bool) (digits : Text) : Except Failure Nat :=
  if hex then .ok (hexValue (digits.map Char.toLower))
  else match Numeral.read digits with
    | .ok n => .ok n
    | .error length => .error (.numeralTooLong length)

/-- The digits at the start of a text: whether they are hexadecimal, the digits, and the rest. -/
def digitsOf? (hex : Bool) (s : Text) : Option (Bool × Text × Text) :=
  let isOne := if hex then isHexDigit else Char.isDigit
  match s.takeWhile isOne with
  | [] => none
  | digits => some (hex, digits, s.dropWhile isOne)

/-- The digits behind a number sign: whether they are hexadecimal, the digits, and the rest. -/
def takeDigits? : Text → Option (Bool × Text × Text)
  | 'x' :: r => digitsOf? true r
  | 'X' :: r => digitsOf? true r
  | r => digitsOf? false r

/-- A text without a semicolon at its start. -/
def skipSemicolon : Text → Text
  | ';' :: r => r
  | r => r

/-- The numeric reference behind an ampersand and a number sign in text: its digits, if a character
that is no hexadecimal digit follows, and the rest. -/
def textNumber? (s : Text) : Option (Bool × Text × Text) :=
  match takeDigits? s with
  | some (hex, digits, c :: r) =>
      if isHexDigit c then none else some (hex, digits, skipSemicolon (c :: r))
  | _ => none

/-- Whether a character may follow the first letter of a name in text. -/
def isNameChar (c : Char) : Bool := c.isAlphanum || c == '-' || c == '.'

/-- The name behind an ampersand in text, if a character that is neither letter nor digit follows,
and the rest. -/
def textName? (s : Text) : Option (Text × Text) :=
  match s with
  | [] => none
  | c :: _ =>
    if c.isAlpha then
      let name := s.takeWhile isNameChar
      match s.dropWhile isNameChar with
      | [] =>
        let tail := name.reverse.takeWhile Char.isAlphanum
        match name.reverse.dropWhile Char.isAlphanum with
        | [] => none
        | mark :: start => some (start.reverse, mark :: tail.reverse)
      | r => some (name, skipSemicolon r)
    else none

/-- The characters of a name in text; an unknown name stands for itself. -/
def textNamed (name : Text) : Text := (named? name).getD ('&' :: name)

/-- Whether a character may stand in a name inside a value. -/
def isValueNameChar (c : Char) : Bool :=
  !(c == '\t' || c == '\n' || c == Char.ofNat 0xc || c == ' ' || c == '<' || c == '&' || c == '#' ||
    c == ';')

/-- The longest name known without a semicolon that starts a name, of at least two characters, at
most `n` characters long: its characters and what is left of the name. -/
def bareStart? (name : Text) : Nat → Option Text
  | 0 | 1 => none
  | n + 1 =>
    let start := name.take (n + 1)
    if bareNames.contains start then (named? start).map (· ++ name.drop (n + 1))
    else bareStart? name n

/-- The characters of a name in a value, closed by a semicolon or not. -/
def valueNamed (name : Text) (closed : Bool) : Text :=
  let whole := if closed || bareNames.contains name then named? name else none
  match whole with
  | some t => t
  | none =>
    let written := if closed then name ++ [';'] else name
    (bareStart? written (written.length - 1)).getD ('&' :: written)

/-- The reference behind an ampersand in a value and the rest; nothing if there is none. -/
def valueReference? (s : Text) : Except Failure (Option (Text × Text)) :=
  match s with
  | '#' :: r =>
    match takeDigits? r with
    | none => .ok none
    | some (hex, digits, rest) => do
      return some (numberedInValue (← readNumber hex digits), skipSemicolon rest)
  | _ =>
    match (s.take 32).takeWhile isValueNameChar with
    | [] => .ok none
    | name =>
      match s.drop name.length with
      | ';' :: rest => .ok (some (valueNamed name true, rest))
      | rest => .ok (some (valueNamed name false, rest))

/-- A value with its references resolved, read for at most `n` steps. -/
def unescapeFor : Nat → Text → Except Failure Text
  | 0, s => .ok s
  | _, [] => .ok []
  | n + 1, c :: r =>
    if c = '&' then do
      match ← valueReference? r with
      | some (chars, rest) => return chars ++ (← unescapeFor n rest)
      | none => return c :: (← unescapeFor n r)
    else do return c :: (← unescapeFor n r)

/-- A value with its references resolved. -/
def unescape (s : Text) : Except Failure Text := unescapeFor s.length s

/-- A text that markup reads back as it is: ampersands and angle brackets become references. -/
def escape (s : Text) : Text :=
  s.flatMap fun
    | '&' => "&amp;".toList
    | '<' => "&lt;".toList
    | '>' => "&gt;".toList
    | c => [c]

end SlideDeck.Markup
