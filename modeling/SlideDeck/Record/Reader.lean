import SlideDeck.Record.Basic
import SlideDeck.Text.Numeral
import SlideDeck.Text.Position

/-!
# Reading records

A reader takes a value from the start of a text and returns it with the rest. A fault says what was
expected and how much of the text was left there; `Fault.message` turns that into a line, a column
and an offset.

Numbers without a point and an exponent are integers of any size up to the longest numeral; others
become doubles. How deep values may be nested is up to the reader (`Nesting`), and the loops over
items and members are bounded by the text's length, which each round shortens.
-/

namespace SlideDeck.Record

/-- What a text lacks to be a value. -/
inductive Expected where
  | value
  | key
  | colon
  | comma
  | stringEnd
  | plainCharacter
  | escape
  | hexEscape
  | textEnd
  deriving DecidableEq, Repr

/-- The wording of what is lacking. -/
def Expected.message : Expected → Text
  | .value => "Expecting value".toList
  | .key => "Expecting property name enclosed in double quotes".toList
  | .colon => "Expecting ':' delimiter".toList
  | .comma => "Expecting ',' delimiter".toList
  | .stringEnd => "Unterminated string starting at".toList
  | .plainCharacter => "Invalid control character at".toList
  | .escape => "Invalid \\escape".toList
  | .hexEscape => "Invalid \\uXXXX escape".toList
  | .textEnd => "Extra data".toList

/-- Why a text is no value. -/
inductive Fault where
  /-- Something is lacking where so many characters are left. -/
  | lacks (expected : Expected) (left : Nat)
  /-- A numeral has too many digits. -/
  | numeralTooLong (digits : Nat)
  /-- Values are nested too deeply. -/
  | nestedTooDeep
  deriving DecidableEq, Repr

/-- A fault in `s` by what is lacking, with the place in words. -/
def lackMessage (s : Text) (expected : Expected) (left : Nat) : Text :=
  let offset := s.length - left
  let p := Position.start.after (s.take offset)
  expected.message ++ ": line ".toList ++ Text.ofNat p.line ++ " column ".toList
    ++ Text.ofNat (p.column + 1) ++ " (char ".toList ++ Text.ofNat offset ++ ")".toList

/-- A reader: it takes a part of the text and returns the rest. -/
abbrev Reader (α : Type) := Text → Except Fault (α × Text)

/-- The fault of lacking something at the start of `rest`. -/
def lack {α : Type} (expected : Expected) (rest : Text) : Except Fault α :=
  .error (.lacks expected rest.length)

/-- The blanks between the parts of a value. -/
def isSpace (c : Char) : Bool := c == ' ' || c == '\t' || c == '\n' || c == '\r'

/-- A text without the blanks at its start. -/
def skipSpace (s : Text) : Text := s.dropWhile isSpace

/-- The value of a hexadecimal digit. -/
def hexDigit? (c : Char) : Option Nat :=
  if c.isDigit then some (c.toNat - '0'.toNat)
  else if 'a' ≤ c ∧ c ≤ 'f' then some (c.toNat - 'a'.toNat + 10)
  else if 'A' ≤ c ∧ c ≤ 'F' then some (c.toNat - 'A'.toNat + 10)
  else none

/-- The number of four hexadecimal digits. -/
def hex4? (a b c d : Char) : Option Nat := do
  return (((← hexDigit? a) * 16 + (← hexDigit? b)) * 16 + (← hexDigit? c)) * 16 + (← hexDigit? d)

/-- The character that stands for half of a pair. -/
def replacement : Char := Char.ofNat 0xfffd

/-- The character of a code point. -/
def codePoint (n : Nat) : Char := if n.isValidChar then Char.ofNat n else replacement

/-- The characters that a backslash and a letter stand for. -/
def simpleEscape? : Char → Option Char
  | '"' => some '"'
  | '\\' => some '\\'
  | '/' => some '/'
  | 'b' => some (Char.ofNat 0x8)
  | 'f' => some (Char.ofNat 0xc)
  | 'n' => some '\n'
  | 'r' => some '\r'
  | 't' => some '\t'
  | _ => none

/-- The digits of the second half of a pair and the rest behind them, if another escape follows and
the text goes on behind it. -/
def secondHalf? : Text → Option ((Char × Char × Char × Char) × Text)
  | '\\' :: 'u' :: a :: b :: c :: d :: e :: r => some ((a, b, c, d), e :: r)
  | _ => none

/-- The character of an escape of four hexadecimal digits, or of two such escapes that make a pair;
the text starts behind the letter. -/
def readUnicode (s : Text) : Except Fault (Char × Text) :=
  match s with
  | a :: b :: c :: d :: e :: r =>
    match hex4? a b c d with
    | none => .error (.lacks .hexEscape (s.length + 1))
    | some n =>
      if 0xd800 ≤ n ∧ n < 0xdc00 then
        match secondHalf? (e :: r) with
        | none => .ok (replacement, e :: r)
        | some ((a, b, c, d), rest) =>
          match hex4? a b c d with
          | none => .error (.lacks .hexEscape (rest.length + 5))
          | some m =>
            if 0xdc00 ≤ m ∧ m < 0xe000 then
              .ok (codePoint (0x10000 + (n - 0xd800) * 0x400 + (m - 0xdc00)), rest)
            else .ok (replacement, e :: r)
      else .ok (codePoint n, e :: r)
  | _ => .error (.lacks .hexEscape (s.length + 1))

/-- A character inside a string; `opening` is how much was left at the opening quote. -/
def readChar (opening : Nat) (s : Text) : Except Fault (Char × Text) :=
  match s with
  | [] => .error (.lacks .stringEnd opening)
  | ['\\'] => .error (.lacks .stringEnd opening)
  | '\\' :: 'u' :: r => readUnicode r
  | '\\' :: c :: r =>
    match simpleEscape? c with
    | some x => .ok (x, r)
    | none => .error (.lacks .escape s.length)
  | c :: r => if c.toNat < 0x20 then .error (.lacks .plainCharacter s.length) else .ok (c, r)

/-- The characters up to the closing quote. -/
def readChars (opening : Nat) : Nat → Reader Text
  | 0, _ => .error (.lacks .stringEnd opening)
  | fuel + 1, s =>
    match s with
    | '"' :: r => .ok ([], r)
    | s => do
      let (c, r) ← readChar opening s
      let (t, r) ← readChars opening fuel r
      return (c :: t, r)

/-- The rest of a string behind its opening quote. -/
def readString (s : Text) : Except Fault (Text × Text) := readChars (s.length + 1) (s.length + 1) s

/-- A fraction at the start of a text: its digits and the rest, or no digits. -/
def takeFraction : Text → Text × Text
  | '.' :: c :: r =>
    if c.isDigit then (c :: r.takeWhile Char.isDigit, r.dropWhile Char.isDigit)
      else ([], '.' :: c :: r)
  | r => ([], r)

/-- The sign and the digits of an exponent behind its letter. -/
def takeExponentDigits (negative : Bool) (s : Text) : Option (Int × Text) :=
  match s.takeWhile Char.isDigit with
  | [] => none
  | ds =>
    let n : Int := Numeral.value ds
    some (if negative then -n else n, s.dropWhile Char.isDigit)

/-- An exponent at the start of a text, and the rest. -/
def takeExponent? : Text → Option (Int × Text)
  | e :: r =>
    if e = 'e' ∨ e = 'E' then
      match r with
      | '-' :: r => takeExponentDigits true r
      | '+' :: r => takeExponentDigits false r
      | r => takeExponentDigits false r
    else none
  | [] => none

/-- The number whose sign is read and whose whole part is `whole`, with the rest behind the whole
part. -/
def readFraction (negative : Bool) (whole rest : Text) : Except Fault (Value × Text) :=
  let (fraction, rest) := takeFraction rest
  let double (power : Int) : Value :=
    .real (.nearest negative (Numeral.value (whole ++ fraction)) (power - fraction.length))
  match takeExponent? rest with
  | some (power, rest) => .ok (double power, rest)
  | none =>
    if fraction ≠ [] then .ok (double 0, rest)
    else match Numeral.read whole with
      | .ok n => .ok (.integer (if negative then -(n : Int) else n), rest)
      | .error digits => .error (.numeralTooLong digits)

/-- A number without its sign; `start` is the text from the sign on. -/
def readNumber (start : Text) (negative : Bool) : Text → Except Fault (Value × Text)
  | '0' :: r => readFraction negative ['0'] r
  | c :: r =>
    if c.isDigit then readFraction negative (c :: r.takeWhile Char.isDigit)
      (r.dropWhile Char.isDigit)
    else lack .value start
  | [] => lack .value start

/-- A word or a number. -/
def readScalar (s : Text) : Except Fault (Value × Text) :=
  match s with
  | 'n' :: 'u' :: 'l' :: 'l' :: r => .ok (.null, r)
  | 't' :: 'r' :: 'u' :: 'e' :: r => .ok (.bool true, r)
  | 'f' :: 'a' :: 'l' :: 's' :: 'e' :: r => .ok (.bool false, r)
  | 'N' :: 'a' :: 'N' :: r => .ok (.real .nan, r)
  | 'I' :: 'n' :: 'f' :: 'i' :: 'n' :: 'i' :: 't' :: 'y' :: r => .ok (.real (.infinite false), r)
  | '-' :: 'I' :: 'n' :: 'f' :: 'i' :: 'n' :: 'i' :: 't' :: 'y' :: r =>
      .ok (.real (.infinite true), r)
  | '-' :: r => readNumber s true r
  | r => readNumber s false r

/-- The items of an array up to its closing bracket, each read by `item`. -/
def readItems (item : Reader Value) : Nat → Reader (List Value)
  | 0, s => lack .value s
  | fuel + 1, s => do
    let (v, r) ← item s
    match skipSpace r with
    | ']' :: r => return ([v], r)
    | ',' :: r =>
      let (vs, r) ← readItems item fuel (skipSpace r)
      return (v :: vs, r)
    | r => lack .comma r

/-- The members of an object up to its closing brace, each value read by `item`. -/
def readMembers (item : Reader Value) : Nat → Reader (List (Text × Value))
  | 0, s => lack .key s
  | fuel + 1, s =>
    match s with
    | '"' :: r => do
      let (key, r) ← readString r
      match skipSpace r with
      | ':' :: r =>
        let (v, r) ← item (skipSpace r)
        match skipSpace r with
        | '\x7d' :: r => return ([(key, v)], r)
        | ',' :: r =>
          let (ms, r) ← readMembers item fuel (skipSpace r)
          return ((key, v) :: ms, r)
        | r => lack .comma r
      | r => lack .colon r
    | r => lack .key r

/-- A value whose arrays and objects are nested at most `depth` deep. -/
def readValue : Nat → Reader Value
  | depth, s =>
    match s with
    | '"' :: r => do
      let (t, r) ← readString r
      return (.string t, r)
    | '[' :: r =>
      match depth with
      | 0 => .error .nestedTooDeep
      | depth + 1 =>
        match skipSpace r with
        | ']' :: r => return (.array [], r)
        | r => do
          let (vs, r) ← readItems (readValue depth) (r.length + 1) r
          return (.array vs, r)
    | '\x7b' :: r =>
      match depth with
      | 0 => .error .nestedTooDeep
      | depth + 1 =>
        match skipSpace r with
        | '\x7d' :: r => return (.object [], r)
        | r => do
          let (entries, r) ← readMembers (readValue depth) (r.length + 1) r
          return (.object (Members.ofEntries entries), r)
    | s => readScalar s

/-- How deep arrays and objects may be nested for a reader. -/
class Nesting where
  limit : Nat

/-- As deep as a program reads whose stack has room for a thousand calls, less those that it has
made by then. -/
instance : Nesting := ⟨990⟩

/-- The value that a text denotes, with blanks around it. -/
def read [Nesting] (s : Text) : Except Fault Value := do
  let (v, r) ← readValue Nesting.limit (skipSpace s)
  match skipSpace r with
  | [] => return v
  | r => lack .textEnd r

end SlideDeck.Record
