import SlideDeck.Text.Quoted

/-!
# UTF-8

Texts as bytes. `decode` reads one byte at a time: between two characters nothing is pending, inside
a character `Pending` says how many bytes are still owed and between which bounds the next one must
lie. The first byte that cannot follow ends the reading, and the error covers the bytes of the
unfinished character before it.

Files are read with `readLines`, which writes every line end as a line feed.
-/

namespace SlideDeck.Utf8

/-- Why bytes are no text. -/
inductive Reason where
  | invalidStart
  | invalidContinuation
  | unexpectedEnd
  deriving DecidableEq, Repr

/-- The bytes at fault: where they start, the first of them, and how many they are. -/
structure Error where
  start : Nat
  first : UInt8
  length : Nat
  reason : Reason
  deriving DecidableEq, Repr

/-- The wording of an error. -/
def Error.message (e : Error) : Text :=
  let reason : Text := match e.reason with
    | .invalidStart => "invalid start byte".toList
    | .invalidContinuation => "invalid continuation byte".toList
    | .unexpectedEnd => "unexpected end of data".toList
  let place : Text :=
    if e.length = 1 then
      "byte 0x".toList ++ Text.hex 2 e.first.toNat ++ " in position ".toList ++ Text.ofNat e.start
    else
      "bytes in position ".toList ++ Text.ofNat e.start ++ ['-'] ++
        Text.ofNat (e.start + e.length - 1)
  "'utf-8' codec can't decode ".toList ++ place ++ ": ".toList ++ reason

/-- A character of which some bytes have been read. -/
structure Pending where
  first : UInt8
  taken : Nat
  owed : Nat
  low : Nat
  high : Nat
  value : Nat

/-- What a first byte announces; `none` if no character starts with it. -/
def lead (b : UInt8) : Option Pending :=
  let n := b.toNat
  if n < 0x80 then some ⟨b, 1, 0, 0x80, 0xbf, n⟩
  else if n < 0xc2 then none
  else if n < 0xe0 then some ⟨b, 1, 1, 0x80, 0xbf, n - 0xc0⟩
  else if n < 0xf0 then
    some ⟨b, 1, 2, if n = 0xe0 then 0xa0 else 0x80, if n = 0xed then 0x9f else 0xbf, n - 0xe0⟩
  else if n < 0xf5 then
    some ⟨b, 1, 3, if n = 0xf0 then 0x90 else 0x80, if n = 0xf4 then 0x8f else 0xbf, n - 0xf0⟩
  else none

/-- The text of the bytes from position `pos` on. -/
def decodeFrom : Nat → Option Pending → List UInt8 → Except Error Text
  | _, none, [] => .ok []
  | pos, some p, [] => .error ⟨pos - p.taken, p.first, p.taken, .unexpectedEnd⟩
  | pos, none, b :: r =>
    match lead b with
    | none => .error ⟨pos, b, 1, .invalidStart⟩
    | some p =>
      if p.owed = 0 then (decodeFrom (pos + 1) none r).map (Char.ofNat p.value :: ·)
      else decodeFrom (pos + 1) (some p) r
  | pos, some p, b :: r =>
    if p.low ≤ b.toNat ∧ b.toNat ≤ p.high then
      let value := p.value * 64 + (b.toNat - 0x80)
      if p.owed = 1 then (decodeFrom (pos + 1) none r).map (Char.ofNat value :: ·)
      else decodeFrom (pos + 1) (some ⟨p.first, p.taken + 1, p.owed - 1, 0x80, 0xbf, value⟩) r
    else .error ⟨pos - p.taken, p.first, p.taken, .invalidContinuation⟩

/-- The text of some bytes. -/
def decode (bytes : List UInt8) : Except Error Text := decodeFrom 0 none bytes

/-- The bytes of a text. -/
def encode (s : Text) : List UInt8 := s.flatMap String.utf8EncodeChar

/-- A text with a line feed for every line end, be it a carriage return, a line feed or the two
together. -/
def lineFeeds : Text → Text
  | [] => []
  | '\r' :: '\n' :: r => '\n' :: lineFeeds r
  | c :: r => (if c = '\r' then '\n' else c) :: lineFeeds r

/-- The text of some bytes, its lines ended by line feeds. -/
def readLines (bytes : List UInt8) : Except Error Text := (decode bytes).map lineFeeds

end SlideDeck.Utf8
