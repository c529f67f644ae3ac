import SlideDeck.Record.Basic
import SlideDeck.Text.Quoted

/-!
# Writing records

A value as text, every member and item on a line of its own, indented by two blanks per level; an
empty object or array stays on one line. A string escapes quotes, backslashes and control
characters; `asciiString` escapes everything beyond ASCII as well, in units of sixteen bits.
-/

namespace SlideDeck.Record

/-- An escape of four hexadecimal digits. -/
def unicodeEscape (n : Nat) : Text := '\\' :: 'u' :: Text.hex 4 n

/-- A character inside a string. -/
def escapeChar (c : Char) : Text :=
  if c = '"' then ['\\', '"']
  else if c = '\\' then ['\\', '\\']
  else if c = '\n' then ['\\', 'n']
  else if c = '\r' then ['\\', 'r']
  else if c = '\t' then ['\\', 't']
  else if c.toNat = 0x8 then ['\\', 'b']
  else if c.toNat = 0xc then ['\\', 'f']
  else if c.toNat < 0x20 then unicodeEscape c.toNat
  else [c]

/-- A string in quotes. -/
def string (s : Text) : Text := '"' :: s.flatMap escapeChar ++ ['"']

/-- A character inside a string of ASCII characters. -/
def escapeCharAscii (c : Char) : Text :=
  if c.toNat < 0x7f then escapeChar c
  else if c.toNat = 0x7f then [c]
  else if c.toNat < 0x10000 then unicodeEscape c.toNat
  else
    let n := c.toNat - 0x10000
    unicodeEscape (0xd800 + n / 0x400) ++ unicodeEscape (0xdc00 + n % 0x400)

/-- A string in quotes, written in ASCII. -/
def asciiString (s : Text) : Text := '"' :: s.flatMap escapeCharAscii ++ ['"']

/-- The start of a line at a level of nesting. -/
def line (level : Nat) : Text := '\n' :: List.replicate (2 * level) ' '

mutual

/-- A value at a level of nesting. -/
def renderAt (level : Nat) : Value → Text
  | .null => "null".toList
  | .bool true => "true".toList
  | .bool false => "false".toList
  | .integer n => Text.ofInt n
  | .real x => x.render
  | .string s => string s
  | .array [] => ['[', ']']
  | .array (v :: vs) =>
    '[' :: line (level + 1) ++ renderAt (level + 1) v ++ renderItems (level + 1) vs
      ++ line level ++ [']']
  | .object [] => ['\x7b', '\x7d']
  | .object ((k, v) :: ms) =>
    '\x7b' :: line (level + 1) ++ string k ++ [':', ' '] ++ renderAt (level + 1) v
      ++ renderMembers (level + 1) ms ++ line level ++ ['\x7d']

/-- The items behind the first of an array. -/
def renderItems (level : Nat) : List Value → Text
  | [] => []
  | v :: vs => ',' :: line level ++ renderAt level v ++ renderItems level vs

/-- The members behind the first of an object. -/
def renderMembers (level : Nat) : List (Text × Value) → Text
  | [] => []
  | (k, v) :: ms =>
    ',' :: line level ++ string k ++ [':', ' '] ++ renderAt level v ++ renderMembers level ms

end

section

variable (level : Nat) (k : Text) (v : Value) (vs : List Value) (ms : List (Text × Value))

theorem renderAt_array : renderAt level (.array (v :: vs)) =
    '[' :: line (level + 1) ++ renderAt (level + 1) v ++ renderItems (level + 1) vs ++ line level ++
      [']'] := rfl

theorem renderAt_object : renderAt level (.object ((k, v) :: ms)) =
    '\x7b' :: line (level + 1) ++ string k ++ [':', ' '] ++ renderAt (level + 1) v ++
      renderMembers (level + 1) ms ++
      line level ++ ['\x7d'] := rfl

@[simp] theorem renderItems_nil : renderItems level [] = [] := rfl

theorem renderItems_cons : renderItems level (v :: vs) =
    ',' :: line level ++ renderAt level v ++ renderItems level vs := rfl

@[simp] theorem renderMembers_nil : renderMembers level [] = [] := rfl

theorem renderMembers_cons : renderMembers level ((k, v) :: ms) =
    ',' :: line level ++ string k ++ [':', ' '] ++ renderAt level v ++ renderMembers level ms := rfl

end

/-- The text of a value. -/
def render (v : Value) : Text := renderAt 0 v

end SlideDeck.Record
