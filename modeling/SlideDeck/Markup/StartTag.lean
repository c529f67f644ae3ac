import SlideDeck.Markup.Reference
import SlideDeck.Text.Lowercase

/-!
# Start tags

A start tag is a name and attributes up to an angle bracket, or up to a slash and an angle bracket,
which closes its element at once. An attribute's value stands in quotes or runs to the next blank.
Where a quote is opened and never closed there is no value in quotes: a blank before it then ends an
empty value, a second equals sign starts the value, and otherwise the attribute has none.

A tag may stop short of its end. `TagEnd` tells how: at a bracket, where the text ends or may go on,
or at a character that no tag holds, up to which everything is text.
-/

namespace SlideDeck.Markup

/-- Names with their values, each name once. -/
abbrev Attributes := List (Text × Text)

/-- Attributes with a value for a name; a later value replaces an earlier one. -/
def Attributes.set (name value : Text) : Attributes → Attributes
  | [] => [(name, value)]
  | (n, v) :: r => if n = name then (name, value) :: r else (n, v) :: Attributes.set name value r

/-- Whether a character ends the name of a tag. -/
def endsTagName (c : Char) : Bool :=
  c == '\t' || c == '\n' || c == '\r' || c == Char.ofNat 0xc || c == ' ' || c == '/' || c == '>'
    || c == Char.ofNat 0

/-- What stands between attributes: blanks, and slashes that are not right before the closing
bracket. -/
def skipGap : Text → Text
  | [] => []
  | '/' :: '>' :: r => '/' :: '>' :: r
  | c :: r => if c = '/' ∨ Text.isBlank c then skipGap r else c :: r

/-- Whether an attribute may start behind a character: behind a blank, a slash or a quote. -/
def precedesAttribute (c : Char) : Bool := Text.isBlank c || c == '/' || c == '"' || c == '\''

/-- A text up to a mark and the rest behind it. -/
def upTo (mark : Char) : Text → Option (Text × Text)
  | [] => none
  | c :: r => if c = mark then some ([], r) else (upTo mark r).map fun (before, after) =>
      (c :: before, after)

/-- A value without quotes, and the rest. -/
def bareValue (s : Text) : Text × Text :=
  let inside (c : Char) : Bool := c ≠ '>' && !Text.isBlank c
  (s.takeWhile inside, s.dropWhile inside)

/-- The value behind an equals sign whose quote is not closed: it starts at the blank or the equals
sign before it. -/
def unclosedValue? (r : Text) : Option (Text × Text) :=
  let gap := r.dropWhile (· = '=')
  match (gap.takeWhile Text.isBlank).getLast? with
  | some blank => some ([], blank :: Text.stripLeft gap)
  | none => if r.takeWhile (· = '=') = [] then none
      else some (bareValue ('=' :: Text.stripLeft gap))

/-- The value behind the name of an attribute and the rest, if there is one. -/
def takeValue? (s : Text) : Option (Text × Text) :=
  match Text.stripLeft s with
  | '=' :: r =>
    match Text.stripLeft (r.dropWhile (· = '=')) with
    | '"' :: q => (upTo '"' q).or (unclosedValue? r)
    | '\'' :: q => (upTo '\'' q).or (unclosedValue? r)
    | v => some (bareValue v)
  | _ => none

/-- An attribute as it is written, and the rest with its last character before it. -/
structure Taken where
  name : Text
  value : Text
  rest : Text

/-- The attribute at the start of a text. -/
def takeAttribute? (s : Text) : Option Taken :=
  match s with
  | [] => none
  | c :: r =>
    if Text.isBlank c || c == '/' || c == '>' then none
    else
      let inside (d : Char) : Bool := !(Text.isBlank d || d == '/' || d == '=' || d == '>')
      let name := c :: r.takeWhile inside
      let rest := r.dropWhile inside
      match takeValue? rest with
      | some (value, rest) => some ⟨name, value, skipGap rest⟩
      | none => some ⟨name, [], skipGap rest⟩

/-- The attributes of a tag from a place on, and the rest; `whole` is the tag's text from its
bracket on, in which the character before the place is looked up. -/
def takeAttributes (whole : Text) : Nat → Text → List (Text × Text) × Text
  | 0, s => ([], s)
  | fuel + 1, s =>
    let before := whole[whole.length - s.length - 1]?
    if before.any precedesAttribute then
      match takeAttribute? s with
      | some a =>
        let (more, rest) := takeAttributes whole fuel a.rest
        ((a.name, a.value) :: more, rest)
      | none => ([], s)
    else ([], s)

/-- How a start tag ends. -/
inductive TagEnd where
  /-- At the bracket; the rest behind it. -/
  | opened (rest : Text)
  /-- At a slash and the bracket; the rest behind them. -/
  | closed (rest : Text)
  /-- The text ends, or the tag might go on. -/
  | unfinished
  /-- A character that no tag holds comes first; the rest from it on. -/
  | broken (rest : Text)

/-- The end of a start tag at a place behind its attributes. -/
def TagEnd.at (s : Text) : TagEnd :=
  match s with
  | [] => .unfinished
  | '>' :: r => .opened r
  | '/' :: '>' :: r => .closed r
  | c :: r => if c.isAlpha || c == '=' || c == '/' then .unfinished else .broken (c :: r)

/-- A start tag: its name in lower case, the written attributes, and how it ends. -/
structure StartTag where
  name : Text
  written : List (Text × Text)
  tagEnd : TagEnd

/-- Reads the start tag of a text that starts with a bracket and a letter. -/
def StartTag.read (s : Text) : StartTag :=
  let inside := s.drop 1
  let name := inside.takeWhile (!endsTagName ·)
  let rest := skipGap (inside.dropWhile (!endsTagName ·))
  let (written, rest) := takeAttributes s s.length rest
  ⟨Text.lower name, written, .at rest⟩

/-- The attributes of a start tag: names in lower case, references in values resolved, the last
value of a name. -/
def StartTag.attributes (t : StartTag) : Except Failure Attributes :=
  t.written.foldlM (fun attrs (name, value) => do
    return attrs.set (Text.lower name) (← unescape value)) []

end SlideDeck.Markup
