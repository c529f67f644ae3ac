import SlideDeck.Expression.Match
import SlideDeck.Failure
import SlideDeck.Markup.Node

/-!
# Inner spans

Where an element's content starts and ends in the text is found in the text itself, from the
position of its start tag on. The start tag ends at the first bracket outside of quotes. The content
of a raw element ends at the first end tag of its name. That of another element ends where the tags
of its name are balanced; `Tag.all` lists these tags, and `Tag.balance?` finds the one that closes
the element.

A name is put into an expression as it is, and the tags are what this expression is met by
(`tagPattern`). Most names are plain: each of their characters stands for itself in an expression,
in either case. Their tags are listed by `Tag.all`, without an expression.
-/

namespace SlideDeck.Markup

/-- The rest behind the first bracket outside of quotes, where a quote of the given mark is open. -/
def skipTagRest : Option Char → Text → Option Text
  | _, [] => none
  | some mark, c :: r => skipTagRest (if c = mark then none else some mark) r
  | none, c :: r =>
    if c = '>' then some r
    else skipTagRest (if c = '"' ∨ c = '\'' then some c else none) r

/-- What a tag does. -/
inductive TagRole where
  | opens
  | closes
  /-- Opens and closes at once. -/
  | both
  deriving DecidableEq, Repr

/-- A tag of some name: where it starts, how long it is, and what it does. -/
structure Tag where
  offset : Nat
  length : Nat
  role : TagRole
  deriving DecidableEq, Repr

namespace Tag

/-- The rest behind a name, its letters in either case, a word boundary and the end of the tag. -/
def skipNamed (name s : Text) : Option Text :=
  if Text.startsWithLetters name s &&
    Text.boundary (s.take name.length).getLast? (s.drop name.length).head? then
    skipTagRest none (s.drop name.length)
  else none

/-- The tag of a name at the start of a text: its role and its length. -/
def at? (name s : Text) : Option (TagRole × Nat) :=
  match s with
  | '<' :: r =>
    let ending : Option Text :=
      match r with
      | '/' :: q => skipNamed name q
      | _ => none
    match ending with
    | some rest => some (.closes, s.length - rest.length)
    | none => do
      let rest ← skipNamed name r
      let length := s.length - rest.length
      return (if ['/', '>'] <:+ s.take length then .both else .opens, length)
  | _ => none

/-- The tags of a name in a text from an offset on that do not overlap, the next of them behind
`skip` characters. -/
def allFrom (name : Text) : Nat → Nat → Text → List Tag
  | _, _, [] => []
  | offset, skip + 1, _ :: r => allFrom name (offset + 1) skip r
  | offset, 0, c :: r =>
    match at? name (c :: r) with
    | some (role, length) => ⟨offset, length, role⟩ :: allFrom name (offset + 1) (length - 1) r
    | none => allFrom name (offset + 1) 0 r

/-- The tags of a name in a text. -/
def all (name s : Text) : List Tag := allFrom name 0 0 s

/-- The tag behind which `depth` open elements are closed. -/
def balance? : Nat → List Tag → Option Tag
  | _, [] => none
  | depth, t :: ts =>
    match t.role with
    | .opens => balance? (depth + 1) ts
    | .both => balance? depth ts
    | .closes => if depth ≤ 1 then some t else balance? (depth - 1) ts

end Tag

/-- Whether each character of a name stands for itself in an expression. -/
def isPlainName (name : Text) : Bool := name.all (· ∉ Expression.signs)

/-- The text of the expression for the tags of a name. -/
def tagPattern (name : Text) : Text :=
  "<(/?)".toList ++ name ++ "\\b(?:\"[^\"]*\"|'[^']*'|[^'\">])*>".toList

/-- The tag of what is met in a text from a place on up to another one; its slash is the first
group. -/
def Tag.ofFound (html : Text) (start : Nat) : Nat × Expression.Place → Tag
  | (position, stop) =>
    let length := stop.position - position
    ⟨position - start, length,
      if (stop.group? 1).any (· ≠ []) then .closes
      else if ['/', '>'] <:+ (html.drop position).take length then .both
      else .opens⟩

/-- The tags of a name in the last part of a text. -/
def tagsIn (name html inside : Text) : Except Failure (List Tag) :=
  if isPlainName name then .ok (Tag.all name inside)
  else
    let start := html.length - inside.length
    match Expression.read (tagPattern name) with
    | .ok e => .ok ((e.found html start).map (Tag.ofFound html start))
    | .error fault => .error (.unsearchableName fault)

/-- A stretch of a text: from `start` on, up to `stop`. -/
structure Span where
  start : Nat
  stop : Nat
  deriving DecidableEq, Repr

/-- The text of a span. -/
def Span.slice (s : Span) (html : Text) : Text := (html.take s.stop).drop s.start

/-- Elements whose content is searched for their end tag alone. -/
def isRawSpan (name : Text) : Bool :=
  name = "script".toList || name = "style".toList || name = "title".toList ||
    name = "textarea".toList

/-- The rest behind an end tag of a name with nothing between the slash and the name, at the start
of a text. -/
def skipPlainEndTag (name : Text) (s : Text) : Option Text :=
  match s with
  | '<' :: '/' :: r =>
    if Text.startsWithLetters name r then
      match Text.stripLeft (r.drop name.length) with
      | '>' :: rest => some rest
      | _ => none
    else none
  | _ => none

/-- The span of the content of the element of a name whose start tag starts at an offset. -/
def spanAt (html : Text) (offset : Nat) (name : Text) : Except Failure Span :=
  match skipTagRest none (html.drop (offset + 1 + name.length)) with
  | none => .error (.malformedTag name)
  | some inside =>
    let start := html.length - inside.length
    if isRawSpan name then
      match Text.search (skipPlainEndTag name) inside with
      | some (content, _) => .ok ⟨start, start + content.length⟩
      | none => .error (.unclosedElement name)
    else do
      let tags ← tagsIn name html inside
      match Tag.balance? 1 tags with
      | some t => .ok ⟨start, start + t.offset⟩
      | none => .error (.unclosedElement name)

/-- The span of an element's content in the text it was read from. -/
def Element.span (html : Text) (e : Element) : Except Failure Span :=
  match e.position.offset? html with
  | some offset => spanAt html offset e.name
  | none => .error .noSuchLine

end SlideDeck.Markup
