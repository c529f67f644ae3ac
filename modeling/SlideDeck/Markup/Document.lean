import SlideDeck.Markup.Event
import SlideDeck.Markup.Node

/-!
# Documents

The tree of a text's events. An end tag closes all elements up to the innermost open one of its
name; without one it only ends the piece of text before it. Void elements close at once, and a later
end tag of their name is passed over for each of them. Elements that are open at the end are closed
there.

A text of nothing but ASCII blanks becomes one line feed, if it holds one, and one space otherwise,
except inside elements that keep blanks.
-/

namespace SlideDeck.Markup

/-- Elements that have no content. -/
def voidElements : List Text :=
  ["area", "base", "basefont", "bgsound", "br", "col", "command", "embed", "frame", "hr", "image",
    "img",
   "input", "isindex", "keygen", "link", "menuitem", "meta", "nextid", "param", "source", "spacer",
   "track",
   "wbr"].map String.toList

/-- Elements in which blanks are kept. -/
def blankKeepers : List Text := ["pre".toList, "textarea".toList]

/-- An element that is open: its content so far, in reverse. -/
structure Open where
  name : Text
  attributes : Attributes
  position : Position
  content : List Node

/-- A document under construction. -/
structure Builder where
  /-- The open elements, the innermost first. -/
  opened : List Open
  /-- The nodes outside of all open elements, in reverse. -/
  top : List Node
  /-- The text read since the last node. -/
  pending : Option Text
  /-- The void elements whose end tags may still come. -/
  passed : List Text

namespace Builder

/-- Nothing read. -/
def empty : Builder := ⟨[], [], none, []⟩

/-- Adds a node to the innermost open element. -/
def add (b : Builder) (n : Node) : Builder :=
  match b.opened with
  | [] => { b with top := n :: b.top }
  | o :: os => { b with opened := { o with content := n :: o.content } :: os }

/-- The blanks that a text of blanks is made of. -/
def isAsciiBlank (c : Char) : Bool :=
  c == ' ' || c == '\n' || c == '\t' || c == Char.ofNat 0xc || c == '\r'

/-- A text as it is kept. -/
def settle (b : Builder) (t : Text) : Text :=
  if b.opened.any (fun o => blankKeepers.contains o.name) then t
  else if t.all isAsciiBlank then (if '\n' ∈ t then ['\n'] else [' '])
  else t

/-- Makes a node of the text read since the last one. -/
def flush (b : Builder) : Builder :=
  match b.pending with
  | none => b
  | some t => { b with pending := none }.add (.text (b.settle t))

/-- Closes the innermost open element. -/
def closeOne (b : Builder) : Builder :=
  match b.opened with
  | [] => b
  | o :: os =>
    { b with opened := os }.add (.element o.name o.attributes o.position o.content.reverse)

/-- Closes the `n` innermost open elements. -/
def closeMany (b : Builder) : Nat → Builder
  | 0 => b
  | n + 1 => b.closeOne.closeMany n

/-- Closes all elements up to the innermost open one of a name, if there is one. -/
def close (b : Builder) (name : Text) : Builder :=
  let b := b.flush
  match b.opened.findIdx? (·.name = name) with
  | none => b
  | some n => b.closeMany (n + 1)

/-- Closes an element for an end tag, unless the tag belongs to a void element. -/
def endTag (b : Builder) (name : Text) : Builder :=
  if b.passed.contains name then { b with passed := b.passed.erase name } else b.close name

/-- Opens an element. -/
def start (b : Builder) (name : Text) (attributes : Attributes) (position : Position) : Builder :=
  let b := b.flush
  { b with opened := ⟨name, attributes, position, []⟩ :: b.opened }

/-- Takes an event in. -/
def take (b : Builder) (l : Located) : Builder :=
  match l.event with
  | .text t => { b with pending := some (b.pending.getD [] ++ t) }
  | .remark t => { b.flush with pending := some t }.flush
  | .endTag name => b.endTag name
  | .startTag name attributes true => (b.start name attributes l.position).endTag name
  | .startTag name attributes false =>
    let b := b.start name attributes l.position
    if voidElements.contains name then
      let b := b.close name
      { b with passed := name :: b.passed }
    else b

/-- The document of all that has been read. -/
def finish (b : Builder) : List Node :=
  let b := b.flush
  (b.closeMany b.opened.length).top.reverse

end Builder

/-- The document of a text. -/
def parse (html : Text) : Except Failure (List Node) := do
  return ((← events html).foldl Builder.take .empty).finish

end SlideDeck.Markup
