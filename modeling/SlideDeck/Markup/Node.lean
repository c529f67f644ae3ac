import SlideDeck.Markup.StartTag
import SlideDeck.Text.Position

/-!
# Nodes

A document is a list of nodes: texts and elements, each element with the position of its start tag
and its content. `elementsOf` lists the elements in document order, with `ancestorsOf` each with the
elements around it.

`Node.same` compares content: names, attributes and content of elements, wherever they stand.
-/

namespace SlideDeck.Markup

/-- A node of a document. -/
inductive Node where
  | text (t : Text)
  | element (name : Text) (attributes : Attributes) (position : Position) (content : List Node)
  deriving Repr

/-- An element of a document. -/
structure Element where
  name : Text
  attributes : Attributes
  position : Position
  content : List Node
  deriving Repr

/-- An element as a node. -/
def Element.toNode (e : Element) : Node := .element e.name e.attributes e.position e.content

mutual

/-- The elements of a node in document order, each with the elements around it from the innermost
on, which `around` continues. -/
def Node.walk (around : List Element) : Node → List (Element × List Element)
  | .text _ => []
  | .element name attributes position content =>
    let e : Element := ⟨name, attributes, position, content⟩
    (e, around) :: walkAll (e :: around) content

/-- The elements of some nodes in document order, each with the elements around it. -/
def walkAll (around : List Element) : List Node → List (Element × List Element)
  | [] => []
  | n :: ns => n.walk around ++ walkAll around ns

end

/-- The elements of a document in document order, each with the elements around it from the
innermost on. -/
def ancestorsOf (document : List Node) : List (Element × List Element) := walkAll [] document

/-- The elements of a document in document order. -/
def elementsOf (document : List Node) : List Element := (ancestorsOf document).map (·.1)

/-- The attributes that hold a list of words, with the elements to which that applies; no elements
stand for all. -/
def wordAttributes : List (Text × List Text) :=
  [("class".toList, []), ("accesskey".toList, []), ("dropzone".toList, []),
   ("rel".toList, ["a".toList, "link".toList, "area".toList]),
   ("rev".toList, ["a".toList, "link".toList]),
   ("headers".toList, ["td".toList, "th".toList]), ("accept-charset".toList, ["form".toList]),
   ("archive".toList, ["object".toList]), ("sizes".toList, ["icon".toList]),
   ("sandbox".toList, ["iframe".toList]), ("for".toList, ["output".toList])]

/-- Whether an attribute of an element holds a list of words. -/
def holdsWords (element key : Text) : Bool :=
  wordAttributes.any fun (name, elements) =>
    name = key && (elements.isEmpty || elements.contains element)

/-- Whether two values of an attribute are the same. -/
def sameValue (element key : Text) (v w : Text) : Bool :=
  if holdsWords element key then Text.words v = Text.words w else v = w

/-- Whether two elements of a name have the same attributes. -/
def sameAttributes (element : Text) (a b : Attributes) : Bool :=
  a.length = b.length && a.all fun (name, v) => (b.lookup name).any (sameValue element name v)

mutual

/-- Whether two nodes have the same content. -/
def Node.same : Node → Node → Bool
  | .text t, .text u => t = u
  | .element name attributes _ content, .element name' attributes' _ content' =>
    name = name' && sameAttributes name attributes attributes' && sameAll content content'
  | _, _ => false

/-- Whether two lists of nodes have the same content. -/
def sameAll : List Node → List Node → Bool
  | [], [] => true
  | n :: ns, m :: ms => n.same m && sameAll ns ms
  | _, _ => false

end

/-- The words of an element's class. -/
def Element.classes (e : Element) : List Text :=
  Text.words ((e.attributes.lookup "class".toList).getD [])

mutual

/-- The text of a node that holds one text and nothing else. -/
def Node.onlyText? : Node → Option Text
  | .text t => some t
  | .element _ _ _ content => onlyTextOf? content

/-- The text of nodes that hold one text and nothing else. -/
def onlyTextOf? : List Node → Option Text
  | [n] => n.onlyText?
  | _ => none

end

end SlideDeck.Markup
