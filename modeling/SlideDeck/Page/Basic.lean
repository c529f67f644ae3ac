import SlideDeck.Config.Embedded
import SlideDeck.Layout.Outline
import SlideDeck.Markup.Document
import SlideDeck.Markup.Edit

/-!
# Pages

A deck's page shows its slides in a container, the first element of the class `slides`; it has a
title, and a script outside of the container that carries the deck's configuration. `Page.revise`
puts an outline, a title and the deck's fields into these three places and leaves everything else as
it is.

The title goes into the first title element, or else into one of its own at the end of the head. Of
the scripts that mention the configuration's variable only the first is looked at.
-/

namespace SlideDeck.Page

open Markup (Edit Element Node Span)

/-- What a page is revised to show. -/
structure Content where
  /-- The name of the deck's directory. -/
  slug : Text
  title : Text
  outline : Outline
  deriving DecidableEq, Repr

/-- The fields of the deck for its configuration. -/
def Content.fields (c : Content) : DeckFields := ⟨c.slug, c.title, c.outline.slideCount⟩

/-- The class of the container. -/
def containerClass : Text := "slides".toList

/-- The container of the slides. -/
def container? (elements : List Element) : Option Element :=
  elements.find? fun e => e.classes.contains containerClass

/-- The first element of a name. -/
def named? (name : Text) (elements : List Element) : Option Element :=
  elements.find? (·.name = name)

/-- The indent of the line on which the container ends: what follows the last line feed of the
blanks at the end of its content. -/
def closingIndent (content : Text) : Text :=
  let blanks := Text.trailing content
  if '\n' ∈ blanks then (blanks.reverse.takeWhile (· ≠ '\n')).reverse else []

/-- The new content of the container. -/
def slides (outline : Outline) (content : Text) : Text :=
  '\n' :: outline.markup ++ closingIndent content

/-- The edit of the container. -/
def slidesEdit (html : Text) (outline : Outline) (container : Element) : Except Failure Edit := do
  let span ← container.span html
  return ⟨span, slides outline (span.slice html)⟩

/-- The edit that sets the title, if there is a place for it. -/
def titleEdit? (html title : Text) (elements : List Element) : Except Failure (Option Edit) := do
  let escaped := Markup.escape title
  match named? "title".toList elements with
  | some e => return some ⟨← e.span html, escaped⟩
  | none =>
    match named? "head".toList elements with
    | some e =>
      let span ← e.span html
      return some ⟨⟨span.stop, span.stop⟩, "<title>".toList ++ escaped ++ "</title>".toList⟩
    | none => return none

/-- The scripts outside of all elements that are the same as the container, with their texts. -/
def scriptsOutside (container : Element) (document : List Node) : List (Element × Text) :=
  (Markup.ancestorsOf document).filterMap fun (e, around) =>
    if e.name = "script".toList ∧ !around.any (·.toNode.same container.toNode) then
      some (e, (Markup.onlyTextOf? e.content).getD [])
    else none

/-- The edit of the configuration, if the first script that mentions its variable assigns it. -/
def configEdit? [Record.Nesting] (html marker : Text) (fields : DeckFields)
    (scripts : List (Element × Text)) :
    Attempt Failure (Option Edit) :=
  match scripts.find? fun (_, text) => Text.holds marker text with
  | none => do
    Attempt.note 2 ("No embedded ".toList ++ marker ++ " block found".toList)
    return none
  | some (script, text) => do
    match ← Embedded.read marker text with
    | none => return none
    | some config =>
      let span ← script.span html
      let new ← config.update marker fields (span.slice html)
      Attempt.note 2
        ("Updated embedded ".toList ++ marker ++ " (".toList ++ config.form ++ ")".toList)
      return some ⟨span, new⟩

/-- The edits that make a page show some content. -/
def edits [Record.Nesting] (marker : Text) (content : Content) (html : Text) :
    Attempt Failure (List Edit) := do
  let document ← Markup.parse html
  let elements := Markup.elementsOf document
  match container? elements with
  | none => throw .noContainer
  | some container =>
    let slides ← slidesEdit html content.outline container
    Attempt.note 2
      ("Inserted ".toList ++ Text.ofNat content.outline.ids.length ++ " slide sections".toList)
    let title ← titleEdit? html content.title elements
    let config ← configEdit? html marker content.fields (scriptsOutside container document)
    return slides :: (title.toList ++ config.toList)

/-- A page with some content in it. -/
def revise [Record.Nesting] (marker : Text) (content : Content) (html : Text) :
    Attempt Failure Text := do
  return Edit.applyAll html (← edits marker content html)

end SlideDeck.Page
