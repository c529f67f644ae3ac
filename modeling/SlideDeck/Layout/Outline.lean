import SlideDeck.Layout.Basic
import SlideDeck.Log

/-!
# Outlines

The markup of a layout: one section per slide, in which a placeholder heading stands, and around the
slides of a stack a section of its own. Every slide gets an id that names its place: the horizontal
position, with the vertical position in a stack, or the number of the section that a divider opens.
The single slide at the first position is the title slide.

`Layout.outline` walks over the groups with a `Cursor` and collects markup and ids together.
-/

namespace SlideDeck

/-- The section of one slide. -/
structure Section where
  id : Text
  /-- The markup of the heading. -/
  heading : Text
  /-- The tabs before the section. -/
  depth : Nat
  /-- Whether the slide is styled as the start of a section. -/
  opens : Bool
  deriving DecidableEq, Repr

/-- The markup of a section. -/
def Section.render (s : Section) : Text :=
  let indent := List.replicate s.depth '\t'
  let style : Text :=
    if s.opens then " class=\"section-divider\" data-state=\"is-section-divider\"".toList else []
  indent ++ "<section id=\"".toList ++ s.id ++ "\"".toList ++ style ++ ">\n".toList
    ++ indent ++ '\t' :: s.heading ++ "\n".toList
    ++ indent ++ "</section>\n".toList

/-- The place of the next group: its horizontal position and the number that a divider would get. -/
structure Cursor where
  position : Nat
  divider : Nat
  deriving DecidableEq, Repr

namespace Cursor

/-- The place of the first group. -/
def start : Cursor := ⟨1, 1⟩

/-- The place behind a group. -/
def next (c : Cursor) : Group → Cursor
  | .divider => ⟨c.position + 1, c.divider + 1⟩
  | _ => ⟨c.position + 1, c.divider⟩

end Cursor

namespace Group

/-- The depth at which a group's section stands in the page. -/
def baseDepth : Nat := 3

/-- A first-level heading. -/
def heading1 (text : Text) : Text := "<h1>".toList ++ text ++ "</h1>".toList

/-- A second-level heading. -/
def heading2 (text : Text) : Text := "<h2>".toList ++ text ++ "</h2>".toList

/-- The slide of a divider. -/
def dividerSection (number : Nat) : Section :=
  ⟨"divider-".toList ++ Text.ofNat number,
    heading1 ("Section ".toList ++ Text.ofNat number ++ " Title".toList), baseDepth, true⟩

/-- The slide of a single group. -/
def singleSection (position : Nat) : Section :=
  if position = 1 then ⟨"title".toList, heading1 "Presentation Title".toList, baseDepth, true⟩
  else ⟨"slide-".toList ++ Text.ofNat position,
    heading2 ("Slide ".toList ++ Text.ofNat position ++ " Title Here".toList), baseDepth, false⟩

/-- The slide at a vertical position, from one, of a stack. -/
def stackSection (position vertical : Nat) : Section :=
  ⟨"slide-".toList ++ Text.ofNat position ++ '-' :: Text.ofNat vertical,
    heading2 ("Slide ".toList ++ Text.ofNat position ++ '.' :: Text.ofNat vertical ++
      " Title Here".toList),
    baseDepth + 1, false⟩

/-- The slides of a group. -/
def sections (c : Cursor) : Group → List Section
  | .divider => [dividerSection c.divider]
  | .single => [singleSection c.position]
  | .stack size _ => (List.range size).map fun i => stackSection c.position (i + 1)

/-- The markup of a group: the section of its slide, or a section around the slides of a stack. -/
def render (c : Cursor) (g : Group) : Text :=
  let slides := ((g.sections c).map Section.render).flatten
  match g with
  | .stack .. =>
    let indent := List.replicate baseDepth '\t'
    indent ++ "<section>\n".toList ++ slides ++ indent ++ "</section>\n".toList
  | _ => slides

end Group

/-- A rendered layout: its markup, the number of its slides and their ids in document order. -/
structure Outline where
  markup : Text
  slideCount : Nat
  ids : List Text
  deriving DecidableEq, Repr

namespace Layout

/-- The markup and the ids of the groups from a place on. -/
def renderFrom : Cursor → Layout → Text × List Text
  | _, [] => ([], [])
  | c, g :: gs =>
    let (markup, ids) := renderFrom (c.next g) gs
    (g.render c ++ markup, (g.sections c).map (·.id) ++ ids)

/-- The rendered layout. -/
def outline (layout : Layout) : Outline :=
  let (markup, ids) := renderFrom .start layout
  ⟨markup, layout.slideCount, ids⟩

/-- Renders a layout and notes its size. -/
def compile {ε : Type} (layout : Layout) : Attempt ε Outline := do
  let outline := layout.outline
  Attempt.note 2 ("Compiled ".toList ++ Text.ofNat layout.length ++ " groups into ".toList
    ++ Text.ofNat outline.slideCount ++ " slides".toList)
  return outline

end Layout

end SlideDeck
