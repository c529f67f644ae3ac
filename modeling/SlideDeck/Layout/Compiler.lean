import SlideDeck.Layout.Outline

/-!
# Compilers

A compiler writes the markup of its layout group by group. On the way it counts positions and
sections and collects the ids of the slides, and all of that is still there when it is done. A
compiler may be used again: `Compiler.outline` puts the counts back to the start and forgets the ids
before it writes the first group.
-/

namespace SlideDeck

/-- A layout with the place of the group that is written next and the ids of the slides that have
been written. -/
structure Compiler where
  layout : Layout
  cursor : Cursor := .start
  ids : List Text := []
  deriving DecidableEq, Repr

namespace Compiler

/-- Writes the section of a slide and keeps its id. -/
def writeSlide (s : Section) : StateM Compiler Text :=
  fun c => (s.render, { c with ids := c.ids ++ [s.id] })

/-- Writes the slide of a divider. The next divider opens the next section. -/
def writeDivider : StateM Compiler Text := do
  let text ← writeSlide (Group.dividerSection (← get).cursor.divider)
  modify fun c => { c with cursor := ⟨c.cursor.position, c.cursor.divider + 1⟩ }
  return text

/-- Writes the slide of a single group. -/
def writeSingle : StateM Compiler Text := do
  writeSlide (Group.singleSection (← get).cursor.position)

/-- Writes the slides of a stack with a section around them. -/
def writeStack (size : Nat) : StateM Compiler Text := do
  let indent := List.replicate Group.baseDepth '\t'
  let slides ← (List.range size).mapM fun i => do
    writeSlide (Group.stackSection (← get).cursor.position (i + 1))
  return indent ++ "<section>\n".toList ++ slides.flatten ++ indent ++ "</section>\n".toList

/-- Writes a group and goes on to the next position. -/
def writeGroup (g : Group) : StateM Compiler Text := do
  let text ← match g with
    | .divider => writeDivider
    | .stack size _ => writeStack size
    | .single => writeSingle
  modify fun c => { c with cursor := ⟨c.cursor.position + 1, c.cursor.divider⟩ }
  return text

/-- The rendered layout. -/
def outline : StateM Compiler Outline := do
  modify fun c => { c with cursor := .start, ids := [] }
  let layout := (← get).layout
  let parts ← layout.mapM writeGroup
  return ⟨parts.flatten, layout.slideCount, (← get).ids⟩

/-- Renders the layout and notes its size. -/
def compile {ε : Type} : StateT Compiler (Attempt ε) Outline := fun c => do
  let (outline, c) := outline c
  Attempt.note 2 ("Compiled ".toList ++ Text.ofNat c.layout.length ++ " groups into ".toList
    ++ Text.ofNat outline.slideCount ++ " slides".toList)
  return (outline, c)

end Compiler

end SlideDeck
