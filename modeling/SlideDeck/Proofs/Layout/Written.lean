import SlideDeck.Proofs.Layout.Nesting
import SlideDeck.Proofs.Markup.Site

/-!
# Outlines as written pages

The markup of an outline is a page of letters and of three kinds of elements (`Written.IsOutline`):
sections and headings of two levels. It is put together slide by slide and group by group, and with
it the labels of its elements (`Layout.hasLabels_renderFrom`). The markup can be read, and its
elements have the classes of these labels (`Layout.parse_outline`). A scan for the end of any
element finds its tags balanced (`Layout.passes_outline`).
-/

namespace SlideDeck

open Markup (Label Letter StartTag Written sectionName writeEnd)

namespace Markup

/-- The names of the elements of an outline. -/
def outlineNames : List Text := [sectionName, "h1".toList, "h2".toList]

namespace Written

/-- A page of letters and of the elements of an outline. -/
def IsOutline : Written → Prop
  | .nil => True
  | .letter l next => l.IsReadable ∧ next.IsOutline
  | .element l content next => (l.IsReadable ∧ l.name ∈ outlineNames) ∧ content.IsOutline ∧
      next.IsOutline
  | _ => False

variable {v w : Written}

theorem IsOutline.append (hv : v.IsOutline) (hw : w.IsOutline) : (v.append w).IsOutline := by
  induction v with
  | nil => exact hw
  | letter l next ih => exact ⟨hv.1, ih hv.2⟩
  | element l content next _ ih => exact ⟨hv.1, hv.2.1, ih hv.2.2⟩
  | remark | void | raw => exact hv.elim

theorem IsOutline.wellFormed (h : w.IsOutline) : w.WellFormed := by
  have hall : ∀ name ∈ outlineNames, name ∉ voidElements ∧ isRawElement name = false ∧
      isRawSpan name = false := by
    decide
  induction w with
  | nil => trivial
  | letter l next ih => exact ⟨h.1, ih h.2⟩
  | element l content next ihc ihn =>
    obtain ⟨hv, hr, hs⟩ := hall _ h.1.2
    refine ⟨⟨h.1.1, hv, hr, fun hs' => ?_⟩, ihc h.2.1, ihn h.2.2⟩
    rw [hs] at hs'
    cases hs'
  | remark | void | raw => exact h.elim

theorem IsOutline.quiet (h : w.IsOutline) (n : Text) : w.Quiet n := by
  induction w with
  | nil => trivial
  | letter l next ih => exact ih h.2
  | element l content next ihc ihn => exact ⟨ihc h.2.1, ihn h.2.2⟩
  | remark | void | raw => exact h.elim

theorem IsOutline.voids_eq (h : w.IsOutline) : w.voids = [] := by
  induction w with
  | nil => rfl
  | letter l next ih => exact ih h.2
  | element l content next ihc ihn => exact List.append_eq_nil_iff.2 ⟨ihc h.2.1, ihn h.2.2⟩
  | remark | void | raw => exact h.elim

/-- A text whose characters stand for themselves. -/
def ofText (t : Text) : Written := t.foldr (fun c w => .letter (.char c) w) .nil

theorem render_ofText (t : Text) : (ofText t).render = t := by
  induction t with
  | nil => rfl
  | cons c t ih => exact congrArg (c :: ·) ih

end Written

/-- The text of a page of an outline's elements. -/
def IsOutlineText (t : Text) : Prop := ∃ w : Written, w.IsOutline ∧ w.render = t

namespace IsOutlineText

variable {a b : Text}

theorem append (ha : IsOutlineText a) (hb : IsOutlineText b) : IsOutlineText (a ++ b) := by
  obtain ⟨v, hv, rfl⟩ := ha
  obtain ⟨w, hw, rfl⟩ := hb
  exact ⟨v.append w, hv.append hw, Written.render_append v w⟩

end IsOutlineText

/-- The text of a page of an outline's elements, and the labels of its elements in document
order. -/
def HasLabels (t : Text) (labels : List Label) : Prop :=
  ∃ w : Written, w.IsOutline ∧ w.render = t ∧ w.labels = labels

namespace HasLabels

variable {a b : Text} {labels more : List Label}

theorem isOutlineText (h : HasLabels a labels) : IsOutlineText a :=
  let ⟨w, hw, he, _⟩ := h
  ⟨w, hw, he⟩

theorem append (ha : HasLabels a labels) (hb : HasLabels b more) :
    HasLabels (a ++ b) (labels ++ more) := by
  obtain ⟨v, hv, rfl, rfl⟩ := ha
  obtain ⟨w, hw, rfl, rfl⟩ := hb
  exact ⟨v.append w, hv.append hw, Written.render_append v w, Written.labels_append v w⟩

theorem of_not_mem (hb : '<' ∉ a) (ha : '&' ∉ a) : HasLabels a [] := by
  refine ⟨.ofText a, ?_, Written.render_ofText a, ?_⟩
  · induction a with
    | nil => trivial
    | cons c a ih =>
      rw [List.mem_cons, not_or] at hb ha
      exact ⟨⟨Ne.symm hb.1, Ne.symm ha.1⟩, ih hb.2 ha.2⟩
  · clear hb ha
    induction a with
    | nil => rfl
    | cons c a ih => exact ih

theorem element {l : Label} (hl : l.IsReadable) (hn : l.name ∈ outlineNames)
    (ha : HasLabels a labels) :
    HasLabels (l.start ++ (a ++ l.stop)) (l :: labels) := by
  obtain ⟨w, hw, rfl, rfl⟩ := ha
  refine ⟨.element l w .nil, ⟨⟨hl, hn⟩, hw, trivial⟩, ?_, ?_⟩
  · simp only [Written.render, List.append_nil]
  · simp only [Written.labels, List.append_nil]

end HasLabels

theorem IsOutlineText.of_not_mem {a : Text} (hb : '<' ∉ a) (ha : '&' ∉ a) : IsOutlineText a :=
  (HasLabels.of_not_mem hb ha).isOutlineText

end Markup

open Markup (HasLabels IsOutlineText IsPlain)

/-! ## Slides -/

/-- An id holds no bracket. -/
theorem SlidePlace.bracket_not_mem_id (p : SlidePlace) : '<' ∉ p.id := by
  have hd : ∀ n, '<' ∉ Text.ofNat n := Text.not_mem_ofNat (by decide)
  cases p with
  | title => decide
  | slide position => exact List.not_mem_append (by decide) (hd _)
  | stacked position vertical =>
    rw [id_stacked]
    simp [hd]
  | divider number => exact List.not_mem_append (by decide) (hd _)

namespace Section

theorem isReadable_label {s : Section} (h : s.IsReadable) (hid : '<' ∉ s.id) :
    Label.IsReadable ⟨sectionName, s.attributes⟩ := by
  refine ⟨show Markup.isTagName sectionName = true by decide, fun x hx => ⟨h.isPlain x hx, ?_⟩⟩
  rw [attributes] at hx
  split at hx <;> simp only [List.mem_cons, List.not_mem_nil, or_false] at hx
  · rcases hx with rfl | rfl | rfl
    · exact hid
    · decide
    · decide
  · exact hx ▸ hid

theorem hasLabels_render {s : Section} (h : s.IsReadable) (hid : '<' ∉ s.id) {labels : List Label}
    (hh : HasLabels s.heading labels) :
    HasLabels s.render (⟨sectionName, s.attributes⟩ :: labels) := by
  have ht (c : Char) (hc : c ≠ '\t') : c ∉ List.replicate s.depth '\t' := not_mem_tabs hc s.depth
  have h₁ : HasLabels (List.replicate s.depth '\t') [] :=
    .of_not_mem (ht _ (by decide)) (ht _ (by decide))
  have h₂ : HasLabels ('\n' :: List.replicate s.depth '\t' ++ ['\t']) [] :=
    .of_not_mem (by simp) (by simp)
  have h₃ : HasLabels ('\n' :: List.replicate s.depth '\t') [] := .of_not_mem (by simp) (by simp)
  have h₄ : HasLabels ['\n'] [] := .of_not_mem (by decide) (by decide)
  have hn : sectionName ∈ Markup.outlineNames := by decide
  have hs := (h₁.append (.element (isReadable_label h hid) hn (h₂.append (hh.append h₃)))).append h₄
  rw [render_eq]
  simpa only [Label.start, Label.stop, List.append_assoc, List.nil_append, List.append_nil] using hs

/-- The label of the heading: a slide that opens a section has a first-level heading. -/
def headingLabel (s : Section) : Label := ⟨if s.opens then "h1".toList else "h2".toList, []⟩

end Section

namespace Group

theorem hasLabels_heading1 {t : Text} (h : HasLabels t []) :
    HasLabels (heading1 t) [⟨"h1".toList, []⟩] := by
  have := HasLabels.element (l := ⟨"h1".toList, []⟩) (by decide) (by decide) h
  simpa [heading1, Label.start, Label.stop, StartTag.write, Markup.writeAttributes, writeEnd]
    using this

theorem hasLabels_heading2 {t : Text} (h : HasLabels t []) :
    HasLabels (heading2 t) [⟨"h2".toList, []⟩] := by
  have := HasLabels.element (l := ⟨"h2".toList, []⟩) (by decide) (by decide) h
  simpa [heading2, Label.start, Label.stop, StartTag.write, Markup.writeAttributes, writeEnd]
    using this

theorem hasLabels_ofNat (n : Nat) : HasLabels (Text.ofNat n) [] :=
  .of_not_mem (Text.not_mem_ofNat (by decide) _) (Text.not_mem_ofNat (by decide) _)

theorem hasLabels_heading {c : Cursor} {g : Group} {s : Section} (h : s ∈ g.sections c) :
    HasLabels s.heading [s.headingLabel] := by
  have ht {t : Text} (h : '<' ∉ t ∧ '&' ∉ t) : HasLabels t [] := .of_not_mem h.1 h.2
  have hhere := @ht " Title Here".toList (by decide)
  have hslide := @ht "Slide ".toList (by decide)
  cases g with
  | single =>
    rw [List.mem_singleton.1 h, singleSection]
    split
    · exact hasLabels_heading1 (@ht "Presentation Title".toList (by decide))
    · exact hasLabels_heading2 ((hslide.append (hasLabels_ofNat _)).append hhere)
  | divider =>
    rw [List.mem_singleton.1 h]
    have hsection := @ht "Section ".toList (by decide)
    have htitle := @ht " Title".toList (by decide)
    exact hasLabels_heading1 ((hsection.append (hasLabels_ofNat _)).append htitle)
  | stack size pos =>
    obtain ⟨i, -, rfl⟩ := List.mem_map.1 h
    have hdot := @ht ['.'] (by decide)
    have hn := (hslide.append (hasLabels_ofNat c.position)).append
        (hdot.append (hasLabels_ofNat (i + 1)))
    exact hasLabels_heading2 (hn.append hhere)

/-- The labels of a slide's section and of its heading. -/
def slideLabels (s : Section) : List Label := [⟨sectionName, s.attributes⟩, s.headingLabel]

theorem hasLabels_flatten (c : Cursor) (g : Group) :
    HasLabels ((g.sections c).map Section.render).flatten ((g.sections c).flatMap slideLabels) := by
  have hall : ∀ s ∈ g.sections c, HasLabels s.render (slideLabels s) := by
    intro s hs
    have hid : s.id ∈ (g.places c).map SlidePlace.id := by
      rw [← map_id_sections]
      exact List.mem_map_of_mem hs
    obtain ⟨p, -, hp⟩ := List.mem_map.1 hid
    exact Section.hasLabels_render (isReadable_of_mem_sections hs) (hp ▸ p.bracket_not_mem_id)
      (hasLabels_heading hs)
  generalize g.sections c = slides at hall
  induction slides with
  | nil => exact .of_not_mem List.not_mem_nil List.not_mem_nil
  | cons s slides ih =>
    exact (hall s (List.mem_cons_self ..)).append
      (ih fun t ht => hall t (List.mem_cons_of_mem _ ht))

/-- The labels of a group's elements: a stack has a section of its own around its slides. -/
def labels (c : Cursor) (g : Group) : List Label :=
  match g with
  | .stack .. => ⟨sectionName, []⟩ :: (g.sections c).flatMap slideLabels
  | _ => (g.sections c).flatMap slideLabels

theorem hasLabels_render (c : Cursor) (g : Group) : HasLabels (g.render c) (g.labels c) := by
  have hs := hasLabels_flatten c g
  cases g with
  | single => exact hs
  | divider => exact hs
  | stack size pos =>
    have hi : HasLabels (List.replicate baseDepth '\t') [] := .of_not_mem (by decide) (by decide)
    have hl : HasLabels ['\n'] [] := .of_not_mem (by decide) (by decide)
    have he := HasLabels.element (l := ⟨sectionName, []⟩) (by decide) (by decide)
        (hl.append (hs.append hi))
    have h₁ : "<section>\n".toList = Label.start ⟨sectionName, []⟩ ++ ['\n'] := rfl
    have h₂ : "</section>\n".toList = Label.stop ⟨sectionName, []⟩ ++ ['\n'] := rfl
    rw [render, h₁, h₂, labels]
    simpa only [List.append_assoc, List.nil_append, List.append_nil] using hi.append (he.append hl)

end Group

/-! ## Layouts -/

namespace Layout

/-- The labels of the elements of a layout's outline from a cursor on. -/
def labelsFrom : Cursor → Layout → List Label
  | _, [] => []
  | c, g :: gs => g.labels c ++ labelsFrom (c.next g) gs

theorem hasLabels_renderFrom (c : Cursor) (layout : Layout) :
    HasLabels (renderFrom c layout).1 (labelsFrom c layout) := by
  induction layout generalizing c with
  | nil => exact .of_not_mem List.not_mem_nil List.not_mem_nil
  | cons g gs ih => exact (g.hasLabels_render c).append (ih (c.next g))

theorem isOutlineText_outline (layout : Layout) : IsOutlineText layout.outline.markup :=
  (hasLabels_renderFrom .start layout).isOutlineText

/-- The elements that are read in an outline's markup have the classes of its labels. -/
theorem parse_outline (layout : Layout) :
    ∃ document, Markup.parse layout.outline.markup = .ok document ∧
    (Markup.elementsOf document).map Markup.Element.classes =
      (labelsFrom .start layout).map Label.classes := by
  obtain ⟨w, hw, he, hlabels⟩ := hasLabels_renderFrom .start layout
  have hmarkup : layout.outline.markup = w.render := he.symm
  rw [hmarkup, ← hlabels]
  exact ⟨_, Written.parse_eq hw.wellFormed, w.map_classes_elementsOf⟩

/-- A scan for the end of any element passes over an outline. -/
theorem passes_outline {n : Text} (hn : Markup.IsNamed n) (layout : Layout) (rest : Text) :
    Markup.Tag.Passes n layout.outline.markup rest := by
  obtain ⟨w, hw, he⟩ := layout.isOutlineText_outline
  rw [← he]
  refine Written.passes hw.wellFormed hn (hw.quiet n) (fun m hm => ?_) rest
  rw [hw.voids_eq] at hm
  cases hm

end Layout

end SlideDeck
