import SlideDeck.Page.Basic
import SlideDeck.Proofs.Layout.Written
import SlideDeck.Proofs.Markup.Same
import SlideDeck.Proofs.Markup.SiteEdit
import SlideDeck.Proofs.Page.Repeat

/-!
# Revisions of written pages

What a revision looks for in a written page, it looks for among the elements of the page
(`container?_nodes`, `named?_nodes`, `find?_scriptsOutside`); the span of what it finds is the
content it was written with (`Written.span_of_mem_sites`). A title is put in as a page of letters
(`Written.ofTitle`).
-/

namespace SlideDeck.Markup

variable {w : Written} {keeps : Bool} {before behind : Text} {around : List Element} {s : Site}

/-! ## Spans -/

/-- The span of an element with a content. -/
theorem Site.span_of_render (h : s.IsReadable) {t : Text} (ht : s.filling.render? = some t)
    (hq : isRawSpan s.label.name = false → s.filling.Quiet s.label.name) :
    s.element.span s.html = .ok s.inner := by
  have hspan : s.span? = some s.inner := by rw [span?, inner, ht]; rfl
  have hv : s.label.name ∉ voidElements := h.exists_span_iff.1 ⟨_, span_eq_ok.2 hspan⟩
  rw [span_element h hq fun hm => absurd hm hv, span_eq_ok]
  exact hspan

/-- The span of an element with a content holds the content. -/
theorem Site.slice_inner {t : Text} (ht : s.filling.render? = some t) :
    s.inner.slice s.html = t := by
  have hhtml : s.html = (s.before ++ s.label.start) ++ (t ++ (s.label.stop ++ s.behind)) := by
    simp [html, text, ht]
  have h₁ : (s.before ++ s.label.start).length = s.inner.start := by simp [inner]
  have h₂ : (s.before ++ s.label.start ++ t).length = s.inner.stop := by
    simp only [inner, ht, Option.getD_some, List.length_append]
  rw [Span.slice, hhtml, ← List.append_assoc, List.take_left' h₂, List.drop_left' h₁]

/-- An element of a page with a content is found by its span in the page. -/
theorem Written.span_of_mem_sites (hw : w.WellFormed) (hs : s ∈ w.sites false [] [] []) {t : Text}
    (ht : s.filling.render? = some t)
    (hq : isRawSpan s.label.name = false → s.filling.Quiet s.label.name) :
    s.element.span w.render = .ok s.inner ∧ s.inner.slice w.render = t := by
  have hhtml : s.html = w.render := by simpa using html_of_mem_sites hs
  rw [← hhtml]
  exact ⟨Site.span_of_render (isReadable_of_mem_sites hw hs) ht hq, Site.slice_inner ht⟩

/-! ## New pages -/

theorem Written.IsLetters.sites_eq_nil (h : w.IsLetters) :
    w.sites keeps before behind around = [] := by
  induction w generalizing before with
  | nil => rfl
  | letter l next ih => exact ih h
  | remark | void | raw | element => exact h.elim

theorem Written.IsLetters.quiet (h : w.IsLetters) (n : Text) : w.Quiet n := by
  induction w with
  | nil => trivial
  | letter l next ih => exact ih h
  | remark | void | raw | element => exact h.elim

theorem Written.IsOutline.name_of_mem_sites (h : w.IsOutline)
    (hs : s ∈ w.sites keeps before behind around) :
    s.label.name ∈ outlineNames := by
  induction w generalizing keeps before behind around with
  | nil => cases hs
  | letter l next ih => exact ih h.2 hs
  | element l content next ihc ihn =>
    rcases List.mem_cons.1 hs with rfl | hs
    · exact h.1.2
    · rcases List.mem_append.1 hs with hs | hs
      · exact ihc h.2.1 hs
      · exact ihn h.2.2 hs
  | remark | void | raw => exact h.elim

/-- The names of the elements in an element that is filled with a page. -/
theorem Site.namesAll_content {v : Written} (h : s.filling = .page v) :
    ∃ keeps around, namesAll s.content
      = (v.sites keeps (s.before ++ s.label.start) [] around).map (·.label.name) := by
  refine ⟨blankKeepers.contains s.label.name || s.keeps, [], ?_⟩
  have hc : s.content = v.nodes (blankKeepers.contains s.label.name || s.keeps)
      (Position.start.after (s.before ++ s.label.start)) none := by
    rw [content, h, Position.after_append]
    rfl
  rw [hc, ← map_name_walkAll _ [], Written.walkAll_nodes v _ _ [], List.map_map]
  rfl

/-- A character of a title as it is written. -/
def Letter.ofTitle : Char → Letter
  | '&' => .reference "amp".toList
  | '<' => .reference "lt".toList
  | '>' => .reference "gt".toList
  | c => .char c

theorem Letter.isReadable_ofTitle (c : Char) : (ofTitle c).IsReadable := by
  unfold ofTitle
  split
  · decide
  · decide
  · decide
  · next ha hl _ => exact ⟨hl, ha⟩

theorem Letter.render_ofTitle (c : Char) : (ofTitle c).render = escape [c] := by
  unfold ofTitle
  split
  · rfl
  · rfl
  · rfl
  · next ha hl hg =>
    rw [escape, List.flatMap_singleton]
    split
    · next h => exact absurd rfl ha
    · exact absurd rfl hl
    · exact absurd rfl hg
    · rfl

/-- An element of a page has the content that it has itself. -/
theorem Site.same_self (s : Site) : s.element.toNode.same s.element.toNode = true := by
  refine Node.same_self _ ⟨s.label.nodup_keys_read, ?_⟩
  show AllTidy s.content
  rw [content]
  split
  · trivial
  · exact allTidy_rawNodes ..
  · exact Written.allTidy_nodes ..

/-- A title as it is written between the tags of its element. -/
def Written.ofTitle (title : Text) : Written := title.foldr (fun c w => .letter (.ofTitle c) w) .nil

theorem Written.isLetters_ofTitle (title : Text) : (ofTitle title).IsLetters := by
  induction title with
  | nil => trivial
  | cons c title ih => exact ih

theorem Written.wellFormed_ofTitle (title : Text) : (ofTitle title).WellFormed := by
  induction title with
  | nil => trivial
  | cons c title ih => exact ⟨Letter.isReadable_ofTitle c, ih⟩

theorem Written.render_ofTitle (title : Text) : (ofTitle title).render = escape title := by
  induction title with
  | nil => rfl
  | cons c title ih =>
    show (Letter.ofTitle c).render ++ (ofTitle title).render = _
    rw [ih, Letter.render_ofTitle, escape, escape, escape, ← List.flatMap_append]
    rfl

end SlideDeck.Markup

namespace SlideDeck.Page

open Markup

variable {w : Written} {s : Site}

/-- A container of slides. -/
def isContainer (s : Site) : Bool := s.element.classes.contains containerClass

def isNamed (name : Text) (s : Site) : Bool := s.label.name = name

/-- The text of a script as it is looked at. -/
def scriptText (s : Site) : Text := (onlyTextOf? s.content).getD []

/-- A script that mentions a variable. -/
def mentions (marker : Text) (s : Site) : Bool :=
  isNamed "script".toList s && Text.holds marker (scriptText s)

/-- An element that stands in one with the content of `c`. -/
def isInside (c s : Site) : Bool := s.around.any (·.toNode.same c.element.toNode)

theorem elementsOf_nodes (w : Written) :
    elementsOf (w.nodes false .start none) = (w.sites false [] [] []).map Site.element := by
  rw [elementsOf, Written.ancestorsOf_nodes, List.map_map]
  rfl

theorem container?_nodes (w : Written) : container? (elementsOf (w.nodes false .start none))
    = ((w.sites false [] [] []).find? isContainer).map Site.element := by
  rw [elementsOf_nodes, container?, List.find?_map]
  rfl

theorem named?_nodes (w : Written) (name : Text) :
    named? name (elementsOf (w.nodes false .start none))
    = ((w.sites false [] [] []).find? (isNamed name)).map Site.element := by
  rw [elementsOf_nodes, named?, List.find?_map]
  rfl

theorem find?_scriptsOutside (marker : Text) (c : Site) (w : Written) :
    (scriptsOutside c.element (w.nodes false .start none)).find? (fun x => Text.holds marker x.2)
      = ((w.sites false [] [] []).find? fun s => mentions marker s && !isInside c s).map
        fun s => (s.element, scriptText s) := by
  rw [scriptsOutside, Written.ancestorsOf_nodes, List.filterMap_map, List.find?_filterMap]
  have hp : (fun s : Site => Option.any (fun x => Text.holds marker x.2)
      (if s.label.name = "script".toList ∧ !isInside c s then some (s.element, scriptText s)
        else none))
        = fun s => mentions marker s && !isInside c s := by
    funext s
    rw [mentions, isNamed]
    generalize "script".toList = n
    by_cases hn : s.label.name = n <;> cases isInside c s <;> simp [hn]
  show ((w.sites false [] [] []).find? _).bind (fun s : Site =>
    if s.label.name = "script".toList ∧ !isInside c s then some (s.element, scriptText s)
      else none) = _
  refine (congrArg (fun p => ((w.sites false [] [] []).find? p).bind _) hp).trans ?_
  cases hf : (w.sites false [] [] []).find? fun s => mentions marker s && !isInside c s with
  | none => rfl
  | some s =>
    have hs := List.find?_some hf
    rw [mentions, isNamed, Bool.and_eq_true, Bool.and_eq_true, decide_eq_true_eq] at hs
    rw [Option.bind_some, if_pos ⟨hs.1.1, hs.2⟩]
    rfl

variable {t : Site}

/-- What stands in the container stands in an element like it. -/
theorem isInside_of_encloses (hs : s ∈ w.sites false [] [] []) (ht : t ∈ w.sites false [] [] [])
    (he : t.Encloses s.before.length) : isInside t s = true :=
  List.any_eq_true.2 ⟨t.element, (Written.mem_around_iff hs _).2 (.inr ⟨t, ht, rfl, he⟩),
    t.same_self⟩

theorem mem_ancestorsOf_nodes (hs : s ∈ w.sites false [] [] []) :
    (s.element, s.around) ∈ ancestorsOf (w.nodes false .start none) := by
  rw [Written.ancestorsOf_nodes]
  exact List.mem_map_of_mem hs

/-- No element stands in one that holds none of its name. -/
theorem not_encloses_of_not_mem (hs : s ∈ w.sites false [] [] []) (ht : t ∈ w.sites false [] [] [])
    (hn : s.label.name ∉ namesAll t.content) : ¬t.Encloses s.before.length := fun he => by
  have hm := (Written.mem_around_iff hs _).2 (.inr ⟨t, ht, rfl, he⟩)
  rcases (mem_names_of_mem_walkAll _ _ (mem_ancestorsOf_nodes hs)).2 _ hm with h | h
  · cases h
  · exact hn h

theorem namesAll_content_text {x : Text} (h : t.filling = .text x) : namesAll t.content = [] := by
  rw [Site.content, h]
  show namesAll (rawNodes t.keeps x) = []
  rw [rawNodes]
  split <;> rfl

/-- No element stands in an element of letters. -/
theorem not_encloses_of_isLetters (hs : s ∈ w.sites false [] [] [])
    (ht : t ∈ w.sites false [] [] []) {v : Written} (hv : t.filling = .page v) (hl : v.IsLetters) :
    ¬t.Encloses s.before.length := by
  obtain ⟨k, a, hc⟩ := Site.namesAll_content hv
  refine not_encloses_of_not_mem hs ht ?_
  rw [hc, hl.sites_eq_nil]
  exact List.not_mem_nil

/-- The elements in one that is filled with an outline have names of an outline. -/
theorem name_of_mem_namesAll {v : Written} (hv : v.IsOutline) (h : t.filling = .page v)
    {name : Text} (hn : name ∈ namesAll t.content) : name ∈ outlineNames := by
  obtain ⟨k, a, hc⟩ := Site.namesAll_content h
  rw [hc] at hn
  obtain ⟨u, hu, rfl⟩ := List.mem_map.1 hn
  exact hv.name_of_mem_sites hu

end SlideDeck.Page
