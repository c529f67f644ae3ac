import SlideDeck.Page.Basic
import SlideDeck.Proofs.Layout.Written
import SlideDeck.Proofs.Markup.SpanEdit

/-!
# Edits that are made again

The slides and the title are put into the content of elements. Both can be found again there: the
outline is passed over by a scan for the end of the container, whatever its name is, and an escaped
title has no bracket. The line on which the container ends keeps its indent, since an outline ends
with a line feed (`closingIndent_slides`). So the edits give the same page when they are made a
second time (`edits_again`).
-/

namespace SlideDeck

/-! ## The end of an outline -/

theorem Section.getLast?_render (s : Section) : s.render.getLast? = some '\n' := by
  rw [render, List.getLast?_append]
  rfl

theorem Group.getLast?_render (c : Cursor) (g : Group) : (g.render c).getLast? = some '\n' := by
  have h (s : Section) : ([s].map Section.render).flatten.getLast? = some '\n' := by
    rw [List.map_singleton, List.flatten_singleton, s.getLast?_render]
  cases g with
  | single => exact h _
  | divider => exact h _
  | stack size pos =>
    rw [render, List.getLast?_append]
    rfl

theorem Layout.getLast?_renderFrom (c : Cursor) (layout : Layout) :
    ∀ d ∈ (renderFrom c layout).1.getLast?, d = '\n' := by
  induction layout generalizing c with
  | nil => simp [renderFrom]
  | cons g gs ih =>
    intro d hd
    rw [renderFrom, List.getLast?_append, g.getLast?_render] at hd
    cases hl : (renderFrom (c.next g) gs).1.getLast? with
    | none =>
      rw [hl] at hd
      exact (Option.some.inj hd).symm
    | some e =>
      rw [hl] at hd
      obtain rfl := Option.some.inj hd
      exact ih _ _ hl

namespace Page

open Markup (Edit Element Span IsNamed isRawSpan)

/-! ## The indent of the container's end -/

theorem blank_of_mem_closingIndent {content : Text} {c : Char} (h : c ∈ closingIndent content) :
    Text.isBlank c = true ∧ c ≠ '\n' := by
  rw [closingIndent] at h
  split at h
  · rw [List.mem_reverse] at h
    have hn := List.all_eq_true.1 (@List.all_takeWhile _ (· ≠ '\n') (Text.trailing content).reverse)
        c h
    have hm : c ∈ Text.trailing content := List.mem_reverse.1 ((List.takeWhile_prefix _).subset h)
    rw [Text.trailing, List.mem_reverse] at hm
    exact ⟨List.all_eq_true.1 (@List.all_takeWhile _ Text.isBlank content.reverse) c hm, by
      simpa using hn⟩
  · cases h

/-- Behind the last line feed, blanks are the indent. -/
theorem closingIndent_append {b : Text} (hb : ∀ c ∈ b, Text.isBlank c = true ∧ c ≠ '\n')
    (x : Text) :
    closingIndent (x ++ '\n' :: b) = b := by
  have hrev : (x ++ '\n' :: b).reverse = b.reverse ++ '\n' :: x.reverse := by simp
  have hblank : ∀ c ∈ b.reverse, Text.isBlank c = true :=
    fun c hc => (hb c (List.mem_reverse.1 hc)).1
  have hline : ∀ c ∈ b.reverse, decide (c ≠ '\n') = true := fun c hc =>
    decide_eq_true (hb c (List.mem_reverse.1 hc)).2
  have ht : Text.trailing (x ++ '\n' :: b) = Text.trailing x ++ '\n' :: b := by
    rw [Text.trailing, hrev, List.takeWhile_append_of_pos hblank,
      List.takeWhile_cons_of_pos (by decide), Text.trailing]
    simp
  have hr : (Text.trailing x ++ '\n' :: b).reverse =
      b.reverse ++ '\n' :: (Text.trailing x).reverse := by simp
  rw [closingIndent, ht, if_pos (by simp), hr,
    Text.takeWhile_append_of_stops hline (Text.stops_cons (by simp) _), List.reverse_reverse]

/-- The slides end on a line with the indent that was there before. -/
theorem closingIndent_slides (layout : Layout) (content : Text) :
    closingIndent (slides layout.outline content) = closingIndent content := by
  have hx : ∃ x, '\n' :: layout.outline.markup = x ++ ['\n'] := by
    have hl := layout.getLast?_renderFrom .start
    rcases List.eq_nil_or_concat layout.outline.markup with h | ⟨x, d, h⟩
    · exact ⟨[], by rw [h]; rfl⟩
    · obtain rfl : d = '\n' := hl d (by
        show layout.outline.markup.getLast? = some d
        rw [h, List.concat_eq_append, List.getLast?_append]
        rfl)
      exact ⟨'\n' :: x, by rw [h, List.concat_eq_append]; rfl⟩
  obtain ⟨x, hx⟩ := hx
  have he : slides layout.outline content = x ++ '\n' :: closingIndent content := by
    rw [slides, hx, List.append_assoc]
    rfl
  rw [he]
  exact closingIndent_append (fun c hc => blank_of_mem_closingIndent hc) x

/-! ## The edits -/

/-- A scan for the end of any element passes over the slides. -/
theorem passes_slides {n : Text} (hn : IsNamed n) (layout : Layout) (content rest : Text) :
    Markup.Tag.Passes n (slides layout.outline content) rest := by
  have hb : '<' ∉ closingIndent content :=
    fun h => absurd (blank_of_mem_closingIndent h).1 (by decide)
  have h₁ : Markup.Tag.Passes n ['\n'] (layout.outline.markup ++ (closingIndent content ++ rest)) :=
    .of_not_mem (by decide)
  have h₂ := layout.passes_outline hn (closingIndent content ++ rest)
  exact (h₁.append h₂).append (.of_not_mem hb)

theorem bracket_not_mem_escape (title : Text) : '<' ∉ Markup.escape title := by
  rw [Markup.escape, List.mem_flatMap]
  rintro ⟨c, -, hc⟩
  split at hc
  · exact absurd hc (by decide)
  · exact absurd hc (by decide)
  · exact absurd hc (by decide)
  · next hne _ => exact hne (List.mem_singleton.1 hc).symm

/-- The edited text up to the end of the new content. -/
theorem length_take_append {html : Text} {s : Span} (h : s.start ≤ html.length) (new : Text) :
    (html.take s.start).length = s.start ∧
      (html.take s.start ++ new).length = s.start + new.length := by
  rw [List.length_append, List.length_take]
  omega

theorem slice_apply {html : Text} {s : Span} (h : s.start ≤ html.length) (new : Text) :
    Span.slice ⟨s.start, s.start + new.length⟩ (Edit.apply html ⟨s, new⟩) = new := by
  obtain ⟨h₁, h₂⟩ := length_take_append h new
  rw [Span.slice, Edit.apply, List.take_left' h₂, List.drop_left' h₁]

/-- An edit that puts in what is there changes nothing. -/
theorem apply_again {html : Text} {s : Span} (h : s.start ≤ html.length) (new : Text) :
    Edit.apply (Edit.apply html ⟨s, new⟩) ⟨⟨s.start, s.start + new.length⟩, new⟩ =
      Edit.apply html ⟨s, new⟩ := by
  obtain ⟨h₁, h₂⟩ := length_take_append h new
  have ht : (Edit.apply html ⟨s, new⟩).take s.start = html.take s.start := by
    rw [Edit.apply, List.append_assoc, List.take_left' h₁]
  have hd : (Edit.apply html ⟨s, new⟩).drop (s.start + new.length) = html.drop s.stop := by
    rw [Edit.apply, List.drop_left' h₂]
  show (Edit.apply html ⟨s, new⟩).take s.start ++ new ++
      (Edit.apply html ⟨s, new⟩).drop (s.start + new.length) = _
  rw [ht, hd]
  rfl

/-- The slides can be put into any element that is not searched for its end tag alone, and a title
into a title element: the element is found again with the new content, and the same edit then gives
the same page. -/
theorem edits_again {html : Text} {e : Element} {s : Span} (h : e.span html = .ok s) :
    (IsNamed e.name → isRawSpan e.name = false → ∀ layout : Layout,
      let new := '\n' :: layout.outline.markup ++ closingIndent (s.slice html)
      let html' := Edit.apply html ⟨s, new⟩
      let again : Edit := ⟨⟨s.start, s.start + new.length⟩, new⟩
      e.span html' = .ok again.span ∧ closingIndent new = closingIndent (s.slice html) ∧
        slidesEdit html' layout.outline e = .ok again ∧ Edit.apply html' again = html') ∧
    (e.name = "title".toList → ∀ title : Text,
      let new := Markup.escape title
      let html' := Edit.apply html ⟨s, new⟩
      let again : Edit := ⟨⟨s.start, s.start + new.length⟩, new⟩
      e.span html' = .ok again.span ∧ titleEdit? html' title [e] = .ok (some again) ∧
        Edit.apply html' again = html') := by
  have hle : s.start ≤ html.length := by
    have := Element.span_within h
    omega
  constructor
  · intro hn hr layout new html' again
    have hspan : e.span html' = .ok again.span :=
      Element.span_apply_of_passes hn hr h (passes_slides hn layout _ _)
    have hindent : closingIndent new = closingIndent (s.slice html) := closingIndent_slides layout _
    refine ⟨hspan, hindent, ?_, apply_again hle new⟩
    have hslides : slides layout.outline (again.span.slice html') = new := by
      rw [show again.span.slice html' = new from slice_apply hle new, slides, hindent]
    rw [slidesEdit, hspan]
    show Except.ok (⟨again.span, slides layout.outline (again.span.slice html')⟩ : Edit) = _
    rw [hslides]
  · intro hn title new html' again
    have hr : isRawSpan e.name = true := by rw [hn]; decide
    have hspan : e.span html' = .ok again.span :=
      Element.span_apply_of_raw hr h (bracket_not_mem_escape title)
    refine ⟨hspan, ?_, apply_again hle new⟩
    have hfind : named? "title".toList [e] = some e := by simp [named?, hn]
    rw [titleEdit?, hfind]
    show (e.span html' >>= _) = _
    rw [hspan]
    rfl

/-- A container that is a section itself is found again around the sections of an outline, and so is
a title with brackets in it. -/
theorem edits_again_in_section :
    let html :=
      "<title>a</title><section class=\"slides\">\n\t<section>b</section>\n  </section>".toList
    let title : Element := ⟨"title".toList, [], ⟨1, 0⟩, []⟩
    let container : Element := ⟨"section".toList, [], ⟨1, 16⟩, []⟩
    let new := '\n' :: (Layout.outline [.single, .divider]).markup ++ [' ', ' ']
    title.span html = .ok ⟨7, 8⟩ ∧ title.span (Edit.apply html ⟨⟨7, 8⟩, "&lt;b&gt;".toList⟩) =
      .ok ⟨7, 16⟩ ∧
      container.span html = .ok ⟨40, 65⟩ ∧ closingIndent new = [' ', ' '] ∧
      container.span (Edit.apply html ⟨⟨40, 65⟩, new⟩) = .ok ⟨40, 40 + new.length⟩ := by
  intro html title container new
  have ht : title.span html = .ok ⟨7, 8⟩ := Outcome.eq_ok_of_toOption (by decide +kernel)
  have hc : container.span html = .ok ⟨40, 65⟩ := Outcome.eq_ok_of_toOption (by decide +kernel)
  obtain ⟨htitle, -⟩ := (edits_again ht).2 rfl "<b>".toList
  obtain ⟨hslides, hindent, -⟩ :=
    (edits_again hc).1 (Markup.isNamed_of_isTagName (by decide)) (by decide) [.single, .divider]
  exact ⟨ht, htitle, hc, hindent.trans (by decide), hslides⟩

end Page

end SlideDeck
