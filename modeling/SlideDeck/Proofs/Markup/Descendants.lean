import SlideDeck.Proofs.Markup.Site
import SlideDeck.Proofs.Outcome

/-!
# Spans and descendants

In a page in which no remark and no raw text holds a tag of an element's name, the span of an
element and the document agree: an element is a descendant of another one if and only if it starts
in the span of the other one (`Written.descendant_iff_in_span`). A scan for the end of an element
does not know remarks, though (`span_of_end_tag_in_comment`).
-/

namespace SlideDeck.Markup

/-- An offset lies between the tags of an element. -/
def Site.Encloses (s : Site) (k : Nat) : Prop :=
  ∃ span, s.span? = some span ∧ span.start ≤ k ∧ k < span.stop

theorem Site.length_text_pos (s : Site) : 0 < s.text.length := by
  have := List.length_pos_iff.2 s.label.start_ne_nil
  rw [text]
  split
  · exact this
  · rw [List.length_append]
    omega

theorem Site.Encloses.within {s : Site} {k : Nat} (h : s.Encloses k) :
    s.before.length < k ∧ k < s.before.length + s.text.length := by
  obtain ⟨label, filling, before, behind, around, keeps⟩ := s
  obtain ⟨span, hs, h₁, h₂⟩ := h
  obtain ⟨t, ht, rfl⟩ := Option.map_eq_some_iff.1 hs
  have ht : filling.render? = some t := ht
  have hpos := List.length_pos_iff.2 label.start_ne_nil
  simp only [text, ht, List.length_append] at h₁ h₂ ⊢
  omega

/-- An element that is closed is not around what follows. -/
theorem Site.exists_cons_of_le {s : Site} {k : Nat} (h : s.before.length + s.text.length ≤ k)
    (e : Element) (l : List Site) :
    (∃ t ∈ s :: l, t.element = e ∧ t.Encloses k) ↔ ∃ t ∈ l, t.element = e ∧ t.Encloses k := by
  simp only [List.mem_cons, or_and_right, exists_or, exists_eq_left]
  rw [or_iff_right]
  rintro ⟨-, he⟩
  have := he.within.2
  omega

namespace Written

variable {w : Written} {keeps : Bool} {before behind : Text} {around : List Element} {s f : Site}

theorem lt_of_encloses (h : s ∈ w.sites keeps before behind around) {k : Nat} (hk : s.Encloses k) :
    before.length < k ∧ k < before.length + w.render.length := by
  have := within_of_mem_sites h
  have := hk.within
  omega

/-- Elements of two pages that follow each other do not enclose each other. -/
theorem not_encloses_of_apart {w' : Written} {keeps' : Bool} {before' behind' : Text}
    {around' : List Element} {t : Site} (hs : s ∈ w.sites keeps before behind around)
    (ht : t ∈ w'.sites keeps' before' behind' around')
    (hle : before.length + w.render.length ≤ before'.length) :
    ¬t.Encloses s.before.length ∧ ¬s.Encloses t.before.length := by
  have := (within_of_mem_sites hs).2
  have := (within_of_mem_sites ht).1
  refine ⟨fun he => ?_, fun he => ?_⟩
  · have := (lt_of_encloses ht he).1
    omega
  · have := (lt_of_encloses hs he).2
    omega

/-- An element encloses the elements of its content. -/
theorem encloses_of_mem_sites {l : Label} (h : s ∈ w.sites keeps (before ++ l.start) behind around)
    (behind' : Text) (around' : List Element) (keeps' : Bool) :
    Site.Encloses ⟨l, .page w, before, behind', around', keeps'⟩ s.before.length := by
  obtain ⟨h₁, h₂⟩ := within_of_mem_sites h
  have hpos := s.length_text_pos
  rw [List.length_append] at h₁ h₂
  exact ⟨_, rfl, h₁, by show s.before.length <
    before.length + l.start.length + w.render.length; omega⟩

/-- No element of a page is around its start. -/
theorem not_exists_encloses_start (e : Element) :
    ¬∃ s ∈ w.sites keeps before behind around, s.element = e ∧ s.Encloses before.length := by
  rintro ⟨s, hs, -, he⟩
  exact Nat.lt_irrefl _ (lt_of_encloses hs he).1

/-- The elements around a site are those around the page and those of the page between whose tags
the site starts. -/
theorem mem_around_iff (h : f ∈ w.sites keeps before behind around) (e : Element) :
    e ∈ f.around ↔ e ∈ around ∨
      ∃ s ∈ w.sites keeps before behind around, s.element = e ∧ s.Encloses f.before.length := by
  induction w generalizing keeps before behind around with
  | nil => cases h
  | letter l next ih => exact ih h
  | remark r next ih => exact ih h
  | void l next ih =>
    rcases List.mem_cons.1 h with rfl | h
    · exact (or_iff_left (not_exists_encloses_start e)).symm
    · have hle := (within_of_mem_sites h).1
      rw [List.length_append] at hle
      rw [ih h, sites, Site.exists_cons_of_le hle]
  | raw l t next ih =>
    rcases List.mem_cons.1 h with rfl | h
    · exact (or_iff_left (not_exists_encloses_start e)).symm
    · have hle := (within_of_mem_sites h).1
      rw [List.length_append] at hle
      rw [ih h, sites, Site.exists_cons_of_le hle]
  | element l content next ihc ihn =>
    rcases List.mem_cons.1 h with rfl | h
    · exact (or_iff_left (not_exists_encloses_start e)).symm
    rw [sites]
    rcases List.mem_append.1 h with h | h
    · -- the element is around its content, and nothing that follows it is
      have hhead := encloses_of_mem_sites h (next.render ++ behind) around keeps
      have hnext : ¬∃ t ∈ next.sites keeps (before ++ (l.start ++ (content.render ++ l.stop)))
          behind around,
          t.element = e ∧ t.Encloses f.before.length := by
        rintro ⟨t, ht, -, he⟩
        exact (not_encloses_of_apart h ht (by simp only [List.length_append]; omega)).1 he
      simp only [List.mem_cons, List.mem_append, or_and_right, exists_or, exists_eq_left]
      rw [or_iff_left hnext, and_iff_left hhead, ihc h, List.mem_cons, eq_comm, or_assoc,
        or_left_comm]
    · -- what follows the element is neither in it nor in its content
      have hle := (within_of_mem_sites h).1
      simp only [List.length_append] at hle
      have hcontent :
          ¬∃ t ∈ content.sites (blankKeepers.contains l.name || keeps) (before ++ l.start)
          (l.stop ++ (next.render ++ behind))
          (Site.element ⟨l, .page content, before, next.render ++ behind, around, keeps⟩ :: around),
          t.element = e ∧ t.Encloses f.before.length := by
        rintro ⟨t, ht, -, he⟩
        exact (not_encloses_of_apart ht h (by simp only [List.length_append]; omega)).2 he
      rw [ihn h, Site.exists_cons_of_le
        (by simp only [Site.text, Filling.render?, List.length_append]; omega)]
      simp only [List.mem_append, or_and_right, exists_or]
      rw [or_iff_right hcontent]

theorem exists_site_of_mem_ancestorsOf {f : Element × List Element}
    (h : f ∈ ancestorsOf (w.nodes false .start none)) :
    ∃ s ∈ w.sites false [] [] [], (s.element, s.around) = f := by
  rw [ancestorsOf_nodes] at h
  exact List.mem_map.1 h

theorem exists_site_of_mem_elementsOf {e : Element}
    (h : e ∈ elementsOf (w.nodes false .start none)) :
    ∃ s ∈ w.sites false [] [] [], s.element = e := by
  obtain ⟨f, hf, rfl⟩ := List.mem_map.1 h
  obtain ⟨s, hs, rfl⟩ := exists_site_of_mem_ancestorsOf hf
  exact ⟨s, hs, rfl⟩

/-- Spans and descendants agree in a page in which no remark and no raw text holds a tag of an
element's name: the elements that are not void have a span, and the elements that start in the span
of an element are those inside of it. -/
theorem descendant_iff_in_span (hw : w.WellFormed) (hq : w.IsQuiet) :
    ∃ document, parse w.render = .ok document ∧
      (∀ e ∈ elementsOf document, (∃ span, e.span w.render = .ok span) ↔ e.name ∉ voidElements) ∧
      ∀ e ∈ elementsOf document, ∀ span, e.span w.render = .ok span → ∀ f ∈ ancestorsOf document,
        ∃ k, f.1.position.offset? w.render = some k ∧
          (e ∈ f.2 ↔ span.start ≤ k ∧ k < span.stop) := by
  refine ⟨_, parse_eq hw, fun e he => ?_, fun e he span hspan f hf => ?_⟩
  · obtain ⟨s, hs, rfl⟩ := exists_site_of_mem_elementsOf he
    rw [span_element hw hq hs]
    exact (isReadable_of_mem_sites hw hs).exists_span_iff
  · obtain ⟨s, hs, rfl⟩ := exists_site_of_mem_elementsOf he
    obtain ⟨t, ht, rfl⟩ := exists_site_of_mem_ancestorsOf hf
    have hhtml : t.html = w.render := by simpa using html_of_mem_sites ht
    refine ⟨t.before.length, hhtml ▸ t.offset?_element, ?_⟩
    have heq {s' : Site} (hs' : s' ∈ w.sites false [] [] []) (he : s'.element = s.element) :
        s'.span? = some span := by
      rw [← Site.span_eq_ok, ← span_element hw hq hs', he, hspan]
    rw [mem_around_iff ht, or_iff_right List.not_mem_nil]
    constructor
    · rintro ⟨s', hs', he, span', hspan', hin⟩
      obtain rfl : span = span' := Option.some.inj ((heq hs' he).symm.trans hspan')
      exact hin
    · intro hin
      exact ⟨s, hs, rfl, span, heq hs rfl, hin⟩

/-- An element in elements of its own name, behind a remark and a void element. -/
theorem descendant_iff_in_span_of_nested :
    let w : Written := .element ⟨"div".toList, [("class".toList, "slides".toList)]⟩
      (.remark (.comment " <p> ".toList) (.void ⟨"br".toList, []⟩ (.element ⟨"div".toList, []⟩
        (.element ⟨"b".toList, []⟩ (.letter (.char 'x') .nil) .nil) .nil))) .nil
    w.render = "<div class=\"slides\"><!-- <p> --><br><div><b>x</b></div></div>".toList ∧
      w.WellFormed ∧ w.IsQuiet ∧ ∃ document, parse w.render = .ok document ∧
      (∀ e ∈ elementsOf document, (∃ span, e.span w.render = .ok span) ↔ e.name ∉ voidElements) ∧
      ∀ e ∈ elementsOf document, ∀ span, e.span w.render = .ok span → ∀ f ∈ ancestorsOf document,
        ∃ k, f.1.position.offset? w.render = some k ∧
          (e ∈ f.2 ↔ span.start ≤ k ∧ k < span.stop) := by
  intro w
  have hw : w.WellFormed := by decide
  have hq : w.IsQuiet := by decide
  exact ⟨by decide, hw, hq, descendant_iff_in_span hw hq⟩

/-- The end tag in the remark is taken for that of the element. -/
theorem span_of_end_tag_in_comment :
    let html := "<div class=\"slides\"><!-- </div> --><p>x</p></div>".toList
    ∃ document e f, parse html = .ok document ∧ e ∈ elementsOf document ∧
      e.span html = .ok ⟨20, 25⟩ ∧
      f ∈ ancestorsOf document ∧ e ∈ f.2 ∧ f.1.position.offset? html = some 35 := by
  intro html
  let x : Written := .letter (.char 'x') .nil
  let c : Written := .remark (.comment " </div> ".toList) (.element ⟨"p".toList, []⟩ x .nil)
  let w : Written := .element ⟨"div".toList, [("class".toList, "slides".toList)]⟩ c .nil
  have hr : w.render = html := by decide
  have hp := parse_eq (w := w) (by decide)
  rw [hr] at hp
  let div : Site :=
    ⟨⟨"div".toList, [("class".toList, "slides".toList)]⟩, .page c, [], [], [], false⟩
  let p : Site := ⟨⟨"p".toList, []⟩, .page x, html.take 35, html.drop 43, [div.element], false⟩
  have hall : ancestorsOf (w.nodes false .start none) =
      [(div.element, []), (p.element, p.around)] := ancestorsOf_nodes w
  refine ⟨_, div.element, (p.element, p.around), hp, ?_, ?_, ?_, List.mem_cons_self .., ?_⟩
  · rw [elementsOf, hall]
    exact List.mem_cons_self ..
  · exact Outcome.eq_ok_of_toOption (by decide +kernel)
  · rw [hall]
    exact List.mem_cons_of_mem _ (List.mem_cons_self ..)
  · decide +kernel

end Written

end SlideDeck.Markup
