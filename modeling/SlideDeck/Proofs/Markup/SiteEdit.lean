import SlideDeck.Proofs.Markup.Kept

/-!
# Changes of some elements

A list of elements, each with one change (`Change`), says what is changed in a page (`Changes.of`).
Edits of these elements that lie apart make the changed page, and no such element stands in a
content that is replaced (`Written.Changed.applyAll_eq`).
-/

namespace SlideDeck.Markup

/-- A change of an element. -/
inductive Change where
  /-- A new page between the tags. -/
  | content (w : Written)
  /-- A page more at the end of the content. -/
  | more (w : Written)
  /-- A new raw text. -/
  | text (t : Text)

/-- Where the content of an element stands. -/
def Site.inner (s : Site) : Span :=
  ⟨s.before.length + s.label.start.length,
    s.before.length + s.label.start.length + (s.filling.render?.getD []).length⟩

namespace Change

def content? : Change → Option Written
  | .content w => some w
  | _ => none

def more? : Change → Option Written
  | .more w => some w
  | _ => none

def text? : Change → Option Text
  | .text t => some t
  | _ => none

/-- The edit that makes the change. -/
def edit (s : Site) : Change → Edit
  | .content w => ⟨s.inner, w.render⟩
  | .more w => ⟨⟨s.inner.stop, s.inner.stop⟩, w.render⟩
  | .text t => ⟨s.inner, t⟩

/-- The change is one of an element with such a content, and leaves the element as it is read. -/
def Suits (s : Site) : Change → Prop
  | .content w => (∃ v, s.filling = .page v) ∧ w.WellFormed ∧
      (isRawSpan s.label.name = true → w.IsLetters)
  | .more w => (∃ v, s.filling = .page v) ∧ w.WellFormed ∧ isRawSpan s.label.name = false
  | .text t => (∃ u, s.filling = .text u) ∧ Text.search (skipEndTag s.label.name) t = none

variable {s t : Site} {c d : Change}

theorem Suits.exists_render (h : c.Suits s) : ∃ t, s.filling.render? = some t := by
  cases c with
  | content w =>
    obtain ⟨⟨v, hv⟩, -⟩ := h
    exact ⟨_, by rw [hv]; rfl⟩
  | more w =>
    obtain ⟨⟨v, hv⟩, -⟩ := h
    exact ⟨_, by rw [hv]; rfl⟩
  | text t =>
    obtain ⟨⟨u, hu⟩, -⟩ := h
    exact ⟨_, by rw [hu]; rfl⟩

/-- An element with a content that may be changed has an end tag. -/
theorem Suits.inner_lt (h : c.Suits s) : s.inner.stop < s.before.length + s.text.length := by
  obtain ⟨t, ht⟩ := h.exists_render
  have := List.length_pos_iff.2 s.label.stop_ne_nil
  simp only [Site.inner, Site.text, ht, Option.getD_some, List.length_append]
  omega

theorem Suits.span?_eq (h : c.Suits s) : s.span? = some s.inner := by
  obtain ⟨t, ht⟩ := h.exists_render
  rw [Site.span?, ht, Site.inner, ht]
  rfl

theorem span_edit (s : Site) (c : Change) :
    ((c.edit s).span.start = s.inner.start ∨ (c.edit s).span.start = s.inner.stop) ∧
      (c.edit s).span.stop = s.inner.stop := by
  cases c with
  | content w => exact ⟨.inl rfl, rfl⟩
  | more w => exact ⟨.inr rfl, rfl⟩
  | text t => exact ⟨.inl rfl, rfl⟩

end Change

theorem Site.inner_start_le (s : Site) : s.before.length < s.inner.start ∧
    s.inner.start ≤ s.inner.stop := by
  have := List.length_pos_iff.2 s.label.start_ne_nil
  simp only [inner]
  omega

namespace Site.Precedes

variable {s t : Site} {c d : Change}

theorem inner (h : s.Precedes t) (hc : c.Suits s) : s.inner.start ≤ t.before.length ∧
    (s.before.length + s.text.length ≤ t.before.length ∨
      t.before.length + t.text.length ≤ s.inner.stop) := by
  obtain ⟨h, hin⟩ := h
  refine ⟨h, hin.imp_right fun ⟨span, hspan, hle⟩ => ?_⟩
  rw [hc.span?_eq, Option.some.injEq] at hspan
  exact hspan ▸ hle

/-- The edits of two elements of a page do not start at one place. -/
theorem start_ne (h : s.Precedes t) (hc : c.Suits s) (hd : d.Suits t) :
    (c.edit s).span.start ≠ (d.edit t).span.start := by
  have h := h.inner hc
  have hs := (c.span_edit s).1
  have ht := (d.span_edit t).1
  have := hc.inner_lt
  have := hd.inner_lt
  have := s.inner_start_le
  have := t.inner_start_le
  omega

/-- A content that is replaced does not hold an element that is edited as well, if the edits lie
apart. -/
theorem not_encloses (h : s.Precedes t) (hc : c.Suits s) (hd : d.Suits t)
    (hs : (c.edit s).span.start = s.inner.start)
    (ha : (c.edit s).span.stop ≤ (d.edit t).span.start ∨
      (d.edit t).span.stop ≤ (c.edit s).span.start) :
    ¬s.Encloses t.before.length := by
  rintro ⟨span, hspan, h₁, h₂⟩
  rw [hc.span?_eq] at hspan
  cases hspan
  have h := h.inner hc
  have hs' := (c.span_edit s).2
  have ht := d.span_edit t
  have := hc.inner_lt
  have := hd.inner_lt
  have := t.inner_start_le
  omega

end Site.Precedes

/-- Of two elements of a page of which neither holds the other, the contents lie apart. -/
theorem Written.apart_inner {w : Written} {keeps : Bool} {before behind : Text}
    {around : List Element} {s t : Site} (hs : s ∈ w.sites keeps before behind around)
    (ht : t ∈ w.sites keeps before behind around) (hne : s ≠ t) (hst : ¬s.Encloses t.before.length)
    (hts : ¬t.Encloses s.before.length) {x y : Text} (hx : s.filling.render? = some x)
    (hy : t.filling.render? = some y) :
    s.inner.stop ≤ t.inner.start ∨ t.inner.stop ≤ s.inner.start := by
  have apart {s t : Site} (h : s.Precedes t) (hst : ¬s.Encloses t.before.length) {x : Text}
      (hx : s.filling.render? = some x) : s.inner.stop ≤ t.inner.start := by
    have hstart := t.inner_start_le.1
    rcases h.2 with hle | ⟨span, hspan, hle⟩
    · simp only [Site.inner, Site.text, hx, Option.getD_some, List.length_append] at hle hstart ⊢
      omega
    · refine absurd ⟨span, hspan, ?_, ?_⟩ hst
      · obtain ⟨y, -, rfl⟩ := Option.map_eq_some_iff.1 hspan
        exact h.1
      · have := t.length_text_pos
        omega
  rcases Written.precedes_or_of_ne hs ht with h | h | h
  · exact absurd h hne
  · exact .inl (apart h hst hx)
  · exact .inr (apart h hts hy)

/-! ## Lists of changes -/

/-- The changes of a list of elements. -/
def Changes.of (l : List (Site × Change)) : Changes where
  content b := l.findSome? fun x => if x.1.before = b then x.2.content? else none
  more b := l.findSome? fun x => if x.1.before = b then x.2.more? else none
  text b := l.findSome? fun x => if x.1.before = b then x.2.text? else none

section

variable {l : List (Site × Change)} {x : Site × Change} {α : Type} {g : Change → Option α}

theorem findSome?_of_mem (hd : l.Pairwise fun x y => x.1.before ≠ y.1.before) (hx : x ∈ l) :
    (l.findSome? fun y => if y.1.before = x.1.before then g y.2 else none) = g x.2 := by
  induction l with
  | nil => cases hx
  | cons y l ih =>
    obtain ⟨hy, hd⟩ := List.pairwise_cons.1 hd
    rw [List.findSome?_cons]
    rcases List.mem_cons.1 hx with rfl | hx
    · -- No other element of the list starts where this one does.
      have hnone : (l.findSome? fun y => if y.1.before = x.1.before then g y.2 else none) = none :=
        List.findSome?_eq_none_iff.2 fun z hz => if_neg fun h => hy z hz h.symm
      rw [if_pos rfl, hnone]
      cases g x.2 <;> rfl
    · rw [if_neg (hy x hx), ih hd hx]

theorem exists_of_findSome? {b : Text} {a : α}
    (h : (l.findSome? fun y => if y.1.before = b then g y.2 else none) = some a) :
    ∃ x ∈ l, x.1.before = b ∧ g x.2 = some a := by
  obtain ⟨x, hx, h⟩ := List.exists_of_findSome?_eq_some h
  split at h
  · next hb => exact ⟨x, hx, hb, h⟩
  · cases h

theorem edits_of_mem (hd : l.Pairwise fun x y => x.1.before ≠ y.1.before) (hx : x ∈ l)
    (hs : x.2.Suits x.1) :
    x.1.edits (.of l) = [x.2.edit x.1] := by
  have hc : (Changes.of l).content x.1.before = x.2.content? := findSome?_of_mem hd hx
  have hm : (Changes.of l).more x.1.before = x.2.more? := findSome?_of_mem hd hx
  have ht : (Changes.of l).text x.1.before = x.2.text? := findSome?_of_mem hd hx
  obtain ⟨s, c⟩ := x
  cases c with
  | content w =>
    obtain ⟨⟨v, hv⟩, -⟩ := hs
    have hv : s.filling = .page v := hv
    simp [Site.edits, hv, hc, hm, Change.content?, Change.more?, Change.edit, Label.inside,
      Site.inner, Filling.render?]
  | more w =>
    obtain ⟨⟨v, hv⟩, -⟩ := hs
    have hv : s.filling = .page v := hv
    simp [Site.edits, hv, hc, hm, Change.content?, Change.more?, Change.edit, Label.atEnd,
      Site.inner, Filling.render?]
  | text t =>
    obtain ⟨⟨u, hu⟩, -⟩ := hs
    have hu : s.filling = .text u := hu
    simp [Site.edits, hu, ht, Change.text?, Change.edit, Label.inside, Site.inner, Filling.render?]

/-- Only the elements of the list are changed. -/
theorem exists_of_mem_edits {s : Site} {e : Edit} (h : e ∈ s.edits (.of l)) :
    ∃ x ∈ l, x.1.before = s.before := by
  have found {α : Type} {g : Change → Option α} {a : α}
      (h : (l.findSome? fun y => if y.1.before = s.before then g y.2 else none) = some a) :
      ∃ x ∈ l, x.1.before = s.before := by
    obtain ⟨x, hx, hb, -⟩ := exists_of_findSome? h
    exact ⟨x, hx, hb⟩
  rw [Site.edits] at h
  split at h
  · cases h
  · obtain ⟨u, hu, -⟩ := List.mem_map.1 h
    exact found (Option.mem_toList.1 hu)
  · rcases List.mem_append.1 h with h | h
    · obtain ⟨w, hw, -⟩ := List.mem_map.1 h
      exact found (Option.mem_toList.1 hw)
    · obtain ⟨w, hw, -⟩ := List.mem_map.1 h
      exact found (Option.mem_toList.1 hw)

end

theorem Edit.Apart.of_mem {es : List Edit} {a b : Edit} (h : Apart es) (ha : a ∈ es) (hb : b ∈ es)
    (hne : a ≠ b) :
    a.span.stop ≤ b.span.start ∨ b.span.stop ≤ a.span.start := by
  induction es with
  | nil => cases ha
  | cons e es ih =>
    obtain ⟨he, hes⟩ := List.pairwise_cons.1 h
    rcases List.mem_cons.1 ha with rfl | ha'
    · rcases List.mem_cons.1 hb with rfl | hb'
      · exact absurd rfl hne
      · exact he b hb'
    · rcases List.mem_cons.1 hb with rfl | hb'
      · exact (he a ha').symm
      · exact ih hes ha' hb'

/-- Elements of a page, each with a change that suits it, whose edits lie apart. -/
structure Written.Changed (w : Written) (l : List (Site × Change)) : Prop where
  mem : ∀ x ∈ l, x.1 ∈ w.sites false [] [] []
  suits : ∀ x ∈ l, x.2.Suits x.1
  distinct : l.Pairwise fun x y => x.1.before ≠ y.1.before
  apart : Edit.Apart (l.map fun x => x.2.edit x.1)

namespace Written.Changed

variable {w : Written} {l : List (Site × Change)} {x y : Site × Change}

theorem precedes_or (h : w.Changed l) (hx : x ∈ l) (hy : y ∈ l) (hne : x.1.before ≠ y.1.before) :
    x.1.Precedes y.1 ∨ y.1.Precedes x.1 := by
  rcases precedes_or_of_ne (h.mem x hx) (h.mem y hy) with h | h
  · exact absurd (congrArg Site.before h) hne
  · exact h

theorem start_ne (h : w.Changed l) (hx : x ∈ l) (hy : y ∈ l) (hne : x.1.before ≠ y.1.before) :
    (x.2.edit x.1).span.start ≠ (y.2.edit y.1).span.start := by
  rcases h.precedes_or hx hy hne with hp | hp
  · exact hp.start_ne (h.suits x hx) (h.suits y hy)
  · exact (hp.start_ne (h.suits y hy) (h.suits x hx)).symm

/-- The elements that are changed do not stand in a content that is replaced. -/
theorem mem_kept (h : w.Changed l) (hy : y ∈ l) : y.1 ∈ w.kept (.of l) false [] [] [] := by
  refine mem_kept_iff.2 ⟨h.mem y hy, fun t ht hc he => ?_⟩
  obtain ⟨v, hv⟩ := Option.isSome_iff_exists.1 hc
  obtain ⟨x, hx, hb, hg⟩ := exists_of_findSome? hv
  obtain rfl := eq_of_before (h.mem x hx) ht hb
  have hlt := he
  obtain ⟨span, hspan, h₁, -⟩ := hlt
  rw [(h.suits x hx).span?_eq] at hspan
  cases hspan
  have := x.1.inner_start_le
  have hne : x.1.before ≠ y.1.before := fun h => by
    rw [h] at this
    omega
  have hs : (x.2.edit x.1).span.start = x.1.inner.start := by
    obtain ⟨s, c⟩ := x
    cases c with
    | content w => rfl
    | more w => cases hg
    | text t => cases hg
  rcases h.precedes_or hx hy hne with hp | hp
  · refine hp.not_encloses (h.suits x hx) (h.suits y hy) hs (h.apart.of_mem ?_ ?_ ?_) he
    · exact List.mem_map_of_mem hx
    · exact List.mem_map_of_mem hy
    · exact fun he => h.start_ne hx hy hne (by rw [he])
  · have := hp.1
    omega

/-- No content is replaced and made longer at once. -/
theorem content_or_more (h : w.Changed l) (b : Text) : (Changes.of l).content b = none ∨
    (Changes.of l).more b = none := by
  cases hc : (Changes.of l).content b with
  | none => exact .inl rfl
  | some v =>
    obtain ⟨x, hx, rfl, hv⟩ := exists_of_findSome? hc
    refine .inr ((findSome?_of_mem h.distinct hx).trans ?_)
    obtain ⟨s, c⟩ := x
    cases c with
    | content w => rfl
    | more w => cases hv
    | text t => rfl

/-- The edits of the elements are the edits of the page. -/
theorem perm (h : w.Changed l) : (l.map fun x => x.2.edit x.1).Perm (w.edits (.of l) []) := by
  refine (List.perm_ext_iff_of_nodup ?_ ?_).2 fun e => ?_
  · refine List.pairwise_map.2 (h.distinct.imp_of_mem fun {x y} hx hy hne he => ?_)
    exact h.start_ne hx hy hne (congrArg (·.span.start) he)
  · refine (pairwise_edits h.content_or_more w []).imp fun hlt he => ?_
    rw [he] at hlt
    exact Nat.lt_irrefl _ hlt.1
  · rw [mem_edits_iff false [] [], List.mem_map]
    constructor
    · rintro ⟨x, hx, rfl⟩
      refine ⟨x.1, h.mem_kept hx, ?_⟩
      rw [edits_of_mem h.distinct hx (h.suits x hx)]
      exact List.mem_singleton_self _
    · rintro ⟨s, hs, he⟩
      obtain ⟨x, hx, hb⟩ := exists_of_mem_edits he
      obtain rfl := eq_of_before (h.mem x hx) (mem_kept_iff.1 hs).1 hb
      rw [edits_of_mem h.distinct hx (h.suits x hx)] at he
      exact ⟨x, hx, (List.mem_singleton.1 he).symm⟩

/-- The edits of the elements make the changed page. -/
theorem applyAll_eq (h : w.Changed l) :
    Edit.applyAll w.render (l.map fun x => x.2.edit x.1) = (w.change (.of l) []).render :=
  Written.applyAll_eq h.content_or_more h.perm

/-- The changed page is well-formed. -/
theorem wellFormed (h : w.Changed l) (hw : w.WellFormed) : (w.change (.of l) []).WellFormed := by
  refine wellFormed_change false [] [] hw fun s hs => ?_
  have found {α : Type} {g : Change → Option α} {a : α}
      (ha : (l.findSome? fun y => if y.1.before = s.before then g y.2 else none) = some a) :
      ∃ c : Change, g c = some a ∧ c.Suits s := by
    obtain ⟨x, hx, hb, hg⟩ := exists_of_findSome? ha
    obtain rfl := eq_of_before (h.mem x hx) (mem_kept_iff.1 hs).1 hb
    exact ⟨x.2, hg, h.suits x hx⟩
  rw [Site.Fits]
  split
  · trivial
  · intro u hu
    obtain ⟨c, hc, hsuits⟩ := found hu
    cases c with
    | text t => cases hc; exact hsuits.2
    | content w => cases hc
    | more w => cases hc
  · refine ⟨fun v hv => ?_, fun v hv => ?_⟩
    · obtain ⟨c, hc, hsuits⟩ := found hv
      cases c with
      | content w => cases hc; exact hsuits.2
      | text t => cases hc
      | more w => cases hc
    · obtain ⟨c, hc, hsuits⟩ := found hv
      cases c with
      | more w => cases hc; exact hsuits.2
      | text t => cases hc
      | content w => cases hc

/-- An element with a new page between its tags is filled with this page. -/
theorem filled_content (h : w.Changed l) {s : Site} {v : Written} (hx : (s, .content v) ∈ l) :
    s.filled (.of l) = .page v := by
  obtain ⟨⟨u, hu⟩, -⟩ := h.suits _ hx
  have hu : s.filling = .page u := hu
  have hc : (Changes.of l).content s.before = some v := findSome?_of_mem h.distinct hx
  have hm : (Changes.of l).more s.before = none := findSome?_of_mem h.distinct hx
  simp only [Site.filled, hu, hc, hm, Option.getD_some, Option.getD_none, append_nil]

/-- An element with a new raw text is filled with this text. -/
theorem filled_text (h : w.Changed l) {s : Site} {t : Text} (hx : (s, .text t) ∈ l) :
    s.filled (.of l) = .text t := by
  obtain ⟨⟨u, hu⟩, -⟩ := h.suits _ hx
  have hu : s.filling = .text u := hu
  have ht : (Changes.of l).text s.before = some t := findSome?_of_mem h.distinct hx
  simp only [Site.filled, hu, ht, Option.getD_some]

/-- A page at the end of the content is part of what the element is filled with. -/
theorem filled_more (h : w.Changed l) {s : Site} {v : Written} (hx : (s, .more v) ∈ l) :
    ∃ u : Written, s.filled (.of l) = .page (u.append v) := by
  obtain ⟨⟨u, hu⟩, -⟩ := h.suits _ hx
  have hu : s.filling = .page u := hu
  have hm : (Changes.of l).more s.before = some v := findSome?_of_mem h.distinct hx
  refine ⟨((Changes.of l).content s.before).getD (u.change (.of l) (s.before ++ s.label.start)), ?_⟩
  simp only [Site.filled, hu, hm, Option.getD_some]

end Written.Changed

/-- The raw text of an element that is not changed stays. -/
theorem Site.filled_of_text {l : List (Site × Change)} {s : Site} {t : Text}
    (hs : s.filling = .text t) (hl : ∀ x ∈ l, x.1.before ≠ s.before) :
    s.filled (.of l) = .text t := by
  have ht : (Changes.of l).text s.before = none :=
    List.findSome?_eq_none_iff.2 fun x hx => if_neg (hl x hx)
  simp only [Site.filled, hs, ht, Option.getD_none]

end SlideDeck.Markup
