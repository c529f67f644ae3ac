import SlideDeck.Proofs.Markup.Change

/-!
# The elements of a changed page

The elements of a changed page are those of the page that do not stand in a content that is replaced
(`Written.kept`), changed themselves (`Site.Becomes`), and those of the new pages. The edits of the
page are those of the elements that are kept (`Written.mem_edits_iff`). A search for the first
element of some kind comes to what has become of the element that it came to before, if the new
pages hold no element of this kind (`Written.find?_change`).
-/

namespace SlideDeck.Markup

variable {f : Changes}

namespace Site

/-- What an element is filled with after the changes. -/
def filled (f : Changes) (s : Site) : Filling :=
  match s.filling with
  | .none => .none
  | .text t => .text ((f.text s.before).getD t)
  | .page w =>
    .page (((f.content s.before).getD (w.change f (s.before ++ s.label.start))).append
      ((f.more s.before).getD .nil))

/-- An element of the changed page that comes of an element of the page. -/
structure Becomes (f : Changes) (s s' : Site) : Prop where
  label : s'.label = s.label
  keeps : s'.keeps = s.keeps
  filling : s'.filling = s.filled f

/-- The edits that change an element. -/
def edits (f : Changes) (s : Site) : List Edit :=
  match s.filling with
  | .none => []
  | .text t => (f.text s.before).toList.map fun u => ⟨s.label.inside s.before t, u⟩
  | .page w =>
    ((f.content s.before).toList.map fun c => ⟨s.label.inside s.before w.render, c.render⟩)
      ++ (f.more s.before).toList.map fun m => ⟨s.label.atEnd s.before w.render, m.render⟩

theorem length_start_le (s : Site) : s.label.start.length ≤ s.text.length := by
  rw [text]
  split
  · exact Nat.le_refl _
  · rw [List.length_append]
    omega

/-- An element stands behind the start tag of another one: behind all of it or between its tags. -/
def Precedes (s t : Site) : Prop :=
  s.before.length + s.label.start.length ≤ t.before.length ∧
    (s.before.length + s.text.length ≤ t.before.length ∨
      ∃ span, s.span? = some span ∧ t.before.length + t.text.length ≤ span.stop)

end Site

namespace Written

variable {w : Written} {keeps : Bool} {before behind : Text} {around : List Element} {s : Site}

theorem sites_append (v w : Written) (keeps : Bool) (before behind : Text) (around : List Element) :
    (v.append w).sites keeps before behind around
      = v.sites keeps before (w.render ++ behind) around ++
        w.sites keeps (before ++ v.render) behind around := by
  induction v generalizing before behind around with
  | nil => simp [append, sites, render]
  | letter l next ih => simp only [append, sites, render, ih, List.append_assoc]
  | remark r next ih => simp only [append, sites, render, ih, List.append_assoc]
  | void l next ih =>
      simp only [append, sites, render, ih, render_append, List.append_assoc, List.cons_append]
  | raw l t next ih =>
      simp only [append, sites, render, ih, render_append, List.append_assoc, List.cons_append]
  | element l content next _ ih =>
      simp only [append, sites, render, ih, render_append, List.append_assoc, List.cons_append]

/-- The elements of a page that do not stand in a content that is replaced. -/
def kept (f : Changes) (keeps : Bool) (before behind : Text) (around : List Element) :
    Written → List Site
  | .nil => []
  | .letter l next => next.kept f keeps (before ++ l.render) behind around
  | .remark r next => next.kept f keeps (before ++ r.render) behind around
  | .void l next =>
    ⟨l, .none, before, next.render ++ behind, around, keeps⟩ ::
      next.kept f keeps (before ++ l.start) behind around
  | .raw l t next =>
    ⟨l, .text t, before, next.render ++ behind, around, keeps⟩
      :: next.kept f keeps (before ++ (l.start ++ (t ++ l.stop))) behind around
  | .element l content next =>
    let s : Site := ⟨l, .page content, before, next.render ++ behind, around, keeps⟩
    s :: ((if (f.content before).isSome then []
        else content.kept f (blankKeepers.contains l.name || keeps) (before ++ l.start)
          (l.stop ++ (next.render ++ behind))
          (s.element :: around))
      ++ next.kept f keeps (before ++ (l.start ++ (content.render ++ l.stop))) behind around)

theorem kept_sublist (f : Changes) (w : Written) (keeps : Bool) (before behind : Text)
    (around : List Element) :
    (w.kept f keeps before behind around).Sublist (w.sites keeps before behind around) := by
  induction w generalizing keeps before behind around with
  | nil => exact .slnil
  | letter l next ih => exact ih ..
  | remark r next ih => exact ih ..
  | void l next ih => exact (ih ..).cons_cons _
  | raw l t next ih => exact (ih ..).cons_cons _
  | element l content next ihc ihn =>
    refine List.Sublist.cons_cons _ (List.Sublist.append ?_ (ihn ..))
    split
    · exact List.nil_sublist _
    · exact ihc ..

/-- Of a content that is not replaced, the elements are kept that are kept of it as a page. -/
theorem mem_kept_element {l : Label} {content next : Written} (hc : f.content before = none)
    (h : s ∈ content.kept f (blankKeepers.contains l.name || keeps) (before ++ l.start)
      (l.stop ++ (next.render ++ behind))
      (Site.element ⟨l, .page content, before, next.render ++ behind, around, keeps⟩ :: around)) :
    s ∈ (Written.element l content next).kept f keeps before behind around := by
  refine List.mem_cons_of_mem _ (List.mem_append_left _ ?_)
  rw [hc]
  exact h

/-- The edits of a page are those of the elements that are kept. -/
theorem mem_edits_iff {e : Edit} (keeps : Bool) (behind : Text) (around : List Element) :
    e ∈ w.edits f before ↔ ∃ s ∈ w.kept f keeps before behind around, e ∈ s.edits f := by
  induction w generalizing keeps before behind around with
  | nil => exact ⟨fun h => (nomatch h), fun ⟨_, h, _⟩ => nomatch h⟩
  | letter l next ih => exact ih ..
  | remark r next ih => exact ih ..
  | void l next ih =>
    rw [edits, ih keeps behind around, kept]
    simp [Site.edits]
  | raw l t next ih =>
    rw [edits, List.mem_append, ih keeps behind around, kept]
    simp [Site.edits]
  | element l content next ihc ihn =>
    rw [edits, List.mem_append, List.mem_append, ihn keeps behind around, kept]
    simp only [List.mem_cons, List.mem_append, or_and_right, exists_or, exists_eq_left]
    cases hc : f.content before with
    | some c => simp [Site.edits, hc, or_assoc]
    | none =>
      rw [ihc (blankKeepers.contains l.name || keeps) (l.stop ++ (next.render ++ behind))
        (Site.element ⟨l, .page content, before, next.render ++ behind, around, keeps⟩ :: around),
        or_left_comm]
      simp [Site.edits, hc]

theorem precedes_of_next {t : Site} {w' : Written} {b b' : Text} {a : List Element}
    (ht : t ∈ w'.sites keeps b b' a) (hs : s.before.length + s.text.length = b.length) :
    s.Precedes t := by
  have h := (within_of_mem_sites ht).1
  have := s.length_start_le
  exact ⟨by omega, .inl (by omega)⟩

/-- Of two elements of a page, one stands before the other or between its tags. -/
theorem pairwise_sites (w : Written) (keeps : Bool) (before behind : Text) (around : List Element) :
    (w.sites keeps before behind around).Pairwise Site.Precedes := by
  induction w generalizing keeps before behind around with
  | nil => exact .nil
  | letter l next ih => exact ih ..
  | remark r next ih => exact ih ..
  | void l next ih =>
    refine List.pairwise_cons.2 ⟨fun t ht => precedes_of_next ht ?_, ih ..⟩
    simp [Site.text, Filling.render?]
  | raw l t next ih =>
    refine List.pairwise_cons.2 ⟨fun t ht => precedes_of_next ht ?_, ih ..⟩
    simp [Site.text, Filling.render?]
  | element l content next ihc ihn =>
    refine List.pairwise_cons.2
      ⟨fun t ht => ?_, List.pairwise_append.2 ⟨ihc .., ihn .., fun s hs t ht => ?_⟩⟩
    · rcases List.mem_append.1 ht with ht | ht
      · obtain ⟨h₁, h₂⟩ := within_of_mem_sites ht
        rw [List.length_append] at h₁ h₂
        exact ⟨h₁, .inr ⟨_, rfl, h₂⟩⟩
      · exact precedes_of_next ht (by simp [Site.text, Filling.render?])
    · have hs := (within_of_mem_sites hs).2
      have ht := (within_of_mem_sites ht).1
      have := s.length_start_le
      simp only [List.length_append] at hs ht
      exact ⟨by omega, .inl (by omega)⟩

theorem precedes_or_of_ne {t : Site} (hs : s ∈ w.sites keeps before behind around)
    (ht : t ∈ w.sites keeps before behind around) : s = t ∨ s.Precedes t ∨ t.Precedes s := by
  have hp := pairwise_sites w keeps before behind around
  generalize w.sites keeps before behind around = l at hs ht hp
  induction l with
  | nil => cases hs
  | cons a l ih =>
    obtain ⟨ha, hp⟩ := List.pairwise_cons.1 hp
    rcases List.mem_cons.1 hs with rfl | hs'
    · rcases List.mem_cons.1 ht with rfl | ht'
      · exact .inl rfl
      · exact .inr (.inl (ha t ht'))
    · rcases List.mem_cons.1 ht with rfl | ht'
      · exact .inr (.inr (ha s hs'))
      · exact ih hs' ht' hp

theorem eq_of_before {t : Site} (hs : s ∈ w.sites keeps before behind around)
    (ht : t ∈ w.sites keeps before behind around) (h : s.before = t.before) : s = t := by
  have h₁ := List.length_pos_iff.2 s.label.start_ne_nil
  have h₂ := List.length_pos_iff.2 t.label.start_ne_nil
  rcases precedes_or_of_ne hs ht with he | hp | hp
  · exact he
  · have := hp.1
    rw [h] at this
    omega
  · have := hp.1
    rw [h] at this
    omega

/-- The elements of a list between whose tags an element does not stand, if their contents are
replaced. -/
def IsFree (f : Changes) (l : List Site) (s : Site) : Prop :=
  ∀ t ∈ l, (f.content t.before).isSome → ¬t.Encloses s.before.length

theorem not_encloses_start (h : s ∈ w.sites keeps before behind around) :
    ¬s.Encloses before.length :=
  fun he => Nat.lt_irrefl _ (lt_of_encloses h he).1

theorem not_encloses_next {t : Site} (h : s ∈ w.sites keeps before behind around)
    (ht : t.before.length + t.text.length = before.length) : ¬t.Encloses s.before.length :=
  fun he => by
  have := he.within.2
  have := (within_of_mem_sites h).1
  omega

/-- What is kept behind an element that is closed. -/
theorem mem_kept_cons {t : Site} {l kept : List Site}
    (hall : ∀ u ∈ t :: l, ¬u.Encloses t.before.length) (hl : ∀ s ∈ l, ¬t.Encloses s.before.length)
    (ih : s ∈ kept ↔ s ∈ l ∧ IsFree f l s) :
    s ∈ t :: kept ↔ s ∈ t :: l ∧ IsFree f (t :: l) s := by
  rw [List.mem_cons, List.mem_cons, ih]
  constructor
  · rintro (rfl | ⟨hs, hfree⟩)
    · exact ⟨.inl rfl, fun u hu _ => hall u hu⟩
    · refine ⟨.inr hs, fun u hu hc => ?_⟩
      rcases List.mem_cons.1 hu with rfl | hu
      · exact hl s hs
      · exact hfree u hu hc
  · rintro ⟨rfl | hs, hfree⟩
    · exact .inl rfl
    · exact .inr ⟨hs, fun u hu => hfree u (List.mem_cons_of_mem _ hu)⟩

/-- An element is kept if and only if it does not stand in a content that is replaced. -/
theorem mem_kept_iff : s ∈ w.kept f keeps before behind around ↔
    s ∈ w.sites keeps before behind around ∧ IsFree f (w.sites keeps before behind around) s := by
  induction w generalizing keeps before behind around with
  | nil => exact ⟨fun h => (nomatch h), fun ⟨h, _⟩ => nomatch h⟩
  | letter l next ih => exact ih
  | remark r next ih => exact ih
  | void l next ih =>
    refine mem_kept_cons (fun u hu => not_encloses_start (w := .void l next) hu) (fun s hs => ?_) ih
    exact not_encloses_next hs (by simp [Site.text, Filling.render?])
  | raw l t next ih =>
    refine mem_kept_cons (fun u hu => not_encloses_start (w := .raw l t next) hu)
      (fun s hs => ?_) ih
    exact not_encloses_next hs (by simp [Site.text, Filling.render?])
  | element l content next ihc ihn =>
    rw [kept, sites, List.mem_cons, List.mem_cons, List.mem_append, List.mem_append, ihn]
    have hclosed {s}
        (hs : s ∈ next.sites keeps (before ++ (l.start ++ (content.render ++ l.stop))) behind
          around) :
        ¬Site.Encloses ⟨l, .page content, before, next.render ++ behind, around, keeps⟩
          s.before.length :=
      not_encloses_next hs (by simp [Site.text, Filling.render?])
    constructor
    · rintro (rfl | h | ⟨hs, hfree⟩)
      · exact ⟨.inl rfl, fun u hu _ => not_encloses_start (w := .element l content next) hu⟩
      · -- Nothing is kept of a content that is replaced.
        split at h
        · cases h
        next hc =>
        obtain ⟨hs, hfree⟩ := ihc.1 h
        refine ⟨.inr (.inl hs), fun u hu hcu => ?_⟩
        rcases List.mem_cons.1 hu with rfl | hu
        · exact absurd hcu hc
        rcases List.mem_append.1 hu with hu | hu
        · exact hfree u hu hcu
        · exact (not_encloses_of_apart hs hu (by simp only [List.length_append]; omega)).1
      · refine ⟨.inr (.inr hs), fun u hu hcu => ?_⟩
        rcases List.mem_cons.1 hu with rfl | hu
        · exact hclosed hs
        rcases List.mem_append.1 hu with hu | hu
        · exact (not_encloses_of_apart hu hs (by simp only [List.length_append]; omega)).2
        · exact hfree u hu hcu
    · rintro ⟨rfl | hs | hs, hfree⟩
      · exact .inl rfl
      · have hc : ¬(f.content before).isSome := fun hc =>
          hfree _ (List.mem_cons_self ..) hc (encloses_of_mem_sites hs ..)
        rw [if_neg hc]
        exact .inr (.inl (ihc.2
          ⟨hs, fun u hu => hfree u (List.mem_cons_of_mem _ (List.mem_append_left _ hu))⟩))
      · exact .inr (.inr ⟨hs,
          fun u hu => hfree u (List.mem_cons_of_mem _ (List.mem_append_right _ hu))⟩)

/-! ## Searches -/

section

variable {p q : Site → Bool} {before' behind' : Text} {around' : List Element}

theorem rel_or {r : Site → Site → Prop} {a b c d : Option Site} (h₁ : Option.Rel r a b)
    (h₂ : a = none → Option.Rel r c d) : Option.Rel r (a.or c) (b.or d) := by
  cases h₁ with
  | none => exact h₂ rfl
  | some h => exact .some h

theorem rel_find?_cons {r : Site → Site → Prop} {s s' : Site} {l l' : List Site} (h : r s s')
    (hq : q s' = p s) (hl : p s = false → Option.Rel r (l.find? p) (l'.find? q)) :
    Option.Rel r ((s :: l).find? p) ((s' :: l').find? q) := by
  rw [List.find?_cons, List.find?_cons, hq]
  cases hp : p s with
  | true => exact .some h
  | false => exact hl hp

/-- The first element of some kind in the changed page comes of the first element of this kind that
is kept. -/
theorem find?_change
    (hpq : ∀ s ∈ w.kept f keeps before behind around, ∀ s', s.Becomes f s' → q s' = p s)
    (hnew : ∀ s ∈ w.kept f keeps before behind around, p s = false → ∀ v,
      f.content s.before = some v ∨ f.more s.before = some v → ∀ keeps before behind around,
        (v.sites keeps before behind around).find? q = none) :
    Option.Rel (Site.Becomes f) ((w.kept f keeps before behind around).find? p)
      (((w.change f before).sites keeps before' behind' around').find? q) := by
  induction w generalizing keeps before behind around before' behind' around' with
  | nil => exact .none
  | letter l next ih => exact ih hpq hnew
  | remark r next ih => exact ih hpq hnew
  | void l next ih =>
    have hb : Site.Becomes f ⟨l, .none, before, next.render ++ behind, around, keeps⟩
        ⟨l, .none, before', (next.change f (before ++ l.start)).render ++ behind', around',
          keeps⟩ := ⟨rfl, rfl, rfl⟩
    refine rel_find?_cons hb (hpq _ (List.mem_cons_self ..) _ hb) fun _ => ih ?_ ?_
    · exact fun s hs => hpq s (List.mem_cons_of_mem _ hs)
    · exact fun s hs => hnew s (List.mem_cons_of_mem _ hs)
  | raw l t next ih =>
    have hb : Site.Becomes f ⟨l, .text t, before, next.render ++ behind, around, keeps⟩
        ⟨l, .text ((f.text before).getD t), before',
          (next.change f (before ++ (l.start ++ (t ++ l.stop)))).render ++ behind', around',
            keeps⟩ := ⟨rfl, rfl, rfl⟩
    refine rel_find?_cons hb (hpq _ (List.mem_cons_self ..) _ hb) fun _ => ih ?_ ?_
    · exact fun s hs => hpq s (List.mem_cons_of_mem _ hs)
    · exact fun s hs => hnew s (List.mem_cons_of_mem _ hs)
  | element l content next ihc ihn =>
    let s : Site := ⟨l, .page content, before, next.render ++ behind, around, keeps⟩
    let s' : Site := ⟨l, s.filled f, before',
      (next.change f (before ++ (l.start ++ (content.render ++ l.stop)))).render ++ behind',
      around', keeps⟩
    have hb : s.Becomes f s' := ⟨rfl, rfl, rfl⟩
    refine rel_find?_cons hb (hpq s (List.mem_cons_self ..) s' hb) fun hp => ?_
    have hnew' := hnew s (List.mem_cons_self ..) hp
    have hmore : ∀ k b c a, (((f.more before).getD .nil).sites k b c a).find? q = none := by
      intro k b c a
      cases hm : f.more before with
      | none => rfl
      | some m => exact hnew' m (.inr hm) ..
    rw [List.find?_append, List.find?_append, sites_append, List.find?_append, hmore,
      Option.or_none]
    refine rel_or ?_ fun _ => ihn ?_ ?_
    · -- The content is replaced by a page without such elements, or changed.
      cases hc : f.content before with
      | some c =>
        have := hnew' c (.inl hc) (blankKeepers.contains l.name || keeps)
        simp only [Option.isSome_some, ite_true, List.find?_nil, Option.getD_some, this]
        exact .none
      | none =>
        exact ihc (fun t ht => hpq t (mem_kept_element hc ht))
          (fun t ht => hnew t (mem_kept_element hc ht))
    · exact fun t ht => hpq t (List.mem_cons_of_mem _ (List.mem_append_right _ ht))
    · exact fun t ht => hnew t (List.mem_cons_of_mem _ (List.mem_append_right _ ht))

/-- What is found first, if it is kept, is found first among what is kept. -/
theorem find?_kept (hf : (w.sites keeps before behind around).find? p = some s)
    (hs : s ∈ w.kept f keeps before behind around) :
    (w.kept f keeps before behind around).find? p = some s := by
  have hsub := kept_sublist f w keeps before behind around
  have hd : (w.sites keeps before behind around).Pairwise (· ≠ ·) := by
    refine (pairwise_sites w keeps before behind around).imp fun {s t} h he => ?_
    have := h.1
    have := List.length_pos_iff.2 s.label.start_ne_nil
    rw [he] at *
    omega
  generalize w.sites keeps before behind around = l at hf hsub hd
  generalize w.kept f keeps before behind around = k at hs hsub
  induction hsub with
  | slnil => cases hs
  | cons a hsub ih =>
    obtain ⟨ha, hd⟩ := List.pairwise_cons.1 hd
    rw [List.find?_cons] at hf
    split at hf
    · cases hf
      exact absurd rfl (ha _ (hsub.subset hs))
    · exact ih hf hd hs
  | cons_cons a hsub ih =>
    obtain ⟨-, hd⟩ := List.pairwise_cons.1 hd
    rw [List.find?_cons] at hf ⊢
    cases hp : p a with
    | true => rwa [hp] at hf
    | false =>
      rw [hp] at hf
      rcases List.mem_cons.1 hs with rfl | hs
      · rw [List.find?_some hf] at hp
        cases hp
      · exact ih hf hd hs

end

/-! ## Well-formed changes -/

theorem WellFormed.append {v : Written} (hv : v.WellFormed) (hw : w.WellFormed) :
    (v.append w).WellFormed := by
  induction v with
  | nil => exact hw
  | letter l next ih => exact ⟨hv.1, ih hv.2⟩
  | remark r next ih => exact ⟨hv.1, ih hv.2⟩
  | void l next ih => exact ⟨hv.1, ih hv.2⟩
  | raw l t next ih => exact ⟨hv.1, ih hv.2⟩
  | element l content next _ ih => exact ⟨hv.1, hv.2.1, ih hv.2.2⟩

theorem IsLetters.change (h : w.IsLetters) (f : Changes) (before : Text) :
    (w.change f before).IsLetters := by
  induction w generalizing before with
  | nil => trivial
  | letter l next ih => exact ih h _
  | remark | void | raw | element => exact h.elim

theorem IsLetters.append {v : Written} (hv : v.IsLetters) (hw : w.IsLetters) :
    (v.append w).IsLetters := by
  induction v with
  | nil => exact hw
  | letter l next ih => exact ih hv
  | remark | void | raw | element => exact hv.elim

end Written

/-- The changes of an element leave it as it is read. -/
def Site.Fits (f : Changes) (s : Site) : Prop :=
  match s.filling with
  | .none => True
  | .text _ => ∀ u, f.text s.before = some u → Text.search (skipEndTag s.label.name) u = none
  | .page _ =>
    (∀ c, f.content s.before = some c → c.WellFormed ∧
      (isRawSpan s.label.name = true → c.IsLetters)) ∧
      ∀ m, f.more s.before = some m → m.WellFormed ∧ isRawSpan s.label.name = false

theorem Written.wellFormed_change {w : Written} (keeps : Bool) {before : Text} (behind : Text)
    (around : List Element) (hw : w.WellFormed)
    (hf : ∀ s ∈ w.kept f keeps before behind around, s.Fits f) :
    (w.change f before).WellFormed := by
  induction w generalizing keeps before behind around with
  | nil => trivial
  | letter l next ih => exact ⟨hw.1, ih _ _ _ hw.2 hf⟩
  | remark r next ih => exact ⟨hw.1, ih _ _ _ hw.2 hf⟩
  | void l next ih => exact ⟨hw.1, ih _ _ _ hw.2 fun s hs => hf s (List.mem_cons_of_mem _ hs)⟩
  | raw l t next ih =>
    obtain ⟨⟨hl, hr, hs⟩, hw⟩ := hw
    refine ⟨⟨hl, hr, ?_⟩, ih _ _ _ hw fun s hs => hf s (List.mem_cons_of_mem _ hs)⟩
    cases hu : f.text before with
    | none => exact hs
    | some u => exact hf _ (List.mem_cons_self ..) u hu
  | element l content next ihc ihn =>
    obtain ⟨⟨hl, hv, hr, hs⟩, hc, hw⟩ := hw
    obtain ⟨hnew, hmore⟩ := hf _ (List.mem_cons_self ..)
    have hmore' : ((f.more before).getD .nil).WellFormed := by
      cases hm : f.more before with
      | none => trivial
      | some m => exact (hmore m hm).1
    have hinner :
        (((f.content before).getD (content.change f (before ++ l.start))).WellFormed) := by
      cases hcb : f.content before with
      | some c => exact (hnew c hcb).1
      | none =>
        exact ihc _ _ _ hc fun s hs => hf s (mem_kept_element hcb hs)
    refine ⟨⟨hl, hv, hr, fun h => ?_⟩, hinner.append hmore', ?_⟩
    · have hm : f.more before = none := by
        cases hm : f.more before with
        | none => rfl
        | some m => rw [(hmore m hm).2] at h; cases h
      rw [hm]
      refine IsLetters.append ?_ trivial
      cases hcb : f.content before with
      | some c => exact (hnew c hcb).2 h
      | none => exact (hs h).change f _
    · exact ihn _ _ _ hw fun s hs => hf s (List.mem_cons_of_mem _ (List.mem_append_right _ hs))

end SlideDeck.Markup
