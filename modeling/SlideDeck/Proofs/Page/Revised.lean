import Mathlib.Data.List.Find
import SlideDeck.Proofs.Page.Revision

/-!
# Revised pages

A revised page is well-formed, and what a revision looks for in it is what has become of the
elements that the first one changed: the container (`Plan.exists_container`), the title
(`Plan.exists_title`) and the script (`Plan.rel_script`).
-/

namespace SlideDeck.Page

open Markup

variable {marker : Text} {content : Content} {w v : Written} {c s : Site}
  {lt ls : List (Site × Change)}

/-- The page that a revision makes. -/
def revised (w : Written) (c : Site) (v : Written) (lt ls : List (Site × Change)) : Written :=
  w.change (.of (planned c v lt ls)) []

theorem mem_planned {x : Site × Change} : x ∈ planned c v lt ls ↔ x = (c, .content v) ∨ x ∈ lt ∨
    x ∈ ls := by
  rw [planned, List.mem_cons, List.mem_append]

/-- The only element of a title in an element of its own. -/
theorem sites_titlePage (title : Text) (keeps : Bool) (before behind : Text)
    (around : List Element) :
    (titlePage title).sites keeps before behind around
      = [⟨⟨"title".toList, []⟩, .page (.ofTitle title), before, behind, around, keeps⟩] := by
  rw [titlePage, Written.sites, (Written.isLetters_ofTitle title).sites_eq_nil]
  rfl

theorem isNamed_of_becomes {f : Changes} {s s' : Site} (h : s.Becomes f s') (name : Text) :
    isNamed name s' = isNamed name s := by
  rw [isNamed, isNamed, h.label]

/-- No script stands in a container of slides of an outline, so that it does not matter whether it
does. -/
theorem find?_mentions_of_outline {w : Written} {c' : Site} (hc : c'.filling = .page v)
    (hv : v.IsOutline) :
    (w.sites false [] [] []).find? (fun s => mentions marker s && !isInside c' s)
      = (w.sites false [] [] []).find? (mentions marker) := by
  refine List.find?_congr fun s hs => ?_
  cases hms : mentions marker s with
  | false => rfl
  | true =>
    have hi : isInside c' s = false := by
      refine not_same_of_not_mem (mem_ancestorsOf_nodes hs) fun hn => ?_
      have hout := name_of_mem_namesAll hv hc hn
      rw [show s.element.name = s.label.name from rfl, name_of_mentions hms] at hout
      exact absurd hout (by decide)
    rw [hi]
    rfl

theorem isContainer_of_becomes {f : Changes} {s s' : Site} (h : s.Becomes f s') :
    isContainer s' = isContainer s := by
  show (Text.words ((s'.label.read.lookup _).getD [])).contains _ =
      (Text.words ((s.label.read.lookup _).getD [])).contains _
  rw [h.label]

namespace Plan

variable [Record.Nesting]

/-- The pages that are new. -/
theorem new_cases (p : Plan marker content w c v lt ls) {b : Text} {u : Written}
    (h : (Changes.of (planned c v lt ls)).content b = some u ∨
      (Changes.of (planned c v lt ls)).more b = some u) :
    b = c.before ∧ u = v ∨ u.IsLetters ∨ u = titlePage content.title ∧
      ∃ d, lt = [(d, .more u)] := by
  obtain ⟨x, hx, rfl, hu⟩ : ∃ x ∈ planned c v lt ls, x.1.before = b ∧
      (x.2.content? = some u ∨ x.2.more? = some u) := by
    rcases h with h | h
    · obtain ⟨x, hx, hb, hg⟩ := exists_of_findSome? h
      exact ⟨x, hx, hb, .inl hg⟩
    · obtain ⟨x, hx, hb, hg⟩ := exists_of_findSome? h
      exact ⟨x, hx, hb, .inr hg⟩
  rcases mem_planned.1 hx with rfl | hx | hx
  · refine .inl ⟨rfl, ?_⟩
    rcases hu with hu | hu <;> cases hu
    rfl
  · cases p.title with
    | title =>
      rw [List.mem_singleton.1 hx] at hu
      rcases hu with hu | hu <;> cases hu
      exact .inr (.inl (Written.isLetters_ofTitle _))
    | @head d =>
      rw [List.mem_singleton.1 hx] at hu
      rcases hu with hu | hu <;> cases hu
      exact .inr (.inr ⟨rfl, d, rfl⟩)
    | missing => cases hx
  · cases p.config with
    | script =>
      rw [List.mem_singleton.1 hx] at hu
      rcases hu with hu | hu <;> cases hu
    | unread => cases hx
    | missing => cases hx

/-- A search in the revised page comes to what has become of what it came to in the page, if the new
pages hold nothing of the kind. -/
theorem rel_find? (p : Plan marker content w c v lt ls) {g : Site → Bool} (g' : Site → Bool)
    (hg : ∀ s ∈ w.kept (.of (planned c v lt ls)) false [] [] [], ∀ s',
      s.Becomes (.of (planned c v lt ls)) s' → g' s' = g s)
    (hc : g c = true ∨ ∀ k b b' a, (v.sites k b b' a).find? g' = none)
    (ht : (∃ d u, lt = [(d, .more u)]) →
      ∀ k b b' a, ((titlePage content.title).sites k b b' a).find? g' = none) :
    Option.Rel (Site.Becomes (.of (planned c v lt ls)))
      ((w.kept (.of (planned c v lt ls)) false [] [] []).find? g)
      (((revised w c v lt ls).sites false [] [] []).find? g') := by
  refine Written.find?_change hg fun s hs hgs u hu k b b' a => ?_
  rcases p.new_cases hu with ⟨hb, rfl⟩ | hl | ⟨rfl, d, hd⟩
  · rcases hc with hc | hc
    · rw [Written.eq_of_before (Written.mem_kept_iff.1 hs).1
        (p.changed.mem _ (mem_planned.2 (.inl rfl))) hb, hc] at hgs
      cases hgs
    · exact hc k b b' a
  · rw [hl.sites_eq_nil]
    rfl
  · exact ht ⟨d, _, hd⟩ k b b' a

/-- What is changed is found again. -/
theorem exists_find? (p : Plan marker content w c v lt ls) {g : Site → Bool} (g' : Site → Bool)
    {x : Site × Change} (hx : x ∈ planned c v lt ls)
    (hf : (w.sites false [] [] []).find? g = some x.1)
    (hg : ∀ s ∈ w.kept (.of (planned c v lt ls)) false [] [] [], ∀ s',
      s.Becomes (.of (planned c v lt ls)) s' → g' s' = g s)
    (hc : g c = true ∨ ∀ k b b' a, (v.sites k b b' a).find? g' = none)
    (ht : (∃ d u, lt = [(d, .more u)]) → ∀ k b b' a,
      ((titlePage content.title).sites k b b' a).find? g' = none) :
    ∃ s', ((revised w c v lt ls).sites false [] [] []).find? g' = some s' ∧
      s'.filling = x.1.filled (.of (planned c v lt ls)) ∧ s'.label = x.1.label := by
  have hr := p.rel_find? g' hg hc ht
  rw [Written.find?_kept hf (p.changed.mem_kept hx)] at hr
  generalize ((revised w c v lt ls).sites false [] [] []).find? g' = o at hr
  cases hr with
  | some h => exact ⟨_, rfl, h.filling, h.label⟩

/-- What is not there is not found. -/
theorem find?_eq_none (p : Plan marker content w c v lt ls) {g : Site → Bool} (g' : Site → Bool)
    (hf : ∀ s ∈ w.kept (.of (planned c v lt ls)) false [] [] [], g s = false)
    (hg : ∀ s ∈ w.kept (.of (planned c v lt ls)) false [] [] [], ∀ s',
      s.Becomes (.of (planned c v lt ls)) s' → g' s' = g s)
    (hc : ∀ k b b' a, (v.sites k b b' a).find? g' = none)
    (ht : (∃ d u, lt = [(d, .more u)]) →
      ∀ k b b' a, ((titlePage content.title).sites k b b' a).find? g' = none) :
    ((revised w c v lt ls).sites false [] [] []).find? g' = none := by
  have hr := p.rel_find? g' hg (.inr hc) ht
  rw [List.find?_eq_none.2 fun s hs => by simp [hf s hs]] at hr
  generalize ((revised w c v lt ls).sites false [] [] []).find? g' = o at hr
  cases hr with
  | none => rfl

/-- What holds of all that has become of the elements of the page, of the slides and of the new
title holds of all elements of the revised page. -/
theorem forall_sites (p : Plan marker content w c v lt ls) {P : Site → Prop}
    (hkept : ∀ s ∈ w.kept (.of (planned c v lt ls)) false [] [] [], ∀ s',
      s.Becomes (.of (planned c v lt ls)) s' → P s') (hv : ∀ k b b' a, ∀ s ∈ v.sites k b b' a, P s)
    (ht : (∃ d u, lt = [(d, .more u)]) → ∀ k b b' a, ∀ s ∈ (titlePage content.title).sites k b b' a,
      P s) :
    ∀ s ∈ (revised w c v lt ls).sites false [] [] [], P s := by
  classical
  have hnone := p.find?_eq_none (g := fun _ => false) (fun s => !decide (P s)) (fun _ _ => rfl)
    (fun s hs s' hb => by simp [hkept s hs s' hb])
    (fun k b b' a => List.find?_eq_none.2 fun s hs => by simp [hv k b b' a s hs])
    fun hd k b b' a => List.find?_eq_none.2 fun s hs => by simp [ht hd k b b' a s hs]
  intro s hs
  simpa using List.find?_eq_none.1 hnone s hs

theorem wellFormed (p : Plan marker content w c v lt ls) (h : IsSheet marker w c) :
    (revised w c v lt ls).WellFormed :=
  p.changed.wellFormed h.wellFormed

/-! ## The container -/

theorem exists_container (p : Plan marker content w c v lt ls) (h : IsSheet marker w c) :
    ∃ c', ((revised w c v lt ls).sites false [] [] []).find? isContainer = some c' ∧
      c'.filling = .page v ∧
      c'.label = c.label := by
  obtain ⟨c', hf, hfill, hl⟩ := p.exists_find? isContainer (mem_planned.2 (.inl rfl)) h.first
    (fun s _ s' hb => isContainer_of_becomes hb) (.inl (List.find?_some h.first))
      fun _ k b b' a => by
      rw [sites_titlePage]
      rfl
  exact ⟨c', hf, hfill.trans (p.changed.filled_content (mem_planned.2 (.inl rfl))), hl⟩

/-! ## The title -/

omit [Record.Nesting] in
theorem find?_isNamed_outline (hv : v.IsOutline) {name : Text} (hn : name ∉ outlineNames) (k : Bool)
    (b b' : Text) (a : List Element) : (v.sites k b b' a).find? (isNamed name) = none := by
  refine List.find?_eq_none.2 fun s hs hname => ?_
  rw [isNamed, decide_eq_true_eq] at hname
  exact hn (hname ▸ hv.name_of_mem_sites hs)

omit [Record.Nesting] in
theorem find?_isNamed_titlePage {title name : Text} (hn : name ≠ "title".toList) (k : Bool)
    (b b' : Text) (a : List Element) :
    ((titlePage title).sites k b b' a).find? (isNamed name) = none := by
  rw [sites_titlePage, List.find?_cons, isNamed, decide_eq_false (Ne.symm hn)]
  rfl

/-- In a page without a title, the only title of the revised page is that of the title put at the
end of the head. -/
theorem exists_title_of_head (p : Plan marker content w c v lt ls) {d : Site}
    (ht : (w.sites false [] [] []).find? (isNamed "title".toList) = none)
    (hd : (w.sites false [] [] []).find? (isNamed "head".toList) = some d)
    (hlt : lt = [(d, .more (titlePage content.title))]) :
    ∃ t', ((revised w c v lt ls).sites false [] [] []).find? (isNamed "title".toList) = some t' ∧
      t'.filling = .page (.ofTitle content.title) := by
  have hmem : (d, Change.more (titlePage content.title)) ∈ planned c v lt ls :=
    mem_planned.2 (.inr (.inl (hlt ▸ List.mem_singleton_self _)))
  -- The head is there, and with it the new title.
  obtain ⟨d', hd', hfill, -⟩ := p.exists_find? (isNamed "head".toList) hmem hd
    (fun s _ s' hb => isNamed_of_becomes hb _) (.inr (find?_isNamed_outline p.outline (by decide)))
    fun _ => find?_isNamed_titlePage (by decide)
  obtain ⟨u, hu⟩ := p.changed.filled_more hmem
  obtain ⟨k, b, b', a, hall⟩ :=
    Written.mem_sites_of_page (List.mem_of_find?_eq_some hd') (hfill.trans hu)
  rw [Written.sites_append, sites_titlePage] at hall
  have hnew := hall _ (List.mem_append_right _ (List.mem_singleton_self _))
  have hall : ∀ s ∈ (revised w c v lt ls).sites false [] [] [],
      isNamed "title".toList s = true → s.filling = .page (.ofTitle content.title) := by
    refine p.forall_sites (fun s hs s' hb hn => ?_) (fun k b b' a s hs hn => ?_)
      fun _ k b b' a s hs _ => ?_
    · rw [isNamed_of_becomes hb] at hn
      exact absurd hn (List.find?_eq_none.1 ht s (Written.mem_kept_iff.1 hs).1)
    · exact absurd hn
        (List.find?_eq_none.1 (find?_isNamed_outline p.outline (by decide) k b b' a) s hs)
    · rw [sites_titlePage, List.mem_singleton] at hs
      rw [hs]
  cases hf : ((revised w c v lt ls).sites false [] [] []).find? (isNamed "title".toList) with
  | none => exact absurd (by rfl) (List.find?_eq_none.1 hf _ hnew)
  | some t' => exact ⟨t', rfl, hall t' (List.mem_of_find?_eq_some hf) (List.find?_some hf)⟩

/-- The title's element holds the title, if there is one; otherwise there is none. -/
theorem exists_title (p : Plan marker content w c v lt ls) :
    (∃ t', ((revised w c v lt ls).sites false [] [] []).find? (isNamed "title".toList) = some t' ∧
      t'.filling = .page (.ofTitle content.title)) ∨
    ((revised w c v lt ls).sites false [] [] []).find? (isNamed "title".toList) = none ∧
      ((revised w c v lt ls).sites false [] [] []).find? (isNamed "head".toList) = none := by
  have outline {name : Text} (hn : name ∉ outlineNames) := find?_isNamed_outline p.outline hn
  cases p.title with
  | @title t ht =>
    have hmem : (t, Change.content (.ofTitle content.title)) ∈
        planned c v [(t, .content (.ofTitle content.title))] ls :=
      mem_planned.2 (.inr (.inl (List.mem_singleton_self _)))
    obtain ⟨t', hf, hfill, -⟩ :=
      p.exists_find? (isNamed "title".toList) hmem ht (fun s _ s' hb => isNamed_of_becomes hb _)
      (.inr (outline (by decide))) (by rintro ⟨_, _, h⟩; cases h)
    exact .inl ⟨t', hf, hfill.trans (p.changed.filled_content hmem)⟩
  | head ht hh => exact .inl (p.exists_title_of_head ht hh rfl)
  | missing ht hh =>
    have hnone {name : Text} (hf : (w.sites false [] [] []).find? (isNamed name) = none)
        (hn : name ∉ outlineNames) :
        ((revised w c v [] ls).sites false [] [] []).find? (isNamed name) = none := by
      refine p.find?_eq_none (isNamed name) (fun s hs => ?_)
        (fun s _ s' hb => isNamed_of_becomes hb _) (outline hn)
        (by rintro ⟨_, _, h⟩; cases h)
      have := List.find?_eq_none.1 hf s (Written.mem_kept_iff.1 hs).1
      simpa using this
    exact .inr ⟨hnone ht (by decide), hnone hh (by decide)⟩

/-! ## The script -/

/-- What is replaced is the content of the container or of a title. -/
theorem content_cases (p : Plan marker content w c v lt ls) {t : Site}
    (ht : t ∈ w.sites false [] [] [])
    (h : ((Changes.of (planned c v lt ls)).content t.before).isSome) :
    t = c ∨ t.label.name = "title".toList := by
  obtain ⟨u, hu⟩ := Option.isSome_iff_exists.1 h
  obtain ⟨x, hx, hb, hg⟩ := exists_of_findSome? hu
  obtain rfl := Written.eq_of_before (p.changed.mem x hx) ht hb
  rcases mem_planned.1 hx with rfl | hx | hx
  · exact .inl rfl
  · cases p.title with
    | title ht =>
      rw [List.mem_singleton.1 hx]
      exact .inr (name_of_find? ht)
    | head =>
      rw [List.mem_singleton.1 hx] at hg
      cases hg
    | missing => cases hx
  · cases p.config with
    | script =>
      rw [List.mem_singleton.1 hx] at hg
      cases hg
    | unread => cases hx
    | missing => cases hx

/-- What does not stand in an element like the container does not stand in a content that is
replaced. -/
theorem mem_kept_of_outside (p : Plan marker content w c v lt ls) (hw : w.WellFormed)
    (hs : s ∈ w.sites false [] [] []) (hi : isInside c s = false) :
    s ∈ w.kept (.of (planned c v lt ls)) false [] [] [] := by
  refine Written.mem_kept_iff.2 ⟨hs, fun t ht hc he => ?_⟩
  rcases p.content_cases ht hc with rfl | hn
  · rw [isInside_of_encloses hs ht he] at hi
    cases hi
  · obtain ⟨u, hu, hl⟩ := exists_page_of_titled hw ht (.inl hn)
    exact not_encloses_of_isLetters hs ht hu (hl (by rw [hn]; decide)) he

theorem content_container (p : Plan marker content w c v lt ls) :
    (Changes.of (planned c v lt ls)).content c.before = some v :=
  findSome?_of_mem (x := (c, .content v)) p.changed.distinct (mem_planned.2 (.inl rfl))

/-- Scripts that are kept and mention the variable stand outside of all elements like the
container. -/
theorem find?_mentions_kept (p : Plan marker content w c v lt ls) (h : IsSheet marker w c) :
    (w.kept (.of (planned c v lt ls)) false [] [] []).find? (mentions marker)
      = (w.sites false [] [] []).find? fun s => mentions marker s && !isInside c s := by
  have hcongr : (w.kept (.of (planned c v lt ls)) false [] [] []).find? (mentions marker)
      = (w.kept (.of (planned c v lt ls)) false [] [] []).find? fun s => mentions marker s &&
        !isInside c s := by
    refine List.find?_congr fun s hs => ?_
    obtain ⟨hm, hfree⟩ := Written.mem_kept_iff.1 hs
    cases hs : mentions marker s with
    | false => rfl
    | true =>
      cases hi : isInside c s with
      | false => rfl
      | true =>
        have hc := hfree c (List.mem_of_find?_eq_some h.first) (by rw [p.content_container]; rfl)
        exact absurd (h.alone s hm hs hi) hc
  rw [hcongr]
  cases hf : (w.sites false [] [] []).find? fun s => mentions marker s && !isInside c s with
  | none => exact List.find?_eq_none.2 fun s hs =>
      List.find?_eq_none.1 hf s (Written.mem_kept_iff.1 hs).1
  | some s =>
    have hs := List.find?_some hf
    rw [Bool.and_eq_true, Bool.not_eq_true'] at hs
    exact Written.find?_kept hf
      (p.mem_kept_of_outside h.wellFormed (List.mem_of_find?_eq_some hf) hs.2)

/-- The changes of a revision have given the script a text that mentions the variable, and that is
looked at as it is. -/
def Mentions (marker : Text) (ls : List (Site × Change)) : Prop :=
  ∀ s t, (s, .text t) ∈ ls → Text.holds marker t = true ∧ ∃ d ∈ t, Builder.isAsciiBlank d = false

/-- The only raw text that is changed is that of the script that was found. -/
theorem find?_of_text (p : Plan marker content w c v lt ls) {t : Text}
    (hx : (s, .text t) ∈ planned c v lt ls) :
    (s, .text t) ∈ ls ∧
      ((w.sites false [] [] []).find? fun s => mentions marker s && !isInside c s) = some s := by
  rcases mem_planned.1 hx with h | h | h
  · cases h
  · cases p.title with
    | title => cases List.mem_singleton.1 h
    | head => cases List.mem_singleton.1 h
    | missing => cases h
  · refine ⟨h, ?_⟩
    cases p.config with
    | script hf =>
      cases List.mem_singleton.1 h
      exact hf
    | unread => cases h
    | missing => cases h

/-- A raw text stays as it is, unless it is that of a script that is changed. -/
theorem filling_cases (p : Plan marker content w c v lt ls) (hs : s ∈ w.sites false [] [] [])
    {u : Text} (hu : s.filling = .text u) {s' : Site}
    (hb : s.Becomes (.of (planned c v lt ls)) s') :
    s'.filling = .text u ∨ ∃ t, (s, .text t) ∈ ls ∧ s'.filling = .text t := by
  by_cases hl : ∀ x ∈ planned c v lt ls, x.1.before ≠ s.before
  · exact .inl (hb.filling.trans (Site.filled_of_text hu hl))
  · obtain ⟨x, hx, hxs⟩ : ∃ x ∈ planned c v lt ls, x.1.before = s.before := by simpa using hl
    obtain rfl := Written.eq_of_before (p.changed.mem x hx) hs hxs
    have hsuits := p.changed.suits x hx
    obtain ⟨s, change⟩ := x
    have hu : s.filling = .text u := hu
    cases change with
    | content z =>
      obtain ⟨⟨z, hz⟩, -⟩ := hsuits
      cases hu.symm.trans hz
    | more z =>
      obtain ⟨⟨z, hz⟩, -⟩ := hsuits
      cases hu.symm.trans hz
    | text t => exact .inr ⟨t, (p.find?_of_text hx).1, hb.filling.trans (p.changed.filled_text hx)⟩

/-- A script mentions the variable as it did before. -/
theorem mentions_of_becomes (p : Plan marker content w c v lt ls) (hw : w.WellFormed)
    (hm : Mentions marker ls) (hs : s ∈ w.sites false [] [] []) {s' : Site}
    (hb : s.Becomes (.of (planned c v lt ls)) s') :
    mentions marker s' = mentions marker s := by
  rw [mentions, mentions, isNamed_of_becomes hb]
  cases hn : isNamed "script".toList s with
  | false => rfl
  | true =>
    rw [Bool.true_and, Bool.true_and]
    rw [isNamed, decide_eq_true_eq] at hn
    obtain ⟨u, hu⟩ := exists_text (Written.isReadable_of_mem_sites hw hs) hn
    rcases p.filling_cases hs hu hb with ht | ⟨t, hls, ht⟩
    · rw [scriptText_eq ht, scriptText_eq hu, hb.keeps]
    -- The new text mentions the variable, and so did the script, since it was found.
    · obtain ⟨hholds, d, hd, hblank⟩ := hm s t hls
      have hp := List.find?_some (p.find?_of_text (mem_planned.2 (.inr (.inr hls)))).2
      rw [Bool.and_eq_true, mentions, Bool.and_eq_true] at hp
      rw [scriptText_of_mem ht hd hblank, hholds, hp.1.2]

/-- In the revised page, the first script outside of the container that mentions the variable is the
one that was first. -/
theorem rel_script (p : Plan marker content w c v lt ls) (h : IsSheet marker w c)
    (hm : Mentions marker ls) {c' : Site} (hc : c'.filling = .page v) :
    Option.Rel (Site.Becomes (.of (planned c v lt ls)))
      ((w.sites false [] [] []).find? fun s => mentions marker s && !isInside c s)
      (((revised w c v lt ls).sites false [] [] []).find? fun s => mentions marker s &&
        !isInside c' s) := by
  rw [find?_mentions_of_outline hc p.outline, ← p.find?_mentions_kept h]
  refine p.rel_find? (mentions marker)
    (fun s hs s' hb => p.mentions_of_becomes h.wellFormed hm (Written.mem_kept_iff.1 hs).1 hb)
      (.inr ?_) ?_
  · intro k b b' a
    refine List.find?_eq_none.2 fun s hs hms => ?_
    have hout := p.outline.name_of_mem_sites hs
    rw [name_of_mentions hms] at hout
    exact absurd hout (by decide)
  · intro _ k b b' a
    refine List.find?_eq_none.2 fun s hs hms => ?_
    rw [sites_titlePage, List.mem_singleton] at hs
    have hn := name_of_mentions hms
    rw [hs] at hn
    exact absurd (show "title".toList = "script".toList from hn) (by decide)

end Plan

end SlideDeck.Page
