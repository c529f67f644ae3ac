import SlideDeck.Proofs.Layout.Nesting
import SlideDeck.Proofs.Page.Again
import SlideDeck.Proofs.Record.Written

/-!
# Line ends of revised pages

A file is read with line feeds for all line ends, so that a page is read as it was written only if
there is no carriage return in it. Neither an outline nor a record holds one, as they are written: a
revised page holds one only if the title or the page does (`return_not_mem_revise`).
-/

namespace SlideDeck

/-! ## Outlines -/

theorem Section.return_not_mem_render {s : Section} (hid : '\r' ∉ s.id)
    (hheading : '\r' ∉ s.heading) : '\r' ∉ s.render := by
  have htabs : '\r' ∉ List.replicate s.depth '\t' := not_mem_tabs (by decide) _
  have hstyle : '\r' ∉
      (if s.opens then " class=\"section-divider\" data-state=\"is-section-divider\"".toList
        else [] : Text) := by
    split <;> decide
  simp only [render, List.mem_append, List.mem_cons, hid, hheading, htabs, hstyle, false_or,
    or_false, not_or]
  decide

namespace Group

theorem return_not_mem_heading {t : Text} (h : '\r' ∉ t) : '\r' ∉ heading1 t ∧ '\r' ∉ heading2 t :=
  ⟨List.not_mem_append (List.not_mem_append (by decide) h) (by decide),
    List.not_mem_append (List.not_mem_append (by decide) h) (by decide)⟩

theorem return_not_mem_of_mem_sections {c : Cursor} {g : Group} {s : Section}
    (h : s ∈ g.sections c) :
    '\r' ∉ s.id ∧ '\r' ∉ s.heading := by
  have hn (n : Nat) : '\r' ∉ Text.ofNat n := Text.not_mem_ofNat (by decide) n
  have hslide (n : Nat) : '\r' ∉ "slide-".toList ++ Text.ofNat n :=
    List.not_mem_append (by decide) (hn n)
  have htitle (n : Nat) : '\r' ∉ "Slide ".toList ++ Text.ofNat n :=
    List.not_mem_append (by decide) (hn n)
  cases g with
  | single =>
    rw [List.mem_singleton.1 h, singleSection]
    split
    · exact ⟨by decide, (return_not_mem_heading (by decide)).1⟩
    · exact ⟨hslide _, (return_not_mem_heading (List.not_mem_append (htitle _) (by decide))).2⟩
  | divider =>
    rw [List.mem_singleton.1 h]
    have hsection : '\r' ∉ "Section ".toList ++ Text.ofNat c.divider :=
      List.not_mem_append (by decide) (hn _)
    have hdivider : '\r' ∉ "divider-".toList ++ Text.ofNat c.divider :=
      List.not_mem_append (by decide) (hn _)
    exact ⟨hdivider, (return_not_mem_heading (List.not_mem_append hsection (by decide))).1⟩
  | stack size pos =>
    obtain ⟨i, -, rfl⟩ := List.mem_map.1 h
    have hbehind (d : Char) (hd : '\r' ≠ d) : '\r' ∉ d :: Text.ofNat (i + 1) := by simp [hd, hn]
    refine ⟨List.not_mem_append (hslide _) (hbehind '-' (by decide)), (return_not_mem_heading ?_).2⟩
    exact List.not_mem_append (List.not_mem_append (htitle _) (hbehind '.' (by decide))) (by decide)

theorem return_not_mem_render (c : Cursor) (g : Group) : '\r' ∉ g.render c := by
  have hslides : '\r' ∉ ((g.sections c).map Section.render).flatten := fun h => by
    obtain ⟨_, ht, hm⟩ := List.mem_flatten.1 h
    obtain ⟨s, hs, rfl⟩ := List.mem_map.1 ht
    obtain ⟨hid, hheading⟩ := return_not_mem_of_mem_sections hs
    exact s.return_not_mem_render hid hheading hm
  cases g with
  | single => exact hslides
  | divider => exact hslides
  | stack size pos =>
    have hopen : '\r' ∉ List.replicate baseDepth '\t' ++ "<section>\n".toList := by decide
    exact List.not_mem_append (List.not_mem_append (List.not_mem_append hopen hslides) (by decide))
      (by decide)

end Group

theorem Layout.return_not_mem_outline (layout : Layout) : '\r' ∉ layout.outline.markup := by
  suffices h : ∀ c, '\r' ∉ (renderFrom c layout).1 from h .start
  induction layout with
  | nil => exact fun _ => List.not_mem_nil
  | cons g gs ih =>
    intro c
    rw [renderFrom, List.mem_append, not_or]
    exact ⟨g.return_not_mem_render c, ih _⟩

/-! ## Configurations -/

/-- An updated script holds a carriage return only if the script did before. -/
theorem Embedded.return_not_mem_update [Record.Nesting] {marker script script' : Text}
    {f : DeckFields} {record : Record.Members} (hi : (Record.Value.object record).Integral)
    (hr : (read marker script).result = .ok (some (.structured record)))
    (hu : (update marker f script (.structured record)).result = .ok script') (h : '\r' ∉ script) :
    '\r' ∉ script' := by
  obtain ⟨a, deck, ha, hd, hf, -, rfl⟩ := exists_of_update hr hu
  have hrecord : '\r' ∉ Record.render (.object (updateRecord f record)) :=
    Record.return_not_mem_renderAt hf (integral_updateRecord hd hi f)
  rw [Assignment.find?_eq_some ha] at h
  simp only [Assignment.render, List.mem_append, not_or] at h ⊢
  exact ⟨⟨⟨h.1.1.1, hrecord⟩, h.1.2⟩, h.2⟩

/-! ## Pages -/

/-- A character of an edited text stands in the text or in one of the edits. -/
theorem Markup.Edit.mem_applyAll {c : Char} {html : Text} {es : List Edit}
    (h : c ∈ applyAll html es) :
    c ∈ html ∨ ∃ e ∈ es, c ∈ e.text := by
  suffices hfold : ∀ (l : List Edit) (html : Text), c ∈ l.foldl apply html → c ∈ html ∨
      ∃ e ∈ l, c ∈ e.text by
    rcases hfold _ html h with h | ⟨e, he, h⟩
    · exact .inl h
    · exact .inr ⟨e, List.mem_mergeSort.1 he, h⟩
  intro l
  induction l with
  | nil => exact fun _ h => .inl h
  | cons e l ih =>
    intro html h
    rcases ih _ h with h | ⟨e', he', h⟩
    · simp only [apply, List.mem_append, or_assoc] at h
      rcases h with h | h | h
      · exact .inl (List.mem_of_mem_take h)
      · exact .inr ⟨e, List.mem_cons_self .., h⟩
      · exact .inl (List.mem_of_mem_drop h)
    · exact .inr ⟨e', List.mem_cons_of_mem _ he', h⟩

namespace Page

open Markup

theorem return_not_mem_slides {content : Text} (h : '\r' ∉ content) (layout : Layout) :
    '\r' ∉ slides layout.outline content := by
  have hindent : '\r' ∉ closingIndent content := fun hm => by
    rw [closingIndent] at hm
    split at hm
    · have hm := (List.takeWhile_prefix _).subset (List.mem_reverse.1 hm)
      rw [List.mem_reverse] at hm
      refine h ?_
      rw [← Text.stripRight_append_trailing content]
      exact List.mem_append_right _ hm
    · cases hm
  refine List.not_mem_append ?_ hindent
  simp [layout.return_not_mem_outline]

theorem return_not_mem_escape {title : Text} (h : '\r' ∉ title) :
    '\r' ∉ escape title := fun hm => by
  obtain ⟨c, hc, hm⟩ := List.mem_flatMap.1 hm
  split at hm
  iterate 3 exact absurd hm (by decide)
  exact h (List.mem_singleton.1 hm ▸ hc)

variable {marker html title : Text} {w : Written} {c : Site} {record : Record.Members}
  {layout : Layout} {slug out : Text}

theorem TitleChange.return_not_mem {l : List (Site × Change)} (h : TitleChange w title l)
    (ht : '\r' ∉ title) :
    ∀ x ∈ l, '\r' ∉ (x.2.edit x.1).text := by
  have htext := return_not_mem_escape ht
  cases h with
  | title =>
    intro x hx
    rw [List.mem_singleton.1 hx, Change.edit, Written.render_ofTitle]
    exact htext
  | head =>
    intro x hx
    rw [List.mem_singleton.1 hx, Change.edit, render_titlePage]
    exact List.not_mem_append (List.not_mem_append (by decide) htext) (by decide)
  | missing => exact fun _ hx => absurd hx List.not_mem_nil

/-- A revised page holds a carriage return only if the page or the title does. -/
theorem return_not_mem_revise [Record.Nesting] (h : IsSheet marker w c)
    (hr : (configured? marker w.render).result = .ok (some (.structured record)))
    (hi : (Record.Value.object record).Integral) (hw : '\r' ∉ w.render) (ht : '\r' ∉ title)
    (hrevise : (revise marker ⟨slug, title, layout.outline⟩ w.render).result = .ok out) :
    '\r' ∉ out := by
  obtain ⟨es, he, hout⟩ := Attempt.result_bind_eq_ok.1 hrevise
  cases hout
  obtain ⟨document, container, slidesEdit, te, ce, hd, hc, hs, hte, hce, rfl⟩ :=
    edits_eq_ok_iff.1 he
  cases (Written.parse_eq h.wellFormed).symm.trans hd
  rw [container?_nodes, h.first] at hc
  cases hc
  obtain ⟨lt, htitle, hlt⟩ :=
    exists_titleChange h.wellFormed (fun s hs hn => h.quiet s hs (.inr hn)) hte
  obtain ⟨ls, hconfig, hls⟩ := exists_configChange h.wellFormed hce
  obtain ⟨s, t, hf, hst, hread, -⟩ := exists_script h hr
  obtain ⟨new, rfl, hu⟩ := hconfig.eq_of_read hf hst hread
  intro hall
  rcases Edit.mem_applyAll hall with hm | ⟨e, he, hm⟩
  · exact hw hm
  rcases List.mem_cons.1 he with rfl | he
  · obtain ⟨span, -, hs⟩ := Outcome.bind_eq_ok.1 hs
    cases hs
    exact return_not_mem_slides (fun h => hw (List.mem_of_mem_take (List.mem_of_mem_drop h)))
      layout hm
  rcases List.mem_append.1 he with he | he
  · rw [hlt] at he
    obtain ⟨x, hx, rfl⟩ := List.mem_map.1 he
    exact htitle.return_not_mem ht x hx hm
  · rw [hls, List.map_singleton] at he
    rw [List.mem_singleton.1 he] at hm
    refine Embedded.return_not_mem_update hi hread hu (fun hm => hw ?_) hm
    have hhtml : s.html = w.render := by
      simpa using Written.html_of_mem_sites (List.mem_of_find?_eq_some hf)
    rw [← Site.slice_inner (t := t) (by rw [hst]; rfl), hhtml] at hm
    exact List.mem_of_mem_take (List.mem_of_mem_drop hm)

end Page

end SlideDeck
