import SlideDeck.Proofs.Markup.Substitution
import SlideDeck.Proofs.Page.Configured
import SlideDeck.Proofs.Page.Frame

/-!
# Pages that are revised again

A second revision finds the container and the title as the first one has left them, so that it
leaves the page as it is if and only if it leaves the script as it is (`Plan.revise_revised_iff`).
Without a configuration it always does; with a record it does if no key and no string of the record
holds the end of an assignment, and seldom else (`revise_again_iff`).
-/

namespace SlideDeck.Page

open Markup
open Record (Members Value)
open Text (Holds)

variable {marker new : Text} {content : Content} {layout : Layout} {fields : DeckFields}
  {w v : Written} {c s : Site} {lt ls : List (Site × Change)} {es : List Edit}

/-! ## The second revision -/

namespace Plan

variable [Record.Nesting]

/-- The slides are put where they are. -/
theorem slidesEdit_again (p : Plan marker content w c v lt ls) (h : IsSheet marker w c)
    (ho : content.outline = layout.outline) {c' : Site}
    (hc : c' ∈ (revised w c v lt ls).sites false [] [] []) (hfill : c'.filling = .page v) :
    ∃ e, slidesEdit (revised w c v lt ls).render content.outline c'.element = .ok e ∧
      e.IsIdle (revised w c v lt ls).render ∧ e.span = c'.inner := by
  obtain ⟨hspan, hslice⟩ :=
    Written.span_of_mem_sites (t := v.render) (p.wellFormed h) hc (by rw [hfill]; rfl) fun _ => by
    rw [hfill]
    exact p.outline.quiet _
  refine ⟨_, Outcome.bind_eq_ok.2 ⟨_, hspan, rfl⟩, ⟨c'.inner_start_le.2, ?_⟩, rfl⟩
  rw [hslice, p.render, ho]
  show _ = '\n' :: layout.outline.markup ++ closingIndent (slides layout.outline _)
  rw [closingIndent_slides]
  rfl

/-- The title is put where it is. -/
theorem titleEdit?_again (p : Plan marker content w c v lt ls) (h : IsSheet marker w c) :
    ∃ e, titleEdit? (revised w c v lt ls).render content.title
      (elementsOf ((revised w c v lt ls).nodes false .start none))
        = .ok e ∧ ∀ x ∈ e, x.IsIdle (revised w c v lt ls).render ∧
      ∃ t ∈ (revised w c v lt ls).sites false [] [] [], t.label.name = "title".toList ∧
        t.filling = .page (.ofTitle content.title) ∧ x.span = t.inner := by
  rw [titleEdit?, named?_nodes, named?_nodes]
  rcases p.exists_title with ⟨t, ht, hfill⟩ | ⟨ht, hd⟩
  · have hn := name_of_find? ht
    have hm := List.mem_of_find?_eq_some ht
    obtain ⟨hspan, hslice⟩ :=
      Written.span_of_mem_sites (t := escape content.title) (p.wellFormed h) hm
      (by rw [hfill, Filling.render?, Written.render_ofTitle]) fun hf => by
        rw [hn] at hf
        cases hf
    simp only [ht, Option.map_some, hspan]
    refine ⟨_, rfl, fun x hx => ?_⟩
    cases hx
    exact ⟨⟨t.inner_start_le.2, hslice⟩, t, hm, hn, hfill, rfl⟩
  · simp only [ht, hd, Option.map_none]
    exact ⟨_, rfl, fun x hx => by cases hx⟩

/-- The container, the title and the script of a revised page lie apart. -/
theorem apart_again (p : Plan marker content w c v lt ls) {c' s' : Site} {slides script : Edit}
    {title : Option Edit} (hc : c' ∈ (revised w c v lt ls).sites false [] [] [])
    (hv : c'.filling = .page v) (hraw : isRawSpan c'.label.name = false)
    (hslides : slides.span = c'.inner)
    (htitle : ∀ x ∈ title, ∃ t ∈ (revised w c v lt ls).sites false [] [] [], t.label.name =
      "title".toList ∧
      t.filling = .page (.ofTitle content.title) ∧ x.span = t.inner)
    (hs : s' ∈ (revised w c v lt ls).sites false [] [] []) (hn : s'.label.name = "script".toList)
    (hnew : s'.filling = .text new) (hscript : script.span = s'.inner) :
    Edit.Apart (slides :: (title.toList ++ [script])) := by
  have hout {u : Site} (hu : u ∈ (revised w c v lt ls).sites false [] [] [])
      (hn : u.label.name ∉ outlineNames) :
      ¬c'.Encloses u.before.length :=
    not_encloses_of_not_mem hu hc fun hmem => hn (name_of_mem_namesAll p.outline hv hmem)
  have hin {u : Site} (hu : u ∈ (revised w c v lt ls).sites false [] [] []) :
      ¬s'.Encloses u.before.length :=
    not_encloses_of_not_mem hu hs (by rw [namesAll_content_text hnew]; exact List.not_mem_nil)
  have hcs : slides.span.stop ≤ script.span.start ∨ script.span.stop ≤ slides.span.start := by
    rw [hslides, hscript]
    exact Written.apart_inner hc hs (by rintro rfl; rw [hn] at hraw; cases hraw)
      (hout hs (by rw [hn]; decide)) (hin hc) (by rw [hv]; rfl) (by rw [hnew]; rfl)
  cases title with
  | none => exact List.pairwise_pair.2 hcs
  | some x =>
    obtain ⟨t, ht, htn, hfill, hx⟩ := htitle x rfl
    have hlet {u : Site} (hu : u ∈ (revised w c v lt ls).sites false [] [] []) :
        ¬t.Encloses u.before.length :=
      not_encloses_of_isLetters hu ht hfill (Written.isLetters_ofTitle _)
    have hct : slides.span.stop ≤ x.span.start ∨ x.span.stop ≤ slides.span.start := by
      rw [hslides, hx]
      exact Written.apart_inner hc ht (by rintro rfl; rw [htn] at hraw; cases hraw)
        (hout ht (by rw [htn]; decide)) (hlet hc) (by rw [hv]; rfl) (by rw [hfill]; rfl)
    have hts : x.span.stop ≤ script.span.start ∨ script.span.stop ≤ x.span.start := by
      rw [hscript, hx]
      exact Written.apart_inner ht hs (by rintro rfl; rw [hfill] at hnew; cases hnew) (hlet hs)
        (hin ht)
        (by rw [hfill]; rfl) (by rw [hnew]; rfl)
    exact List.pairwise_cons.2 ⟨List.forall_mem_cons.2 ⟨hct, List.forall_mem_singleton.2 hcs⟩,
      List.pairwise_pair.2 hts⟩

/-- The configuration is looked for in the script that was written, and written there. -/
theorem exists_configEdit_again (p : Plan marker content w c v lt [(s, .text new)])
    (h : IsSheet marker w c)
    (hf : ((w.sites false [] [] []).find? fun s => mentions marker s && !isInside c s) = some s)
    (hn : Text.holds marker new = true ∧ 'v' ∈ new) {c' : Site} (hc : c'.filling = .page v) :
    ∃ s' ∈ (revised w c v lt [(s, .text new)]).sites false [] [] [], s'.label.name =
      "script".toList ∧
      s'.filling = .text new ∧ s'.inner.slice (revised w c v lt [(s, .text new)]).render = new ∧
      ∀ e, (configEdit? (revised w c v lt [(s, .text new)]).render marker content.fields
          (scriptsOutside c'.element
            ((revised w c v lt [(s, .text new)]).nodes false .start none))).result = .ok e ↔
        ∃ config, (Embedded.read marker new).result = .ok config ∧
          (config = none ∧ e = none ∨ ∃ found again, config = some found ∧
            (found.update marker content.fields new).result = .ok again ∧
              e = some ⟨s'.inner, again⟩) := by
  obtain ⟨s', hf', hs'⟩ := p.exists_script h hf hn hc
  have hm := List.mem_of_find?_eq_some hf'
  have hname : s'.label.name = "script".toList := by
    have hp := List.find?_some hf'
    rw [Bool.and_eq_true] at hp
    exact name_of_mentions hp.1
  obtain ⟨hspan, hslice⟩ :=
    Written.span_of_mem_sites (t := new) (p.wellFormed h) hm (by rw [hs']; rfl) fun hf => by
    rw [hname] at hf
    cases hf
  refine ⟨s', hm, hname, hs', hslice, fun e => ?_⟩
  rw [configEdit?_eq_ok_iff, find?_scriptsOutside, hf', Option.map_some,
    scriptText_of_mem hs' hn.2 (by decide)]
  constructor
  · rintro (⟨hnone, -⟩ | ⟨_, _, config, ⟨⟩, hread, hcases⟩)
    · cases hnone
    refine ⟨config, hread, hcases.imp_right ?_⟩
    rintro ⟨found, span, again, rfl, hspan', hu, rfl⟩
    cases hspan.symm.trans hspan'
    rw [hslice] at hu
    exact ⟨found, again, rfl, hu, rfl⟩
  · rintro ⟨config, hread, hcases⟩
    refine .inr ⟨_, _, config, rfl, hread, hcases.imp_right ?_⟩
    rintro ⟨found, again, rfl, hu, rfl⟩
    exact ⟨found, s'.inner, again, rfl, hspan, by rwa [hslice], rfl⟩

/-- Without a configuration, there is none after the revision either. -/
theorem configEdit?_of_nil (p : Plan marker content w c v lt []) (h : IsSheet marker w c)
    (hr : (configured? marker w.render).result = .ok none) {c' : Site} (hc : c'.filling = .page v) :
    (configEdit? (revised w c v lt []).render marker content.fields
      (scriptsOutside c'.element ((revised w c v lt []).nodes false .start none))).result =
        .ok none := by
  have hrel := p.rel_script h (fun _ _ h => nomatch h) hc
  refine configEdit?_eq_ok_iff.2 ?_
  rw [find?_scriptsOutside]
  rcases (Page.configured?_eq_ok_iff h.wellFormed h.first).1 hr with ⟨hf, -⟩ | ⟨s, hf, hread⟩
  · rw [hf] at hrel
    generalize ((revised w c v lt []).sites false [] [] []).find? _ = o at hrel ⊢
    cases hrel with
    | none => exact .inl ⟨rfl, rfl⟩
  · rw [hf] at hrel
    generalize ((revised w c v lt []).sites false [] [] []).find? _ = o at hrel ⊢
    cases hrel with
    | @some _ s' hb =>
      have hm := List.mem_of_find?_eq_some hf
      have hp := List.find?_some hf
      rw [Bool.and_eq_true] at hp
      obtain ⟨t, ht⟩ :=
        exists_text (Written.isReadable_of_mem_sites h.wellFormed hm) (name_of_mentions hp.1)
      have ht' : s'.filling = .text t := by
        rcases p.filling_cases hm ht hb with ht' | ⟨_, hls, -⟩
        · exact ht'
        · cases hls
      have htext : scriptText s' = scriptText s := by
        rw [scriptText_eq ht', scriptText_eq ht, hb.keeps]
      exact .inr ⟨s'.element, scriptText s', none, rfl, by rw [htext]; exact hread, .inl ⟨rfl, rfl⟩⟩

/-- If the configuration is written where it is, then so is all of the content. -/
theorem revise_revised (p : Plan marker content w c v lt ls) (h : IsSheet marker w c)
    (ho : content.outline = layout.outline) (hconfig : ∀ c' : Site, c'.filling = .page v →
      ∃ e, (configEdit? (revised w c v lt ls).render marker content.fields
          (scriptsOutside c'.element ((revised w c v lt ls).nodes false .start none))).result =
            .ok e ∧
        ∀ x ∈ e, x.IsIdle (revised w c v lt ls).render) :
    (revise marker content (revised w c v lt ls).render).result =
      .ok (revised w c v lt ls).render := by
  obtain ⟨c', hc, hfill, -⟩ := p.exists_container h
  obtain ⟨slides, hs, his, -⟩ := p.slidesEdit_again h ho (List.mem_of_find?_eq_some hc) hfill
  obtain ⟨te, ht, hit⟩ := p.titleEdit?_again h
  obtain ⟨ce, hce, hic⟩ := hconfig c' hfill
  have hedits :=
    edits_eq_ok_iff.2 ⟨_, c'.element, slides, te, ce, Written.parse_eq (p.wellFormed h),
    by rw [container?_nodes, hc, Option.map_some], hs, ht, hce, rfl⟩
  refine Attempt.result_bind_eq_ok.2 ⟨_, hedits, congrArg Except.ok (Edit.applyAll_of_isIdle ?_)⟩
  refine List.forall_mem_cons.2 ⟨his, fun e he => ?_⟩
  rcases List.mem_append.1 he with he | he
  · exact (hit e (Option.mem_toList.1 he)).1
  · exact hic e (Option.mem_toList.1 he)

/-- The page is left as it is if and only if its script is. -/
theorem revise_revised_iff (p : Plan marker content w c v lt [(s, .text new)])
    (h : IsSheet marker w c) (ho : content.outline = layout.outline)
    (hf : ((w.sites false [] [] []).find? fun s => mentions marker s && !isInside c s) = some s)
    (hn : Text.holds marker new = true ∧ 'v' ∈ new) :
    (revise marker content (revised w c v lt [(s, .text new)]).render).result
        = .ok (revised w c v lt [(s, .text new)]).render ↔
      (Embedded.rewrite marker content.fields new).result = .ok new := by
  obtain ⟨c', hc, hfill, hlabel⟩ := p.exists_container h
  obtain ⟨s', hsm, hsn, hnew, hslice, hconfig⟩ := p.exists_configEdit_again h hf hn hfill
  constructor
  · intro hr
    obtain ⟨es, he, happly⟩ := Attempt.result_bind_eq_ok.1 hr
    have hw : ∀ e ∈ es, Edit.Within (revised w c v lt [(s, .text new)]).render.length e :=
      fun e hm =>
      within_of_replaces (replaces_of_edits he) (List.mem_map_of_mem hm)
    obtain ⟨document, container, slides, te, ce, hd, hcon, hs, ht, hce, rfl⟩ := edits_eq_ok_iff.1 he
    cases (Written.parse_eq (p.wellFormed h)).symm.trans hd
    rw [container?_nodes, hc, Option.map_some] at hcon
    cases hcon
    have hcm := List.mem_of_find?_eq_some hc
    obtain ⟨_, hs', his, hss⟩ := p.slidesEdit_again h ho hcm hfill
    cases hs'.symm.trans hs
    obtain ⟨_, ht', hit⟩ := p.titleEdit?_again h
    cases ht'.symm.trans ht
    obtain ⟨config, hread, hcases⟩ := (hconfig ce).1 hce
    refine Embedded.result_rewrite_eq_ok_iff.2 ⟨config, hread, hcases.imp (fun h => ⟨h.1, rfl⟩) ?_⟩
    rintro ⟨found, again, rfl, hu, rfl⟩
    -- All edits but the script's are idle, so that the page is left as it is only if the script's
    -- is idle, too.
    have ha : Edit.Apart (slides :: (te.toList ++ [⟨s'.inner, again⟩])) :=
      p.apart_again hcm hfill (by rw [hlabel]; exact h.notRaw) hss (fun x hx => (hit x hx).2) hsm
        hsn hnew rfl
    have hperm : (slides :: (te.toList ++ [⟨s'.inner, again⟩])).Perm
        (⟨s'.inner, again⟩ :: slides :: te.toList) :=
      List.perm_append_singleton _ (slides :: te.toList)
    have hidle : (⟨s'.inner, again⟩ : Edit).IsIdle (revised w c v lt [(s, .text new)]).render := by
      refine (Edit.apply_eq_self_iff (hw _ (by simp))).1
        (Eq.trans (Eq.symm ?_) (Except.ok.inj happly))
      refine Edit.applyAll_of_isIdle_of_perm hw ha hperm ?_
      exact List.forall_mem_cons.2 ⟨his, fun e he => (hit e (Option.mem_toList.1 he)).1⟩
    exact ⟨found, rfl, hu.trans (congrArg Except.ok (hidle.2.symm.trans hslice))⟩
  · intro hr
    obtain ⟨config, hread, hcases⟩ := Embedded.result_rewrite_eq_ok_iff.1 hr
    refine p.revise_revised h ho fun c'' hc'' => ?_
    obtain ⟨s'', -, -, -, hslice', hconfig'⟩ := p.exists_configEdit_again h hf hn hc''
    rcases hcases with ⟨rfl, -⟩ | ⟨found, rfl, hu⟩
    · exact ⟨none, (hconfig' none).2 ⟨none, hread, .inl ⟨rfl, rfl⟩⟩, nofun⟩
    · refine ⟨_, (hconfig' _).2 ⟨some found, hread, .inr ⟨found, new, rfl, hu, rfl⟩⟩,
        fun x hx => ?_⟩
      cases hx
      exact ⟨s''.inner_start_le.2, hslice'⟩

end Plan

/-- Writing the fields of a deck into a configuration leaves a script with an assignment: no text of
a record ends the script, and what becomes of a raw script neither ends it nor loses its
assignment. -/
def KeepsScript (marker : Text) (fields : DeckFields) : Option Embedded → Prop
  | none => True
  | some (.structured record) =>
    (Value.object record).Integral ∧
      ∀ s ∈ (Value.object (Embedded.updateRecord fields record)).texts,
      Text.search (skipEndTag "script".toList) (Record.string s) = none
  | some (.raw script) =>
    Text.search (skipEndTag "script".toList) (Embedded.updateRaw fields script) = none ∧
      (Assignment.find? marker (Embedded.updateRaw fields script)).isSome

/-- What is written into a script is a script that mentions the variable. -/
theorem KeepsScript.of_update [Record.Nesting] {config : Embedded} {t : Text}
    (hk : KeepsScript marker fields (some config))
    (hread : (Embedded.read marker t).result = .ok (some config))
    (hu : (config.update marker fields t).result = .ok new)
    (ht : Text.search (skipEndTag "script".toList) t = none) :
    Text.search (skipEndTag "script".toList) new = none ∧ Text.holds marker new = true ∧
      'v' ∈ new := by
  cases config with
  | structured record =>
    exact ⟨Embedded.search_of_update Record.isTagKind_skipEndTag hk.1 hread hu ht hk.2,
      Embedded.holds_of_update hread hu⟩
  | raw own =>
    obtain rfl : Embedded.updateRaw fields own = new := Except.ok.inj hu
    obtain ⟨a, ha⟩ := Option.isSome_iff_exists.1 hk.2
    exact ⟨hk.1, Assignment.holds_of_find? ha⟩

end SlideDeck.Page
