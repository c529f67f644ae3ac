import SlideDeck.Proofs.Markup.Stripped
import SlideDeck.Proofs.Page.Again

/-!
# Revised pages without their links

If a page is stripped piece by piece, then so is what a revision makes of it, for no link starts in
the slides or in the title (`Plan.isStrippable`). What an element shows that no link stands in, it
shows also when the page is stripped (`shown?_stripped`): the slides and the title are as before.
The configuration is what is read in the stripped script (`Plan.configured?_strip_iff`).

All that depends on the keys and strings of the record. Where no link tag starts in them, the record
stays as well (`strip_revise`).
-/

namespace SlideDeck.Page

open Markup
open Markup.Stylesheet (IsLinkless settles strip)
open Record (Members Value)

variable {marker keep title slug : Text} {content : Content} {layout : Layout} {w v : Written}
  {c s : Site} {lt ls : List (Site × Change)} {record : Members} {es : List Edit} {new : Text}

/-! ## What a page shows -/

/-- What stands between the tags of an element of a page. -/
def shown? (pick : List Element → Option Element) (html : Text) : Except Failure (Option Text) := do
  let document ← Markup.parse html
  match pick (elementsOf document) with
  | none => return none
  | some e => return some ((← e.span html).slice html)

/-- What stands in the title's element. -/
def title? (html : Text) : Except Failure (Option Text) := shown? (named? "title".toList) html

/-- What stands in the container of the slides. -/
def slides? (html : Text) : Except Failure (Option Text) := shown? container? html

section Shown

variable {pick : List Element → Option Element} {p : Site → Bool}

theorem shown?_of_find? (hpick : pick (elementsOf (w.nodes false .start none)) =
      ((w.sites false [] [] []).find? p).map Site.element) (hw : w.WellFormed)
    (hf : (w.sites false [] [] []).find? p = some s) (hv : s.filling = .page v)
    (hq : v.Quiet s.label.name) :
    shown? pick w.render = .ok (some v.render) := by
  obtain ⟨hspan, hslice⟩ :=
    Written.span_of_mem_sites (t := v.render) hw (List.mem_of_find?_eq_some hf)
    (by rw [hv]; rfl) fun _ => by rw [hv]; exact hq
  simp only [shown?, Written.parse_eq hw, bind, Except.bind, hpick, hf, Option.map_some, hspan,
    hslice]
  rfl

theorem shown?_of_none (hpick : pick (elementsOf (w.nodes false .start none)) =
      ((w.sites false [] [] []).find? p).map Site.element) (hw : w.WellFormed)
    (hf : (w.sites false [] [] []).find? p = none) : shown? pick w.render = .ok none := by
  simp only [shown?, Written.parse_eq hw, bind, Except.bind, hpick, hf, Option.map_none]
  rfl

/-- An element that holds no links shows what it has shown when the page is stripped. -/
theorem shown?_stripped (hpick : ∀ w : Written, pick (elementsOf (w.nodes false .start none)) =
      ((w.sites false [] [] []).find? p).map Site.element)
    (hp : ∀ {s s' : Site}, s.Strips keep s' → p s' = p s) (hw : w.WellFormed)
    (hk : w.IsStrippable keep)
    (hf : (w.sites false [] [] []).find? p = none ∨ ∃ s v, (w.sites false [] [] []).find? p =
      some s ∧
      s.filling = .page v ∧ v.stripped keep = v ∧ v.Quiet s.label.name) :
    shown? pick (strip keep w.render) = shown? pick w.render := by
  have hw' := hw.stripped hk
  rw [Written.strip_render hw hk]
  rcases hf with hf | ⟨s, v, hf, hv, hsame, hq⟩
  · have hf' := Written.find?_stripped_eq_none (fun _ _ _ hb => hp hb) hf
    rw [shown?_of_none (hpick _) hw' hf', shown?_of_none (hpick _) hw hf]
  · obtain ⟨s', hf', hb⟩ :=
      Written.exists_find?_stripped (fun _ _ _ hb => hp hb) hf (by rw [hv]; exact nofun)
    have hv' : s'.filling = .page v := by rw [hb.filling, hv, Filling.stripped, hsame]
    rw [shown?_of_find? (hpick _) hw' hf' hv' (hb.label ▸ hq),
      shown?_of_find? (hpick _) hw hf hv hq]

end Shown

theorem isNamed_of_strips {s s' : Site} (h : s.Strips keep s') (name : Text) :
    isNamed name s' = isNamed name s := by
  rw [isNamed, isNamed, h.label]

theorem isContainer_of_strips {s s' : Site} (h : s.Strips keep s') :
    isContainer s' = isContainer s := by
  show (Text.words ((s'.label.read.lookup _).getD [])).contains _ =
      (Text.words ((s.label.read.lookup _).getD [])).contains _
  rw [h.label]

/-! ## The revised page -/

/-- No link tag starts in a script of the page. -/
def ScriptsLinkless (w : Written) : Prop :=
  ∀ s ∈ w.sites false [] [] [], s.label.name = "script".toList →
    ∀ t ∈ s.filling.render?, IsLinkless t

instance (w : Written) : Decidable (ScriptsLinkless w) :=
  inferInstanceAs (Decidable (∀ s ∈ w.sites false [] [] [], _))

theorem isStrippable_titlePage (title : Text) : (titlePage title).IsStrippable keep :=
  ⟨Label.isLinkless_start (by decide) (by decide),
    (Written.isLetters_ofTitle title).isStrippable, trivial⟩

namespace Plan

variable [Record.Nesting]

/-- The revised page is strippable if the page is, and if the links in the new script are
settled. -/
theorem isStrippable (p : Plan marker content w c v lt ls) (hk : w.IsStrippable keep)
    (hnew : ∀ s t, (s, .text t) ∈ ls → settles t = true ∧
      Text.search (skipEndTag "script".toList) (strip keep t) = none) :
    (revised w c v lt ls).IsStrippable keep := by
  have hpages {b : Text} {u : Written} (hu : (Changes.of (planned c v lt ls)).content b = some u ∨
      (Changes.of (planned c v lt ls)).more b = some u) : u.IsStrippable keep := by
    rcases p.new_cases hu with ⟨-, rfl⟩ | hl | ⟨rfl, -⟩
    · exact p.outline.isStrippable
    · exact hl.isStrippable
    · exact isStrippable_titlePage _
  refine hk.change false [] [] (fun _ _ h => hpages (.inl h)) (fun _ _ h => hpages (.inr h))
    fun s hs u hu => ?_
  obtain ⟨x, hx, hb, hg⟩ := exists_of_findSome? hu
  obtain rfl := Written.eq_of_before (p.changed.mem x hx) hs hb
  obtain ⟨s, change⟩ := x
  cases change with
  | content z => cases hg
  | more z => cases hg
  | text t =>
    cases hg
    obtain ⟨hls, hf⟩ := p.find?_of_text hx
    have hfound := List.find?_some hf
    rw [Bool.and_eq_true] at hfound
    rw [name_of_mentions hfound.1]
    exact hnew s u hls

/-- The title shows what it shows in the revised page. -/
theorem title?_strip (p : Plan marker content w c v lt ls) (h : IsSheet marker w c)
    (hk : (revised w c v lt ls).IsStrippable keep) :
    title? (strip keep (revised w c v lt ls).render) = title? (revised w c v lt ls).render := by
  refine shown?_stripped (fun w => named?_nodes w _) (fun hb => isNamed_of_strips hb _)
    (p.wellFormed h) hk ?_
  rcases p.exists_title with ⟨t, ht, hfill⟩ | ⟨ht, -⟩
  · have hl := Written.isLetters_ofTitle content.title
    exact .inr ⟨t, _, ht, hfill, hl.stripped_eq, hl.quiet _⟩
  · exact .inl ht

/-- The slides are what they are in the revised page. -/
theorem slides?_strip (p : Plan marker content w c v lt ls) (h : IsSheet marker w c)
    (hk : (revised w c v lt ls).IsStrippable keep) :
    slides? (strip keep (revised w c v lt ls).render) = slides? (revised w c v lt ls).render := by
  obtain ⟨c', hc, hfill, -⟩ := p.exists_container h
  exact shown?_stripped container?_nodes isContainer_of_strips (p.wellFormed h) hk
    (.inr ⟨c', v, hc, hfill, p.outline.stripped_eq, p.outline.quiet _⟩)

/-! ## The configuration -/

/-- The scripts of the revised page are those of the page, but for the one with the new record. -/
theorem scripts_cases (p : Plan marker content w c v lt [(s, .text new)]) (h : IsSheet marker w c)
    (hw : ScriptsLinkless w) :
    ∀ x ∈ (revised w c v lt [(s, .text new)]).sites false [] [] [], x.label.name = "script".toList →
      ∀ t, x.filling = .text t → IsLinkless t ∨ t = new := by
  refine p.forall_sites (fun x hx x' hb hn t ht => ?_) (fun k b b' a x hx hn => ?_)
    fun _ k b b' a x hx hn => ?_
  · have hx := (Written.mem_kept_iff.1 hx).1
    rw [hb.label] at hn
    obtain ⟨u, hu⟩ := exists_text (Written.isReadable_of_mem_sites h.wellFormed hx) hn
    rcases p.filling_cases hx hu hb with hsame | ⟨_, hls, hnew⟩
    · cases ht.symm.trans hsame
      exact .inl (hw x hx hn t (by rw [hu]; rfl))
    · cases ht.symm.trans hnew
      cases List.mem_singleton.1 hls
      exact .inr rfl
  · have hout := p.outline.name_of_mem_sites hx
    rw [hn] at hout
    exact absurd hout (by decide)
  · rw [sites_titlePage, List.mem_singleton] at hx
    rw [hx] at hn
    exact absurd (show "title".toList = "script".toList from hn) (by decide)

/-- When the page is stripped, its scripts mention the variable as before. -/
theorem mentions_of_strips (p : Plan marker content w c v lt [(s, .text new)])
    (h : IsSheet marker w c) (hw : ScriptsLinkless w)
    (hn : Text.holds marker new = true ∧ 'v' ∈ new)
    (hstrip : Text.holds marker (strip keep new) = true ∧ 'v' ∈ strip keep new) {x x' : Site}
    (hx : x ∈ (revised w c v lt [(s, .text new)]).sites false [] [] []) (hb : x.Strips keep x') :
    mentions marker x' = mentions marker x := by
  rw [mentions, mentions, isNamed_of_strips hb]
  cases hname : isNamed "script".toList x with
  | false => rfl
  | true =>
    rw [Bool.true_and, Bool.true_and]
    rw [isNamed, decide_eq_true_eq] at hname
    obtain ⟨t, ht⟩ := exists_text (Written.isReadable_of_mem_sites (p.wellFormed h) hx) hname
    have ht' : x'.filling = .text (strip keep t) := by rw [hb.filling, ht, Filling.stripped]
    rcases p.scripts_cases h hw x hx hname t ht with hl | rfl
    · rw [Stylesheet.strip_of_isLinkless hl] at ht'
      rw [scriptText_eq ht', scriptText_eq ht, hb.keeps]
    · rw [scriptText_of_mem ht' hstrip.2 (by decide), scriptText_of_mem ht hn.2 (by decide),
        hstrip.1, hn.1]

/-- What is configured when the page is stripped is what is read in the stripped script. -/
theorem configured?_strip_iff (p : Plan marker content w c v lt [(s, .text new)])
    (h : IsSheet marker w c)
    (hf : ((w.sites false [] [] []).find? fun s => mentions marker s && !isInside c s) = some s)
    (hw : ScriptsLinkless w) (hn : Text.holds marker new = true ∧ 'v' ∈ new)
    (hstrip : Text.holds marker (strip keep new) = true ∧ 'v' ∈ strip keep new)
    (hk : (revised w c v lt [(s, .text new)]).IsStrippable keep) {config : Option Embedded} :
    (configured? marker (strip keep (revised w c v lt [(s, .text new)]).render)).result =
      .ok config ↔
      (Embedded.read marker (strip keep new)).result = .ok config := by
  have hR := p.wellFormed h
  -- The container of the stripped page holds the outline, and its script the new record.
  obtain ⟨c', hc, hfill, -⟩ := p.exists_container h
  obtain ⟨c'', hc'', hbc⟩ := Written.exists_find?_stripped
    (fun _ _ _ (hb : Site.Strips keep _ _) => isContainer_of_strips hb) hc
      (by rw [hfill]; exact nofun)
  have hfill'' :
      c''.filling = .page v := by rw [hbc.filling, hfill, Filling.stripped, p.outline.stripped_eq]
  obtain ⟨x, hx, htext⟩ := p.exists_script h hf hn hfill
  rw [find?_mentions_of_outline hfill p.outline] at hx
  obtain ⟨x', hx', hb⟩ :=
    Written.exists_find?_stripped (fun _ hy _ hb => p.mentions_of_strips h hw hn hstrip hy hb) hx
    (by rw [htext]; exact nofun)
  have htext' : x'.filling = .text (strip keep new) := by rw [hb.filling, htext, Filling.stripped]
  rw [Written.strip_render hR hk, Page.configured?_eq_ok_iff (hR.stripped hk) hc'',
    find?_mentions_of_outline hfill'' p.outline, hx']
  constructor
  · rintro (⟨h, -⟩ | ⟨_, h, hr⟩)
    · cases h
    · cases h
      rwa [scriptText_of_mem htext' hstrip.2 (by decide)] at hr
  · intro hr
    refine .inr ⟨x', rfl, ?_⟩
    rwa [scriptText_of_mem htext' hstrip.2 (by decide)]

end Plan

/-! ## Stripping a revised page -/

/-- A sheet with a structured configuration, which is stripped piece by piece. -/
structure IsCleanSheet [Record.Nesting] (marker keep : Text) (w : Written) (c : Site)
    (record : Members) : Prop extends IsSheet marker w c where
  strippable : w.IsStrippable keep
  scripts : ScriptsLinkless w
  configured : (configured? marker w.render).result = .ok (some (.structured record))
  integral : (Value.object record).Integral

/-- A page has the title, the slides and the configuration of another one. -/
structure SameContent [Record.Nesting] (marker html other : Text) : Prop where
  title : title? html = title? other
  slides : slides? html = slides? other
  configured : ∀ config, (configured? marker html).result = .ok config ↔
    (configured? marker other).result = .ok config

/-- If the links in the new script are settled and nothing in it ends the script when it is
stripped, then a revised page has its title and its slides when it is stripped, and its
configuration is what is read in the stripped script. -/
theorem exists_script_strip_revise [Record.Nesting] (h : IsCleanSheet marker keep w c record)
    (hend : ∀ s ∈ (Value.object (Embedded.updateRecord ⟨slug, title, layout.outline.slideCount⟩
      record)).texts,
      Text.search (skipEndTag "script".toList) (Record.string s) = none)
    (he : (edits marker ⟨slug, title, layout.outline⟩ w.render).result = .ok es)
    (ha : Edit.Apart es) :
    ∃ s t new, s ∈ w.sites false [] [] [] ∧ s.label.name = "script".toList ∧ s.filling = .text t ∧
      (Embedded.read marker t).result = .ok (some (.structured record)) ∧
      (Embedded.update marker ⟨slug, title, layout.outline.slideCount⟩ t
        (.structured record)).result = .ok new ∧
      ∃ out, (revise marker ⟨slug, title, layout.outline⟩ w.render).result = .ok out ∧
        (∀ config, (configured? marker out).result = .ok config ↔
          (Embedded.read marker new).result = .ok config) ∧
        (settles new = true → Text.search (skipEndTag "script".toList) (strip keep new) = none →
          title? (strip keep out) = title? out ∧ slides? (strip keep out) = slides? out ∧
          ∀ config, (configured? marker (strip keep out)).result = .ok config ↔
            (Embedded.read marker (strip keep new)).result = .ok config) := by
  have hsheet := h.toIsSheet
  obtain ⟨s, t, hf, ht, hread, -⟩ := exists_script hsheet h.configured
  obtain ⟨v, lt, ls, p, hes⟩ := exists_plan hsheet rfl he ha fun l hl =>
    hl.search_eq_none hsheet h.configured h.integral hend
  obtain ⟨new, rfl, hu⟩ := p.config.eq_of_read hf ht hread
  have hmem := List.mem_of_find?_eq_some hf
  have hfound := List.find?_some hf
  rw [Bool.and_eq_true] at hfound
  have hname := name_of_mentions hfound.1
  have hholds := Embedded.holds_of_update hread hu
  refine ⟨s, t, new, hmem, hname, ht, hread, hu, _, revise_eq he p hes,
    fun config => p.configured?_eq_ok_iff hsheet hf hholds, fun hsettles hstops => ?_⟩
  have hk := p.isStrippable h.strippable fun s' t' hls => by
    cases List.mem_singleton.1 hls
    exact ⟨hsettles, hstops⟩
  exact ⟨p.title?_strip hsheet hk, p.slides?_strip hsheet hk, fun config =>
    p.configured?_strip_iff hsheet hf h.scripts hholds
      (Embedded.holds_strip_of_update hread hu (h.scripts s hmem hname t (by rw [ht]; rfl)) keep)
        hk⟩

/-- A revised page has its title, its slides and its configuration when it is stripped, if no link
tag starts in the keys and strings of the record. No such text may end the script. -/
theorem strip_revise [Record.Nesting] (h : IsCleanSheet marker keep w c record)
    (hplain : ∀ s ∈ (Value.object (Embedded.updateRecord ⟨slug, title, layout.outline.slideCount⟩
      record)).texts,
      Text.search (skipEndTag "script".toList) (Record.string s) = none ∧
        IsLinkless (Record.string s))
    (he : (edits marker ⟨slug, title, layout.outline⟩ w.render).result = .ok es)
    (ha : Edit.Apart es) :
    ∃ out, (revise marker ⟨slug, title, layout.outline⟩ w.render).result = .ok out ∧
      SameContent marker (strip keep out) out := by
  obtain ⟨s, t, new, hs, hname, ht, hread, hu, out, hout, hconfig, hstrip⟩ :=
    exists_script_strip_revise h (fun s hs => (hplain s hs).1) he ha
  have hlinkless :
      IsLinkless new := Embedded.search_of_update Record.isTagKind_skipOpening h.integral hread hu
    (h.scripts s hs hname t (by rw [ht]; rfl)) fun s hs => (hplain s hs).2
  have hstops : Text.search (skipEndTag "script".toList) new = none := by
    have hend := (Written.isReadable_of_mem_sites h.wellFormed hs).2
    rw [ht, hname] at hend
    exact Embedded.search_of_update Record.isTagKind_skipEndTag h.integral hread hu hend.2
      fun s hs => (hplain s hs).1
  have hsame := Stylesheet.strip_of_isLinkless hlinkless keep
  obtain ⟨htitle, hslides, hstripped⟩ :=
    hstrip (Stylesheet.settles_of_isLinkless hlinkless) (by rwa [hsame])
  refine ⟨out, hout, htitle, hslides, fun config => ?_⟩
  rw [hstripped, hsame, hconfig]

end SlideDeck.Page
