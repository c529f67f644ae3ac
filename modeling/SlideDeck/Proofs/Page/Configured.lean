import SlideDeck.Proofs.Config.Again
import SlideDeck.Proofs.Page.Revised

/-!
# The configuration of a revised page

What is configured in a page is what is read in the first script outside of the container that
mentions the variable. In a revised page, that is the script with the new record, and the record is
read there unless one of its keys and strings holds the end of an assignment (`configured?_revise`).
None of them may end the script.
-/

namespace SlideDeck.Page

open Markup
open Record (Members Value)
open Text (Holds)

variable {marker : Text} {content : Content} {layout : Layout} {w v : Written} {c s : Site}
  {lt ls : List (Site × Change)} {record : Members} {es : List Edit}

/-! ## The configuration of a page -/

/-- What is read in the first script outside of the container that mentions the variable of the
configuration. -/
def configured? [Record.Nesting] (marker html : Text) : Attempt Failure (Option Embedded) := do
  let document ← Markup.parse html
  match container? (elementsOf document) with
  | none => throw .noContainer
  | some container =>
    match (scriptsOutside container document).find? fun x => Text.holds marker x.2 with
    | none => return none
    | some script => Embedded.read marker script.2

theorem configured?_eq_ok_iff [Record.Nesting] (hw : w.WellFormed)
    (hc : (w.sites false [] [] []).find? isContainer = some c) {config : Option Embedded} :
    (configured? marker w.render).result = .ok config ↔
      ((w.sites false [] [] []).find? fun s => mentions marker s && !isInside c s) = none ∧
        config = none ∨
      ∃ s, ((w.sites false [] [] []).find? fun s => mentions marker s && !isInside c s) = some s ∧
        (Embedded.read marker (scriptText s)).result = .ok config := by
  have hfind := find?_scriptsOutside marker c w
  rw [configured?, Attempt.result_bind_eq_ok]
  cases hf : (w.sites false [] [] []).find? fun s => mentions marker s && !isInside c s with
  | none =>
    rw [hf] at hfind
    constructor
    · rintro ⟨document, hd, h⟩
      cases (Written.parse_eq hw).symm.trans hd
      simp only [container?_nodes, hc, Option.map_some, hfind, Option.map_none] at h
      exact .inl ⟨rfl, (Except.ok.inj h).symm⟩
    · rintro (⟨-, rfl⟩ | ⟨_, h, -⟩)
      · refine ⟨_, Written.parse_eq hw, ?_⟩
        simp only [container?_nodes, hc, Option.map_some, hfind, Option.map_none]
        rfl
      · cases h
  | some s =>
    rw [hf] at hfind
    constructor
    · rintro ⟨document, hd, h⟩
      cases (Written.parse_eq hw).symm.trans hd
      simp only [container?_nodes, hc, Option.map_some, hfind] at h
      exact .inr ⟨s, rfl, h⟩
    · rintro (⟨h, -⟩ | ⟨_, h, hr⟩)
      · cases h
      · cases h
        refine ⟨_, Written.parse_eq hw, ?_⟩
        simp only [container?_nodes, hc, Option.map_some, hfind]
        exact hr

/-- The script with the configuration. -/
theorem exists_script [Record.Nesting] (h : IsSheet marker w c) {config : Embedded}
    (hr : (configured? marker w.render).result = .ok (some config)) :
    ∃ s t, ((w.sites false [] [] []).find? fun s => mentions marker s && !isInside c s) = some s ∧
      s.filling = .text t ∧
      (Embedded.read marker t).result = .ok (some config) ∧
      Text.search (skipEndTag "script".toList) t = none := by
  rcases (configured?_eq_ok_iff h.wellFormed h.first).1 hr with ⟨-, h⟩ | ⟨s, hf, hread⟩
  · cases h
  · have hp := List.find?_some hf
    rw [Bool.and_eq_true] at hp
    have hn := name_of_mentions hp.1
    have hs := Written.isReadable_of_mem_sites h.wellFormed (List.mem_of_find?_eq_some hf)
    obtain ⟨t, ht⟩ := exists_text hs hn
    have hend : Text.search (skipEndTag s.label.name) t = none := by
      have := hs.2
      rw [ht] at this
      exact this.2
    rw [scriptText_of_read ht hread] at hread
    exact ⟨s, t, hf, ht, hread, hn ▸ hend⟩

variable {fields : DeckFields} {t new : Text}

/-- A configuration is updated where it is found. -/
theorem ConfigChange.eq_of_read [Record.Nesting] (h : ConfigChange marker fields w c ls)
    (hf : ((w.sites false [] [] []).find? fun s => mentions marker s && !isInside c s) = some s)
    (hs : s.filling = .text t) {config : Embedded}
    (hr : (Embedded.read marker t).result = .ok (some config)) :
    ∃ new, ls = [(s, .text new)] ∧ (config.update marker fields t).result = .ok new := by
  cases h with
  | @script s' t' new config hf' hs' hr' hu =>
    cases hf'.symm.trans hf
    cases hs'.symm.trans hs
    cases hr'.symm.trans hr
    exact ⟨new, rfl, hu⟩
  | @unread s' hf' hr' =>
    cases hf'.symm.trans hf
    rw [scriptText_of_mem hs (mem_of_read hr) (by decide), hr] at hr'
    cases hr'
  | missing hf' => cases hf'.symm.trans hf

/-- Where no configuration is found, none is updated. -/
theorem ConfigChange.eq_of_none [Record.Nesting] (h : ConfigChange marker fields w c ls)
    (hs : IsSheet marker w c) (hr : (configured? marker w.render).result = .ok none) : ls = [] := by
  cases h with
  | @script s t new config hf ht hread hu =>
    rcases (configured?_eq_ok_iff hs.wellFormed hs.first).1 hr with ⟨hnone, -⟩ | ⟨s', hf', hread'⟩
    · cases hnone.symm.trans hf
    · cases hf'.symm.trans hf
      rw [scriptText_of_mem ht (mem_of_read hread) (by decide), hread] at hread'
      cases hread'
  | unread => rfl
  | missing => rfl

/-- The new record does not end the script that it stands in. -/
theorem ConfigChange.search_eq_none [Record.Nesting] (hs : IsSheet marker w c)
    (hr : (configured? marker w.render).result = .ok (some (.structured record)))
    (hi : (Value.object record).Integral)
    (hend : ∀ s ∈ (Value.object (Embedded.updateRecord fields record)).texts,
      Text.search (skipEndTag "script".toList) (Record.string s) = none)
    (h : ConfigChange marker fields w c ls) :
    ∀ x ∈ ls, Text.search (skipEndTag "script".toList) (x.2.edit x.1).text = none := by
  obtain ⟨s, t, hf, ht, hread, hsearch⟩ := exists_script hs hr
  obtain ⟨new, rfl, hu⟩ := h.eq_of_read hf ht hread
  intro x hx
  rw [List.mem_singleton.1 hx]
  exact Embedded.search_of_update Record.isTagKind_skipEndTag hi hread hu hsearch hend

/-! ## The revised page -/

theorem revise_eq [Record.Nesting] (he : (edits marker content w.render).result = .ok es)
    (p : Plan marker content w c v lt ls)
    (hes : es = (planned c v lt ls).map fun x => x.2.edit x.1) :
    (revise marker content w.render).result = .ok (revised w c v lt ls).render := by
  refine Attempt.result_bind_eq_ok.2 ⟨es, he, congrArg Except.ok ?_⟩
  rw [hes, p.changed.applyAll_eq]
  rfl

namespace Plan

variable [Record.Nesting]

/-- The script with the new record is found in the revised page. -/
theorem exists_script (p : Plan marker content w c v lt [(s, .text new)]) (h : IsSheet marker w c)
    (hf : ((w.sites false [] [] []).find? fun s => mentions marker s && !isInside c s) = some s)
    (hn : Text.holds marker new = true ∧ 'v' ∈ new) {c' : Site} (hc : c'.filling = .page v) :
    ∃ s', (((revised w c v lt [(s, .text new)]).sites false [] [] []).find? fun s =>
        mentions marker s && !isInside c' s) = some s' ∧ s'.filling = .text new := by
  have hm : Mentions marker [(s, .text new)] := by
    intro s' t ht
    cases List.mem_singleton.1 ht
    exact ⟨hn.1, 'v', hn.2, by decide⟩
  have hr := p.rel_script h hm hc
  rw [hf] at hr
  generalize ((revised w c v lt [(s, .text new)]).sites false [] [] []).find? _ = o at hr
  cases hr with
  | some hb =>
    refine ⟨_, rfl, hb.filling.trans (p.changed.filled_text (mem_planned.2 (.inr (.inr ?_))))⟩
    exact List.mem_singleton_self _

/-- What is configured in the revised page is what is read in the new script. -/
theorem configured?_eq_ok_iff (p : Plan marker content w c v lt [(s, .text new)])
    (h : IsSheet marker w c)
    (hf : ((w.sites false [] [] []).find? fun s => mentions marker s && !isInside c s) = some s)
    (hn : Text.holds marker new = true ∧ 'v' ∈ new) {config : Option Embedded} :
    (configured? marker (revised w c v lt [(s, .text new)]).render).result = .ok config ↔
      (Embedded.read marker new).result = .ok config := by
  obtain ⟨c', hc, hfill, -⟩ := p.exists_container h
  obtain ⟨s', hf', hs'⟩ := p.exists_script h hf hn hfill
  rw [Page.configured?_eq_ok_iff (p.wellFormed h) hc, hf']
  constructor
  · rintro (⟨h, -⟩ | ⟨_, h, hr⟩)
    · cases h
    · cases h
      rwa [scriptText_of_mem hs' hn.2 (by decide)] at hr
  · intro hr
    refine .inr ⟨s', rfl, ?_⟩
    rwa [scriptText_of_mem hs' hn.2 (by decide)]

end Plan

/-- If no script that mentions the variable stands in an element like the container, the container
can be told, and what is configured is what is read in the first such script. -/
theorem exists_isSheet [Record.Nesting] {name script : Text} (hw : w.WellFormed)
    (hquiet : ∀ s ∈ w.sites false [] [] [], s.filling.Quiet s.label.name)
    (hname : ((w.sites false [] [] []).find? isContainer).map (·.label.name) = some name)
    (hplain : name ∉ voidElements ∧ isRawSpan name = false ∧ name ≠ "head".toList)
    (halone : ((w.sites false [] [] []).find? isContainer).all (fun c =>
      (w.sites false [] [] []).all fun s => !(mentions marker s && isInside c s)) = true)
    (hscript : ((w.sites false [] [] []).find? (mentions marker)).map scriptText = some script) :
    ∃ c, IsSheet marker w c ∧ ∀ {config}, (Embedded.read marker script).result = .ok config →
      (configured? marker w.render).result = .ok config := by
  obtain ⟨c, hc, rfl⟩ := Option.map_eq_some_iff.1 hname
  obtain ⟨s, hs, rfl⟩ := Option.map_eq_some_iff.1 hscript
  rw [hc] at halone
  have hi : ∀ s ∈ w.sites false [] [] [], mentions marker s = true → isInside c s = false := by
    intro s hs hm
    have := List.all_eq_true.1 halone s hs
    rwa [hm, Bool.true_and, Bool.not_eq_true'] at this
  refine ⟨c, ⟨hw, hc, hplain.1, hplain.2.1, hplain.2.2, fun s hs _ => hquiet s hs,
    fun s hs hm h => ?_⟩, fun hr => ?_⟩
  · cases (hi s hs hm).symm.trans h
  · refine (configured?_eq_ok_iff hw hc).2 (.inr ⟨s, ?_, hr⟩)
    rw [← hs]
    refine List.find?_congr fun s hs => ?_
    cases hm : mentions marker s with
    | false => rfl
    | true => rw [hi s hs hm]; rfl

/-- A page with a title, a container and a configuration. -/
def samplePage : Written :=
  .element ⟨"head".toList, []⟩ (.element ⟨"title".toList, []⟩ (.letter (.char 't') .nil) .nil)
    (.element ⟨"body".toList, []⟩
      (.element ⟨"div".toList, [("class".toList, "slides".toList)]⟩ .nil
        (.raw ⟨"script".toList, []⟩ "var SLConfig = \x7b\"deck\":\x7b\x7d\x7d;".toList .nil)) .nil)

theorem exists_isSheet_samplePage : ∃ c, IsSheet "SLConfig".toList samplePage c ∧
    (configured? "SLConfig".toList samplePage.render).result =
      .ok (some (.structured [(Embedded.deckKey, .object [])])) := by
  have hname : ((samplePage.sites false [] [] []).find? isContainer).map (·.label.name) =
      some "div".toList := by
    decide +kernel
  have hscript :
      ((samplePage.sites false [] [] []).find? (mentions "SLConfig".toList)).map scriptText =
      some "var SLConfig = \x7b\"deck\":\x7b\x7d\x7d;".toList := by decide +kernel
  obtain ⟨c, hsheet, hread⟩ :=
    exists_isSheet (by decide +kernel) (by decide +kernel) hname (by decide) (by decide +kernel)
    hscript
  exact ⟨c, hsheet, hread rfl⟩

/-- The configuration of a revised page is the record with the new fields, if and only if no key and
no string of it holds the end of an assignment. No such text may end the script. -/
theorem configured?_revise [Record.Nesting] (h : IsSheet marker w c) {settings : Settings}
    {slug title : Text}
    (hr : (configured? marker w.render).result = .ok (some (.structured record)))
    (hi : (Value.object record).Integral) (hend : ∀ s ∈ (Value.object
        (Embedded.updateRecord ⟨settings.deckPrefix ++ slug, title, layout.outline.slideCount⟩
          record)).texts,
      Text.search (skipEndTag "script".toList) (Record.string s) = none)
    (he : (edits marker ⟨settings.deckDirname slug, title, layout.outline⟩ w.render).result =
      .ok es) (ha : Edit.Apart es) :
    ∃ new out, new =
      Embedded.updateRecord ⟨settings.deckPrefix ++ slug, title, layout.outline.slideCount⟩ record ∧
      Embedded.Writes ⟨settings.deckPrefix ++ slug, title, layout.outline.slideCount⟩ record new ∧
      (revise marker ⟨settings.deckDirname slug, title, layout.outline⟩ w.render).result = .ok out ∧
      ((configured? marker out).result = .ok (some (.structured new)) ↔
        ∀ s ∈ (Value.object new).texts, ¬Holds ['\x7d', ';'] s) := by
  obtain ⟨s, t, hf, ht, hread, -⟩ := exists_script h hr
  obtain ⟨a, -, -, hd⟩ := Embedded.result_read_eq_structured hread
  obtain ⟨deck, hd⟩ := Option.isSome_iff_exists.1 hd
  obtain ⟨v, lt, ls, p, hes⟩ := exists_plan h rfl he ha fun l hl => hl.search_eq_none h hr hi hend
  obtain ⟨new, rfl, hu⟩ := p.config.eq_of_read hf ht hread
  refine ⟨_, _, rfl, Embedded.writes_updateRecord hd _, revise_eq he p hes, ?_⟩
  exact (p.configured?_eq_ok_iff h hf (Embedded.holds_of_update hread hu)).trans
    (Embedded.result_read_iff_of_update hi hread hu)

/-- A title that ends the assignment makes the record unreadable. -/
theorem configured?_revise_end_in_title :
    let settings := Settings.defaults Path.here
    let title : Text := ['\x7d', ';']
    ∃ new out, new = Embedded.updateRecord ⟨settings.deckPrefix ++ ['x'], title, 1⟩
      [(Embedded.deckKey, .object [])] ∧
      (revise "SLConfig".toList ⟨settings.deckDirname ['x'], title, Layout.outline [.single]⟩
        samplePage.render).result
        = .ok out ∧
      (configured? "SLConfig".toList out).result ≠ .ok (some (.structured new)) := by
  intro settings title
  obtain ⟨c, hsheet, hread⟩ := exists_isSheet_samplePage
  obtain ⟨es, he, ha⟩ := Outcome.exists_of_any (p := fun es => decide (Edit.Apart es))
    (x := (edits "SLConfig".toList ⟨settings.deckDirname ['x'], title, Layout.outline [.single]⟩
      samplePage.render).result)
    (by decide +kernel)
  have hend : ∀ s ∈ (Value.object (Embedded.updateRecord
      ⟨settings.deckPrefix ++ ['x'], title, (Layout.outline [.single]).slideCount⟩
        [(Embedded.deckKey, .object [])])).texts,
      Text.search (skipEndTag "script".toList) (Record.string s) = none := by decide +kernel
  obtain ⟨new, out, hnew, -, hout, hiff⟩ :=
    configured?_revise hsheet hread (by decide) hend he (of_decide_eq_true ha)
  refine ⟨new, out, hnew, hout, fun h => ?_⟩
  have hclose : ∃ s ∈ (Value.object new).texts, Holds ['\x7d', ';'] s := by
    rw [hnew]
    exact ⟨title, by decide, [], [], rfl⟩
  obtain ⟨s, hs, hc⟩ := hclose
  exact hiff.1 h s hs hc

/-- A title that ends the script cuts the record off, and then nothing is configured. -/
theorem configured?_revise_end_of_script :
    let html : Text :=
      "<p class=slides></p><script>var SLConfig = \x7b\"deck\":\x7b\x7d\x7d;</script>".toList
    let content : Content := ⟨"deck-x".toList, "</script>".toList, Layout.outline [.single]⟩
    ∃ record out, (configured? "SLConfig".toList html).result = .ok (some (.structured record)) ∧
      (revise "SLConfig".toList content html).result = .ok out ∧
        (configured? "SLConfig".toList out).result = .ok none := by
  intro html content
  obtain ⟨config, hr, hform⟩ := Outcome.exists_of_any
    (p := fun config => decide (Option.map Embedded.form config = some "Structured".toList))
    (x := (configured? "SLConfig".toList html).result) (by decide +kernel)
  obtain ⟨record, rfl⟩ : ∃ record, config = some (.structured record) := by
    rcases config with _ | record | script
    · cases of_decide_eq_true hform
    · exact ⟨record, rfl⟩
    · exact absurd (Option.some.inj (of_decide_eq_true hform))
        (show "RawText".toList ≠ "Structured".toList by decide)
  have he : (edits "SLConfig".toList content html).result =
      .ok [⟨⟨16, 16⟩, slides content.outline []⟩,
      ⟨⟨28, 55⟩, "var SLConfig = ".toList ++
        Record.render (.object (Embedded.updateRecord content.fields
        [(Embedded.deckKey, .object [])])) ++ [';']⟩] :=
      Outcome.eq_ok_of_toOption (by decide +kernel)
  refine ⟨record, _, hr, Attempt.result_bind_eq_ok.2 ⟨_, he, rfl⟩, ?_⟩
  rw [← Edit.spliceAll_id, Edit.spliceAll_eq_foldr, Edit.leftToRight_pair (by simp [Edit.precedes])]
  obtain ⟨config, hout, hnone⟩ := Outcome.exists_of_any (p := Option.isNone)
    (x := (configured? "SLConfig".toList (List.foldr (fun e l => Edit.splice id l e) html
      [⟨⟨16, 16⟩, slides content.outline []⟩, ⟨⟨28, 55⟩, "var SLConfig = ".toList ++
        Record.render
          (.object (Embedded.updateRecord content.fields [(Embedded.deckKey, .object [])])) ++
            [';']⟩])).result)
    (by decide +kernel)
  rw [hout, Option.isNone_iff_eq_none.1 hnone]

end SlideDeck.Page
