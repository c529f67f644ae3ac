import SlideDeck.Page.Basic
import SlideDeck.Proofs.Markup.Span
import SlideDeck.Proofs.Markup.Splice
import SlideDeck.Proofs.Outcome

/-!
# What a revision leaves as it is

A revision replaces the spans of three elements that are searched for on their own
(`Page.Replaces`), and nothing keeps these spans apart. All that stands outside of them is left as
it is if and only if the edits stay in step with their spans (`revise_keeps_iff`), as they do if no
two spans overlap. A title element inside of the container breaks this
(`revise_title_in_container`).
-/

namespace SlideDeck.Page

open Markup (Edit Element Node Span)

variable {marker html out : Text} {content : Content} {es : List Edit}

/-- The span that the title takes: the content of the first title element, or else the end of the
head's content. -/
def titleSpan? (html : Text) (elements : List Element) : Except Failure (Option Span) :=
  match named? "title".toList elements with
  | some e => (e.span html).map some
  | none =>
    match named? "head".toList elements with
    | some e => (e.span html).map fun span => some ⟨span.stop, span.stop⟩
    | none => .ok none

/-- The span of the first script that mentions the variable, if it assigns a configuration to it. -/
def configSpan? [Record.Nesting] (html marker : Text) (scripts : List (Element × Text)) :
    Except Failure (Option Span) :=
  match scripts.find? fun script => Text.holds marker script.2 with
  | none => .ok none
  | some (script, text) =>
    match (Embedded.read marker text).result with
    | .error e => .error e
    | .ok none => .ok none
    | .ok (some _) => (script.span html).map some

/-- The spans that a revision replaces: of the container, of the title and of the configuration. -/
def Replaces [Record.Nesting] (marker html : Text) (spans : List Span) : Prop :=
  ∃ document container slides title config,
    Markup.parse html = .ok document ∧
    container? (Markup.elementsOf document) = some container ∧
    container.span html = .ok slides ∧
    titleSpan? html (Markup.elementsOf document) = .ok title ∧
    configSpan? html marker (scriptsOutside container document) = .ok config ∧
    spans = slides :: (title.toList ++ config.toList)

theorem titleSpan?_of_titleEdit? {title : Text} {elements : List Element} {e : Option Edit}
    (h : titleEdit? html title elements = .ok e) :
    titleSpan? html elements = .ok (e.map Edit.span) := by
  rw [titleEdit?] at h
  rw [titleSpan?]
  cases ht : named? "title".toList elements with
  | some t =>
    rw [ht] at h
    obtain ⟨s, hs, h⟩ := Outcome.bind_eq_ok.1 h
    cases h
    exact Outcome.map_eq_ok.2 ⟨s, hs, rfl⟩
  | none =>
    rw [ht] at h
    dsimp only at h ⊢
    cases hd : named? "head".toList elements with
    | some d =>
      rw [hd] at h
      obtain ⟨s, hs, h⟩ := Outcome.bind_eq_ok.1 h
      cases h
      exact Outcome.map_eq_ok.2 ⟨s, hs, rfl⟩
    | none =>
      rw [hd] at h
      cases h
      rfl

/-- The configuration's edit is that of the first script that mentions the variable. -/
theorem configEdit?_eq_ok_iff [Record.Nesting] {marker html : Text} {fields : DeckFields}
    {scripts : List (Element × Text)} {e : Option Edit} :
    (configEdit? html marker fields scripts).result = .ok e ↔
      (scripts.find? fun x => Text.holds marker x.2) = none ∧ e = none ∨
      ∃ script text config, (scripts.find? fun x => Text.holds marker x.2) = some (script, text) ∧
        (Embedded.read marker text).result = .ok config ∧
        (config = none ∧ e = none ∨ ∃ c span new, config = some c ∧ script.span html = .ok span ∧
          (c.update marker fields (span.slice html)).result = .ok new ∧ e = some ⟨span, new⟩) := by
  rw [configEdit?]
  cases hf : scripts.find? fun x => Text.holds marker x.2 with
  | none =>
    refine ⟨fun h => ?_, fun h => ?_⟩
    · obtain ⟨_, -, h⟩ := Attempt.result_bind_eq_ok.1 h
      exact .inl ⟨rfl, (Except.ok.inj h).symm⟩
    · rcases h with ⟨-, rfl⟩ | ⟨_, _, _, h, -⟩
      · rfl
      · cases h
  | some x =>
    obtain ⟨script, text⟩ := x
    dsimp only
    rw [Attempt.result_bind_eq_ok]
    constructor
    · rintro ⟨config, hr, h⟩
      refine .inr ⟨script, text, config, rfl, hr, ?_⟩
      cases config with
      | none => exact .inl ⟨rfl, (Except.ok.inj h).symm⟩
      | some c =>
        obtain ⟨span, hs, h⟩ := Attempt.result_bind_eq_ok.1 h
        obtain ⟨new, hu, h⟩ := Attempt.result_bind_eq_ok.1 h
        obtain ⟨_, -, h⟩ := Attempt.result_bind_eq_ok.1 h
        exact .inr ⟨c, span, new, rfl, hs, hu, (Except.ok.inj h).symm⟩
    · rintro (⟨h, -⟩ | ⟨_, _, config, h, hr, hc⟩)
      · cases h
      · cases h
        refine ⟨config, hr, ?_⟩
        rcases hc with ⟨rfl, rfl⟩ | ⟨c, span, new, rfl, hs, hu, rfl⟩
        · rfl
        · refine Attempt.result_bind_eq_ok.2 ⟨span, hs, Attempt.result_bind_eq_ok.2 ⟨new, hu, ?_⟩⟩
          exact Attempt.result_bind_eq_ok.2 ⟨(), rfl, rfl⟩

theorem configSpan?_of_configEdit? [Record.Nesting] {fields : DeckFields}
    {scripts : List (Element × Text)} {e : Option Edit}
    (h : (configEdit? html marker fields scripts).result = .ok e) :
    configSpan? html marker scripts = .ok (e.map Edit.span) := by
  rw [configSpan?]
  obtain ⟨hf, rfl⟩ | ⟨script, text, config, hf, hread, hconfig⟩ := configEdit?_eq_ok_iff.1 h
  · rw [hf]
    rfl
  · rw [hf]
    dsimp only
    rw [hread]
    rcases hconfig with ⟨rfl, rfl⟩ | ⟨c, span, new, rfl, hs, -, rfl⟩
    · rfl
    · exact Outcome.map_eq_ok.2 ⟨span, hs, rfl⟩

/-- The edits are those of the container, of the title and of the configuration. -/
theorem edits_eq_ok_iff [Record.Nesting] :
    (edits marker content html).result = .ok es ↔ ∃ document container slides title config,
      Markup.parse html = .ok document ∧
      container? (Markup.elementsOf document) = some container ∧
      slidesEdit html content.outline container = .ok slides ∧
      titleEdit? html content.title (Markup.elementsOf document) = .ok title ∧
      (configEdit? html marker content.fields (scriptsOutside container document)).result =
        .ok config ∧
      es = slides :: (title.toList ++ config.toList) := by
  constructor
  · intro h
    rw [edits] at h
    obtain ⟨document, hd, h⟩ := Attempt.result_bind_eq_ok.1 h
    dsimp only at h
    split at h
    · cases h
    · next container hc =>
      obtain ⟨slides, hs, h⟩ := Attempt.result_bind_eq_ok.1 h
      obtain ⟨_, -, h⟩ := Attempt.result_bind_eq_ok.1 h
      obtain ⟨title, ht, h⟩ := Attempt.result_bind_eq_ok.1 h
      obtain ⟨config, hf, h⟩ := Attempt.result_bind_eq_ok.1 h
      cases h
      exact ⟨document, container, slides, title, config, hd, hc, hs, ht, hf, rfl⟩
  · rintro ⟨document, container, slides, title, config, hd, hc, hs, ht, hf, rfl⟩
    rw [edits]
    refine Attempt.result_bind_eq_ok.2 ⟨document, hd, ?_⟩
    simp only [hc]
    refine Attempt.result_bind_eq_ok.2 ⟨slides, hs, Attempt.result_bind_eq_ok.2 ⟨(), rfl, ?_⟩⟩
    exact Attempt.result_bind_eq_ok.2 ⟨title, ht, Attempt.result_bind_eq_ok.2 ⟨config, hf, rfl⟩⟩

theorem replaces_of_edits [Record.Nesting] (h : (edits marker content html).result = .ok es) :
    Replaces marker html (es.map Edit.span) := by
  obtain ⟨document, container, slides, title, config, hd, hc, hslides, ht, hf, rfl⟩ :=
    edits_eq_ok_iff.1 h
  obtain ⟨span, hs, hslides⟩ := Outcome.bind_eq_ok.1 hslides
  cases hslides
  refine ⟨document, container, span, title.map Edit.span, config.map Edit.span, hd, hc, hs,
    titleSpan?_of_titleEdit? ht, configSpan?_of_configEdit? hf, ?_⟩
  cases title <;> cases config <;> rfl

/-! ## Where the spans lie -/

theorem titleSpan?_within {elements : List Element} {s : Span}
    (h : titleSpan? html elements = .ok (some s)) :
    s.start ≤ s.stop ∧ s.stop ≤ html.length := by
  rw [titleSpan?] at h
  split at h
  · obtain ⟨span, hs, h⟩ := Outcome.map_eq_ok.1 h
    cases h
    exact Element.span_within hs
  · split at h
    · obtain ⟨span, hs, h⟩ := Outcome.map_eq_ok.1 h
      cases h
      exact ⟨Nat.le_refl _, (Element.span_within hs).2⟩
    · cases h

theorem configSpan?_within [Record.Nesting] {scripts : List (Element × Text)} {s : Span}
    (h : configSpan? html marker scripts = .ok (some s)) :
    s.start ≤ s.stop ∧ s.stop ≤ html.length := by
  rw [configSpan?] at h
  split at h
  · cases h
  · split at h
    · cases h
    · cases h
    · obtain ⟨span, hs, h⟩ := Outcome.map_eq_ok.1 h
      cases h
      exact Element.span_within hs

theorem within_of_replaces [Record.Nesting] {spans : List Span} (h : Replaces marker html spans)
    {s : Span} (hm : s ∈ spans) :
    s.start ≤ s.stop ∧ s.stop ≤ html.length := by
  obtain ⟨document, container, slides, title, config, -, -, hs, ht, hc, rfl⟩ := h
  rcases List.mem_cons.1 hm with rfl | hm
  · exact Element.span_within hs
  rcases List.mem_append.1 hm with hm | hm
  · rw [Option.mem_toList.1 hm] at ht
    exact titleSpan?_within ht
  · rw [Option.mem_toList.1 hm] at hc
    exact configSpan?_within hc

/-! ## The revised page -/

/-- A revision leaves all that stands outside of the spans it replaces as it is, if and only if its
edits stay in step with their spans. Spans that lie apart are enough for this, and then the
replacements stand whole between the stretches. -/
theorem revise_keeps_iff [Record.Nesting] (h : (revise marker content html).result = .ok out) :
    ∃ es, (edits marker content html).result = .ok es ∧ Replaces marker html (es.map Edit.span) ∧
      out = Edit.applyAll html es ∧
      (Edit.KeepsOutside html es ↔ Edit.InStep html.length (Edit.leftToRight es) 0 0) ∧
      (Edit.KeepsOutside html es → Edit.Frames id html (Edit.leftToRight es) 0 out) ∧
      (Edit.Apart es → Edit.KeepsOutside html es ∧
        out = Edit.fill html (Edit.leftToRight es) 0) := by
  obtain ⟨es, he, h⟩ := Attempt.result_bind_eq_ok.1 h
  obtain rfl : Edit.applyAll html es = out := Except.ok.inj h
  have hr := replaces_of_edits he
  have hw : ∀ e ∈ es, Edit.Within html.length e :=
    fun e he => within_of_replaces hr (List.mem_map_of_mem he)
  exact ⟨es, he, hr, rfl, Edit.keepsOutside_iff hw, Edit.KeepsOutside.frames, fun ha =>
    Edit.keepsOutside_of_apart ha hw⟩

/-- The title of a drawing inside of the container is taken for the page's. Once it is replaced by a
shorter one, the span of the container reaches to the end of the page, and the end tags and the
paragraph behind the container are lost. -/
theorem revise_title_in_container :
    let html :=
      "<body><div class=\"slides\"><svg><title>Quarterly revenue by region</title></svg></div>".toList
        ++ "<p>after</p></body>".toList
    let content : Content := ⟨"deck-x".toList, ['Q'], Layout.outline []⟩
    (revise "SLConfig".toList content html).result = .ok "<body><div class=\"slides\">\n".toList ∧
      ∃ es, (edits "SLConfig".toList content html).result = .ok es ∧
        Replaces "SLConfig".toList html (es.map Edit.span) ∧ ¬Edit.KeepsOutside html es := by
  intro html content
  have he : (edits "SLConfig".toList content html).result =
      .ok [⟨⟨26, 79⟩, ['\n']⟩, ⟨⟨38, 65⟩, ['Q']⟩] :=
    Outcome.eq_ok_of_toOption (by decide +kernel)
  have hs : Edit.leftToRight [⟨⟨26, 79⟩, ['\n']⟩, ⟨⟨38, 65⟩, ['Q']⟩] =
      [⟨⟨26, 79⟩, ['\n']⟩, ⟨⟨38, 65⟩, ['Q']⟩] :=
    Edit.leftToRight_pair (by decide)
  have hr : (revise "SLConfig".toList content html).result =
      .ok "<body><div class=\"slides\">\n".toList := by
    refine Attempt.result_bind_eq_ok.2 ⟨_, he, congrArg Except.ok ?_⟩
    rw [← Edit.spliceAll_id, Edit.spliceAll_eq_foldr, hs]
    decide +kernel
  obtain ⟨es, he', hw, -, hiff, -⟩ := revise_keeps_iff hr
  obtain rfl := Except.ok.inj (he.symm.trans he')
  refine ⟨hr, _, he, hw, fun hk => absurd (hiff.1 hk) ?_⟩
  rw [hs]
  decide

end SlideDeck.Page
