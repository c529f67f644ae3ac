import SlideDeck.Proofs.Expression.Plain
import SlideDeck.Proofs.Failing
import SlideDeck.Proofs.Markup.Located
import SlideDeck.Proofs.Page.Frame

/-!
# Why a page is not revised

Markup is not read if it is rejected or if the number of a character reference has too many digits
(`Markup.Unreadable`). What else keeps a page from being revised are mostly failures that a run
reports: there is no container, or an element does not end. The others are those of the container's
name, of the record in the script and of the slide count (`Page.Fault`, `Page.revise_eq_error_iff`).
-/

namespace SlideDeck

open SlideDeck.Outcome (FailsOnly)

/-! ## Reading markup -/

namespace Markup

/-- The markup is rejected, or the number of a character reference has too many digits. -/
def Unreadable (f : Failure) : Prop := f = .rejectedMarkup ∨ ∃ digits, f = .numeralTooLong digits

variable (closing : Bool) (s : Text)

theorem readNumber_failsOnly (hex : Bool) : FailsOnly Unreadable (readNumber hex s) := by
  unfold readNumber
  split
  · exact .ok _
  · split
    · exact .ok _
    · exact .error (.inr ⟨_, rfl⟩)

theorem valueReference?_failsOnly : FailsOnly Unreadable (valueReference? s) := by
  unfold valueReference?
  split
  · split
    · exact .ok _
    · exact .bind (readNumber_failsOnly _ _) fun _ => .ok _
  · split
    · exact .ok _
    · split
      · exact .ok _
      · exact .ok _

theorem unescapeFor_failsOnly (n : Nat) : FailsOnly Unreadable (unescapeFor n s) := by
  induction n generalizing s with
  | zero => exact .ok s
  | succ n ih =>
    cases s with
    | nil => exact .ok []
    | cons c r =>
      rw [unescapeFor]
      split
      · refine .bind (valueReference?_failsOnly r) fun found => ?_
        cases found with
        | none => exact .bind (ih r) fun _ => .ok _
        | some found => exact .bind (ih found.2) fun _ => .ok _
      · exact .bind (ih r) fun _ => .ok _

theorem attributes_failsOnly (t : StartTag) : FailsOnly Unreadable t.attributes := by
  unfold StartTag.attributes
  generalize ([] : Attributes) = attrs
  induction t.written generalizing attrs with
  | nil => exact .ok attrs
  | cons written rest ih =>
      exact .bind (.bind (unescapeFor_failsOnly _ _) fun _ => .ok _) fun attrs => ih attrs

theorem startTagStep_failsOnly : FailsOnly Unreadable (startTagStep s) := by
  unfold startTagStep
  dsimp only
  split
  · exact .bind (attributes_failsOnly _) fun _ => .ok _
  · exact .bind (attributes_failsOnly _) fun _ => .ok _
  · exact .ok _
  · exact .ok _

theorem sectionStep_failsOnly : FailsOnly Unreadable (sectionStep s) := by
  unfold sectionStep
  split
  · exact .ok _
  · split
    · dsimp only
      split
      · exact .ok _
      · split
        · exact .ok _
        · split
          · exact .ok _
          · exact .error (.inl rfl)
    · exact .error (.inl rfl)

theorem declarationStep_failsOnly : FailsOnly Unreadable (declarationStep s) := by
  unfold declarationStep
  split
  · exact sectionStep_failsOnly _
  · split
    · split
      · split
        · exact .ok _
        · exact .ok _
      · exact .ok _
    · exact .ok _

theorem openedStep_failsOnly : FailsOnly Unreadable (openedStep s) := by
  unfold openedStep
  split
  · split
    · exact startTagStep_failsOnly _
    iterate 3
      split
      · exact .ok _
    split
    · exact declarationStep_failsOnly _
    · exact .ok _
  · exact .ok _

theorem bracketStep_failsOnly : FailsOnly Unreadable (bracketStep closing s) :=
  (openedStep_failsOnly s).map

theorem ampersandStep_failsOnly : FailsOnly Unreadable (ampersandStep closing s) := by
  unfold ampersandStep
  split
  · split
    · exact .bind (readNumber_failsOnly _ _) fun _ => .ok _
    · exact .ok _
  · split
    · exact .ok _
    · split
      · exact .ok _
      · exact .ok _
  · exact .ok _

theorem step_failsOnly (raw : Option Text) : FailsOnly Unreadable (step closing raw s) := by
  unfold step
  split
  · exact .ok _
  · split
    · exact bracketStep_failsOnly closing _
    · exact ampersandStep_failsOnly closing _
    · exact .ok _

theorem round_failsOnly (fuel : Nat) (p : Position) (raw : Option Text) :
    FailsOnly Unreadable (round closing fuel p raw s) := by
  induction fuel generalizing p raw s with
  | zero => exact .ok _
  | succ fuel ih =>
    cases s with
    | nil => exact .ok _
    | cons c r =>
      rw [round.eq_def]
      refine .bind (step_failsOnly closing _ raw) fun step => ?_
      cases step with
      | event e raw rest => exact .bind (ih rest _ raw) fun _ => .ok _
      | skip rest => exact ih rest _ raw
      | stop t rest => exact .ok _
      | unfinished => exact .ok _

theorem parse_failsOnly : FailsOnly Unreadable (parse s) :=
  .bind (.bind (round_failsOnly false s _ _ _) fun _ => .bind (round_failsOnly true _ _ _ _)
    fun _ => .ok _) fun _ => .ok _

/-! ## Finding spans -/

end Markup

namespace Markup.Element

variable {html : Text} {document : List Node} {e : Element} {f : Failure}

/-- The start tag of an element ends. -/
def IsOpened (html : Text) (e : Element) : Prop :=
  ∃ offset inside, e.position.offset? html = some offset ∧
    skipTagRest none (html.drop (offset + 1 + e.name.length)) = some inside

/-- The content of an element is not found because its name cannot be searched for, or its tags are
not as they should be. -/
theorem span_eq_error_iff (hparse : Markup.parse html = .ok document) (he : e ∈ elementsOf document)
    (hf : f.isReported = false) :
    e.span html = .error f ↔ e.IsOpened html ∧ isRawSpan e.name = false ∧
      ∃ fault, Expression.read (tagPattern e.name) = .error fault ∧
        f = .unsearchableName fault := by
  obtain ⟨x, hx, rfl⟩ := List.mem_map.1 he
  obtain ⟨offset, hoffset⟩ := (parse_stands hparse x hx).offset?
  have hreported {g : Failure} (hg : g.isReported = true) : Except.error (α := Span) g ≠ .error f :=
    fun heq => by
    rw [Except.error.inj heq, hf] at hg
    cases hg
  rw [Element.span, hoffset]
  dsimp only
  rw [spanAt]
  cases hrest : skipTagRest none (html.drop (offset + 1 + x.1.name.length)) with
  | none =>
    refine iff_of_false (hreported rfl) fun h => ?_
    obtain ⟨offset', inside, hoffset', hrest'⟩ := h.1
    cases hoffset.symm.trans hoffset'
    cases hrest.symm.trans hrest'
  | some inside =>
    have hopened : x.1.IsOpened html := ⟨offset, inside, hoffset, hrest⟩
    dsimp only
    cases hraw : isRawSpan x.1.name with
    | true =>
      refine iff_of_false ?_ fun h => Bool.noConfusion h.2.1
      rw [if_pos rfl]
      split
      · simp
      · exact hreported rfl
    | false =>
      rw [if_neg Bool.false_ne_true, Outcome.bind_eq_error]
      constructor
      · rintro (hname | ⟨tags, -, hbalance⟩)
        · exact ⟨hopened, rfl, tagsIn_eq_error_iff.1 hname⟩
        · split at hbalance
          · cases hbalance
          · exact absurd hbalance (hreported rfl)
      · rintro ⟨-, -, hname⟩
        exact .inl (tagsIn_eq_error_iff.2 hname)

/-- The content of an element with a plain name is found, or a run reports why it is not. -/
theorem span_failsOnly (hparse : Markup.parse html = .ok document) (he : e ∈ elementsOf document)
    (hname : isRawSpan e.name = true ∨ isPlainName e.name = true) :
    FailsOnly (fun f => f.isReported = true) (e.span html) := by
  intro f hf
  by_contra hreported
  obtain ⟨-, hraw, fault, hfault, -⟩ :=
    (span_eq_error_iff hparse he (Bool.eq_false_iff.2 hreported)).1 hf
  rcases hname with hraw' | hplain
  · cases hraw.symm.trans hraw'
  · cases (Expression.read_tagPattern hplain).symm.trans hfault

end Markup.Element

/-! ## The configuration -/

namespace Embedded

variable {marker script : Text} {e : Embedded} {fields : DeckFields} {f : Failure}

/-- A configuration is not read if a number of its record has too many digits or if the record is
nested too deeply. -/
theorem read_eq_error_iff [Record.Nesting] : (read marker script).result = .error f ↔
    ∃ a, Assignment.find? marker script = some a ∧
      ((∃ digits, Record.read a.payload = .error (.numeralTooLong digits) ∧
        f = .numeralTooLong digits) ∨
        Record.read a.payload = .error .nestedTooDeep ∧ f = .nestedTooDeep) := by
  rw [read.eq_def]
  cases Assignment.find? marker script with
  | none => exact iff_of_false nofun fun ⟨_, h, _⟩ => nomatch h
  | some a =>
    simp only [Option.some.injEq, exists_eq_left']
    cases Record.read a.payload with
    | error fault =>
      cases fault with
      | lacks expected left => exact iff_of_false nofun (by simp)
      | numeralTooLong digits =>
        constructor
        · intro h
          cases h
          exact .inl ⟨digits, rfl, rfl⟩
        · rintro (⟨digits, hread, rfl⟩ | ⟨hread, -⟩)
          · cases hread
            rfl
          · cases hread
      | nestedTooDeep =>
        constructor
        · intro h
          cases h
          exact .inr ⟨rfl, rfl⟩
        · rintro (⟨digits, hread, -⟩ | ⟨-, rfl⟩)
          · cases hread
          · rfl
    | ok v =>
      refine iff_of_false ?_ (by simp)
      cases v with
      | object record =>
        dsimp only
        split
        · nofun
        · nofun
      | _ => nofun

/-- The fields of a deck are not written into a record if the slide count has too many digits. -/
theorem update_eq_error_iff : (e.update marker fields script).result = .error f ↔
    (∃ record, e = .structured record) ∧
      Numeral.maxDigits < (Text.ofNat fields.slideCount.natAbs).length ∧
      f = .numberTooLong := by
  cases e with
  | structured record =>
    rw [update]
    by_cases hcount : (Text.ofNat fields.slideCount.natAbs).length ≤ Numeral.maxDigits
    · refine iff_of_false ?_ fun h => Nat.not_lt.2 hcount h.2.1
      rw [if_pos hcount]
      dsimp only
      split
      · nofun
      · nofun
    · rw [if_neg hcount]
      constructor
      · intro h
        cases h
        exact ⟨⟨record, rfl⟩, Nat.not_le.1 hcount, rfl⟩
      · rintro ⟨-, -, rfl⟩
        rfl
  | raw own => exact iff_of_false nofun fun ⟨⟨_, h⟩, _⟩ => nomatch h

end Embedded

/-! ## Revising a page -/

namespace Page

open Markup (Edit Element Node)

variable {marker html : Text} {content : Content} {document : List Node} {container : Element}
  {f : Failure}

/-- The spans of the container and of the title are found in a page. -/
structure IsOpened (html : Text) (document : List Node) (container : Element) : Prop where
  parsed : Markup.parse html = .ok document
  found : container? (Markup.elementsOf document) = some container
  slides : ∃ span, container.span html = .ok span
  title : ∃ span, titleSpan? html (Markup.elementsOf document) = .ok span

/-- The first script outside of the container that mentions the variable, and its text. -/
def script? (marker : Text) (document : List Node) (container : Element) :
    Option (Element × Text) :=
  (scriptsOutside container document).find? fun script => Text.holds marker script.2

theorem mem_scriptsOutside {script : Element × Text}
    (h : script ∈ scriptsOutside container document) :
    script.1 ∈ Markup.elementsOf document ∧ script.1.name = "script".toList := by
  obtain ⟨⟨e, around⟩, hx, heq⟩ := List.mem_filterMap.1 h
  obtain ⟨hname, heq⟩ := Option.ite_none_right_eq_some.1 heq
  cases heq
  exact ⟨List.mem_map.2 ⟨_, hx, rfl⟩, hname.1⟩

theorem exists_titleEdit?_iff {title : Text} {elements : List Element} :
    (∃ e, titleEdit? html title elements = .ok e) ↔
      ∃ span, titleSpan? html elements = .ok span := by
  refine ⟨fun ⟨e, he⟩ => ⟨_, titleSpan?_of_titleEdit? he⟩, fun ⟨span, hspan⟩ => ?_⟩
  cases ht : named? "title".toList elements with
  | some e =>
    rw [titleSpan?, ht] at hspan
    rw [titleEdit?, ht]
    obtain ⟨s, hs, -⟩ := Outcome.map_eq_ok.1 hspan
    exact ⟨_, Outcome.bind_eq_ok.2 ⟨s, hs, rfl⟩⟩
  | none =>
    rw [titleSpan?, ht] at hspan
    rw [titleEdit?, ht]
    cases hd : named? "head".toList elements with
    | some d =>
      rw [hd] at hspan
      obtain ⟨s, hs, -⟩ := Outcome.map_eq_ok.1 hspan
      exact ⟨_, Outcome.bind_eq_ok.2 ⟨s, hs, rfl⟩⟩
    | none => exact ⟨none, rfl⟩

/-- Titles and heads have names that are searched for, so a run reports it if the place of the title
is not found. -/
theorem titleEdit?_failsOnly (hparse : Markup.parse html = .ok document) (title : Text) :
    FailsOnly (fun f => f.isReported = true)
      (titleEdit? html title (Markup.elementsOf document)) := by
  have hname {name : Text} {e : Element} (h : named? name (Markup.elementsOf document) = some e) :
      e.name = name :=
    of_decide_eq_true (List.find?_some (p := fun e : Element => e.name = name) h)
  unfold titleEdit?
  dsimp only
  split
  · next e he =>
    exact .bind (Markup.Element.span_failsOnly hparse (List.mem_of_find?_eq_some he)
      (.inl (by rw [hname he]; decide)))
      fun _ => .ok _
  · split
    · next e he =>
      refine .bind (Markup.Element.span_failsOnly hparse (List.mem_of_find?_eq_some he) (.inr ?_))
        fun _ => .ok _
      rw [hname he]
      decide
    · exact .ok _

theorem configEdit?_eq_error_iff [Record.Nesting] {fields : DeckFields}
    {scripts : List (Element × Text)} :
    (configEdit? html marker fields scripts).result = .error f ↔
      ∃ script text, (scripts.find? fun x => Text.holds marker x.2) = some (script, text) ∧
        ((Embedded.read marker text).result = .error f ∨
          ∃ config, (Embedded.read marker text).result = .ok (some config) ∧
            (script.span html = .error f ∨
            ∃ span, script.span html = .ok span ∧
              (config.update marker fields (span.slice html)).result = .error f)) := by
  rw [configEdit?]
  split
  · next hf =>
    refine iff_of_false (fun h => by cases h) fun h => ?_
    obtain ⟨_, _, h, -⟩ := h
    cases hf.symm.trans h
  · next script text hf =>
    rw [Attempt.result_bind_eq_error]
    constructor
    · rintro (h | ⟨found, hread, h⟩)
      · exact ⟨script, text, hf, .inl h⟩
      · cases found with
        | none => cases h
        | some config =>
          refine ⟨script, text, hf, .inr ⟨config, hread, ?_⟩⟩
          rcases Attempt.result_bind_eq_error.1 h with h | ⟨span, hspan, h⟩
          · exact .inl h
          · rcases Attempt.result_bind_eq_error.1 h with h | ⟨new, -, h⟩
            · exact .inr ⟨span, hspan, h⟩
            · cases h
    · rintro ⟨_, _, h, hcases⟩
      cases hf.symm.trans h
      rcases hcases with h | ⟨config, hread, h⟩
      · exact .inl h
      · refine .inr ⟨some config, hread, Attempt.result_bind_eq_error.2 ?_⟩
        rcases h with h | ⟨span, hspan, h⟩
        · exact .inl h
        · exact .inr ⟨span, hspan, Attempt.result_bind_eq_error.2 (.inl h)⟩

theorem edits_eq_error_iff [Record.Nesting] : (edits marker content html).result = .error f ↔
    Markup.parse html = .error f ∨ ∃ document, Markup.parse html = .ok document ∧
      (container? (Markup.elementsOf document) = none ∧ f = .noContainer ∨
        ∃ container, container? (Markup.elementsOf document) = some container ∧
          (container.span html = .error f ∨ (∃ span, container.span html = .ok span) ∧
            (titleEdit? html content.title (Markup.elementsOf document) = .error f ∨
              (∃ e, titleEdit? html content.title (Markup.elementsOf document) = .ok e) ∧
              (configEdit? html marker content.fields (scriptsOutside container document)).result =
                .error f))) := by
  rw [edits, Attempt.result_bind_eq_error]
  refine or_congr_right (exists_congr fun document => and_congr_right fun _ => ?_)
  dsimp only
  cases hc : container? (Markup.elementsOf document) with
  | none =>
    constructor
    · intro h
      cases h
      exact .inl ⟨rfl, rfl⟩
    · rintro (⟨-, rfl⟩ | ⟨_, h, -⟩)
      · rfl
      · cases h
  | some container =>
    simp only [reduceCtorEq, false_and, false_or, Option.some.injEq, exists_eq_left']
    rw [Attempt.result_bind_eq_error]
    have hslides : (Attempt.ofExcept (slidesEdit html content.outline container)).result =
        .error f ↔
        container.span html = .error f := by
      show slidesEdit html content.outline container = .error f ↔ _
      rw [slidesEdit, Outcome.bind_eq_error]
      refine or_iff_left fun h => ?_
      obtain ⟨_, -, h⟩ := h
      cases h
    constructor
    · rintro (h | ⟨slides, hfound, h⟩)
      · exact .inl (hslides.1 h)
      · obtain ⟨span, hspan, -⟩ := Outcome.bind_eq_ok.1 hfound
        refine .inr ⟨⟨span, hspan⟩, ?_⟩
        rcases Attempt.result_bind_eq_error.1 h with h | ⟨_, -, h⟩
        · cases h
        rcases Attempt.result_bind_eq_error.1 h with h | ⟨title, htitle, h⟩
        · exact .inl h
        rcases Attempt.result_bind_eq_error.1 h with h | ⟨config, -, h⟩
        · exact .inr ⟨⟨title, htitle⟩, h⟩
        · cases h
    · rintro (h | ⟨⟨span, hspan⟩, h⟩)
      · exact .inl (hslides.2 h)
      · refine .inr ⟨_, Outcome.bind_eq_ok.2 ⟨span, hspan, rfl⟩,
          Attempt.result_bind_eq_error.2 (.inr ⟨(), rfl, ?_⟩)⟩
        refine Attempt.result_bind_eq_error.2 ?_
        rcases h with h | ⟨⟨title, htitle⟩, h⟩
        · exact .inl h
        · exact .inr ⟨title, htitle, Attempt.result_bind_eq_error.2 (.inl h)⟩

theorem IsOpened.edits_eq_error [Record.Nesting] (h : IsOpened html document container)
    (hconfig : (configEdit? html marker content.fields (scriptsOutside container document)).result =
      .error f) :
    (edits marker content html).result = .error f :=
  edits_eq_error_iff.2 (.inr ⟨document, h.parsed, .inr ⟨container, h.found,
    .inr ⟨h.slides, .inr ⟨exists_titleEdit?_iff.2 h.title, hconfig⟩⟩⟩⟩)

/-- What a page, or what is to be put into it, is at fault for, and no run has a word for it. -/
inductive Fault [Record.Nesting] (marker : Text) (content : Content) (html : Text) : Failure → Prop
  /-- The markup is rejected. -/
  | rejected (hparse : Markup.parse html = .error .rejectedMarkup) :
      Fault marker content html .rejectedMarkup
  /-- The number of a character reference has too many digits. -/
  | reference {digits : Nat} (hparse : Markup.parse html = .error (.numeralTooLong digits)) :
    Fault marker content html (.numeralTooLong digits)
  /-- The name of the container makes no expression. -/
  | name {document : List Node} {container : Element} {fault : Expression.Fault}
      (hparse : Markup.parse html = .ok document)
    (hcontainer : container? (Markup.elementsOf document) = some container)
    (hopened : container.IsOpened html) (hraw : Markup.isRawSpan container.name = false)
    (hname : Expression.read (Markup.tagPattern container.name) = .error fault) :
    Fault marker content html (.unsearchableName fault)
  /-- A number of the record has too many digits. -/
  | numeral {document : List Node} {container script : Element} {text : Text} {a : Assignment}
      {digits : Nat}
    (hopened : IsOpened html document container)
    (hscript : script? marker document container = some (script, text))
    (hassigned : Assignment.find? marker text = some a)
    (hlong : Record.read a.payload = .error (.numeralTooLong digits)) :
    Fault marker content html (.numeralTooLong digits)
  /-- The record is nested too deeply. -/
  | nesting {document : List Node} {container script : Element} {text : Text} {a : Assignment}
    (hopened : IsOpened html document container)
    (hscript : script? marker document container = some (script, text))
    (hassigned : Assignment.find? marker text = some a)
    (hdeep : Record.read a.payload = .error .nestedTooDeep) :
    Fault marker content html .nestedTooDeep
  /-- The slide count has too many digits for a record. -/
  | count {document : List Node} {container script : Element} {text : Text}
      {record : Record.Members}
    (hopened : IsOpened html document container)
    (hscript : script? marker document container = some (script, text))
    (hread : (Embedded.read marker text).result = .ok (some (.structured record)))
    (hspan : ∃ span, script.span html = .ok span)
    (hlong : Numeral.maxDigits < (Text.ofNat content.outline.slideCount).length) :
    Fault marker content html .numberTooLong

/-- No run has a word for such a fault, whichever failures it reports. -/
theorem Fault.not_told [Record.Nesting] (h : Fault marker content html f) :
    ¬(f.isReported || f.isSystem) = true := by
  cases h with
  | @name _ _ fault _ _ _ _ _ => cases fault <;> exact Bool.false_ne_true
  | _ => exact Bool.false_ne_true

/-- A page is not revised, for a reason that no run has a word for, exactly if that is a fault of
the page or of what is to be put into it. -/
theorem revise_eq_error_iff [Record.Nesting] (hf : f.isReported = false) :
    (revise marker content html).result = .error f ↔ Fault marker content html f := by
  have hrevise : (revise marker content html).result = .error f ↔
      (edits marker content html).result = .error f := by
    rw [revise, Attempt.result_bind_eq_error]
    exact or_iff_left fun ⟨_, _, h⟩ => nomatch h
  have hscriptSpan {document : List Node} {container script : Element} {text : Text}
      (hparse : Markup.parse html = .ok document)
      (hscript : script? marker document container = some (script, text)) :
      script.span html ≠ .error f := fun h => by
    obtain ⟨he, hname⟩ := mem_scriptsOutside (List.mem_of_find?_eq_some hscript)
    rw [Markup.Element.span_failsOnly hparse he (.inl (by rw [hname]; decide)) f h] at hf
    cases hf
  rw [hrevise]
  constructor
  · intro h
    rcases edits_eq_error_iff.1 h
      with hparse | ⟨document, hparse,
        ⟨-, rfl⟩ | ⟨container, hcontainer, hspan | ⟨hspan, htitle | ⟨htitle, hconfig⟩⟩⟩⟩
    · rcases Markup.parse_failsOnly html f hparse with rfl | ⟨digits, rfl⟩
      · exact .rejected hparse
      · exact .reference hparse
    · cases hf
    · obtain ⟨hopened, hraw, fault, hname, rfl⟩ :=
        (Markup.Element.span_eq_error_iff hparse (List.mem_of_find?_eq_some hcontainer) hf).1 hspan
      exact .name hparse hcontainer hopened hraw hname
    · rw [titleEdit?_failsOnly hparse _ f htitle] at hf
      cases hf
    · have hopened : IsOpened html document container :=
        ⟨hparse, hcontainer, hspan, exists_titleEdit?_iff.1 htitle⟩
      obtain ⟨script, text, hscript, hread | ⟨config, hread, hspan | ⟨span, hspan, hupdate⟩⟩⟩ :=
        configEdit?_eq_error_iff.1 hconfig
      · obtain ⟨a, ha, ⟨digits, hlong, rfl⟩ | ⟨hdeep, rfl⟩⟩ := Embedded.read_eq_error_iff.1 hread
        · exact .numeral hopened hscript ha hlong
        · exact .nesting hopened hscript ha hdeep
      · exact absurd hspan (hscriptSpan hparse hscript)
      · obtain ⟨⟨record, rfl⟩, hlong, rfl⟩ := Embedded.update_eq_error_iff.1 hupdate
        exact .count hopened hscript hread ⟨span, hspan⟩ hlong
  · intro h
    cases h with
    | rejected hparse => exact edits_eq_error_iff.2 (.inl hparse)
    | reference hparse => exact edits_eq_error_iff.2 (.inl hparse)
    | @name document container _ hparse hcontainer hopened hraw hname =>
      refine edits_eq_error_iff.2 (.inr ⟨document, hparse, .inr ⟨container, hcontainer, .inl ?_⟩⟩)
      exact (Markup.Element.span_eq_error_iff hparse (List.mem_of_find?_eq_some hcontainer) hf).2
        ⟨hopened, hraw, _, hname, rfl⟩
    | @numeral document container script text a digits hopened hscript ha hlong =>
      exact hopened.edits_eq_error (configEdit?_eq_error_iff.2 ⟨script, text, hscript,
        .inl (Embedded.read_eq_error_iff.2 ⟨a, ha, .inl ⟨digits, hlong, rfl⟩⟩)⟩)
    | @nesting document container script text a hopened hscript ha hdeep =>
      exact hopened.edits_eq_error (configEdit?_eq_error_iff.2 ⟨script, text, hscript,
        .inl (Embedded.read_eq_error_iff.2 ⟨a, ha, .inr ⟨hdeep, rfl⟩⟩)⟩)
    | @count document container script text record hopened hscript hread hspan hlong =>
      obtain ⟨span, hspan⟩ := hspan
      exact hopened.edits_eq_error
        (configEdit?_eq_error_iff.2 ⟨script, text, hscript, .inr ⟨_, hread,
        .inr ⟨span, hspan, Embedded.update_eq_error_iff.2 ⟨⟨record, rfl⟩, hlong, rfl⟩⟩⟩⟩)

end Page

end SlideDeck
