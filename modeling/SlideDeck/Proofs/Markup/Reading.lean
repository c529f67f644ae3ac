import SlideDeck.Proofs.Markup.Written
import SlideDeck.Proofs.Text.Position

/-!
# Reading written pages

Every piece of a well-formed page is read in one step, whatever follows it (`Label.step_start` and
the like); only letters are read in runs. What a round makes of a page is what it would make of the
pieces one by one (`Written.events`), as far as a document under construction can tell (`Yields`).
The document of a page is therefore the document of its pieces' events (`Written.parse_render`).
-/

namespace SlideDeck.Markup

variable {closing : Bool} {rest : Text}

/-! ## The step that reads a piece -/

/-- A text without brackets and ampersands. -/
def IsPlainText (t : Text) : Prop := ∀ c ∈ t, c ≠ '<' ∧ c ≠ '&'

/-- What ends a run of letters: a bracket, an ampersand or the end of the text. -/
def EndsRun (s : Text) : Prop := ∀ c ∈ s.head?, c = '<' ∨ c = '&'

theorem step_text {t : Text} (hne : t ≠ []) (ht : IsPlainText t) (hr : EndsRun rest) :
    step closing none (t ++ rest) = .ok (.event (.text t) none rest) := by
  have hin : ∀ c ∈ t, (c ≠ '<' && c ≠ '&') = true := fun c hc => by simpa using ht c hc
  have hstop : Text.Stops (fun c => c ≠ '<' && c ≠ '&') rest := fun c hc => by
    rcases hr c hc with rfl | rfl <;> decide
  have htake := Text.takeWhile_append_of_stops hin hstop
  have hdrop := Text.dropWhile_append_of_stops hin hstop
  obtain ⟨c, t, rfl⟩ := List.exists_cons_of_ne_nil hne
  obtain ⟨h₁, h₂⟩ := ht c (List.mem_cons_self ..)
  simp only [step]
  split
  · next h => exact absurd (List.cons.inj h).1 h₁
  · next h => exact absurd (List.cons.inj h).1 h₂
  · rw [htake, hdrop]

theorem step_reference {name : Text} (h : (Letter.reference name).IsReadable) (rest : Text) :
    step closing none ((Letter.reference name).render ++ rest) =
      .ok (.event (.text (textNamed name)) none rest) := by
  obtain ⟨ha, hall⟩ := h
  have hin := List.all_eq_true.1 hall
  have hstop : Text.Stops isNameChar (';' :: rest) := Text.stops_cons (by decide) _
  have htake := Text.takeWhile_append_of_stops hin hstop
  have hdrop := Text.dropWhile_append_of_stops hin hstop
  obtain _ | ⟨c, name⟩ := name
  · cases ha
  · have ha : c.isAlpha = true := ha
    have hc : c ≠ '#' := by
      rintro rfl
      cases ha
    have hname : textName? (c :: name ++ ';' :: rest) = some (c :: name, rest) := by
      rw [List.cons_append] at htake hdrop ⊢
      simp only [textName?, ha, ite_true, htake, hdrop, skipSemicolon]
    have hs : (Letter.reference (c :: name)).render ++ rest =
        '&' :: c :: (name ++ ';' :: rest) := by
      simp [Letter.render]
    rw [hs]
    rw [List.cons_append] at hname
    simp only [step, ampersandStep, hname]

/-- Blanks stop at a bracket at the latest, whatever is behind it. -/
theorem stripLeft_append_bracket (v rest : Text) :
    ∃ x y, Text.stripLeft (v ++ ['>']) = x :: y ∧
      Text.stripLeft (v ++ '>' :: rest) = x :: (y ++ rest) := by
  induction v with
  | nil => exact ⟨'>', [], rfl, rfl⟩
  | cons c v ih =>
    by_cases hc : Text.isBlank c = true
    · rw [List.cons_append, List.cons_append, Text.stripLeft, Text.stripLeft,
        List.dropWhile_cons_of_pos hc, List.dropWhile_cons_of_pos hc]
      exact ih
    · refine ⟨c, v ++ ['>'], List.dropWhile_cons_of_neg hc, ?_⟩
      rw [List.append_assoc]
      exact List.dropWhile_cons_of_neg hc

theorem skipCommentEnd_append (u rest : Text) :
    skipCommentEnd (u ++ '>' :: rest) = (skipCommentEnd (u ++ ['>'])).map (· ++ rest) := by
  match u with
  | [] => rfl
  | [c] => simp [skipCommentEnd]
  | c :: d :: v =>
    by_cases h : c = '-' ∧ d = '-'
    · obtain ⟨rfl, rfl⟩ := h
      obtain ⟨x, y, h₁, h₂⟩ := stripLeft_append_bracket v rest
      simp only [List.cons_append, skipCommentEnd, h₁, h₂]
      by_cases hx : x = '>'
      · subst hx
        rfl
      · simp [hx]
    · have hn : ∀ s : Text, skipCommentEnd (c :: d :: s) = none := by
        intro s
        unfold skipCommentEnd
        split
        · next he =>
          obtain ⟨hc, he⟩ := List.cons.inj he
          exact absurd ⟨hc, (List.cons.inj he).1⟩ h
        · rfl
      rw [List.cons_append, List.cons_append, List.cons_append, List.cons_append, hn, hn]
      rfl

theorem search_skipCommentEnd_append {u before after : Text}
    (h : Text.search skipCommentEnd (u ++ ['>']) = some (before, after)) (rest : Text) :
    Text.search skipCommentEnd (u ++ '>' :: rest) = some (before, after ++ rest) := by
  induction u generalizing before with
  | nil => cases h
  | cons c u ih =>
    have hc := skipCommentEnd_append (c :: u) rest
    rw [List.cons_append, List.cons_append] at hc
    rw [List.cons_append, Text.search] at h ⊢
    rw [hc]
    split at h
    · next r hr =>
      obtain ⟨rfl, rfl⟩ := Prod.mk.inj (Option.some.inj h)
      rw [hr]
      rfl
    · next hr =>
      obtain ⟨⟨b, a⟩, hs, hb⟩ := Option.map_eq_some_iff.1 h
      obtain ⟨rfl, rfl⟩ := Prod.mk.inj hb
      rw [hr, Option.map_none]
      dsimp only
      rw [ih hs]
      rfl

theorem render_comment (t rest : Text) :
    (Remark.comment t).render ++ rest = '<' :: '!' :: '-' :: '-' ::
      ((t ++ "--".toList) ++ '>' :: rest) := by
  have hi : Remark.inner (.comment t) = ['!', '-', '-'] ++ (t ++ "--".toList) := rfl
  rw [Remark.render, hi]
  simp only [List.cons_append, List.append_assoc, List.nil_append]

theorem render_doctype (t rest : Text) :
    (Remark.doctype t).render ++ rest = '<' :: '!' :: ("DOCTYPE".toList ++ t ++ '>' :: rest) := by
  have hi : Remark.inner (.doctype t) = '!' :: ("DOCTYPE".toList ++ t) := rfl
  rw [Remark.render, hi]
  simp only [List.cons_append, List.append_assoc, List.nil_append]

theorem step_remark {r : Remark} (h : r.IsReadable) (rest : Text) :
    step closing none (r.render ++ rest) = .ok (.event (.remark r.read) none rest) := by
  have ha : Char.isAlpha '!' = false := by decide
  cases r with
  | comment t =>
    have h : Text.search skipCommentEnd ((t ++ "--".toList) ++ ['>']) = some (t, []) := by
      rw [List.append_assoc]
      exact h
    have hs := search_skipCommentEnd_append h rest
    have he := render_comment t rest
    generalize (t ++ "--".toList) ++ '>' :: rest = s at hs he
    have hp : "<!--".toList <+: '<' :: '!' :: '-' :: '-' :: s := ⟨s, by simp⟩
    rw [he]
    simp only [step, bracketStep, openedStep, ha, Bool.false_eq_true, Char.reduceEq, ite_false, hp,
      ite_true, remarkUntil,
      List.drop_succ_cons, List.drop_zero, hs, Except.map, Step.finish, Remark.read, id,
      List.nil_append]
  | doctype t =>
    have hd : declarationStep ((Remark.doctype t).render ++ rest) =
        .ok (.event (.remark (t.drop 1)) none rest) := by
      have hu₁ := upTo_append h rest
      have hn : '>' ∉ "DOCTYPE".toList ++ t := List.not_mem_append (by decide) h
      have hu₂ := upTo_append hn rest
      have he : (Remark.doctype t).render ++ rest =
          '<' :: '!' :: ("DOCTYPE".toList ++ t ++ '>' :: rest) :=
        render_doctype t rest
      have h₁ : ((Remark.doctype t).render ++ rest).drop 9 = t ++ '>' :: rest := by rw [he]; simp
      have h₂ : ((Remark.doctype t).render ++ rest).drop 2 = "DOCTYPE".toList ++ t ++ '>' ::
          rest := by rw [he]; rfl
      have hp : ¬"<![".toList <+: (Remark.doctype t).render ++ rest := by
        rw [he]
        simp
      have hl : (((Remark.doctype t).render ++ rest).take 9).map Char.toLower =
          "<!doctype".toList := by
        rw [he]
        simp
      rw [declarationStep, if_neg hp, if_pos hl, h₁, hu₁, h₂, hu₂]
      simp
    have he : (Remark.doctype t).render ++ rest =
        '<' :: '!' :: 'D' :: ("OCTYPE".toList ++ t ++ '>' :: rest) :=
      render_doctype t rest
    generalize "OCTYPE".toList ++ t ++ '>' :: rest = s at he
    have hp : ¬"<!--".toList <+: '<' :: '!' :: 'D' :: s := by simp
    rw [he] at hd ⊢
    simp only [step, bracketStep, openedStep, ha, Bool.false_eq_true, Char.reduceEq, ite_false, hp,
      ite_true, hd, Except.map, Step.finish, Remark.read]

theorem isAlpha_of_isTagName {c : Char} {name : Text} (h : isTagName (c :: name) = true) :
    c.isAlpha = true := by
  rw [isTagName, Bool.and_eq_true] at h
  exact Bool.or_eq_true_iff.2 (.inr h.1)

theorem step_start {l : Label} (h : l.IsReadable) (rest : Text) :
    step closing none (l.start ++ rest) = .ok (.event (.startTag l.name l.read false)
      (if isRawElement l.name then some l.name else none) rest) := by
  obtain ⟨c, name, hname⟩ := List.exists_cons_of_ne_nil (ne_nil_of_isTagName h.1)
  have ha : c.isAlpha = true := isAlpha_of_isTagName (hname ▸ h.1)
  have hread := StartTag.read_write h.1 h.isPlain rest
  have hattrs := StartTag.attributes_write h.1 h.isPlain rest
  have hstart : startTagStep (l.start ++ rest) = .ok (.event (.startTag l.name l.read false)
      (if isRawElement l.name then some l.name else none) rest) := by
    rw [Label.start, startTagStep, hattrs, hread]
    rfl
  have he : ∃ r, l.start ++ rest = '<' :: c :: r :=
    ⟨_, by rw [Label.start, StartTag.write, hname]; rfl⟩
  obtain ⟨r, he⟩ := he
  rw [he] at hstart ⊢
  simp only [step, bracketStep, openedStep, ha, ite_true, hstart, Except.map, Step.finish]

/-- The end tag that stands at the start of a text. -/
theorem plainEndTag?_stop {l : Label} (h : l.IsReadable) (rest : Text) :
    plainEndTag? (l.stop ++ rest) = some (l.name, rest) := by
  obtain ⟨c, name, hname⟩ := List.exists_cons_of_ne_nil (ne_nil_of_isTagName h.1)
  have ha : c.isAlpha = true := isAlpha_of_isTagName (hname ▸ h.1)
  have hall : ∀ d ∈ c :: name, isTagNameChar d = true := hname ▸ forall_of_isTagName h.1
  have hb : Text.isBlank c = false :=
    isBlank_eq_false_of_sameLetter
      (isElementNameChar_of_isTagNameChar (hall c (List.mem_cons_self ..))) (sameLetter_self c)
  have hin : ∀ d ∈ name, isEndNameChar d = true := by
    intro d hd
    have hd := hall d (List.mem_cons_of_mem _ hd)
    rw [isTagNameChar, Bool.or_eq_true] at hd
    have : d.isAlphanum = true := isAlphanum_iff.2 (hd.imp .inr id)
    simp [isEndNameChar, this]
  have hstop : Text.Stops isEndNameChar ('>' :: rest) := Text.stops_cons (by decide) _
  have h₁ : Text.stripLeft (c :: name ++ '>' :: rest) = c :: (name ++ '>' :: rest) := by
    rw [Text.stripLeft, List.cons_append, List.dropWhile_cons_of_neg (by simp [hb])]
  have h₂ : Text.stripLeft ('>' :: rest) = '>' :: rest := rfl
  have he : l.stop ++ rest = '<' :: '/' :: (c :: name ++ '>' :: rest) := by
    simp [Label.stop, writeEnd, hname]
  have hlow := lower_of_isTagName h.1
  rw [hname] at hlow
  rw [he, hname]
  simp only [plainEndTag?, h₁, ha, ite_true, Text.takeWhile_append_of_stops hin hstop,
    Text.dropWhile_append_of_stops hin hstop, h₂, hlow]

theorem step_stop {l : Label} (h : l.IsReadable) (rest : Text) :
    step closing none (l.stop ++ rest) = .ok (.event (.endTag l.name) none rest) := by
  have hp := plainEndTag?_stop h rest
  have hu : upTo '>' (l.stop ++ rest) = some ('<' :: '/' :: l.name, rest) := by
    have hn : '>' ∉ '<' :: '/' :: l.name := by
      have := Tag.Passes.not_mem_of_isTagName (c := '>') (by decide) h.1
      simp [this]
    have := upTo_append hn rest
    simpa [Label.stop, writeEnd] using this
  have ha : Char.isAlpha '/' = false := by decide
  have he : l.stop ++ rest = '<' :: '/' :: (l.name ++ ['>'] ++ rest) := rfl
  have hs : endTagStep (l.stop ++ rest) = .event (.endTag l.name) none rest := by
    rw [endTagStep, hu]
    dsimp only
    rw [hp]
  rw [he] at hs ⊢
  simp only [step, bracketStep, openedStep, ha, Bool.false_eq_true, ite_false, ite_true, hs,
    Except.map, Step.finish]

theorem step_raw {l : Label} (h : l.IsReadable) {t : Text} (hne : t ≠ [])
    (ht : Text.search (skipEndTag l.name) t = none) (rest : Text) :
    step closing (some l.name) (t ++ (l.stop ++ rest)) =
      .ok (.event (.text t) (some l.name) (l.stop ++ rest)) := by
  have hs := search_skipEndTag h.1 ht rest
  obtain ⟨c, t, rfl⟩ := List.exists_cons_of_ne_nil hne
  rw [step, rawStep, Label.stop, hs]
  dsimp only
  rw [List.drop_left]

theorem step_raw_stop {l : Label} (h : l.IsReadable) (rest : Text) :
    step closing (some l.name) (l.stop ++ rest) = .ok (.event (.endTag l.name) none rest) := by
  have hs : Text.search (skipEndTag l.name) (l.stop ++ rest) = some ([], rest) :=
    Text.search_of_recognize (skipEndTag_writeEnd h.1 rest)
  rw [step, rawStep, hs]
  dsimp only
  rw [plainEndTag?_stop h]

/-! ## Rounds -/

/-- The events of a text, piece by piece. -/
def textEvents (p : Position) (t : Text) : List Located := if t = [] then [] else [⟨p, .text t⟩]

/-- The events of the pieces of a page one by one. -/
def Written.events (p : Position) : Written → List Located
  | .nil => []
  | .letter l next => ⟨p, .text l.read⟩ :: next.events (p.after l.render)
  | .remark r next => ⟨p, .remark r.read⟩ :: next.events (p.after r.render)
  | .void l next => ⟨p, .startTag l.name l.read false⟩ :: next.events (p.after l.start)
  | .raw l t next =>
    let q := p.after l.start
    ⟨p, .startTag l.name l.read false⟩ :: (textEvents q t ++ ⟨q.after t, .endTag l.name⟩
      :: next.events ((q.after t).after l.stop))
  | .element l content next =>
    let q := (p.after l.start).after content.render
    ⟨p, .startTag l.name l.read false⟩ :: (content.events (p.after l.start) ++ ⟨q, .endTag l.name⟩
      :: next.events (q.after l.stop))

/-- A round that starts at `s` makes of a document what these events make of it, and reads all of
`s`. -/
def Yields (p : Position) (raw : Option Text) (s : Text) (events : List Located) : Prop :=
  ∀ fuel, s.length < fuel → ∃ found, round false fuel p raw s = .ok (found, ⟨p.after s, none, []⟩) ∧
    ∀ b, found.foldl Builder.take b = events.foldl Builder.take b

namespace Yields

variable {p : Position} {raw : Option Text} {s t a : Text} {events more : List Located}

theorem nil (p : Position) : Yields p none [] [] := by
  intro fuel hf
  obtain ⟨n, rfl⟩ := Nat.exists_eq_succ_of_ne_zero (Nat.ne_of_gt hf)
  exact ⟨[], rfl, fun _ => rfl⟩

/-- One step and what the rest yields. -/
theorem step {e : Event} {raw' : Option Text} (hne : a ≠ [])
    (h : Markup.step false raw (a ++ s) = .ok (.event e raw' s))
    (hs : Yields (p.after a) raw' s events) :
    Yields p raw (a ++ s) (⟨p, e⟩ :: events) := by
  intro fuel hf
  obtain ⟨n, rfl⟩ := Nat.exists_eq_succ_of_ne_zero (show fuel ≠ 0 by omega)
  have hlen := List.length_pos_iff.2 hne
  rw [List.length_append] at hf
  obtain ⟨found, hr, hb⟩ := hs n (by omega)
  have htake : (a ++ s).take ((a ++ s).length - s.length) = a := by
    rw [List.length_append, Nat.add_sub_cancel, List.take_left]
  refine ⟨⟨p, e⟩ :: found, ?_, fun b => hb _⟩
  obtain ⟨c, r, hcr⟩ : ∃ c r, a ++ s = c :: r := by
    obtain ⟨c, a, rfl⟩ := List.exists_cons_of_ne_nil hne
    exact ⟨c, a ++ s, rfl⟩
  have hafter : p.after (c :: r) = (p.after a).after s := by rw [← hcr, Position.after_append]
  rw [hcr] at h htake ⊢
  simp only [round, h, htake, hr, hafter, bind, Except.bind, pure, Except.pure]

/-- Events that make the same of every document. -/
theorem congr (h : Yields p raw s events)
    (he : ∀ b, events.foldl Builder.take b = more.foldl Builder.take b) :
    Yields p raw s more := by
  intro fuel hf
  obtain ⟨found, hr, hb⟩ := h fuel hf
  exact ⟨found, hr, fun b => (hb b).trans (he b)⟩

/-- A run of letters. -/
theorem text (ht : IsPlainText t) (hr : EndsRun s) (hs : Yields (p.after t) none s events) :
    Yields p none (t ++ s) (textEvents p t ++ events) := by
  by_cases h : t = []
  · subst h
    exact hs
  · rw [textEvents, if_neg h]
    exact step h (step_text h ht hr) hs

/-- A run of letters and the piece that ends it. -/
theorem piece {e : Event} {raw' : Option Text} (ht : IsPlainText t) (hr : EndsRun (a ++ s))
    (hne : a ≠ []) (h : Markup.step false none (a ++ s) = .ok (.event e raw' s))
    (hs : Yields ((p.after t).after a) raw' s events) :
    Yields p none (t ++ (a ++ s)) (textEvents p t ++ ⟨p.after t, e⟩ :: events) :=
  text ht hr (step hne h hs)

/-- Raw text and the end tag behind it. -/
theorem raw_text {l : Label} (hl : l.IsReadable) (ht : Text.search (skipEndTag l.name) t = none)
    (hs : Yields (((p.after t)).after l.stop) none s events) :
    Yields p (some l.name) (t ++ (l.stop ++ s))
      (textEvents p t ++ ⟨p.after t, .endTag l.name⟩ :: events) := by
  have hend : Yields (p.after t) (some l.name) (l.stop ++ s)
      (⟨p.after t, .endTag l.name⟩ :: events) :=
    step l.stop_ne_nil (step_raw_stop hl s) hs
  by_cases h : t = []
  · subst h
    exact hend
  · rw [textEvents, if_neg h]
    exact step h (step_raw hl h ht s) hend

end Yields

/-- Letters one by one are a run of letters. -/
theorem foldl_textEvents (p q : Position) (t : Text) (c : Char) (events : List Located)
    (b : Builder) :
    (textEvents p (t ++ [c]) ++ events).foldl Builder.take b
      = (textEvents p t ++ ⟨q, .text [c]⟩ :: events).foldl Builder.take b := by
  have hne : t ++ [c] ≠ [] := by simp
  rw [textEvents, if_neg hne, textEvents]
  split
  · next h =>
    subst h
    rfl
  · simp [Builder.take]

theorem endsRun_start (l : Label) (s : Text) : EndsRun (l.start ++ s) := by
  intro c hc
  exact .inl (Option.some.inj hc).symm

theorem endsRun_stop (l : Label) (s : Text) : EndsRun (l.stop ++ s) := by
  intro c hc
  exact .inl (Option.some.inj hc).symm

theorem endsRun_remark (r : Remark) (s : Text) : EndsRun (r.render ++ s) := by
  intro c hc
  exact .inl (Option.some.inj hc).symm

theorem endsRun_reference (name s : Text) : EndsRun ((Letter.reference name).render ++ s) := by
  intro c hc
  exact .inr (Option.some.inj hc).symm

theorem not_isRawElement_of_void {name : Text} (h : name ∈ voidElements) :
    isRawElement name = false := by
  have hall : ∀ m ∈ voidElements, isRawElement m = false := by decide
  exact hall name h

/-- A well-formed page yields the events of its pieces, followed by those of what is behind it; `t`
are the letters read so far that belong to one run with the letters at the start of the page. -/
theorem Written.yields {w : Written} (hw : w.WellFormed) {t : Text} (ht : IsPlainText t)
    {rest : Text} (hr : EndsRun rest) {p : Position} {more : List Located}
    (hm : Yields ((p.after t).after w.render) none rest more) :
    Yields p none (t ++ (w.render ++ rest)) (textEvents p t ++ (w.events (p.after t) ++ more)) := by
  have hnil : IsPlainText [] := fun c hc => nomatch hc
  induction w generalizing t rest p more with
  | nil => exact Yields.text ht hr hm
  | letter l next ih =>
    obtain ⟨hl, hw⟩ := hw
    simp only [render, List.append_assoc, Position.after_append] at hm ⊢
    cases l with
    | char c =>
      have ht' : IsPlainText (t ++ [c]) := fun d hd => by
        rcases List.mem_append.1 hd with hd | hd
        · exact ht d hd
        · obtain rfl := List.mem_singleton.1 hd
          exact hl
      have h := @ih hw _ ht' _ hr p more (by rwa [Position.after_append])
      rw [List.append_assoc] at h
      refine Yields.congr h fun b => ?_
      rw [foldl_textEvents p (p.after t) t c, Position.after_append]
      rfl
    | reference name =>
      exact Yields.piece ht (endsRun_reference name _) (by simp [Letter.render])
        (step_reference hl _)
        (@ih hw [] hnil _ hr _ more hm)
  | remark r next ih =>
    obtain ⟨h, hw⟩ := hw
    simp only [render, List.append_assoc, Position.after_append] at hm ⊢
    exact Yields.piece ht (endsRun_remark r _) (by simp [Remark.render]) (step_remark h _)
      (@ih hw [] hnil _ hr _ more hm)
  | void l next ih =>
    obtain ⟨⟨hl, hv⟩, hw⟩ := hw
    have hstep := @step_start false l hl (next.render ++ rest)
    rw [not_isRawElement_of_void hv, if_neg Bool.false_ne_true] at hstep
    simp only [render, List.append_assoc, Position.after_append] at hm ⊢
    exact Yields.piece ht (endsRun_start l _) l.start_ne_nil hstep (@ih hw [] hnil _ hr _ more hm)
  | raw l u next ih =>
    obtain ⟨⟨hl, hraw, hu⟩, hw⟩ := hw
    have hstep := @step_start false l hl (u ++ (l.stop ++ (next.render ++ rest)))
    rw [hraw, if_pos rfl] at hstep
    simp only [render, List.append_assoc, List.cons_append, Position.after_append, events] at hm ⊢
    have hnext : Yields _ none (next.render ++ rest) (next.events _ ++ more) :=
      @ih hw [] hnil _ hr _ more hm
    exact Yields.piece ht (endsRun_start l _) l.start_ne_nil hstep (Yields.raw_text hl hu hnext)
  | element l content next ihc ihn =>
    obtain ⟨⟨hl, hv, hraw, -⟩, hc, hw⟩ := hw
    have hstep := @step_start false l hl (content.render ++ (l.stop ++ (next.render ++ rest)))
    rw [hraw, if_neg Bool.false_ne_true] at hstep
    simp only [render, List.append_assoc, List.cons_append, Position.after_append, events] at hm ⊢
    have hnext : Yields _ none (next.render ++ rest) (next.events _ ++ more) :=
      @ihn hw [] hnil _ hr _ more hm
    have hstop := Yields.step l.stop_ne_nil (step_stop hl _) hnext
    exact Yields.piece ht (endsRun_start l _) l.start_ne_nil hstep
      (@ihc hc [] hnil _ (endsRun_stop l _) _ _ hstop)

/-- The document of a page is what the events of its pieces make. -/
theorem Written.parse_render {w : Written} (hw : w.WellFormed) :
    parse w.render = .ok ((w.events .start).foldl Builder.take .empty).finish := by
  have hnil : IsPlainText [] := fun c hc => nomatch hc
  have hend : EndsRun [] := fun c hc => nomatch hc
  have hy : Yields .start none (w.render ++ []) (w.events .start ++ []) :=
    @Written.yields w hw [] hnil [] hend .start [] (Yields.nil _)
  rw [List.append_nil, List.append_nil] at hy
  obtain ⟨found, hr, hb⟩ := hy (w.render.length + 1) (Nat.lt_succ_self _)
  -- The first round reads all of the text, so that the closing one has nothing left.
  have he : Markup.events w.render = .ok found := by
    rw [Markup.events, hr]
    show Except.ok (found ++ [] ++ []) = _
    rw [List.append_nil, List.append_nil]
  rw [parse, he, ← hb]
  rfl

end SlideDeck.Markup
