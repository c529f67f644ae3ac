import SlideDeck.Proofs.Markup.Descendants
import SlideDeck.Proofs.Markup.Splice

/-!
# Changed pages

Elements of a page may get a new page between their tags, a page more at the end of their content,
or a new raw text (`Written.change`). These changes are edits of the page's text (`Written.edits`):
edits turn a text into another one (`Edit.Turns`) piece by piece, so that all edits together make
the changed page (`Written.applyAll_eq`).
-/

namespace SlideDeck.Markup

/-- What is changed in a page, by the text before an element. -/
structure Changes where
  /-- A new page between the tags. -/
  content : Text → Option Written
  /-- A page at the end of the content. -/
  more : Text → Option Written
  /-- A new raw text. -/
  text : Text → Option Text

variable {f : Changes}

/-! ## The changed page -/

/-- A page with changes made, behind a text. -/
def Written.change (f : Changes) (before : Text) : Written → Written
  | .nil => .nil
  | .letter l next => .letter l (next.change f (before ++ l.render))
  | .remark r next => .remark r (next.change f (before ++ r.render))
  | .void l next => .void l (next.change f (before ++ l.start))
  | .raw l t next =>
      .raw l ((f.text before).getD t) (next.change f (before ++ (l.start ++ (t ++ l.stop))))
  | .element l content next =>
    .element l (((f.content before).getD (content.change f (before ++ l.start))).append
      ((f.more before).getD .nil))
      (next.change f (before ++ (l.start ++ (content.render ++ l.stop))))

/-- Where the content of an element stands that starts behind a text. -/
def Label.inside (l : Label) (before content : Text) : Span :=
  ⟨before.length + l.start.length, before.length + l.start.length + content.length⟩

/-- The end of the content. -/
def Label.atEnd (l : Label) (before content : Text) : Span :=
  ⟨before.length + l.start.length + content.length, before.length + l.start.length + content.length⟩

/-- The edits that make the changes, from left to right. -/
def Written.edits (f : Changes) (before : Text) : Written → List Edit
  | .nil => []
  | .letter l next => next.edits f (before ++ l.render)
  | .remark r next => next.edits f (before ++ r.render)
  | .void l next => next.edits f (before ++ l.start)
  | .raw l t next =>
    ((f.text before).toList.map fun u => ⟨l.inside before t, u⟩) ++
      next.edits f (before ++ (l.start ++ (t ++ l.stop)))
  | .element l content next =>
    (match f.content before with
      | some c => [⟨l.inside before content.render, c.render⟩]
      | none => content.edits f (before ++ l.start))
      ++ (((f.more before).toList.map fun m => ⟨l.atEnd before content.render, m.render⟩)
      ++ next.edits f (before ++ (l.start ++ (content.render ++ l.stop))))

namespace Written

variable {w : Written} {before behind : Text}

/-- Where the edits of a page lie. -/
theorem within_of_mem_edits {e : Edit} (h : e ∈ w.edits f before) :
    before.length < e.span.start ∧ e.span.start ≤ e.span.stop ∧
      e.span.stop < before.length + w.render.length := by
  induction w generalizing before with
  | nil => cases h
  | letter l next ih =>
    have := ih h
    simp only [render, List.length_append] at this ⊢
    omega
  | remark r next ih =>
    have := ih h
    simp only [render, List.length_append] at this ⊢
    omega
  | void l next ih =>
    have := ih h
    simp only [render, List.length_append] at this ⊢
    omega
  | raw l t next ih =>
    have h₁ := List.length_pos_iff.2 l.start_ne_nil
    have h₂ := List.length_pos_iff.2 l.stop_ne_nil
    rcases List.mem_append.1 h with h | h
    · obtain ⟨u, -, rfl⟩ := List.mem_map.1 h
      simp only [Label.inside, render, List.length_append]
      omega
    · have := ih h
      simp only [render, List.length_append] at this ⊢
      omega
  | element l content next ihc ihn =>
    have h₁ := List.length_pos_iff.2 l.start_ne_nil
    have h₂ := List.length_pos_iff.2 l.stop_ne_nil
    simp only [render, List.length_append]
    rcases List.mem_append.1 h with h | h
    · split at h
      · rw [List.mem_singleton.1 h]
        simp only [Label.inside]
        omega
      · have := ihc h
        simp only [List.length_append] at this
        omega
    rcases List.mem_append.1 h with h | h
    · obtain ⟨m, -, rfl⟩ := List.mem_map.1 h
      simp only [Label.atEnd]
      omega
    · have := ihn h
      simp only [List.length_append] at this
      omega

/-- The edits of a page lie apart, and no two of them start at one place, unless a content is
replaced and made longer at once. -/
theorem pairwise_edits (hf : ∀ b, f.content b = none ∨ f.more b = none) (w : Written)
    (before : Text) :
    (w.edits f before).Pairwise fun a b => a.span.start < b.span.start ∧
      a.span.stop ≤ b.span.start := by
  induction w generalizing before with
  | nil => exact .nil
  | letter l next ih => exact ih _
  | remark r next ih => exact ih _
  | void l next ih => exact ih _
  | raw l t next ih =>
    refine List.pairwise_append.2 ⟨?_, ih _, fun a ha b hb => ?_⟩
    · cases f.text before <;> simp
    · obtain ⟨u, -, rfl⟩ := List.mem_map.1 ha
      have := within_of_mem_edits hb
      simp only [Label.inside, List.length_append] at this ⊢
      omega
  | element l content next ihc ihn =>
    have hnext : ∀ b ∈ next.edits f (before ++ (l.start ++ (content.render ++ l.stop))),
        before.length + l.start.length + content.render.length < b.span.start := fun b hb => by
      have := within_of_mem_edits hb
      simp only [List.length_append] at this
      omega
    refine List.pairwise_append.2 ⟨?_, List.pairwise_append.2 ⟨?_, ihn _, fun a ha b hb => ?_⟩,
      fun a ha b hb => ?_⟩
    · split
      · exact List.pairwise_singleton _ _
      · exact ihc _
    · cases f.more before <;> simp
    · obtain ⟨m, -, rfl⟩ := List.mem_map.1 ha
      exact ⟨hnext b hb, Nat.le_of_lt (hnext b hb)⟩
    · split at ha
      · next c hc =>
        have hm : f.more before = none := (hf before).resolve_left (by simp [hc])
        rw [hm] at hb
        have := hnext b hb
        rw [List.mem_singleton.1 ha]
        simp only [Label.inside]
        omega
      · have ha := within_of_mem_edits ha
        simp only [List.length_append] at ha
        rcases List.mem_append.1 hb with hb | hb
        · obtain ⟨m, -, rfl⟩ := List.mem_map.1 hb
          simp only [Label.atEnd]
          omega
        · have := hnext b hb
          omega

end Written

/-! ## The text of the changed page -/

namespace Edit

/-- Edits turn a text between two others into a new text, whatever edits are made behind it. -/
def Turns (before x rest : Text) (edits : List Edit) (y : Text) : Prop :=
  (∀ e ∈ edits, before.length ≤ e.span.start) ∧
    ∀ es : List Edit, (∀ e ∈ es, before.length + x.length ≤ e.span.start) →
      fill (before ++ (x ++ rest)) (edits ++ es) before.length
        = y ++ fill (before ++ (x ++ rest)) es (before.length + x.length)

namespace Turns

variable {before x rest y t u : Text} {edits more : List Edit}

theorem drop_length_add (before x rest : Text) :
    (before ++ (x ++ rest)).drop (before.length + x.length) = rest := by
  rw [← List.length_append, ← List.append_assoc, List.drop_left]

/-- What no edit lies in is kept. -/
theorem keep (before x rest : Text) : Turns before x rest [] x := by
  refine ⟨fun e he => (nomatch he), fun es h => ?_⟩
  cases es with
  | nil => rw [List.append_nil, fill, fill, List.drop_left, drop_length_add]
  | cons e es =>
    obtain ⟨k, hk⟩ := Nat.exists_eq_add_of_le (h e (List.mem_cons_self ..))
    have htake : (before ++ (x ++ rest)).take e.span.start = before ++ (x ++ rest.take k) := by
      rw [hk, ← List.length_append, ← List.append_assoc, List.take_length_add_append,
        List.append_assoc]
    rw [List.nil_append, fill, fill, htake, List.drop_left, drop_length_add]
    simp only [List.append_assoc]

/-- One edit of all of it. -/
theorem edit (before x rest t : Text) :
    Turns before x rest [⟨⟨before.length, before.length + x.length⟩, t⟩] t := by
  refine ⟨fun e he => ?_, fun es _ => ?_⟩
  · obtain rfl := List.mem_singleton.1 he
    exact Nat.le_refl _
  · have hnil : ((before ++ (x ++ rest)).take before.length).drop before.length = [] := by simp
    rw [List.singleton_append, fill, hnil, List.nil_append]

/-- An edit of the content of an element. -/
theorem inside (l : Label) (before x rest t : Text) :
    Turns (before ++ l.start) x rest [⟨l.inside before x, t⟩] t := by
  have := edit (before ++ l.start) x rest t
  rwa [List.length_append] at this

theorem atEnd (l : Label) (before x rest t : Text) :
    Turns (before ++ l.start ++ x) [] rest [⟨l.atEnd before x, t⟩] t := by
  have := edit (before ++ l.start ++ x) [] rest t
  rwa [List.length_append, List.length_append] at this

theorem append (h₁ : Turns before x (t ++ rest) edits y) (h₂ : Turns (before ++ x) t rest more u) :
    Turns before (x ++ t) rest (edits ++ more) (y ++ u) := by
  have hmore : ∀ e ∈ more, before.length + x.length ≤ e.span.start := by
    simpa only [List.length_append] using h₂.1
  refine ⟨fun e he => ?_, fun es hes => ?_⟩
  · rcases List.mem_append.1 he with he | he
    · exact h₁.1 e he
    · have := hmore e he
      omega
  · rw [List.length_append, ← Nat.add_assoc] at hes ⊢
    have hsecond := h₂.2 es (by simpa only [List.length_append] using hes)
    have hfirst := h₁.2 (more ++ es) fun e he => by
      rcases List.mem_append.1 he with he | he
      · exact hmore e he
      · have := hes e he
        omega
    simp only [List.append_assoc, List.length_append] at hfirst hsecond ⊢
    rw [hfirst, hsecond]

/-- An element whose content is turned into another one, and what follows it. -/
theorem element {l : Label} {next next' : Text}
    (hc : Turns (before ++ l.start) t (l.stop ++ (next ++ rest)) edits u)
    (hn : Turns (before ++ (l.start ++ (t ++ l.stop))) next rest more next') :
    Turns before (l.start ++ (t ++ (l.stop ++ next))) rest (edits ++ more)
      (l.start ++ (u ++ (l.stop ++ next'))) := by
  have hstop : Turns (before ++ l.start ++ t) (l.stop ++ next) rest more (l.stop ++ next') := by
    have := (keep (before ++ l.start ++ t) l.stop (next ++ rest)).append
        (by simpa only [List.append_assoc] using hn)
    exact this
  rw [← List.append_assoc] at hc
  exact (keep before l.start _).append (hc.append hstop)

end Turns

end Edit

namespace Written

variable {w : Written} {before behind : Text}

/-- The edits of a page make the changed page. -/
theorem turns_edits (f : Changes) (w : Written) (before rest : Text) :
    Edit.Turns before w.render rest (w.edits f before) (w.change f before).render := by
  induction w generalizing before rest with
  | nil => exact .keep ..
  | letter l next ih => exact Edit.Turns.append (.keep ..) (ih _ rest)
  | remark r next ih => exact Edit.Turns.append (.keep ..) (ih _ rest)
  | void l next ih => exact Edit.Turns.append (.keep ..) (ih _ rest)
  | raw l t next ih =>
    refine Edit.Turns.element ?_ (ih _ rest)
    cases f.text before with
    | none => exact .keep ..
    | some u => exact .inside ..
  | element l content next ihc ihn =>
    rw [edits, ← List.append_assoc]
    refine Edit.Turns.element ?_ (ihn _ rest)
    rw [render_append]
    have hmore : Edit.Turns (before ++ l.start ++ content.render) []
        (l.stop ++ (next.render ++ rest))
        ((f.more before).toList.map fun m => ⟨l.atEnd before content.render, m.render⟩)
        ((f.more before).getD .nil).render := by
      cases f.more before with
      | none => exact .keep ..
      | some m => exact .atEnd ..
    have hcontent : Edit.Turns (before ++ l.start) content.render (l.stop ++ (next.render ++ rest))
        (match f.content before with
          | some c => [⟨l.inside before content.render, c.render⟩]
          | none => content.edits f (before ++ l.start))
        ((f.content before).getD (content.change f (before ++ l.start))).render := by
      cases f.content before with
      | none => exact ihc ..
      | some c => exact .inside ..
    have := Edit.Turns.append (t := []) hcontent hmore
    rwa [List.append_nil] at this

/-- Edits that are those of a page in some order make the changed page. -/
theorem applyAll_eq (hf : ∀ b, f.content b = none ∨ f.more b = none) {es : List Edit}
    (hp : es.Perm (w.edits f [])) : Edit.applyAll w.render es = (w.change f []).render := by
  have hw : ∀ e ∈ es, Edit.Within w.render.length e := fun e he => by
    have := within_of_mem_edits (hp.mem_iff.1 he)
    simp only [List.length_nil] at this
    exact ⟨this.2.1, by omega⟩
  have hs := pairwise_edits hf w []
  have ha : Edit.Apart es := by
    refine (hp.pairwise_iff (fun h => h.symm)).2 (hs.imp fun h => ?_)
    exact .inl h.2
  have hperm : (Edit.leftToRight es).Perm (w.edits f []) := (Edit.perm_leftToRight es).trans hp
  have hl : Edit.leftToRight es = w.edits f [] := by
    have hne : (Edit.leftToRight es).Pairwise fun a b => a.span.start ≠ b.span.start :=
      (hperm.pairwise_iff (fun h => h.symm)).2 (hs.imp fun h => Nat.ne_of_lt h.1)
    have hlt := ((Edit.starts_leftToRight es).and hne).imp fun h => Nat.lt_of_le_of_ne h.1 h.2
    exact hperm.eq_of_pairwise (fun a b _ _ h₁ h₂ => absurd h₁ (Nat.lt_asymm h₂)) hlt
      (hs.imp And.left)
  have ht := (turns_edits f w [] []).2 [] (fun e he => nomatch he)
  rw [(Edit.keepsOutside_of_apart ha hw).2, hl]
  simpa [Edit.fill] using ht

end Written

end SlideDeck.Markup
