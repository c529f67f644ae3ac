import SlideDeck.Tree.Action

/-!
# Reasoning about actions

What an action comes to, its messages apart, is its result and the state that it leaves
(`Action.ending`); the pieces of an action are taken apart by rules for that.

An action preserves a property of states if it leaves a state with the property whenever it starts
from one, also if it fails (`Action.Preserves`). Two actions match if from related states they come
to the same result, or to related failures, and again to related states, but for some failures of
the first one (`Action.Matches`). Both are shown piece by piece, one rule for each way in which
actions are put together.
-/

namespace SlideDeck.Action

variable {ε ε' σ τ α β : Type}

/-! ## One step after the other -/

section Steps

variable {s s' : σ} {a : α} {e : ε}

theorem bind_look (f : σ → α) (g : α → Action ε σ β) (s : σ) : (look f >>= g) s = g (f s) s := rfl

theorem find_of_ok {f : σ → Except ε α} (h : f s = .ok a) : find f s = (⟨[], .ok a⟩, s) := by
  rw [find, h]
  rfl

theorem find_of_error {f : σ → Except ε α} (h : f s = .error e) :
    find f s = (⟨[], .error e⟩, s) := by
  rw [find, h]
  rfl

theorem bind_find_of_ok {f : σ → Except ε α} (h : f s = .ok a) (g : α → Action ε σ β) :
    (find f >>= g) s = g a s := by
  rw [bind_of_ok (find_of_ok h)]
  rfl

theorem bind_find_of_error {f : σ → Except ε α} (h : f s = .error e) (g : α → Action ε σ β) :
    (find f >>= g) s = (⟨[], .error e⟩, s) := bind_of_error (find_of_error h) g

theorem change_of_ok {f : σ → Except ε σ} (h : f s = .ok s') : change f s = (⟨[], .ok ()⟩, s') := by
  rw [change, h]
  rfl

theorem change_of_error {f : σ → Except ε σ} (h : f s = .error e) :
    change f s = (⟨[], .error e⟩, s) := by
  rw [change, h]
  rfl

/-- An action that succeeds without messages hands over its result and its state. -/
theorem bind_of_silent {m : Action ε σ α} (h : m s = (⟨[], .ok a⟩, s')) (g : α → Action ε σ β) :
    (m >>= g) s = g a s' := by
  rw [bind_of_ok h]
  rfl

theorem forM_cons (f : α → Action ε σ Unit) (a : α) (as : List α) :
    (a :: as).forM f = (f a >>= fun _ => as.forM f) := rfl

end Steps

/-! ## What an action comes to -/

/-- The result of an action and the state that it leaves. -/
def ending (m : Action ε σ α) (s : σ) : Except ε α × σ := ((m s).1.result, (m s).2)

section Ending

variable {m : Action ε σ α} {s s' : σ} {a : α} {e : ε}

theorem exists_ending (h : (m s).1.result.toOption.isSome = true) :
    ∃ a, ending m s = (.ok a, (m s).2) := by
  cases hresult : (m s).1.result with
  | error e =>
    rw [hresult] at h
    cases h
  | ok a => exact ⟨a, by rw [ending, hresult]⟩

@[simp] theorem ending_pure (a : α) (s : σ) : ending (pure a : Action ε σ α) s = (.ok a, s) := rfl

@[simp] theorem ending_throw (e : ε) (s : σ) :
    ending (throwThe ε e : Action ε σ α) s = (.error e, s) := rfl

@[simp] theorem ending_look (f : σ → α) (s : σ) :
    ending (look f : Action ε σ α) s = (.ok (f s), s) := rfl

@[simp] theorem ending_find (f : σ → Except ε α) (s : σ) : ending (find f) s = (f s, s) := rfl

@[simp] theorem ending_lift (m : Attempt ε α) (s : σ) :
    ending (liftM m : Action ε σ α) s = (m.result, s) := rfl

@[simp] theorem ending_note (verbosity : Int) (text : Text) (s : σ) :
    ending (note verbosity text : Action ε σ Unit) s = (.ok (), s) := rfl

theorem ending_change_of_ok {f : σ → Except ε σ} (h : f s = .ok s') :
    ending (change f) s = (.ok (), s') := by
  rw [ending, change_of_ok h]

theorem ending_change_of_error {f : σ → Except ε σ} (h : f s = .error e) :
    ending (change f) s = (.error e, s) := by
  rw [ending, change_of_error h]

theorem ending_bind_of_ok (h : ending m s = (.ok a, s')) (f : α → Action ε σ β) :
    ending (m >>= f) s = ending (f a) s' := by
  obtain ⟨hresult, rfl⟩ := Prod.mk.inj h
  rw [ending, bind_of_ok (show m s = (⟨(m s).1.log, .ok a⟩, (m s).2) by rw [← hresult])]
  rfl

theorem ending_bind_of_error (h : ending m s = (.error e, s')) (f : α → Action ε σ β) :
    ending (m >>= f) s = (.error e, s') := by
  obtain ⟨hresult, rfl⟩ := Prod.mk.inj h
  rw [ending, bind_of_error (show m s = (⟨(m s).1.log, .error e⟩, (m s).2) by rw [← hresult])]

/-- What follows is done from what an action comes to, unless it fails. -/
theorem ending_bind_cases (m : Action ε σ α) (f : α → Action ε σ β) (s : σ) :
    (∃ e s', ending m s = (.error e, s') ∧ ending (m >>= f) s = (.error e, s')) ∨
    ∃ a s', ending m s = (.ok a, s') ∧ ending (m >>= f) s = ending (f a) s' := by
  cases hm : ending m s with
  | mk result s' =>
    cases result with
    | error e => exact .inl ⟨e, s', rfl, ending_bind_of_error hm f⟩
    | ok a => exact .inr ⟨a, s', rfl, ending_bind_of_ok hm f⟩

/-- Two actions in a row succeed when both do. -/
theorem ending_bind_eq_ok {f : α → Action ε σ β} {b : β} {s'' : σ} :
    ending (m >>= f) s = (.ok b, s'')
    ↔ ∃ a s', ending m s = (.ok a, s') ∧ ending (f a) s' = (.ok b, s'') := by
  constructor
  · intro h
    rcases ending_bind_cases m f s with ⟨e, s', hm, hbind⟩ | ⟨a, s', hm, hbind⟩
    · rw [hbind] at h
      cases h
    · exact ⟨a, s', hm, hbind.symm.trans h⟩
  · rintro ⟨a, s', hm, hf⟩
    rw [ending_bind_of_ok hm, hf]

/-- Two actions in a row fail when the first fails, or the second after it. -/
theorem fst_ending_bind_eq_error {f : α → Action ε σ β} : (ending (m >>= f) s).1 = .error e
    ↔ (ending m s).1 = .error e ∨ ∃ a s', ending m s = (.ok a, s') ∧
      (ending (f a) s').1 = .error e := by
  rcases ending_bind_cases m f s with ⟨e', s', hm, hbind⟩ | ⟨a, s', hm, hbind⟩ <;> rw [hm, hbind]
  · simp
  · refine ⟨fun h => .inr ⟨a, s', rfl, h⟩, ?_⟩
    rintro (hok | ⟨_, _, hok, h⟩) <;> cases hok
    exact h

theorem fst_ending_bind_pure_eq_error {g : α → β} :
    (ending (m >>= fun a => pure (g a)) s).1 = .error e ↔ (ending m s).1 = .error e := by
  rw [fst_ending_bind_eq_error]
  exact or_iff_left fun ⟨_, _, _, h⟩ => nomatch h

/-- A list is gone through up to the first of its members with which that fails. -/
theorem fst_ending_forM_eq_error {f : α → Action ε σ Unit} {as : List α} :
    (ending (as.forM f) s).1 = .error e ↔
    ∃ before a after s', as = before ++ a :: after ∧ ending (before.forM f) s = (.ok (), s') ∧
      (ending (f a) s').1 = .error e := by
  induction as generalizing s with
  | nil => exact iff_of_false nofun fun ⟨_, _, _, _, h, _⟩ => by simp at h
  | cons b as ih =>
    show (ending (f b >>= fun _ => as.forM f) s).1 = .error e ↔ _
    rw [fst_ending_bind_eq_error]
    constructor
    · rintro (hb | ⟨_, s', hb, hrest⟩)
      · exact ⟨[], b, as, s, rfl, rfl, hb⟩
      · obtain ⟨before, a, after, s'', rfl, hbefore, ha⟩ := ih.1 hrest
        exact ⟨b :: before, a, after, s'', rfl,
          (ending_bind_of_ok hb fun _ => before.forM f).trans hbefore, ha⟩
    · rintro ⟨before, a, after, s', has, hbefore, ha⟩
      cases before with
      | nil =>
        cases has
        cases hbefore
        exact .inl ha
      | cons b' before =>
        cases has
        obtain ⟨_, s'', hb, hrest⟩ :=
          ending_bind_eq_ok.1 (show ending (f b >>= fun _ => before.forM f) s = _ from hbefore)
        exact .inr ⟨_, s'', hb, ih.2 ⟨before, a, after, s', rfl, hrest, ha⟩⟩

/-- What follows depends on what comes before only by what that comes to. -/
theorem ending_bind_congr {m' : Action ε σ α} (h : ending m s = ending m' s')
    (f : α → Action ε σ β) :
    ending (m >>= f) s = ending (m' >>= f) s' := by
  rcases ending_bind_cases m f s with ⟨e, u, hm, hbind⟩ | ⟨a, u, hm, hbind⟩
  · rw [hbind, ending_bind_of_error (h.symm.trans hm)]
  · rw [hbind, ending_bind_of_ok (h.symm.trans hm)]

theorem ending_bind_assoc {γ : Type} (m : Action ε σ α) (f : α → Action ε σ β)
    (g : β → Action ε σ γ) (s : σ) :
    ending ((m >>= f) >>= g) s = ending (m >>= fun a => f a >>= g) s := by
  rcases ending_bind_cases m f s with ⟨e, u, hm, hbind⟩ | ⟨a, u, hm, hbind⟩
  · rw [ending_bind_of_error hbind, ending_bind_of_error hm]
  · rw [ending_bind_of_ok hm, ending_bind_congr hbind]

theorem ending_rescue_of_ok (h : ending m s = (.ok a, s')) (f : ε → Action ε σ α) :
    ending (rescue m f) s = (.ok a, s') := by
  obtain ⟨hresult, rfl⟩ := Prod.mk.inj h
  rw [ending, rescue_of_ok (show m s = (⟨(m s).1.log, .ok a⟩, (m s).2) by rw [← hresult])]

theorem ending_rescue_of_error (h : ending m s = (.error e, s')) (f : ε → Action ε σ α) :
    ending (rescue m f) s = ending (f e) s' := by
  obtain ⟨hresult, rfl⟩ := Prod.mk.inj h
  rw [ending, rescue_of_error (show m s = (⟨(m s).1.log, .error e⟩, (m s).2) by rw [← hresult])]
  rfl

/-- A test that only looks at the state keeps what it keeps, and the state. -/
theorem ending_filterM {p : α → Action ε σ Bool} {f : α → Except ε Bool}
    (h : ∀ a, ending (p a) s = (f a, s)) (as : List α) :
    ending (as.filterM p) s = (as.filterM f, s) := by
  have hloop (kept : List α) :
      ending (List.filterAuxM p as kept) s = (List.filterAuxM f as kept, s) := by
    induction as generalizing kept with
    | nil => rfl
    | cons a as ih =>
      rw [List.filterAuxM, List.filterAuxM]
      cases ha : f a with
      | error e => exact ending_bind_of_error ((h a).trans (by rw [ha])) _
      | ok b => exact (ending_bind_of_ok ((h a).trans (by rw [ha])) _).trans (ih _)
  rw [List.filterM, List.filterM]
  cases hkept : List.filterAuxM f as [] with
  | error e => exact ending_bind_of_error ((hloop []).trans (by rw [hkept])) _
  | ok kept => exact ending_bind_of_ok ((hloop []).trans (by rw [hkept])) _

/-- A cleanup that succeeds does not change the result. -/
theorem ending_ensuring {cleanup : Action ε σ Unit} {result : Except ε α} {s'' : σ}
    (h : ending m s = (result, s')) (hclean : ending cleanup s' = (.ok (), s'')) :
    ending (ensuring m cleanup) s = (result, s'') := by
  unfold ensuring
  cases result with
  | ok a =>
    rw [ending_bind_of_ok (ending_rescue_of_ok h _), ending_bind_of_ok hclean]
    rfl
  | error e =>
    refine ending_bind_of_error ?_ _
    rw [ending_rescue_of_error h, ending_bind_of_ok hclean]
    rfl

theorem ending_explain (f : ε → ε') (m : Action ε σ α) (s : σ) :
    ending (explain f m) s = ((ending m s).1.mapError f, (ending m s).2) := rfl

end Ending

/-! ## What an action keeps -/

/-- An action that starts from a state with a property leaves a state with it, whether it fails or
not. -/
def Preserves (I : σ → Prop) (m : Action ε σ α) : Prop := ∀ s, I s → I (m s).2

namespace Preserves

variable {I : σ → Prop} {m : Action ε σ α}

theorem pure (a : α) : Preserves I (Pure.pure a : Action ε σ α) := fun _ => id

theorem throw (e : ε) : Preserves I (throwThe ε e : Action ε σ α) := fun _ => id

theorem look (f : σ → α) : Preserves I (look f : Action ε σ α) := fun _ => id

theorem find (f : σ → Except ε α) : Preserves I (find f) := fun _ => id

theorem lift (m : Attempt ε α) : Preserves I (liftM m : Action ε σ α) := fun _ => id

theorem change {f : σ → Except ε σ} (h : ∀ s s', I s → f s = .ok s' → I s') :
    Preserves I (change f) := by
  intro s hs
  rw [Action.change]
  split
  · next s' hf => exact h s s' hs hf
  · exact hs

/-- What follows has to keep the property for the results that the first action can have. -/
theorem bind {f : α → Action ε σ β} (hm : Preserves I m)
    (hf : ∀ s a, I s → (m s).1.result = .ok a → Preserves I (f a)) : Preserves I (m >>= f) := by
  intro s hs
  show I (andThen m f s).2
  unfold andThen
  split
  · exact hm s hs
  · next a ha => exact hf s a hs ha _ (hm s hs)

theorem rescue {f : ε → Action ε σ α} (hm : Preserves I m) (hf : ∀ e, Preserves I (f e)) :
    Preserves I (rescue m f) := by
  intro s hs
  unfold Action.rescue
  split
  · exact hf _ _ (hm s hs)
  · exact hm s hs

theorem forM {f : α → Action ε σ Unit} {as : List α} (h : ∀ a ∈ as, Preserves I (f a)) :
    Preserves I (as.forM f) := by
  induction as with
  | nil => exact .pure ()
  | cons a as ih =>
    obtain ⟨ha, has⟩ := List.forall_mem_cons.1 h
    exact ha.bind fun _ _ _ _ => ih has

end Preserves

/-! ## Actions that match -/

/-- Two computations have the same result, or failures that belong together. -/
inductive Alike (E : ε → ε' → Prop) : Except ε α → Except ε' α → Prop where
  | ok (a : α) : Alike E (.ok a) (.ok a)
  | error {e : ε} {e' : ε'} (h : E e e') : Alike E (.error e) (.error e')

theorem alike_eq_iff {x y : Except ε α} : Alike Eq x y ↔ x = y := by
  constructor
  · rintro (_ | rfl) <;> rfl
  · rintro rfl
    cases x with
    | ok a => exact .ok a
    | error e => exact .error rfl

/-- From related states two actions come to the same result or to failures that belong together, and
to related states, unless the first one fails in a way that is left open. -/
def Matches (R : σ → τ → Prop) (E : ε → ε' → Prop) (O : ε → Prop) (m : Action ε σ α)
    (m' : Action ε' τ α) : Prop :=
  ∀ s t, R s t → (∃ e, (m s).1.result = .error e ∧ O e) ∨
    Alike E (m s).1.result (m' t).1.result ∧ R (m s).2 (m' t).2

namespace Matches

variable {R : σ → τ → Prop} {E : ε → ε' → Prop} {O : ε → Prop} {m : Action ε σ α}
  {m' : Action ε' τ α}

theorem pure (a : α) : Matches R E O (Pure.pure a : Action ε σ α) (Pure.pure a) :=
  fun _ _ h => .inr ⟨.ok a, h⟩

theorem throw {e : ε} {e' : ε'} (he : E e e') :
    Matches R E O (throwThe ε e : Action ε σ α) (throwThe ε' e' : Action ε' τ α) :=
  fun _ _ h => .inr ⟨.error he, h⟩

theorem look {f : σ → α} {g : τ → α} (h : ∀ s t, R s t → f s = g t) :
    Matches R E O (look f : Action ε σ α) (look g) := fun s t hst => .inr ⟨by
  show Alike E (.ok (f s)) (.ok (g t))
  rw [h s t hst]
  exact .ok _, hst⟩

theorem change {f : σ → Except ε σ} {g : τ → Except ε' τ}
    (h : ∀ s t, R s t → (∃ e, f s = .error e ∧ O e) ∨
      (∃ s' t', f s = .ok s' ∧ g t = .ok t' ∧ R s' t') ∨
      ∃ e e', f s = .error e ∧ g t = .error e' ∧ E e e') : Matches R E O (change f) (change g) := by
  intro s t hst
  unfold Action.change
  rcases h s t hst with ⟨e, hs, he⟩ | ⟨s', t', hs, ht, hst'⟩ | ⟨e, e', hs, ht, he⟩
  · rw [hs]
    exact .inl ⟨e, rfl, he⟩
  · rw [hs, ht]
    exact .inr ⟨.ok (), hst'⟩
  · rw [hs, ht]
    exact .inr ⟨.error he, hst⟩

/-- What follows has to match for the results that the first action can have. -/
theorem bind {f : α → Action ε σ β} {g : α → Action ε' τ β} (hm : Matches R E O m m')
    (hf : ∀ s t a, R s t → (m s).1.result = .ok a → Matches R E O (f a) (g a)) :
    Matches R E O (m >>= f) (m' >>= g) := by
  intro s t hst
  show (∃ e, (andThen m f s).1.result = .error e ∧ O e) ∨
    Alike E (andThen m f s).1.result (andThen m' g t).1.result ∧
      R (andThen m f s).2 (andThen m' g t).2
  unfold andThen
  rcases hm s t hst with ⟨e, hresult, he⟩ | ⟨halike, hafter⟩
  · rw [hresult]
    exact .inl ⟨e, rfl, he⟩
  · generalize hx : (m s).1.result = x, (m' t).1.result = y at halike ⊢
    cases halike with
    | ok a => exact hf s t a hst hx _ _ hafter
    | error he => exact .inr ⟨.error he, hafter⟩

/-- Something is done first, or not. -/
theorem optional {c : Prop} [Decidable c] {m : Action ε σ Unit} {m' : Action ε' τ Unit}
    {rest : Unit → Action ε σ α} {rest' : Unit → Action ε' τ α} (hm : Matches R E O m m')
    (hrest : ∀ u, Matches R E O (rest u) (rest' u)) :
    Matches R E O (if c then m >>= rest else rest ()) (if c then m' >>= rest' else rest' ()) := by
  split
  · exact hm.bind fun _ _ u _ _ => hrest u
  · exact hrest ()

/-- A failure that is left open has to stay one. -/
theorem rescue {f : ε → Action ε σ α} {g : ε' → Action ε' τ α} (hm : Matches R E O m m')
    (hf : ∀ e e', E e e' → Matches R E O (f e) (g e'))
    (ho : ∀ e s, O e → ∃ e', (f e s).1.result = .error e' ∧ O e') :
    Matches R E O (rescue m f) (rescue m' g) := by
  intro s t hst
  unfold Action.rescue
  rcases hm s t hst with ⟨e, hresult, he⟩ | ⟨halike, hafter⟩
  · rw [hresult]
    exact .inl (ho e _ he)
  · generalize hx : (m s).1.result = x, hy : (m' t).1.result = y at halike ⊢
    cases halike with
    | ok a =>
      show (∃ e, (m s).1.result = .error e ∧ O e) ∨ Alike E (m s).1.result (m' t).1.result ∧ _
      rw [hx, hy]
      exact .inr ⟨.ok a, hafter⟩
    | error he => exact hf _ _ he _ _ hafter

theorem forM {f : α → Action ε σ Unit} {g : α → Action ε' τ Unit} {as : List α}
    (h : ∀ a ∈ as, Matches R E O (f a) (g a)) : Matches R E O (as.forM f) (as.forM g) := by
  induction as with
  | nil => exact .pure ()
  | cons a as ih =>
    obtain ⟨ha, has⟩ := List.forall_mem_cons.1 h
    exact ha.bind fun _ _ _ _ _ => ih has

end Matches

end SlideDeck.Action
