import SlideDeck.Tree.Action

/-!
# What fails with what

A computation fails only with failures of a sort if that is the sort of every failure that it comes
to (`FailsOnly`, for results and for actions, whatever state they start from). This is shown piece
by piece, one rule for each way in which computations are put together. A failure that is rescued
does not count.
-/

namespace SlideDeck

variable {ε ε' σ α β : Type}

namespace Outcome

/-- If a result is a failure, it is of a sort. -/
def FailsOnly (E : ε → Prop) (x : Except ε α) : Prop := ∀ e, x = .error e → E e

namespace FailsOnly

variable {E E' : ε → Prop} {x : Except ε α}

theorem ok (a : α) : FailsOnly E (.ok a : Except ε α) := fun _ h => nomatch h

theorem error {e : ε} (h : E e) : FailsOnly E (.error e : Except ε α) :=
  fun _ he => Except.error.inj he ▸ h

theorem mono (h : FailsOnly E x) (hE : ∀ e, E e → E' e) :
    FailsOnly E' x := fun e he => hE e (h e he)

theorem bind {f : α → Except ε β} (hx : FailsOnly E x) (hf : ∀ a, FailsOnly E (f a)) :
    FailsOnly E (x >>= f) := by
  cases x with
  | error e => exact .error (hx e rfl)
  | ok a => exact hf a

/-- Something is tried first, or not. -/
theorem optional {c : Prop} [Decidable c] {y : Except ε Unit} {rest : Unit → Except ε α}
    (hy : FailsOnly E y) (hrest : ∀ u, FailsOnly E (rest u)) :
    FailsOnly E (if c then y >>= rest else rest ()) := by
  split
  · exact hy.bind hrest
  · exact hrest ()

theorem map {f : α → β} (hx : FailsOnly E x) : FailsOnly E (x.map f) := by
  cases x with
  | error e => exact .error (hx e rfl)
  | ok a => exact .ok (f a)

theorem filterM {f : α → Except ε Bool} {as : List α} (h : ∀ a ∈ as, FailsOnly E (f a)) :
    FailsOnly E (as.filterM f) := by
  suffices hloop :
      ∀ kept, FailsOnly E (List.filterAuxM f as kept) from (hloop []).bind fun _ => .ok _
  induction as with
  | nil => exact fun kept => .ok kept
  | cons a as ih =>
    obtain ⟨ha, has⟩ := List.forall_mem_cons.1 h
    exact fun kept => ha.bind fun _ => ih has _

end FailsOnly

end Outcome

namespace Action

/-- Whatever state an action starts from, its failures are of a sort. -/
def FailsOnly (E : ε → Prop) (m : Action ε σ α) : Prop := ∀ s, Outcome.FailsOnly E (m s).1.result

namespace FailsOnly

variable {E E' : ε → Prop} {m : Action ε σ α}

theorem mono (h : FailsOnly E m) (hE : ∀ e, E e → E' e) : FailsOnly E' m := fun s => (h s).mono hE

theorem pure (a : α) : FailsOnly E (Pure.pure a : Action ε σ α) := fun _ => .ok a

theorem throw {e : ε} (h : E e) : FailsOnly E (throwThe ε e : Action ε σ α) := fun _ => .error h

theorem look (f : σ → α) : FailsOnly E (look f : Action ε σ α) := fun s => .ok (f s)

theorem find {f : σ → Except ε α} (h : ∀ s, Outcome.FailsOnly E (f s)) : FailsOnly E (find f) := h

theorem lift {m : Attempt ε α} (h : Outcome.FailsOnly E m.result) :
    FailsOnly E (liftM m : Action ε σ α) := fun _ => h

theorem note (verbosity : Int) (text : Text) :
    FailsOnly E (note verbosity text : Action ε σ Unit) := fun _ => .ok ()

theorem change {f : σ → Except ε σ} (h : ∀ s, Outcome.FailsOnly E (f s)) :
    FailsOnly E (change f) := by
  intro s
  rw [Action.change]
  cases hf : f s with
  | ok s' => exact .ok ()
  | error e => exact .error (h s e hf)

/-- What follows has to fail as said for the results that the first action can have. -/
theorem bind_of_result {f : α → Action ε σ β} (hm : FailsOnly E m)
    (hf : ∀ s a, (m s).1.result = .ok a → FailsOnly E (f a)) : FailsOnly E (m >>= f) := by
  intro s
  show Outcome.FailsOnly E (andThen m f s).1.result
  unfold andThen
  split
  · next e he => exact .error (hm s e he)
  · next a ha => exact hf s a ha _

theorem bind {f : α → Action ε σ β} (hm : FailsOnly E m) (hf : ∀ a, FailsOnly E (f a)) :
    FailsOnly E (m >>= f) :=
  hm.bind_of_result fun _ a _ => hf a

/-- Something is done first, or not. -/
theorem optional {c : Prop} [Decidable c] {m : Action ε σ Unit} {rest : Unit → Action ε σ α}
    (hm : FailsOnly E m) (hrest : ∀ u, FailsOnly E (rest u)) :
    FailsOnly E (if c then m >>= rest else rest ()) := by
  split
  · exact hm.bind hrest
  · exact hrest ()

/-- The failures of what is tried count only as far as the rescue has failures. -/
theorem rescue {f : ε → Action ε σ α} (hm : FailsOnly E' m) (hf : ∀ e, E' e → FailsOnly E (f e)) :
    FailsOnly E (rescue m f) := by
  intro s
  unfold Action.rescue
  split
  · next e he => exact hf e (hm s e he) _
  · next a ha =>
    rw [ha]
    exact .ok a

theorem ensuring {cleanup : Action ε σ Unit} (hm : FailsOnly E m) (hclean : FailsOnly E cleanup) :
    FailsOnly E (ensuring m cleanup) :=
  .bind (.rescue hm fun _ he => .bind hclean fun _ => .throw he) fun a => .bind hclean fun _ =>
    .pure a

theorem forM {f : α → Action ε σ Unit} {as : List α} (h : ∀ a ∈ as, FailsOnly E (f a)) :
    FailsOnly E (as.forM f) := by
  induction as with
  | nil => exact .pure ()
  | cons a as ih =>
    obtain ⟨ha, has⟩ := List.forall_mem_cons.1 h
    exact ha.bind fun _ => ih has

theorem mapM {f : α → Action ε σ β} {as : List α} (h : ∀ a ∈ as, FailsOnly E (f a)) :
    FailsOnly E (as.mapM f) := by
  suffices hloop : ∀ done, FailsOnly E (List.mapM.loop f as done) from hloop []
  induction as with
  | nil => exact fun done => .pure done.reverse
  | cons a as ih =>
    obtain ⟨ha, has⟩ := List.forall_mem_cons.1 h
    exact fun done => ha.bind fun b => ih has (b :: done)

theorem filterM {f : α → Action ε σ Bool} {as : List α} (h : ∀ a ∈ as, FailsOnly E (f a)) :
    FailsOnly E (as.filterM f) := by
  suffices hloop :
      ∀ kept, FailsOnly E (List.filterAuxM f as kept) from (hloop []).bind fun _ => .pure _
  induction as with
  | nil => exact fun kept => .pure kept
  | cons a as ih =>
    obtain ⟨ha, has⟩ := List.forall_mem_cons.1 h
    exact fun kept => ha.bind fun _ => ih has _

end FailsOnly

end Action

end SlideDeck
