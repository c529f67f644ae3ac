import SlideDeck.Deck.Step
import SlideDeck.Proofs.Action

/-!
# Running a step

What the pieces of a step's work do, as equations: a report adds a message, a change of the tree
that is not refused changes the tree alone. A step of which the work ends has the outcome that the
work came to (`StepAction.run_of_ok`), and one for which the tree or a value is to blame has an
outcome that is not ok (`StepAction.run_of_error`); the tree is left as the work left it.
-/

namespace SlideDeck

namespace Outcome

/-- The outcome with more messages. -/
def saying (o : Outcome) (messages : List Text) : Outcome :=
  { o with messages := o.messages ++ messages }

/-- The outcome of a step that has changed the deck. -/
def changing (o : Outcome) : Outcome := { o with changed := true }

@[simp] theorem saying_nil (o : Outcome) : o.saying [] = o := by
  simp [saying]

@[simp] theorem saying_saying (o : Outcome) (a b : List Text) :
    (o.saying a).saying b = o.saying (a ++ b) := by
  simp [saying]

@[simp] theorem changing_saying (o : Outcome) (a : List Text) :
    o.changing.saying a = (o.saying a).changing := rfl

@[simp] theorem changing_changing (o : Outcome) : o.changing.changing = o.changing := rfl

@[simp] theorem changed_changing (o : Outcome) : o.changing.changed = true := rfl

end Outcome

namespace StepAction

variable {α : Type} {t t' : Tree} {o o' : Outcome}

theorem report_apply (message : Text) (t : Tree) (o : Outcome) :
    report message ⟨t, o⟩ = (⟨[], .ok ()⟩, ⟨t, o.saying [message]⟩) := rfl

theorem bind_report (message : Text) (g : Unit → StepAction α) (t : Tree) (o : Outcome) :
    (report message >>= g) ⟨t, o⟩ = g () ⟨t, o.saying [message]⟩ := rfl

theorem reportChange_apply (t : Tree) (o : Outcome) :
    reportChange ⟨t, o⟩ = (⟨[], .ok ()⟩, ⟨t, o.changing⟩) := rfl

theorem bind_reportChange (g : Unit → StepAction α) (t : Tree) (o : Outcome) :
    (reportChange >>= g) ⟨t, o⟩ = g () ⟨t, o.changing⟩ := rfl

/-- Work on the tree that succeeds without messages. -/
theorem bind_onTree_of_silent {m : TreeAction Unit} (h : m t = (⟨[], .ok ()⟩, t'))
    (g : Unit → StepAction α) :
    (onTree m >>= g) ⟨t, o⟩ = g () ⟨t', o⟩ := by
  refine Action.bind_of_silent (a := ()) ?_ g
  rw [onTree, h]

theorem bind_onTree_of_error {m : TreeAction Unit} {e : Failure} (h : m t = (⟨[], .error e⟩, t'))
    (g : Unit → StepAction α) : (onTree m >>= g) ⟨t, o⟩ = (⟨[], .error e⟩, ⟨t', o⟩) := by
  refine Action.bind_of_error ?_ g
  rw [onTree, h]

theorem bind_change_of_ok {f : Tree → Except Failure Tree} (h : f t = .ok t')
    (g : Unit → StepAction α) :
    (onTree (Action.change f) >>= g) ⟨t, o⟩ = g () ⟨t', o⟩ :=
  bind_onTree_of_silent (Action.change_of_ok h) g

theorem bind_ask_of_ok {question : Tree → Path → Bool} {p : Path} {answer : Bool}
    (h : t.ask question true p = .ok answer) (g : Bool → StepAction α) :
    (ask question p >>= g) ⟨t, o⟩ = g answer ⟨t, o⟩ := by
  refine Action.bind_of_silent (a := answer) ?_ g
  rw [ask, onTree, TreeAction.ask, Action.find_of_ok h]

theorem bind_ask_of_error {question : Tree → Path → Bool} {p : Path} {e : Failure}
    (h : t.ask question true p = .error e) (g : Bool → StepAction α) :
    (ask question p >>= g) ⟨t, o⟩ = (⟨[], .error e⟩, ⟨t, o⟩) := by
  refine Action.bind_of_error ?_ g
  rw [ask, onTree, TreeAction.ask, Action.find_of_error h]

/-! ## The outcome of a step -/

variable {name : Text} {work : StepAction Unit} {log : Log}

theorem result_forM_note (messages : List Text) :
    (messages.forM (Attempt.note 2) : Attempt Failure Unit).result = .ok () := by
  induction messages with
  | nil => rfl
  | cons m ms ih => exact Attempt.result_bind_eq_ok.2 ⟨(), rfl, ih⟩

theorem run_of_ok (h : work ⟨t, { step := name }⟩ = (⟨log, .ok ()⟩, ⟨t', o⟩)) :
    (run name work t).1.result = .ok o ∧ (run name work t).2 = t' := by
  rw [run, h]
  exact ⟨Attempt.result_bind_eq_ok.2
    ⟨o, rfl, Attempt.result_bind_eq_ok.2 ⟨(), result_forM_note o.messages, rfl⟩⟩, rfl⟩

/-- What a step says of a failure. -/
def failed (name : Text) (e : Failure) : Text :=
  "Step".toList ++ (" '".toList ++ name ++ "' failed: ".toList ++ e.message)

theorem run_of_error {e : Failure} (h : work ⟨t, { step := name }⟩ = (⟨log, .error e⟩, ⟨t', o⟩))
    (he : e.isSystem = true ∨ e.isValue = true) :
    (run name work t).1.result = .ok { o.saying [failed name e] with ok := false } ∧
      (run name work t).2 = t' := by
  rw [run, h]
  refine ⟨?_, rfl⟩
  simp only [if_pos he]
  refine Attempt.result_bind_eq_ok.2 ⟨(), rfl, Attempt.result_bind_eq_ok.2 ⟨_, rfl, ?_⟩⟩
  exact Attempt.result_bind_eq_ok.2 ⟨(), result_forM_note _, rfl⟩

/-- The outcome of a step is up to what its work comes to. -/
theorem result_run_congr {u : Tree}
    (hresult : (work ⟨u, { step := name }⟩).1.result = (work ⟨t, { step := name }⟩).1.result)
    (houtcome : (work ⟨u, { step := name }⟩).2.outcome = (work ⟨t, { step := name }⟩).2.outcome) :
    (run name work u).1.result = (run name work t).1.result := by
  unfold run
  generalize work ⟨u, { step := name }⟩ = r at hresult houtcome ⊢
  generalize work ⟨t, { step := name }⟩ = r' at hresult houtcome ⊢
  obtain ⟨⟨log, result⟩, ⟨v, o⟩⟩ := r
  obtain ⟨⟨log', result'⟩, ⟨v', o'⟩⟩ := r'
  obtain rfl : result = result' := hresult
  obtain rfl : o = o' := houtcome
  rfl

/-! ## The ends of a step -/

/-- How the work of a step ends: there is nothing to do, which it says; it changes the tree, which
it says; or it fails before it has changed anything, for a reason that the step gives as its own. In
the first case `rest` holds, in the second `change` of the new tree, and in the third `fault`. -/
inductive WorkEnd (rest : Prop) (change : Tree → Prop) (fault : Prop) (t : Tree) (o : Outcome) :
    Attempt Failure Unit × Progress → Prop where
  | rests {log : Log} {said : List Text} (h : rest) :
      WorkEnd rest change fault t o (⟨log, .ok ()⟩, ⟨t, o.saying said⟩)
  | changes {log : Log} {said : List Text} {u : Tree} (h : change u) :
    WorkEnd rest change fault t o (⟨log, .ok ()⟩, ⟨u, (o.saying said).changing⟩)
  | fails {log : Log} {said : List Text} {e : Failure} (h : fault)
      (he : e.isSystem = true ∨ e.isValue = true) :
    WorkEnd rest change fault t o (⟨log, .error e⟩, ⟨t, o.saying said⟩)

variable {rest fault : Prop} {change : Tree → Prop}

/-- A failure before anything has been said. -/
theorem WorkEnd.fails_silently {e : Failure} (h : fault)
    (he : e.isSystem = true ∨ e.isValue = true) :
    WorkEnd rest change fault t o (⟨log, .error e⟩, ⟨t, o⟩) := by
  have hend : WorkEnd rest change fault t o (⟨log, .error e⟩, ⟨t, o.saying []⟩) := .fails h he
  rwa [o.saying_nil] at hend

/-- How a step ends that has been run on a tree, with its outcome and the tree that it leaves. -/
inductive StepEnd (rest : Prop) (change : Tree → Prop) (fault : Prop) (t : Tree) (o : Outcome) :
    Tree → Prop where
  | rests (h : rest) (hok : o.ok = true) (hchanged : o.changed = false) :
      StepEnd rest change fault t o t
  | changes {u : Tree} (h : change u) (hok : o.ok = true) (hchanged : o.changed = true) :
      StepEnd rest change fault t o u
  | fails (h : fault) (hok : o.ok = false) (hchanged : o.changed = false) :
      StepEnd rest change fault t o t

/-- A step has an outcome, however its work ends. -/
theorem run_cases (h : WorkEnd rest change fault t { step := name } (work ⟨t, { step := name }⟩)) :
    ∃ o, (run name work t).1.result = .ok o ∧ o.step = name ∧
      StepEnd rest change fault t o (run name work t).2 := by
  generalize hr : work ⟨t, { step := name }⟩ = r at h
  cases h with
  | rests h =>
    obtain ⟨hresult, htree⟩ := run_of_ok hr
    exact ⟨_, hresult, rfl, by rw [htree]; exact .rests h rfl rfl⟩
  | changes h =>
    obtain ⟨hresult, htree⟩ := run_of_ok hr
    exact ⟨_, hresult, rfl, .changes (htree ▸ h) rfl rfl⟩
  | fails h he =>
    obtain ⟨hresult, htree⟩ := run_of_error hr he
    exact ⟨_, hresult, rfl, by rw [htree]; exact .fails h rfl rfl⟩

end StepAction

end SlideDeck
