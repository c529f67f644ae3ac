import SlideDeck.Text.Basic

/-!
# Log messages

A computation records messages in order. A message of a `detail` level is shown only to a listener
whose verbosity reaches that level; a warning is shown to everyone.

`Attempt` is a computation that records messages and may fail: what was recorded before a failure
stays.
-/

namespace SlideDeck

/-- How important a message is. -/
inductive Level where
  /-- Shown from the given verbosity on. -/
  | detail (verbosity : Int)
  /-- Shown always. -/
  | warning
  deriving DecidableEq, Repr

/-- A message with its level. -/
structure Message where
  level : Level
  text : Text
  deriving DecidableEq, Repr

/-- Messages in the order in which they were recorded. -/
abbrev Log := List Message

/-- Whether a listener of this verbosity is shown a message; `none` stands for no listener. -/
def Message.shownAt (verbosity : Option Int) (m : Message) : Bool :=
  match m.level with
  | .warning => true
  | .detail n => verbosity.any (n ≤ ·)

/-- The messages that a listener is shown. -/
def Log.shownAt (verbosity : Option Int) (log : Log) : Log := log.filter (·.shownAt verbosity)

/-- A computation's messages and its result. -/
structure Attempt (ε α : Type) where
  log : Log
  result : Except ε α

namespace Attempt

variable {ε α β : Type}

/-- Runs `f` on the result, if there is one, and keeps both logs. -/
def andThen (m : Attempt ε α) (f : α → Attempt ε β) : Attempt ε β :=
  match m.result with
  | .error e => ⟨m.log, .error e⟩
  | .ok a => ⟨m.log ++ (f a).log, (f a).result⟩

instance : Monad (Attempt ε) where
  pure a := ⟨[], .ok a⟩
  bind := andThen

instance : MonadExceptOf ε (Attempt ε) where
  throw e := ⟨[], .error e⟩
  tryCatch m f :=
    match m.result with
    | .error e => ⟨m.log ++ (f e).log, (f e).result⟩
    | .ok _ => m

/-- The outcome of a computation that records nothing. -/
def ofExcept (result : Except ε α) : Attempt ε α := ⟨[], result⟩

instance : MonadLift (Except ε) (Attempt ε) := ⟨ofExcept⟩

/-- Records a message that is shown from the given verbosity on. -/
def note (verbosity : Int) (text : Text) : Attempt ε Unit := ⟨[⟨.detail verbosity, text⟩], .ok ()⟩

/-- Records a warning. -/
def warn (text : Text) : Attempt ε Unit := ⟨[⟨.warning, text⟩], .ok ()⟩

@[simp] theorem bind_ok (log : Log) (a : α) (f : α → Attempt ε β) :
    ((⟨log, .ok a⟩ : Attempt ε α) >>= f) = ⟨log ++ (f a).log, (f a).result⟩ := rfl

@[simp] theorem bind_error (log : Log) (e : ε) (f : α → Attempt ε β) :
    ((⟨log, .error e⟩ : Attempt ε α) >>= f) = ⟨log, .error e⟩ := rfl

/-- Two steps succeed when both do. -/
theorem result_bind_eq_ok {m : Attempt ε α} {f : α → Attempt ε β} {b : β} :
    (m >>= f).result = .ok b ↔ ∃ a, m.result = .ok a ∧ (f a).result = .ok b := by
  obtain ⟨log, result⟩ := m
  cases result <;> simp

end Attempt

end SlideDeck
