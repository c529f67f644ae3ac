import SlideDeck.Failure

/-!
# Reports

What the steps of a finalization came to, in the order in which they ran.
-/

namespace SlideDeck

/-- What a step came to. -/
structure Outcome where
  step : Text
  /-- Whether the step ran to its end. -/
  ok : Bool := true
  /-- Whether the step changed the deck. -/
  changed : Bool := false
  messages : List Text := []
  deriving DecidableEq, Repr

/-- The outcomes of a finalization. -/
structure Report where
  outcomes : List Outcome
  deriving DecidableEq, Repr

namespace Report

/-- Whether every step ran to its end. -/
def ok (r : Report) : Bool := r.outcomes.all (·.ok)

/-- Whether some step changed the deck. -/
def changed (r : Report) : Bool := r.outcomes.any (·.changed)

/-- The first outcome of a step. -/
def outcome (r : Report) (step : Text) : Except Failure Outcome :=
  match r.outcomes.find? (·.step = step) with
  | some o => .ok o
  | none => .error (.noSuchStep step)

end Report

end SlideDeck
