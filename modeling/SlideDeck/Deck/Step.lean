import SlideDeck.Deck.Report
import SlideDeck.Tree.Action

/-!
# Steps

A step works on a tree and on its own outcome at once, so what it reported before it failed is not
lost. `Step.run` turns a failure for which the tree or a value is to blame into an outcome that says
so.
-/

namespace SlideDeck

/-- A tree and what the step that works on it has come to so far. -/
structure Progress where
  tree : Tree
  outcome : Outcome
  deriving DecidableEq, Repr

/-- The work of a step. -/
abbrev StepAction (α : Type) : Type := Action Failure Progress α

namespace StepAction

/-- Works on the tree. -/
def onTree {α : Type} (m : TreeAction α) : StepAction α := fun p =>
  ((m p.tree).1, { p with tree := (m p.tree).2 })

/-- The answer to a question about what a path of the tree leads to, links followed. -/
def ask (question : Tree → Path → Bool) (p : Path) : StepAction Bool :=
  onTree (TreeAction.ask question p)

/-- Reports a message. -/
def report (message : Text) : StepAction Unit :=
  Action.change fun p => .ok { p with outcome.messages := p.outcome.messages ++ [message] }

/-- Reports that the deck has been changed. -/
def reportChange : StepAction Unit := Action.change fun p => .ok { p with outcome.changed := true }

/-- Runs the step of a name, and notes what it reports. -/
def run (name : Text) (work : StepAction Unit) : TreeAction Outcome := fun t =>
  let (attempt, p) := work ⟨t, { step := name }⟩
  let rest : Attempt Failure Outcome := do
    let outcome ← match attempt.result with
      | .ok () => pure p.outcome
      | .error e =>
        if e.isSystem ∨ e.isValue then
          let failed := " '".toList ++ name ++ "' failed: ".toList ++ e.message
          Attempt.warn ("Finalize step".toList ++ failed)
          pure { p.outcome with ok := false, messages :=
            p.outcome.messages ++ ["Step".toList ++ failed] }
        else throw e
    outcome.messages.forM (Attempt.note 2)
    return outcome
  (⟨attempt.log ++ rest.log, rest.result⟩, p.tree)

end StepAction

end SlideDeck
