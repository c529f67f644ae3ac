import SlideDeck.Log
import SlideDeck.Tree.Change

/-!
# Actions

An action goes on in several steps over a state, records messages and may fail; what it did before
it failed stays done. The actions on a tree here are made of the elementary operations: they make
directories with all that are missing above them, and move an entry, by copying if need be.
-/

namespace SlideDeck

/-- A computation that changes a state of type `σ`, records messages and may fail. -/
def Action (ε σ α : Type) : Type := σ → Attempt ε α × σ

namespace Action

variable {ε ε' σ τ α β : Type}

/-- Goes on with `f` from the state that `m` leaves, if `m` does not fail. -/
def andThen (m : Action ε σ α) (f : α → Action ε σ β) : Action ε σ β := fun s =>
  match (m s).1.result with
  | .error e => (⟨(m s).1.log, .error e⟩, (m s).2)
  | .ok a => let after := f a (m s).2; (⟨(m s).1.log ++ after.1.log, after.1.result⟩, after.2)

/-- Goes on with `f` from the state that `m` leaves, if `m` fails. -/
def rescue (m : Action ε σ α) (f : ε → Action ε σ α) : Action ε σ α := fun s =>
  match (m s).1.result with
  | .error e => let after := f e (m s).2; (⟨(m s).1.log ++ after.1.log, after.1.result⟩, after.2)
  | .ok _ => m s

instance : Monad (Action ε σ) where
  pure a := fun s => (pure a, s)
  bind := andThen

instance : MonadExceptOf ε (Action ε σ) where
  throw e := fun s => (throw e, s)
  tryCatch := rescue

instance : MonadLift (Attempt ε) (Action ε σ) := ⟨fun m s => (m, s)⟩

/-- What a function finds in the state. -/
def look (f : σ → α) : Action ε σ α := fun s => (pure (f s), s)

/-- What a function that may fail finds in the state. -/
def find (f : σ → Except ε α) : Action ε σ α := fun s => (.ofExcept (f s), s)

/-- Changes the state, unless the change is refused. -/
def change (f : σ → Except ε σ) : Action ε σ Unit := fun s =>
  match f s with
  | .ok s' => (pure (), s')
  | .error e => (throw e, s)

/-- Runs `cleanup` after `m`, whether `m` fails or not. -/
def ensuring (m : Action ε σ α) (cleanup : Action ε σ Unit) : Action ε σ α := do
  let a ← rescue m fun e => do cleanup; throw e
  cleanup
  return a

/-- An action whose failures are told in other terms. -/
def explain (f : ε → ε') (m : Action ε σ α) : Action ε' σ α := fun s =>
  (⟨(m s).1.log, (m s).1.result.mapError f⟩, (m s).2)

/-- Records a message that is shown from the given verbosity on. -/
def note (verbosity : Int) (text : Text) : Action ε σ Unit :=
  liftM (m := Attempt ε) (Attempt.note verbosity text)

/-- Records a warning. -/
def warn (text : Text) : Action ε σ Unit := liftM (m := Attempt ε) (Attempt.warn text)

@[simp] theorem pure_apply (a : α) (s : σ) : (pure a : Action ε σ α) s = (⟨[], .ok a⟩, s) := rfl

@[simp] theorem throw_apply (e : ε) (s : σ) :
    (throw e : Action ε σ α) s = (⟨[], .error e⟩, s) := rfl

/-- What follows starts from the state that a success leaves, and its messages come after the ones
before. -/
theorem bind_of_ok {m : Action ε σ α} {s s' : σ} {log : Log} {a : α} (h : m s = (⟨log, .ok a⟩, s'))
    (f : α → Action ε σ β) :
    (m >>= f) s = (⟨log ++ (f a s').1.log, (f a s').1.result⟩, (f a s').2) := by
  show andThen m f s = _
  simp only [andThen, h]

/-- A failure ends the computation; what was done before it stays done. -/
theorem bind_of_error {m : Action ε σ α} {s s' : σ} {log : Log} {e : ε}
    (h : m s = (⟨log, .error e⟩, s')) (f : α → Action ε σ β) :
    (m >>= f) s = (⟨log, .error e⟩, s') := by
  show andThen m f s = _
  simp only [andThen, h]

/-- Two steps succeed when both do, the second from the state that the first leaves. -/
theorem result_bind_eq_ok {m : Action ε σ α} {f : α → Action ε σ β} {s : σ} {b : β} :
    ((m >>= f) s).1.result = .ok b ↔ ∃ a, (m s).1.result = .ok a ∧
      (f a (m s).2).1.result = .ok b := by
  show (andThen m f s).1.result = .ok b ↔ _
  unfold andThen
  split <;> simp_all

/-- A success needs no rescue. -/
theorem rescue_of_ok {m : Action ε σ α} {s s' : σ} {log : Log} {a : α}
    (h : m s = (⟨log, .ok a⟩, s')) (f : ε → Action ε σ α) : rescue m f s = (⟨log, .ok a⟩, s') := by
  simp only [rescue, h]

/-- A rescue starts from the state that the failure left. -/
theorem rescue_of_error {m : Action ε σ α} {s s' : σ} {log : Log} {e : ε}
    (h : m s = (⟨log, .error e⟩, s')) (f : ε → Action ε σ α) :
    rescue m f s = (⟨log ++ (f e s').1.log, (f e s').1.result⟩, (f e s').2) := by
  simp only [rescue, h]

end Action

/-- An action on a tree. -/
abbrev TreeAction (α : Type) : Type := Action Failure Tree α

namespace TreeAction

open SlideDeck.Action (look find change)

/-- The answer to a question about what a path leads to, links followed. -/
def ask (question : Tree → Path → Bool) (p : Path) : TreeAction Bool := find (·.ask question true p)

/-- Goes on after a failure if a directory is at the path and that is no failure. -/
def tolerate (lenient : Bool) (p : Path) (e : Failure) : TreeAction Unit :=
  if lenient then do if ← ask Tree.isDirectory p then return () else throw e
  else throw e

/-- Makes a directory; that it is there already is a failure unless `lenient`. -/
def makeOne (lenient : Bool) (p : Path) : TreeAction Unit :=
  Action.rescue (change (·.makeDirectory p)) (tolerate lenient p)

/-- Makes the directory that the first of `n` steps up from its path has no directory for, and then
the others below it. -/
def makeWithParents : Nat → Bool → Path → TreeAction Unit
  | 0, lenient, p => makeOne lenient p
  | n + 1, lenient, p =>
    Action.rescue (change (·.makeDirectory p)) fun e => do
      match e with
      | .refused .notFound _ =>
        if p.parts = [] then throw e
        else
          makeWithParents n true p.parent
          makeOne lenient p
      | e => tolerate lenient p e

/-- Makes a directory and all directories that are missing above it. -/
def makeDirectories (lenient : Bool) (p : Path) : TreeAction Unit :=
  makeWithParents p.parts.length lenient p

/-- Makes the directories above a path, from the first that is missing on, and then the one at the
path. Only the last one has to be new. -/
def makeFrom : Nat → Path → TreeAction Unit
  | 0, p => change (·.makeDirectory p)
  | n + 1, p => do
    let parent := p.parent
    if parent ≠ .here ∧ !(← look (·.contains parent)) then
      Action.rescue (makeFrom n parent) fun e => do
        match e with
        | .refused .exists _ => return ()
        | e => throw e
    change (·.makeDirectory p)

/-- Makes a new directory and all directories that are missing above it. -/
def makeNewDirectory (p : Path) : TreeAction Unit := makeFrom p.parts.length p

/-- Puts what is below the directory `source` below the new directory `target`. -/
def copyInto (source target : Path) : TreeAction Unit := do
  let (l, _) ← find (·.entryAt true source)
  makeNewDirectory target
  let (k, _) ← find (·.entryAt true target)
  change fun t => .ok ((t.below l).foldl (fun t (rest, e) => t.put (k ++ rest) e) t)

/-- Copies a file. -/
def copyFile (source target : Path) : TreeAction Unit := do
  let bytes ← find (·.read source)
  change (·.write target bytes)

/-- Whether a path leads into the directory of another path, as the two read. -/
def leadsInto (inner outer : Path) : Bool :=
  inner.normal.root = outer.normal.root ∧ outer.normal.parts <+: inner.normal.parts

/-- Moves an entry to a new path by copying and removing it. -/
def moveByCopy (source goal : Path) : TreeAction Unit := do
  if ← look (·.isDirectory source) then
    copyInto source goal
    change (·.removeAll source)
  else
    copyFile source goal
    change (·.unlink source)

/-- Where an entry goes that is moved to a path: if a directory is there, into that directory. -/
def goal (source target : Path) (t : Tree) : Except Failure Path :=
  if t.isDirectory target ∧ !t.sameEntry source target then
    let inside := target.append ⟨[], [source.name]⟩
    if t.contains inside then .error (.targetTaken inside.toText) else .ok inside
  else .ok target

/-- Moves an entry to a path, or into the directory that is there; by copying, if it cannot be done
in one step. -/
def move (source target : Path) : TreeAction Unit := do
  let goal ← find (goal source target)
  match ← look (·.rename? source goal) with
  | some t => change fun _ => .ok t
  | none =>
    if (← look (·.isDirectory target)) ∧
      goal = target then throw (.unmovable source.toText target.toText)
    if (← look (·.isDirectory source)) ∧ leadsInto target source then
      throw (.intoItself source.toText target.toText)
    moveByCopy source goal

end TreeAction

end SlideDeck
