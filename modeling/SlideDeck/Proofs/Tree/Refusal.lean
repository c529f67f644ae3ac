import SlideDeck.Proofs.Failing
import SlideDeck.Proofs.Outcome
import SlideDeck.Tree.Unpack

/-!
# How a tree refuses

Whatever tree they start from, the operations on trees and the actions that are made of them fail
only in that the tree is at fault (`Refuses`). A file that is read as a text may also be no text
(`readText_failsOnly`), and an archive that is unpacked may be damaged
(`TreeAction.unpack_failsOnly`).
-/

namespace SlideDeck

open SlideDeck.Action (FailsOnly)

/-- The tree is at fault. -/
def Refuses (f : Failure) : Prop := f.isSystem = true

theorem Refuses.refused (e : TreeError) (p : Text) : Refuses (.refused e p) := rfl

namespace Tree

variable (t : Tree) (follow : Bool) (p : Path)

theorem entryAt_failsOnly : Outcome.FailsOnly Refuses (t.entryAt follow p) := by
  unfold entryAt
  split
  · exact .ok _
  · exact .error (.refused _ _)
  · exact .error (.refused _ _)

theorem ask_failsOnly (question : Tree → Path → Bool) :
    Outcome.FailsOnly Refuses (t.ask question follow p) := by
  unfold ask
  split
  · exact .error (.refused _ _)
  · exact .ok _

theorem read_failsOnly : Outcome.FailsOnly Refuses (t.read p) := by
  refine (t.entryAt_failsOnly true p).bind fun ⟨l, e⟩ => ?_
  cases e with
  | file f => exact .ok _
  | directory => exact .error (.refused _ _)
  | link target => exact .error (.refused _ _)

theorem readText_failsOnly :
    Outcome.FailsOnly (fun f => Refuses f ∨ ∃ e, f = .undecodable e) (t.readText p) := by
  refine ((t.read_failsOnly p).mono fun _ => .inl).bind fun bytes => ?_
  split
  · exact .ok _
  · exact .error (.inr ⟨_, rfl⟩)

theorem list_failsOnly : Outcome.FailsOnly Refuses (t.list p) := by
  refine (t.entryAt_failsOnly true p).bind fun ⟨l, e⟩ => ?_
  cases e with
  | directory => exact .ok _
  | file f => exact .error (.refused _ _)
  | link target => exact .error (.refused _ _)

theorem makeDirectory_failsOnly : Outcome.FailsOnly Refuses (t.makeDirectory p) := by
  unfold makeDirectory
  split
  · exact .ok _
  · exact .error (.refused _ _)
  · exact .error (.refused _ _)

theorem modifyFile_failsOnly (f : List UInt8 → List UInt8) :
    Outcome.FailsOnly Refuses (t.modifyFile p f) := by
  unfold modifyFile
  split
  · exact .ok _
  · exact .ok _
  · exact .error (.refused _ _)
  · exact .error (.refused _ _)

theorem unlink_failsOnly : Outcome.FailsOnly Refuses (t.unlink p) := by
  unfold unlink
  dsimp only
  split
  · exact .error rfl
  refine (t.entryAt_failsOnly false p).bind fun ⟨l, e⟩ => ?_
  cases e with
  | directory => exact .error (.refused _ _)
  | file f => exact .ok _
  | link target => exact .ok _

theorem removeAll_failsOnly : Outcome.FailsOnly Refuses (t.removeAll p) := by
  unfold removeAll
  dsimp only
  split
  · exact .error rfl
  refine (t.entryAt_failsOnly false p).bind fun ⟨l, e⟩ => ?_
  cases e with
  | directory => exact .ok _
  | file f => exact .error (.refused _ _)
  | link target => exact .error (.refused _ _)

end Tree

namespace TreeAction

variable (p source target : Path)

theorem makeDirectory_failsOnly :
    FailsOnly Refuses (Action.change (·.makeDirectory p) : TreeAction Unit) :=
  .change fun t => t.makeDirectory_failsOnly p

theorem write_failsOnly (bytes : List UInt8) :
    FailsOnly Refuses (Action.change (·.write p bytes) : TreeAction Unit) :=
  .change fun t => t.modifyFile_failsOnly p _

theorem ask_failsOnly (question : Tree → Path → Bool) : FailsOnly Refuses (ask question p) :=
  .find fun t => t.ask_failsOnly true p question

theorem tolerate_failsOnly (lenient : Bool) {e : Failure} (he : Refuses e) :
    FailsOnly Refuses (tolerate lenient p e) := by
  unfold tolerate
  split
  · refine .bind (ask_failsOnly p _) fun there => ?_
    split
    · exact .pure ()
    · exact .throw he
  · exact .throw he

theorem makeOne_failsOnly (lenient : Bool) : FailsOnly Refuses (makeOne lenient p) :=
  .rescue (makeDirectory_failsOnly p) fun _ he => tolerate_failsOnly p lenient he

theorem makeWithParents_failsOnly (n : Nat) (lenient : Bool) :
    FailsOnly Refuses (makeWithParents n lenient p) := by
  induction n generalizing lenient p with
  | zero => exact makeOne_failsOnly p lenient
  | succ n ih =>
    refine .rescue (makeDirectory_failsOnly p) fun e he => ?_
    split
    · split
      · exact .throw he
      · exact .bind (ih p.parent true) fun _ => makeOne_failsOnly p lenient
    · exact tolerate_failsOnly p lenient he

theorem makeDirectories_failsOnly (lenient : Bool) :
    FailsOnly Refuses (makeDirectories lenient p) :=
  makeWithParents_failsOnly p _ lenient

theorem makeFrom_failsOnly (n : Nat) : FailsOnly Refuses (makeFrom n p) := by
  induction n generalizing p with
  | zero => exact makeDirectory_failsOnly p
  | succ n ih =>
    refine .bind (.look _) fun there => ?_
    split
    · refine .bind (.rescue (ih p.parent) fun e he => ?_) fun _ => makeDirectory_failsOnly p
      split
      · exact .pure ()
      · exact .throw he
    · exact makeDirectory_failsOnly p

theorem makeNewDirectory_failsOnly : FailsOnly Refuses (makeNewDirectory p) :=
  makeFrom_failsOnly p _

theorem copyInto_failsOnly : FailsOnly Refuses (copyInto source target) :=
  .bind (.find fun t => t.entryAt_failsOnly true source) fun _ =>
    .bind (makeNewDirectory_failsOnly target) fun _ =>
    .bind (.find fun t => t.entryAt_failsOnly true target) fun _ => .change fun _ => .ok _

theorem copyFile_failsOnly : FailsOnly Refuses (copyFile source target) :=
  .bind (.find fun t => t.read_failsOnly source) fun bytes => write_failsOnly target bytes

theorem moveByCopy_failsOnly : FailsOnly Refuses (moveByCopy source target) := by
  refine .bind (.look _) fun directory => ?_
  split
  · exact .bind (copyInto_failsOnly source target) fun _ => .change fun t =>
      t.removeAll_failsOnly source
  · exact .bind (copyFile_failsOnly source target) fun _ => .change fun t =>
      t.unlink_failsOnly source

theorem goal_failsOnly (t : Tree) : Outcome.FailsOnly Refuses (goal source target t) := by
  unfold goal
  split
  · dsimp only
    split
    · exact .error rfl
    · exact .ok _
  · exact .ok _

theorem move_failsOnly : FailsOnly Refuses (move source target) := by
  refine .bind (.find fun t => goal_failsOnly source target t) fun goal =>
    .bind (.look _) fun renamed => ?_
  cases renamed with
  | some t => exact .change fun _ => .ok t
  | none =>
    exact .bind (.look _) fun there => .optional (.throw rfl) fun _ =>
      .bind (.look _) fun directory =>
      .optional (.throw rfl) fun _ => moveByCopy_failsOnly source goal

end TreeAction

/-! ## Unpacking -/

/-- The tree is at fault, or an archive is damaged. -/
def RefusesOrDamaged (f : Failure) : Prop :=
  Refuses f ∨ ∃ damage wording, f = .archiveDamaged damage wording

theorem Member.save_failsOnly (m : Member) (place : Path) :
    FailsOnly RefusesOrDamaged (m.save place) := by
  have hwrite :
      FailsOnly RefusesOrDamaged (Action.change (·.write place m.bytes) : TreeAction Unit) :=
    (TreeAction.write_failsOnly place m.bytes).mono fun _ => .inl
  unfold save
  split
  · exact hwrite
  · exact .optional hwrite fun _ => .throw (.inr ⟨_, _, rfl⟩)

theorem Member.unpack_failsOnly (members : List Member) (dir : Path) (m : Member) :
    FailsOnly RefusesOrDamaged (m.unpack members dir) := by
  refine .bind (.look _) fun there =>
    .optional ((TreeAction.makeNewDirectory_failsOnly _).mono fun _ => .inl) fun _ => ?_
  split
  · refine .bind (.look _) fun there => ?_
    split
    · exact (TreeAction.makeDirectory_failsOnly _).mono fun _ => .inl
    · exact .pure ()
  · exact save_failsOnly _ _

theorem TreeAction.unpack_failsOnly (archive : Archive) (dir : Path) :
    FailsOnly RefusesOrDamaged (unpack archive dir) := by
  cases archive with
  | readable members => exact .forM fun m _ => m.unpack_failsOnly members dir
  | unreadable damage wording => exact .throw (.inr ⟨damage, wording, rfl⟩)

end SlideDeck
