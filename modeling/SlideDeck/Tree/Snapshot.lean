import SlideDeck.Record.Basic
import SlideDeck.Text.Utf8
import SlideDeck.Tree.Basic

/-!
# Snapshots

A tree as a record, one member per path below the base. A directory is null, a file of text is a
string, and any other file an array of its bytes. A link is an object with the member `link`, an
archive one with the member `archive`, which holds the archive's own files. Directories above an
entry need no member.
-/

namespace SlideDeck.Tree

open Record (Value)

/-- The bytes that a value stands for. -/
def bytesOf? : Value → Option (List UInt8)
  | .string s => some (Utf8.encode s)
  | .array items => items.mapM fun
    | .integer n => if 0 ≤ n ∧ n < 256 then some n.toNat.toUInt8 else none
    | _ => none
  | _ => none

/-- A value that stands for some bytes. -/
def valueOf (bytes : List UInt8) : Value :=
  match Utf8.decode bytes with
  | .ok s => .string s
  | .error _ => .array (bytes.map fun b => .integer b.toNat)

/-- The entry that a value stands for. -/
def entryOf? : Value → Option Entry
  | .null => some .directory
  | .object [(kind, value)] =>
    if kind = "link".toList then
      match value with
      | .string target => some (.link target)
      | _ => none
    else if kind = "archive".toList then
      match value with
      | .object members => do
        let members ← members.mapM fun (name, value) => (bytesOf? value).map fun bytes =>
          { name, bytes : Member }
        return .file ⟨[], some (.readable members)⟩
      | _ => none
    else none
  | value => (bytesOf? value).map fun bytes => .file ⟨bytes, none⟩

/-- A value that stands for an entry. -/
def valueOfEntry : Entry → Value
  | .directory => .null
  | .link target => .object [("link".toList, .string target)]
  | .file ⟨_, some (.readable members)⟩ =>
    .object [("archive".toList, .object (members.map fun m => (m.name, valueOf m.bytes)))]
  | .file f => valueOf f.bytes

/-- The tree with an entry at a location and directories above it where there is nothing. -/
def plant (t : Tree) (l : Location) (e : Entry) : Tree :=
  let above := (List.range l.length).map l.take
  (above.foldl (fun t k => if (t.get? k).isNone then t.put k .directory else t) t).put l e

/-- The tree that a record describes. -/
def ofSnapshot? (base : Location) : Value → Option Tree
  | .object members =>
    let start : Tree := { base := base, entries := [] }
    members.foldlM (fun t (path, value) => do
      let names := (Text.split '/' path).filter (· ≠ [])
      return t.plant (base ++ names) (← entryOf? value)) start
  | _ => none

/-- The record that describes a tree. -/
def snapshot (t : Tree) : Value :=
  let rows := (t.below t.base).map fun (l, e) => (Text.join ['/'] l, valueOfEntry e)
  .object (rows.mergeSort fun a b => Text.upTo a.1 b.1)

end SlideDeck.Tree
