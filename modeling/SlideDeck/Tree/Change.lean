import SlideDeck.Tree.Walk

/-!
# Reading and changing a tree

The elementary operations. Each either succeeds or is refused and then leaves the tree as it is, so
they are functions from a tree to a result or a new tree. What goes on in several steps is in
`SlideDeck.Tree.Action`.
-/

namespace SlideDeck.Tree

/-- The bytes of the file that a path leads to. -/
def read (t : Tree) (p : Path) : Except Failure (List UInt8) := do
  match ← t.entryAt true p with
  | (_, .file f) => return f.bytes
  | (_, _) => throw (.refused .isDirectory p.toText)

/-- The text of the file that a path leads to, its lines ended by line feeds. -/
def readText (t : Tree) (p : Path) : Except Failure Text := do
  match Utf8.readLines (← t.read p) with
  | .ok s => return s
  | .error e => throw (.undecodable e)

/-- The names in the directory that a path leads to. -/
def list (t : Tree) (p : Path) : Except Failure (List Text) := do
  match ← t.entryAt true p with
  | (l, .directory) => return t.children l
  | (_, _) => throw (.refused .notDirectory p.toText)

/-- Makes a directory where there is nothing. -/
def makeDirectory (t : Tree) (p : Path) : Except Failure Tree :=
  match t.locate false p with
  | .ok (.absent l) => .ok (t.put l .directory)
  | .ok (.present ..) => .error (.refused .exists p.toText)
  | .error e => .error (.refused e p.toText)

/-- Writes a file anew, with what its bytes were before as `f` changes them. -/
def modifyFile (t : Tree) (p : Path) (f : List UInt8 → List UInt8) : Except Failure Tree :=
  match t.locate true p with
  | .ok (.absent l) => .ok (t.put l (.file ⟨f [], none⟩))
  | .ok (.present l (.file old)) => .ok (t.put l (.file ⟨f old.bytes, none⟩))
  | .ok (.present ..) => .error (.refused .isDirectory p.toText)
  | .error e => .error (.refused e p.toText)

/-- Writes a file. -/
def write (t : Tree) (p : Path) (bytes : List UInt8) : Except Failure Tree :=
  t.modifyFile p fun _ => bytes

/-- Writes behind what is in a file. -/
def append (t : Tree) (p : Path) (bytes : List UInt8) : Except Failure Tree :=
  t.modifyFile p (· ++ bytes)

/-- Removes a file or a link. -/
def unlink (t : Tree) (p : Path) : Except Failure Tree := do
  if t.locked = some p.name then throw .locked
  match ← t.entryAt false p with
  | (_, .directory) => throw (.refused .isDirectory p.toText)
  | (l, _) => return t.erase l

/-- Removes a directory with all that is in it. -/
def removeAll (t : Tree) (p : Path) : Except Failure Tree := do
  if t.busy then throw .busy
  match ← t.entryAt false p with
  | (l, .directory) => return t.erase l
  | (_, _) => throw (.refused .notDirectory p.toText)

/-- Whether what is at `l` may take the place of what is at `k`. -/
def mayReplace (t : Tree) (e : Entry) (k : Location) (old : Entry) : Bool :=
  match e, old with
  | .directory, .directory => (t.children k).isEmpty
  | .directory, _ => false
  | _, .directory => false
  | _, _ => true

/-- Gives an entry another path, if that can be done in one step. A path that ends in a step up
names no entry. -/
def rename? (t : Tree) (source target : Path) : Option Tree :=
  if source.name = Path.up ∨ target.name = Path.up then none
  else match t.locate false source, t.locate false target with
    | .ok (.present l _), .ok (.absent k) => if l <+: k then none else some (t.relocate l k)
    | .ok (.present l e), .ok (.present k old) =>
      if l = k then some t
      else if l <+: k ∨ !t.mayReplace e k old then none
      else some ((t.erase k).relocate l k)
    | _, _ => none

end SlideDeck.Tree
