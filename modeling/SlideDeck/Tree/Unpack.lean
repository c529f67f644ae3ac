import SlideDeck.Tree.Action

/-!
# Unpacking archives

The members of an archive are written into a directory in order. Of a member's name only the parts
count that lead downwards, so nothing is written outside of the directory; a name that ends in a
slash is a directory's. Where a name occurs several times, every occurrence has the bytes of the
last one. Unpacking ends at a member that cannot be read.
-/

namespace SlideDeck.Member

/-- Whether a member is a directory. -/
def isDirectory (m : Member) : Bool := m.name.getLast? == some '/'

/-- The names that lead to a member's place in the directory into which it is unpacked. -/
def parts (m : Member) : List Text :=
  (Text.split '/' m.name).filter fun part => Path.isPart part && part != Path.up

/-- Where a member goes when it is unpacked into a directory. -/
def place (dir : Path) (m : Member) : Path := (dir.append ⟨[], m.parts⟩).normal

/-- The last member of a name. -/
def lastIn (members : List Member) (m : Member) : Member :=
  (members.reverse.find? (·.name = m.name)).getD m

/-- Writes the bytes of a member to a path, as far as they can be read. -/
def save (m : Member) (place : Path) : TreeAction Unit := do
  match m.fault with
  | none => Action.change (·.write place m.bytes)
  | some fault =>
    if fault.late then Action.change (·.write place m.bytes)
    throw (.archiveDamaged fault.damage fault.wording)

/-- Unpacks one of the members of an archive into a directory. -/
def unpack (members : List Member) (dir : Path) (m : Member) : TreeAction Unit := do
  let place := m.place dir
  let parent := place.parent
  if parent ≠ .here ∧ !(← Action.look (·.contains parent)) then
    TreeAction.makeNewDirectory parent
  if m.isDirectory then
    if !(← Action.look (·.isDirectory place)) then Action.change (·.makeDirectory place)
  else (m.lastIn members).save place

end SlideDeck.Member

namespace SlideDeck.TreeAction

/-- Unpacks an archive into a directory. -/
def unpack (archive : Archive) (dir : Path) : TreeAction Unit := do
  match archive with
  | .readable members => members.forM (Member.unpack members dir)
  | .unreadable damage wording => throw (.archiveDamaged damage wording)

end SlideDeck.TreeAction
