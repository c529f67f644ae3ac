import SlideDeck.Failure
import SlideDeck.Tree.Basic

/-!
# Walks through a tree

A path leads from the root or from the tree's base, name by name, to a place: an entry, or a
location whose last name is still free. A link on the way leads on to where its target leads, at
most `linkLimit` times; a link at the end is followed or not. `Tree.advance` walks up to the next
link, and `Tree.walk` goes on from there.

A path whose text is too long is not followed at all, and a walk ends at a name that is too long for
an entry.

A question about what a path leads to (`isFile`, `isDirectory`, `contains`) has the answer no if the
path leads nowhere. `Tree.ask` answers it only if nothing on the way is too long.
-/

namespace SlideDeck

/-- Where a path leads. -/
inductive Place where
  | present (l : Location) (e : Entry)
  /-- A location that is free, in a directory that is there. -/
  | absent (l : Location)
  deriving DecidableEq, Repr

/-- Where a walk stops. -/
inductive Stop where
  | place (p : Place)
  /-- In a directory where a link stands before the remaining names. -/
  | link (l : Location) (target : Text) (rest : List Text)
  deriving DecidableEq, Repr

namespace Tree

/-- The number of links that one path may lead through. -/
def linkLimit : Nat := 40

/-- Walks from the directory `l` along names to the end or to the first link; a link at the end is
met only if `follow` says so. -/
def advance (t : Tree) (follow : Bool) : Location → List Text → Except TreeError Stop
  | l, [] =>
    match t.get? l with
    | some e => .ok (.place (.present l e))
    | none => .error .notFound
  | l, name :: rest =>
    if name = Path.up then advance t follow l.dropLast rest
    else if !Path.fitsName name then .error .nameTooLong
    else
      let next := l ++ [name]
      match t.get? next with
      | none => if rest = [] then .ok (.place (.absent next)) else .error .notFound
      | some .directory => advance t follow next rest
      | some (.link target) =>
        if rest = [] ∧ !follow then .ok (.place (.present next (.link target)))
        else .ok (.link l target rest)
      | some (.file f) =>
        if rest = [] then .ok (.place (.present next (.file f))) else .error .notDirectory

/-- Walks from the directory `l` along names through less than a number of links. -/
def walk (t : Tree) (follow : Bool) : Nat → Location → List Text → Except TreeError Place
  | 0, _, _ => .error .tooManyLinks
  | n + 1, l, names => do
    match ← advance t follow l names with
    | .place p => return p
    | .link l target rest =>
      let target := Path.ofText target
      walk t follow n (if target.root = [] then l else []) (target.parts ++ rest)

/-- Where a path leads. -/
def locate (t : Tree) (follow : Bool) (p : Path) : Except TreeError Place :=
  if !p.fitsText then .error .nameTooLong
  else t.walk follow (linkLimit + 1) (if p.root = [] then t.base else []) p.parts

/-- The location and the entry that a path leads to. -/
def entryAt (t : Tree) (follow : Bool) (p : Path) : Except Failure (Location × Entry) :=
  match t.locate follow p with
  | .ok (.present l e) => .ok (l, e)
  | .ok (.absent _) => .error (.refused .notFound p.toText)
  | .error e => .error (.refused e p.toText)

/-- The entry that a path leads to, links followed. -/
def entry? (t : Tree) (p : Path) : Option Entry := (t.entryAt true p).toOption.map (·.2)

/-- Whether a path leads to something. -/
def contains (t : Tree) (p : Path) : Bool := (t.entry? p).isSome

/-- Whether a path leads to a directory. -/
def isDirectory (t : Tree) (p : Path) : Bool := t.entry? p == some .directory

/-- The file that a path leads to. -/
def file? (t : Tree) (p : Path) : Option File :=
  match t.entry? p with
  | some (.file f) => some f
  | _ => none

/-- Whether a path leads to a file. -/
def isFile (t : Tree) (p : Path) : Bool := (t.file? p).isSome

/-- Whether a path itself is a link. -/
def isLink (t : Tree) (p : Path) : Bool :=
  match t.entryAt false p with
  | .ok (_, .link _) => true
  | _ => false

/-- The answer to a question about a path, unless the path or a name on its way is too long; a link
at the end counts as one on the way only if `follow` says so. -/
def ask (question : Tree → Path → Bool) (follow : Bool) (p : Path) (t : Tree) :
    Except Failure Bool :=
  match t.locate follow p with
  | .error .nameTooLong => .error (.refused .nameTooLong p.toText)
  | _ => .ok (question t p)

/-- Whether two paths lead to one entry. -/
def sameEntry (t : Tree) (p q : Path) : Bool :=
  match t.entryAt true p, t.entryAt true q with
  | .ok (l, _), .ok (k, _) => l = k
  | _, _ => false

end Tree

end SlideDeck
