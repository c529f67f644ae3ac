import SlideDeck.Text.Quoted

/-!
# Paths

A path is a root, empty for a relative path, and the names that lead from there. Empty names and
single dots are dropped when a path is read; double dots stay, since a link may stand before them.
-/

namespace SlideDeck

/-- A path: the slashes it starts with and the names that follow. -/
structure Path where
  root : Text
  parts : List Text
  deriving DecidableEq, Repr

namespace Path

/-- Whether a name takes part in a path. -/
def isPart (name : Text) : Bool := name != [] && name != ['.']

/-- The slashes that a path's text starts with: two if there are exactly two, else one. -/
def rootOf (s : Text) : Text :=
  match s with
  | '/' :: '/' :: '/' :: _ => ['/']
  | '/' :: '/' :: _ => ['/', '/']
  | '/' :: _ => ['/']
  | _ => []

/-- Reads a path. -/
def ofText (s : Text) : Path := ⟨rootOf s, (Text.split '/' s).filter isPart⟩

/-- The path of the directory in which everything happens. -/
def here : Path := ⟨[], []⟩

/-- The text of a path; a relative path without names is a dot. -/
def toText (p : Path) : Text :=
  if p.root = [] ∧ p.parts = [] then ['.'] else p.root ++ Text.join ['/'] p.parts

/-- The path `q` seen from the directory `p`. -/
def append (p q : Path) : Path := if q.root = [] then ⟨p.root, p.parts ++ q.parts⟩ else q

/-- The path of the entry that `name` denotes in the directory `p`. -/
def child (p : Path) (name : Text) : Path := p.append (ofText name)

/-- The last name of a path, empty if it has none. -/
def name (p : Path) : Text := p.parts.getLast?.getD []

/-- A path without its last name. -/
def parent (p : Path) : Path := ⟨p.root, p.parts.dropLast⟩

/-- The name that stands for the directory above. -/
def up : Text := ['.', '.']

/-- The names of a path, the last first, with every step up taken; above a root there is nothing. -/
def climb (rooted : Bool) (below : List Text) : List Text → List Text
  | [] => below
  | name :: names =>
    if name ≠ up then climb rooted (name :: below) names
    else match below with
      | [] => climb rooted (if rooted then [] else [up]) names
      | last :: rest => climb rooted (if last = up then up :: below else rest) names

/-- How many bytes a name may have. -/
def nameLimit : Nat := 255

/-- How many bytes the text of a path may have. -/
def limit : Nat := 4095

/-- Whether a name is short enough to be given to an entry. -/
def fitsName (name : Text) : Bool := Text.size name ≤ nameLimit

/-- Whether the text of a path is short enough for the path to be followed. -/
def fitsText (p : Path) : Bool := Text.size p.toText ≤ limit

/-- A path in which every step up is taken, as if there were no links. -/
def normal (p : Path) : Path := ⟨p.root, (climb (p.root ≠ []) [] p.parts).reverse⟩

end Path

end SlideDeck
