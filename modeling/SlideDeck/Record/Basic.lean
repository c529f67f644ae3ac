import SlideDeck.Record.Double

/-!
# Records

The values of a structured record: an object keeps its members in order, each key once.
`Members.set` replaces the value of a key where the key stands, or adds a new member at the end.
-/

namespace SlideDeck.Record

/-- A value. -/
inductive Value where
  | null
  | bool (b : Bool)
  | integer (n : Int)
  | real (x : Double)
  | string (s : Text)
  | array (items : List Value)
  | object (members : List (Text × Value))
  deriving Repr

/-- The members of an object. -/
abbrev Members := List (Text × Value)

namespace Members

/-- The value of a key. -/
def get? (key : Text) : Members → Option Value
  | [] => none
  | (k, v) :: r => if k = key then some v else get? key r

/-- Members with a new value for a key. -/
def set (key : Text) (value : Value) : Members → Members
  | [] => [(key, value)]
  | (k, v) :: r => if k = key then (k, value) :: r else (k, v) :: set key value r

/-- The members that a sequence of entries leaves: a later entry of a key replaces the value of an
earlier one. -/
def ofEntries (entries : List (Text × Value)) : Members :=
  entries.foldl (fun members (key, value) => members.set key value) []

theorem get?_set (key other : Text) (value : Value) (members : Members) :
    (members.set key value).get? other = if other = key then some value
      else members.get? other := by
  induction members with
  | nil => simp only [set, get?]; grind
  | cons m r ih => simp only [set]; split <;> simp only [get?] <;> grind

end Members

end SlideDeck.Record
