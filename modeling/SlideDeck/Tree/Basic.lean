import SlideDeck.Failure

/-!
# Trees of files

A tree holds the entries of a file system by their locations, the names that lead to them from the
root. A program works in the directory `base`. The directory `ground`, which is the same at first,
and everything above it are there without entries of their own.

`Tree.get?` is the view of a tree; `get?_put` and `get?_erase` say what the operations do to it. The
order in which a directory lists its entries is not part of the view.
-/

namespace SlideDeck

/-- The names that lead from the root to an entry. -/
abbrev Location := List Text

/-- The location to which what is at `l` moves when `source` becomes `target`. -/
def Location.moved (source target l : Location) : Location :=
  if source <+: l then target ++ l.drop source.length else l

/-- What the reader of archives meets in a member that it cannot read. -/
structure Fault where
  damage : Damage
  wording : Text
  /-- Whether it is met only behind the bytes that can be read. -/
  late : Bool
  deriving DecidableEq, Repr

/-- A file in an archive. -/
structure Member where
  name : Text
  /-- The bytes that can be read. -/
  bytes : List UInt8
  fault : Option Fault := none
  deriving DecidableEq, Repr

/-- What is in a file that is taken for an archive. -/
inductive Archive where
  | readable (members : List Member)
  /-- The list of the members cannot be read. -/
  | unreadable (damage : Damage) (wording : Text)
  deriving DecidableEq, Repr

/-- A file: its bytes and, if they are taken for an archive, what is in it. -/
structure File where
  bytes : List UInt8
  archive : Option Archive := none
  deriving DecidableEq, Repr

/-- What is at a location. -/
inductive Entry where
  | directory
  | file (file : File)
  /-- A link to the entry that a path leads to. -/
  | link (target : Text)
  deriving DecidableEq, Repr

/-- The entries of a file system. -/
structure Tree where
  /-- The directory in which relative paths start. -/
  base : Location
  entries : List (Location × Entry)
  /-- A directory that is there, with all directories above it. -/
  ground : Location := base
  /-- Whether directories with their contents cannot be removed at the moment. -/
  busy : Bool := false
  /-- The name of files that cannot be removed at the moment. -/
  locked : Option Text := none
  deriving DecidableEq, Repr

namespace Tree

/-- The entry at a location. -/
def get? (t : Tree) (l : Location) : Option Entry :=
  if l <+: t.ground then some .directory else t.entries.lookup l

/-- The tree with an entry at a location, in place of what was there. -/
def put (t : Tree) (l : Location) (e : Entry) : Tree :=
  { t with entries := (l, e) :: t.entries.filter (·.1 ≠ l) }

/-- The tree without what is at a location and below it. -/
def erase (t : Tree) (l : Location) : Tree :=
  { t with
    entries := t.entries.filter fun (k, _) => ¬ l <+: k
    ground := if l <+: t.ground then l.dropLast else t.ground }

/-- The tree with what is at `source` and below it moved to `target`. -/
def relocate (t : Tree) (source target : Location) : Tree :=
  { t with entries := t.entries.map fun (l, e) => (Location.moved source target l, e) }

/-- The names in a directory, in the order in which they are listed: first the way to the ground,
which is there without entries of its own. -/
def children (t : Tree) (l : Location) : List Text :=
  let towardGround := if l <+: t.ground then (t.ground.drop l.length).take 1 else []
  towardGround ++ t.entries.filterMap fun (k, _) =>
    if k ≠ [] ∧ k.dropLast = l ∧ ¬ k <+: t.ground then k.getLast? else none

/-- What is below a location, seen from there. -/
def below (t : Tree) (l : Location) : List (Location × Entry) :=
  t.entries.filterMap fun (k, e) => if l <+: k ∧ l ≠ k then some (k.drop l.length, e) else none

theorem lookup_entry_cons (k m : Location) (v : Entry) (entries : List (Location × Entry)) :
    ((m, v) :: entries).lookup k = if k = m then some v else entries.lookup k := by
  by_cases h : k = m
  · subst h; simp
  · have hb : (k == m) = false := by simpa using h
    rw [List.lookup_cons, hb, if_neg h]

theorem lookup_filter_ne {l k : Location} (entries : List (Location × Entry)) (h : k ≠ l) :
    (entries.filter (·.1 ≠ l)).lookup k = entries.lookup k := by
  induction entries with
  | nil => rfl
  | cons e es ih =>
    obtain ⟨m, v⟩ := e
    by_cases hm : m = l
    · rw [List.filter_cons_of_neg (by simpa using hm), ih, lookup_entry_cons,
        if_neg (fun hk => h (hk.trans hm))]
    · rw [List.filter_cons_of_pos (by simpa using hm), lookup_entry_cons, lookup_entry_cons, ih]

theorem get?_put (t : Tree) (l k : Location) (e : Entry) :
    (t.put l e).get? k = if k <+: t.ground then some .directory else if k = l then some e
      else t.get? k := by
  unfold get? put
  by_cases hb : k <+: t.ground
  · simp [hb]
  · by_cases hk : k = l
    · subst hk; simp [hb]
    · rw [if_neg hb, if_neg hb, if_neg hk, lookup_entry_cons, if_neg hk, if_neg hb]
      exact lookup_filter_ne t.entries hk

theorem lookup_filter_prefix (l k : Location) (entries : List (Location × Entry)) :
    (entries.filter fun (m, _) => ¬ l <+: m).lookup k = if l <+: k then none
      else entries.lookup k := by
  induction entries with
  | nil => simp
  | cons e es ih =>
    obtain ⟨m, v⟩ := e
    by_cases hm : l <+: m
    · rw [List.filter_cons_of_neg (by simpa using hm), ih, lookup_entry_cons]
      by_cases hk : k = m
      · rw [if_pos (hk ▸ hm), if_pos (hk ▸ hm)]
      · rw [if_neg hk]
    · rw [List.filter_cons_of_pos (by simpa using hm), lookup_entry_cons, lookup_entry_cons, ih]
      by_cases hk : k = m
      · rw [if_pos hk, if_pos hk, if_neg (hk ▸ hm)]
      · rw [if_neg hk, if_neg hk]

/-- What is above a location and leads to the ground stays. -/
theorem prefix_ground_erase {t : Tree} {l k : Location} (hl : l ≠ []) :
    k <+: (t.erase l).ground ↔ k <+: t.ground ∧ ¬ l <+: k := by
  have hl' : ¬ l <+: l.dropLast := fun h => by
    have := h.length_le
    have := List.length_pos_iff.2 hl
    rw [List.length_dropLast] at *
    omega
  simp only [erase]
  split
  · next h =>
    refine ⟨fun hk => ⟨(hk.trans (List.dropLast_prefix l)).trans h, fun hlk => hl' (hlk.trans hk)⟩,
      fun ⟨hk, hlk⟩ => ?_⟩
    rcases List.prefix_or_prefix_of_prefix hk h with hkl | hkl
    · refine List.prefix_of_prefix_length_le hkl (List.dropLast_prefix l) ?_
      have : k.length ≠ l.length := fun he => hlk (hkl.eq_of_length he ▸ List.prefix_refl l)
      have := hkl.length_le
      rw [List.length_dropLast]
      omega
    · exact absurd hkl hlk
  · next h => exact ⟨fun hk => ⟨hk, fun hlk => h (hlk.trans hk)⟩, And.left⟩

/-- The root cannot be erased. -/
theorem get?_erase (t : Tree) {l : Location} (hl : l ≠ []) (k : Location) :
    (t.erase l).get? k = if l <+: k then none else t.get? k := by
  have hlookup : (t.erase l).entries.lookup k = if l <+: k then none else t.entries.lookup k :=
    lookup_filter_prefix l k t.entries
  unfold get?
  simp only [prefix_ground_erase hl, hlookup]
  by_cases h : l <+: k <;> simp [h]

end Tree

end SlideDeck
