import SlideDeck.Record.Reader

/-!
# Values and their parts

`Value.parts` lists a value with everything that stands in it, `Value.texts` its keys and strings. A
value fits a depth if it is nested no deeper, no key stands twice in an object, and every integer is
short enough to be read (`Value.Fits`): such values are what a reader returns.

`Members.Sets` is the law of `Members.set`: a key that is there keeps its place, a missing one comes
last.
-/

namespace SlideDeck.Record

/-! ## Members -/

namespace Members

variable {key : Text} {value : Value} {members : Members}

/-- The keys in order. -/
def keys (members : Members) : List Text := members.map Prod.fst

/-- `new` is `old` with `value` under `key`: where the key stands, or behind all others. -/
def Sets (key : Text) (value : Value) (old new : Members) : Prop :=
  (∃ before was after, old = before ++ (key, was) :: after ∧ key ∉ keys before ∧
    new = before ++ (key, value) :: after) ∨
  (key ∉ keys old ∧ new = old ++ [(key, value)])

theorem sets_set (key : Text) (value : Value) (members : Members) :
    Sets key value members (members.set key value) := by
  induction members with
  | nil => exact .inr ⟨List.not_mem_nil, rfl⟩
  | cons m r ih =>
    obtain ⟨k, v⟩ := m
    rw [set]
    split
    · next hk => exact .inl ⟨[], v, r, by rw [hk]; rfl, List.not_mem_nil, by rw [hk]; rfl⟩
    · next hk =>
      have hk : key ≠ k := fun h => hk h.symm
      rcases ih with ⟨before, was, after, rfl, hb, hn⟩ | ⟨hr, hn⟩
      · exact .inl ⟨(k, v) :: before, was, after, rfl, by simpa [keys, hk] using hb, by
          rw [hn]; rfl⟩
      · exact .inr ⟨by simpa [keys, hk] using hr, by rw [hn]; rfl⟩

/-- A set member is the new one or an old one. -/
theorem mem_set {m : Text × Value} (h : m ∈ members.set key value) :
    m = (key, value) ∨ m ∈ members := by
  rcases sets_set key value members with ⟨before, was, after, rfl, -, hn⟩ | ⟨-, hn⟩
  · rw [hn, List.mem_append, List.mem_cons] at h
    rcases h with hb | rfl | ha
    · exact .inr (List.mem_append_left _ hb)
    · exact .inl rfl
    · exact .inr (List.mem_append_right _ (List.mem_cons_of_mem _ ha))
  · rw [hn, List.mem_append, List.mem_singleton] at h
    exact h.symm

theorem nodup_keys_set (h : (keys members).Nodup) : (keys (members.set key value)).Nodup := by
  rcases sets_set key value members with ⟨before, was, after, rfl, -, hn⟩ | ⟨hk, hn⟩
  · rw [hn]
    simpa only [keys, List.map_append, List.map_cons] using h
  · rw [hn, keys, List.map_append]
    refine List.nodup_append.2 ⟨h, by simp, fun a ha b hb e => ?_⟩
    simp only [List.map_cons, List.map_nil, List.mem_singleton] at hb
    exact hk (by rw [← hb, ← e]; exact ha)

theorem set_of_not_mem (h : key ∉ keys members) (value : Value) :
    members.set key value = members ++ [(key, value)] := by
  rcases sets_set key value members with ⟨before, was, after, rfl, -, -⟩ | ⟨-, hn⟩
  · simp [keys] at h
  · exact hn

theorem foldl_set (entries members : Members) (h : (keys (members ++ entries)).Nodup) :
    entries.foldl (fun members (key, value) => members.set key value) members =
      members ++ entries := by
  induction entries generalizing members with
  | nil => rw [List.append_nil]; rfl
  | cons m r ih =>
    obtain ⟨k, v⟩ := m
    have hk : k ∉ keys members := by
      intro hm
      rw [keys, List.map_append] at h
      exact (List.nodup_append.1 h).2.2 k hm k (by simp) rfl
    rw [List.foldl_cons]
    show r.foldl _ (set k v members) = _
    rw [set_of_not_mem hk, ih _ (by simpa [keys] using h), List.append_assoc]
    rfl

/-- Entries with different keys are the members they leave. -/
theorem ofEntries_of_nodup (h : (keys members).Nodup) : ofEntries members = members :=
  foldl_set members [] h

theorem nodup_keys_ofEntries (entries : List (Text × Value)) :
    (keys (ofEntries entries)).Nodup := by
  suffices h : ∀ members : Members, (keys members).Nodup →
      (keys (entries.foldl (fun members (key, value) => members.set key value) members)).Nodup from
    h [] List.nodup_nil
  induction entries with
  | nil => exact fun _ h => h
  | cons m r ih => exact fun members h => ih _ (nodup_keys_set h)

theorem mem_ofEntries {entries : List (Text × Value)} {m : Text × Value}
    (h : m ∈ ofEntries entries) :
    m ∈ entries := by
  suffices hs :
      ∀ members : Members, m ∈ entries.foldl (fun members (key, value) => members.set key value)
        members →
      m ∈ members ∨ m ∈ entries from (hs [] h).resolve_left List.not_mem_nil
  clear h
  induction entries with
  | nil => exact fun _ h => .inl h
  | cons e r ih =>
    intro members h
    rcases ih _ h with hm | hr
    · rcases mem_set hm with rfl | hm
      · exact .inr (List.mem_cons_self ..)
      · exact .inl hm
    · exact .inr (List.mem_cons_of_mem _ hr)

theorem mem_of_get? (h : members.get? key = some value) : (key, value) ∈ members := by
  induction members with
  | nil => cases h
  | cons m r ih =>
    obtain ⟨k, v⟩ := m
    rw [get?] at h
    split at h
    · next hk =>
      cases h
      rw [hk]
      exact List.mem_cons_self ..
    · exact List.mem_cons_of_mem _ (ih h)

theorem get?_append_cons {before after : Members} (h : key ∉ keys before) :
    (before ++ (key, value) :: after).get? key = some value := by
  induction before with
  | nil => rw [List.nil_append, get?, if_pos rfl]
  | cons m r ih =>
    obtain ⟨k, v⟩ := m
    simp only [keys, List.map_cons, List.mem_cons, not_or] at h
    rw [List.cons_append, get?, if_neg (Ne.symm h.1), ih h.2]

/-- A key that has the value already keeps it. -/
theorem set_of_get? (h : members.get? key = some value) : members.set key value = members := by
  induction members with
  | nil => cases h
  | cons m r ih =>
    obtain ⟨k, v⟩ := m
    rw [get?] at h
    rw [set]
    split at h
    · next hk =>
      cases h
      rw [if_pos hk]
    · next hk => rw [if_neg hk, ih h]

end Members

/-! ## Parts -/

namespace Value

mutual

/-- A value and all values in it. -/
def parts : Value → List Value
  | .array items => .array items :: itemParts items
  | .object members => .object members :: memberParts members
  | v => [v]

/-- The parts of items. -/
def itemParts : List Value → List Value
  | [] => []
  | v :: vs => parts v ++ itemParts vs

/-- The parts of members' values. -/
def memberParts : List (Text × Value) → List Value
  | [] => []
  | (_, v) :: ms => parts v ++ memberParts ms

end

/-- The texts of a value itself: a string, or the keys of an object. -/
def ownTexts : Value → List Text
  | .string s => [s]
  | .object members => Members.keys members
  | _ => []

/-- The keys and strings anywhere in a value. -/
def texts (v : Value) : List Text := v.parts.flatMap ownTexts

/-- Whether a value is a number that is no integer. -/
def isReal : Value → Bool
  | .real _ => true
  | _ => false

/-- All numbers in the value are integers. -/
def Integral (v : Value) : Prop := ∀ p ∈ v.parts, p.isReal = false

instance (v : Value) : Decidable v.Integral :=
  inferInstanceAs (Decidable (∀ p ∈ v.parts, p.isReal = false))

theorem itemParts_eq (items : List Value) : itemParts items = items.flatMap parts := by
  induction items with
  | nil => rfl
  | cons v vs ih => rw [itemParts, ih, List.flatMap_cons]

theorem memberParts_eq (members : Members) :
    memberParts members = members.flatMap fun m => m.2.parts := by
  induction members with
  | nil => rfl
  | cons m ms ih => rw [memberParts, ih, List.flatMap_cons]

theorem mem_texts_array {items : List Value} {s : Text} :
    s ∈ (array items).texts ↔ ∃ v ∈ items, s ∈ v.texts := by
  simp only [texts, parts, itemParts_eq, List.flatMap_cons, ownTexts, List.nil_append,
    List.flatMap_assoc, List.mem_flatMap]

theorem mem_texts_object {members : Members} {s : Text} :
    s ∈ (object members).texts ↔ ∃ m ∈ members, s = m.1 ∨ s ∈ m.2.texts := by
  simp only [texts, parts, memberParts_eq, List.flatMap_cons, ownTexts, List.flatMap_assoc,
    List.mem_append,
    Members.keys, List.mem_map, List.mem_flatMap, and_or_left, exists_or, eq_comm]

theorem integral_array {items : List Value} : (array items).Integral ↔ ∀ v ∈ items, v.Integral := by
  simp only [Integral, parts, itemParts_eq, List.forall_mem_cons, isReal, true_and,
    List.mem_flatMap, forall_exists_index, and_imp]
  exact ⟨fun h v hv p hp => h p v hv hp, fun h p v hv hp => h v hv p hp⟩

theorem integral_object {members : Members} : (object members).Integral ↔
    ∀ m ∈ members, m.2.Integral := by
  simp only [Integral, parts, memberParts_eq, List.forall_mem_cons, isReal, true_and,
    List.mem_flatMap, forall_exists_index, and_imp]
  exact ⟨fun h v hv p hp => h p v hv hp, fun h p v hv hp => h v hv p hp⟩

theorem integral_string (s : Text) : (string s).Integral := fun p hp => by
  rw [List.mem_singleton.1 hp]
  rfl

theorem integral_integer (n : Int) : (integer n).Integral := fun p hp => by
  rw [List.mem_singleton.1 hp]
  rfl

/-! ## Values that are read -/

/-- The value is nested at most `depth` deep, its objects have each key once, and its integers can
be read. -/
def Fits : Nat → Value → Prop
  | 0, .array _ => False
  | 0, .object _ => False
  | depth + 1, .array items => ∀ v ∈ items, v.Fits depth
  | depth + 1, .object members => (Members.keys members).Nodup ∧ ∀ m ∈ members, m.2.Fits depth
  | _, .integer n => (Text.ofNat n.natAbs).length ≤ Numeral.maxDigits
  | _, _ => True

theorem fits_string (depth : Nat) (s : Text) : (string s).Fits depth := by
  cases depth <;> trivial

theorem fits_real (depth : Nat) (x : Double) : (real x).Fits depth := by
  cases depth <;> trivial

theorem fits_integer_iff {depth : Nat} {n : Int} :
    (integer n).Fits depth ↔ (Text.ofNat n.natAbs).length ≤ Numeral.maxDigits := by
  cases depth <;> rfl

/-- What holds of words, numbers and strings, and of arrays and objects if it holds of what is in
them, holds of all values that fit. -/
theorem fits_induction {motive : ∀ depth v, Fits depth v → Prop}
    (null : ∀ depth h, motive depth .null h) (bool : ∀ depth b h, motive depth (.bool b) h)
    (integer : ∀ depth n h, motive depth (.integer n) h)
    (real : ∀ depth x h, motive depth (.real x) h)
    (string : ∀ depth s h, motive depth (.string s) h)
    (array : ∀ depth items (h : ∀ v ∈ items, Fits depth v),
      (∀ v (hv : v ∈ items), motive depth v (h v hv)) →
      motive (depth + 1) (.array items) h)
    (object : ∀ depth members (h : (Members.keys members).Nodup ∧ ∀ m ∈ members, Fits depth m.2),
      (∀ m (hm : m ∈ members), motive depth m.2 (h.2 m hm)) →
        motive (depth + 1) (.object members) h)
    (depth : Nat) (v : Value) (h : Fits depth v) : motive depth v h := by
  induction depth generalizing v with
  | zero =>
    cases v with
    | null => exact null 0 h
    | bool b => exact bool 0 b h
    | integer n => exact integer 0 n h
    | real x => exact real 0 x h
    | string s => exact string 0 s h
    | array items => exact h.elim
    | object members => exact h.elim
  | succ depth ih =>
    cases v with
    | null => exact null _ h
    | bool b => exact bool _ b h
    | integer n => exact integer _ n h
    | real x => exact real _ x h
    | string s => exact string _ s h
    | array items => exact array depth items h fun v hv => ih v (h v hv)
    | object members => exact object depth members h fun m hm => ih m.2 (h.2 m hm)

/-- Members that fit stay so with a new value that fits. -/
theorem fits_object_set {depth : Nat} {members : Members} {v : Value}
    (h : (object members).Fits (depth + 1)) (hv : v.Fits depth) (key : Text) :
    (object (members.set key v)).Fits (depth + 1) := by
  refine ⟨Members.nodup_keys_set h.1, fun m hm => ?_⟩
  rcases Members.mem_set hm with rfl | hm
  · exact hv
  · exact h.2 m hm

theorem integral_object_set {members : Members} {v : Value} (h : (object members).Integral)
    (hv : v.Integral) (key : Text) : (object (members.set key v)).Integral := by
  rw [integral_object] at h ⊢
  intro m hm
  rcases Members.mem_set hm with rfl | hm
  · exact hv
  · exact h m hm

end Value

end SlideDeck.Record
