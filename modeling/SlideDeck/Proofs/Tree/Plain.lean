import Mathlib.Data.List.Induction
import Mathlib.Data.List.Nodup
import SlideDeck.Tree.Basic

/-!
# Plain trees

A tree is plain if it has directories and files only, each entry once and in a directory, and
nothing in it is kept from being removed. Putting a file or a directory where there is no directory
keeps a tree plain (`Plain.put`), and so does erasing an entry (`Plain.erase`, `Plain.eraseAll`).

A directory lists the names of the entries in it (`mem_children_iff`), in a plain tree each once
(`Plain.nodup_children`).
-/

namespace SlideDeck.Tree

variable {t : Tree} {l k : Location} {name : Text} {e : Entry}

/-- Directories and files, each in a directory, and none that cannot be removed. -/
structure Plain (t : Tree) : Prop where
  linkless : ∀ l target, t.get? l ≠ some (.link target)
  above : ∀ {l name}, (t.get? (l ++ [name])).isSome → t.get? l = some .directory
  once : (t.entries.map Prod.fst).Nodup
  idle : t.busy = false
  unlocked : t.locked = none

/-- Two trees hold the same entries, in whatever order they list them. -/
def Same (t u : Tree) : Prop := ∀ l, u.get? l = t.get? l

theorem Same.symm {t u : Tree} (h : t.Same u) : u.Same t := fun l => (h l).symm

theorem get?_root (t : Tree) : t.get? [] = some .directory := by
  rw [get?, if_pos List.nil_prefix]

theorem not_prefix_ground (h : t.get? l ≠ some .directory) :
    ¬ l <+: t.ground := fun hl => h (by rw [get?, if_pos hl])

theorem lookup_eq_of_ne (h : t.get? l ≠ some .directory) : t.entries.lookup l = t.get? l := by
  rw [get?, if_neg (not_prefix_ground h)]

/-- What is put where there is no directory is there, and all else stays. -/
theorem get?_put_of_ne (h : t.get? l ≠ some .directory) (e : Entry) (k : Location) :
    (t.put l e).get? k = if k = l then some e else t.get? k := by
  rw [get?_put]
  by_cases hk : k <+: t.ground
  · rw [if_pos hk, if_neg (by rintro rfl; exact not_prefix_ground h hk), get?, if_pos hk]
  · rw [if_neg hk]

theorem get?_put_file {f : File} (h : t.get? l = some (.file f)) (e : Entry) (k : Location) :
    (t.put l e).get? k = if k = l then some e else t.get? k :=
  get?_put_of_ne (by rw [h]; exact nofun) e k

theorem ne_directory_of_none (h : t.get? l = none) : t.get? l ≠ some .directory := by simp [h]

theorem ne_directory_of_file {f : File} (h : t.get? l = some (.file f)) :
    t.get? l ≠ some .directory := by simp [h]

theorem directory_ne_link (target : Text) : Entry.directory ≠ .link target := by simp

theorem file_ne_link (f : File) (target : Text) : Entry.file f ≠ .link target := by simp

theorem ne_nil_of_get?_ne (h : t.get? l ≠ some .directory) :
    l ≠ [] := fun hl => h (hl ▸ t.get?_root)

/-- Whether a tree is plain, as its entries tell. -/
def isPlain (t : Tree) : Bool :=
  (t.entries.all fun (l, e) =>
    (match e with
      | .link _ => false
      | _ => true) && t.get? l.dropLast == some .directory) &&
    decide (t.entries.map Prod.fst).Nodup && !t.busy && t.locked.isNone

theorem plain_of_isPlain (h : t.isPlain = true) : t.Plain := by
  simp only [isPlain, Bool.and_eq_true, List.all_eq_true, decide_eq_true_eq, Bool.not_eq_true',
    Option.isNone_iff_eq_none] at h
  obtain ⟨⟨⟨hentries, honce⟩, hidle⟩, hunlocked⟩ := h
  have hmem {l : Location} {e : Entry} (hne : e ≠ .directory) (he : t.get? l = some e) :
      (l, e) ∈ t.entries := by
    rw [← lookup_eq_of_ne (by rw [he]; simpa using hne)] at he
    obtain ⟨before, after, heq, -⟩ := List.lookup_eq_some_iff.1 he
    rw [heq]
    simp
  refine ⟨fun l target hl => ?_, fun {l name} hl => ?_, honce, hidle, hunlocked⟩
  · exact absurd (hentries _ (hmem (by simp) hl)).1 (by simp)
  · by_cases hground : l ++ [name] <+: t.ground
    · rw [get?, if_pos ((List.prefix_append l [name]).trans hground)]
    · rw [get?, if_neg hground] at hl
      obtain ⟨e, he⟩ := Option.isSome_iff_exists.1 hl
      obtain ⟨before, after, heq, -⟩ := List.lookup_eq_some_iff.1 he
      have := (hentries (l ++ [name], e) (by rw [heq]; simp)).2
      rwa [List.dropLast_concat, beq_iff_eq] at this

/-! ## Keeping trees plain -/

theorem nodup_keys_put (h : (t.entries.map Prod.fst).Nodup) (l : Location) (e : Entry) :
    ((t.put l e).entries.map Prod.fst).Nodup := by
  rw [put, List.map_cons, List.nodup_cons]
  refine ⟨fun hl => ?_, h.sublist (List.filter_sublist.map _)⟩
  obtain ⟨x, hx, hxl⟩ := List.mem_map.1 hl
  simpa [hxl] using (List.mem_filter.1 hx).2

namespace Plain

theorem parent (h : t.Plain) (hl : l ≠ []) (he : (t.get? l).isSome) :
    t.get? l.dropLast = some .directory := by
  rw [← List.dropLast_concat_getLast hl] at he
  exact h.above he

theorem put (h : t.Plain) (hl : t.get? l ≠ some .directory)
    (hp : t.get? l.dropLast = some .directory) (he : ∀ target, e ≠ .link target) :
    (t.put l e).Plain where
  linkless k target := by
    rw [get?_put_of_ne hl]
    split
    · exact fun hk => he target (Option.some.inj hk)
    · exact h.linkless k target
  above {k name} hk := by
    have hkl (hd : t.get? k = some .directory) : (t.put l e).get? k = some .directory := by
      rw [get?_put_of_ne hl, if_neg (by rintro rfl; exact hl hd), hd]
    rw [get?_put_of_ne hl] at hk
    split at hk
    · next heq => exact hkl (by rw [← hp, ← heq, List.dropLast_concat])
    · exact hkl (h.above hk)
  once := nodup_keys_put h.once l e
  idle := h.idle
  unlocked := h.unlocked

/-- A file may be written anew. -/
theorem put_file (h : t.Plain) {f : File} (hl : t.get? l = some (.file f)) (g : File) :
    (t.put l (.file g)).Plain := by
  have hne : t.get? l ≠ some .directory := by
    rw [hl]
    exact nofun
  exact h.put hne (h.parent (ne_nil_of_get?_ne hne) (by rw [hl]; rfl)) (fun _ => nofun)

theorem erase (h : t.Plain) (hl : l ≠ []) : (t.erase l).Plain where
  linkless k target := by
    rw [get?_erase t hl]
    split
    · exact fun hk => nomatch hk
    · exact h.linkless k target
  above {k name} hk := by
    rw [get?_erase t hl] at hk ⊢
    split at hk
    · cases hk
    · next hlk =>
        rw [if_neg (fun hlk' => hlk (hlk'.trans (List.prefix_append k [name]))), h.above hk]
  once := h.once.sublist (List.filter_sublist.map _)
  idle := h.idle
  unlocked := h.unlocked

/-- All that an entry stands in is a directory. -/
theorem directory_of_prefix (h : t.Plain) (he : (t.get? l).isSome) (hk : k <+: l) (hne : k ≠ l) :
    t.get? k = some .directory := by
  obtain ⟨rest, rfl⟩ := hk
  induction rest using List.reverseRecOn with
  | nil => exact absurd (List.append_nil k).symm hne
  | append_singleton rest name ih =>
    rw [← List.append_assoc] at he
    have hd := h.above he
    by_cases hr : rest = []
    · rwa [hr, List.append_nil] at hd
    · exact ih (by rw [hd]; rfl) (by simpa using hr)

/-- Nothing is below a free location. -/
theorem get?_of_prefix_none (h : t.Plain) (hk : t.get? k = none) (hl : k <+: l) :
    t.get? l = none := by
  cases hget : t.get? l with
  | none => rfl
  | some e =>
    by_cases heq : k = l
    · rw [← heq, hk] at hget
      cases hget
    · rw [h.directory_of_prefix (by rw [hget]; rfl) hl heq] at hk
      cases hk

/-- Nothing is in a file. -/
theorem eq_of_file_prefix (h : t.Plain) {f : File} (hk : t.get? k = some (.file f))
    (hl : (t.get? l).isSome) (hp : k <+: l) : k = l := by
  by_contra hne
  have := h.directory_of_prefix hl hp hne
  rw [hk] at this
  cases this

end Plain

/-! ## Erasing several entries -/

/-- The tree without what is at some locations and below them. -/
def eraseAll (t : Tree) (ls : List Location) : Tree := ls.foldl erase t

theorem get?_eraseAll {ls : List Location} (hls : [] ∉ ls) (k : Location) :
    (t.eraseAll ls).get? k = if ∃ l ∈ ls, l <+: k then none else t.get? k := by
  induction ls generalizing t with
  | nil => simp [eraseAll]
  | cons l ls ih =>
    simp only [List.mem_cons, not_or] at hls
    rw [eraseAll, List.foldl_cons]
    show ((t.erase l).eraseAll ls).get? k = _
    rw [ih hls.2, get?_erase t (fun hl => hls.1 hl.symm)]
    by_cases hk : ∃ m ∈ ls, m <+: k <;> by_cases hl : l <+: k <;> simp [hk, hl]

/-- Files go alone. -/
theorem Plain.get?_eraseAll (h : t.Plain) {ls : List Location}
    (hls : ∀ l ∈ ls, ∃ f, t.get? l = some (.file f)) (k : Location) :
    (t.eraseAll ls).get? k = if k ∈ ls then none else t.get? k := by
  have hroot : [] ∉ ls := fun hr => by
    obtain ⟨f, hf⟩ := hls _ hr
    rw [get?_root] at hf
    cases hf
  rw [Tree.get?_eraseAll hroot]
  split
  · next hk =>
    obtain ⟨l, hl, hlk⟩ := hk
    obtain ⟨f, hf⟩ := hls l hl
    cases he : t.get? k with
    | none => simp
    | some e => rw [if_pos (h.eq_of_file_prefix hf (by rw [he]; rfl) hlk ▸ hl)]
  · next hk => rw [if_neg (fun hl => hk ⟨k, hl, List.prefix_refl k⟩)]

theorem Plain.get?_erase (h : t.Plain) {f : File} (hl : t.get? l = some (.file f)) (k : Location) :
    (t.erase l).get? k = if k = l then none else t.get? k := by
  have := h.get?_eraseAll (show ∀ m ∈ [l], ∃ f, t.get? m = some (.file f) by simp [hl]) k
  simpa [eraseAll] using this

theorem Plain.eraseAll (h : t.Plain) {ls : List Location} (hls : [] ∉ ls) :
    (t.eraseAll ls).Plain := by
  induction ls generalizing t with
  | nil => exact h
  | cons l ls ih =>
    simp only [List.mem_cons, not_or] at hls
    exact ih (h.erase (fun hl => hls.1 hl.symm)) hls.2

theorem base_eraseAll (ls : List Location) : (t.eraseAll ls).base = t.base := by
  induction ls generalizing t with
  | nil => rfl
  | cons l ls ih => exact ih

/-! ## Listing a directory -/

/-- The names in a directory that have entries of their own. -/
theorem map_filterMap_children (entries : List (Location × Entry)) (l ground : Location) :
    (entries.filterMap fun (k, _) => if k ≠ [] ∧ k.dropLast = l ∧ ¬ k <+: ground then k.getLast?
      else none).map
        (fun name => l ++ [name]) =
      (entries.map Prod.fst).filter fun k => k ≠ [] ∧ k.dropLast = l ∧ ¬ k <+: ground := by
  induction entries with
  | nil => rfl
  | cons x xs ih =>
    obtain ⟨k, e⟩ := x
    by_cases hk : k ≠ [] ∧ k.dropLast = l ∧ ¬ k <+: ground
    · have hlast : k.getLast? = some (k.getLast hk.1) := List.getLast?_eq_some_getLast hk.1
      have hcut : l ++ [k.getLast hk.1] = k := by
        obtain ⟨hne, rfl, -⟩ := hk
        exact List.dropLast_concat_getLast hne
      rw [List.filterMap_cons_some (b := k.getLast hk.1) (by simp only [if_pos hk, hlast]),
        List.map_cons, hcut,
        ih, List.map_cons, List.filter_cons_of_pos (by simpa using hk)]
    · rw [List.filterMap_cons_none (by simp only [if_neg hk]), ih, List.map_cons,
        List.filter_cons_of_neg (by simpa using hk)]

theorem mem_filterMap_children_iff {entries : List (Location × Entry)} {ground : Location} :
    (name ∈ entries.filterMap fun (k, _) =>
        if k ≠ [] ∧ k.dropLast = l ∧ ¬ k <+: ground then k.getLast? else none) ↔
      l ++ [name] ∈ entries.map Prod.fst ∧ ¬ l ++ [name] <+: ground := by
  rw [← List.mem_map_of_injective (f := fun name => l ++ [name])
    (fun a b hab => by simpa using hab), map_filterMap_children, List.mem_filter]
  simp

theorem mem_towardGround_iff {ground : Location} :
    name ∈ (if l <+: ground then (ground.drop l.length).take 1 else []) ↔
      l ++ [name] <+: ground := by
  constructor
  · intro h
    split at h
    · next hl =>
      obtain ⟨rest, rfl⟩ := hl
      rw [List.drop_left] at h
      obtain ⟨more, hrest⟩ := List.take_prefix 1 rest
      cases rest with
      | nil => cases h
      | cons first rest =>
        obtain rfl : name = first := by simpa using h
        exact ⟨rest, by rw [List.append_assoc]; rfl⟩
    · cases h
  · rintro ⟨rest, rfl⟩
    rw [if_pos ⟨name :: rest, by rw [List.append_assoc]; rfl⟩, List.append_assoc, List.drop_left]
    exact List.mem_singleton_self name

/-- A directory lists what is in it. -/
theorem mem_children_iff : name ∈ t.children l ↔ (t.get? (l ++ [name])).isSome := by
  rw [children, List.mem_append, mem_towardGround_iff, mem_filterMap_children_iff, get?]
  by_cases hground : l ++ [name] <+: t.ground
  · simp [hground]
  · rw [if_neg hground]
    simp only [hground, not_false_eq_true, and_true, false_or]
    cases hlook : t.entries.lookup (l ++ [name]) with
    | none =>
      rw [List.lookup_eq_none_iff] at hlook
      simp only [Option.isSome_none, Bool.false_eq_true, iff_false, List.mem_map, not_exists,
        not_and]
      intro x hx heq
      simpa [heq] using hlook x hx
    | some e =>
      obtain ⟨before, after, hentries, -⟩ := List.lookup_eq_some_iff.1 hlook
      simp [hentries]

theorem Plain.nodup_children (h : t.Plain) (l : Location) : (t.children l).Nodup := by
  rw [children]
  refine List.Nodup.append ?_ ?_ fun name htoward hown => ?_
  · split
    · cases t.ground.drop l.length with
      | nil => exact List.nodup_nil
      | cons first rest => exact List.nodup_singleton first
    · exact List.nodup_nil
  · -- These are at locations at which the tree has entries, each once.
    exact List.Nodup.of_map _ (map_filterMap_children t.entries l t.ground ▸ h.once.filter _)
  · exact (mem_filterMap_children_iff.1 hown).2 (mem_towardGround_iff.1 htoward)

end SlideDeck.Tree
