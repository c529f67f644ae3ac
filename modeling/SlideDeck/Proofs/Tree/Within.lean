import SlideDeck.Proofs.Tree.Opening

/-!
# Changes inside of a directory

A tree that differs from another one only in what is inside of the directory at `r` (`Within`) stays
so, whatever is put, erased or moved there (`Within.put`, `Within.erase`, `Within.relocate`). A path
that leads through nothing but directories that were there already and places inside of `r` is
`Anchored`: whatever is made of it is inside of `r` (`Within.makeDirectory`).

When the directory at `r` was made anew and is erased with all that is in it, nothing of this is
left (`Within.erase_root`).
-/

namespace SlideDeck

/-- A location is below another one. -/
def Location.Inside (r m : Location) : Prop := r <+: m ∧ r ≠ m

namespace Location

variable {r l k m : Location}

theorem Inside.below (h : r.Inside l) (hm : l <+: m) : r.Inside m := by
  refine ⟨h.1.trans hm, ?_⟩
  rintro rfl
  exact h.2 (h.1.eq_of_length_le hm.length_le)

theorem Inside.ne_nil (h : r.Inside l) : l ≠ [] := by
  rintro rfl
  exact h.2 (List.prefix_nil.1 h.1)

theorem inside_append (r : Location) {names : List Text} (h : names ≠ []) : r.Inside (r ++ names) :=
  ⟨List.prefix_append r names, by simpa using h⟩

theorem Inside.append (h : r.Inside l) (names : List Text) : r.Inside (l ++ names) :=
  h.below (List.prefix_append l names)

end Location

namespace Tree

variable {t u v : Tree} {r l k m : Location} {p : Path} {e : Entry} {follow : Bool}

/-! ## Moving what is at a location -/

/-- What is neither moved nor where something is moved to stays. -/
theorem lookup_moved_of_away (hl : ¬l <+: m) (hk : ¬k <+: m) (entries : List (Location × Entry)) :
    (entries.map fun (y, e) => (Location.moved l k y, e)).lookup m = entries.lookup m := by
  induction entries with
  | nil => rfl
  | cons x entries ih =>
    obtain ⟨y, e⟩ := x
    rw [List.map_cons, lookup_entry_cons, lookup_entry_cons, ih, Location.moved]
    by_cases hy : l <+: y
    · rw [if_pos hy, if_neg (by rintro rfl; exact hk (List.prefix_append ..)),
        if_neg (by rintro rfl; exact hl hy)]
    · rw [if_neg hy]

theorem get?_relocate_of_away (t : Tree) (hl : ¬l <+: m) (hk : ¬k <+: m) :
    (t.relocate l k).get? m = t.get? m := by
  rw [get?, get?, ← lookup_moved_of_away hl hk t.entries]
  rfl

/-- What is moved from a place below a location to another one there makes no difference to what is
elsewhere. -/
theorem filter_moved (hl : r <+: l) (hk : r <+: k) (entries : List (Location × Entry)) :
    (entries.map fun (y, e) => (Location.moved l k y, e)).filter (¬r <+: ·.1) =
      entries.filter (¬r <+: ·.1) := by
  induction entries with
  | nil => rfl
  | cons x entries ih =>
    obtain ⟨y, e⟩ := x
    by_cases hy : r <+: y
    · have hmoved : r <+: Location.moved l k y := by
        rw [Location.moved]
        split
        · exact hk.trans (List.prefix_append ..)
        · exact hy
      rw [List.map_cons, List.filter_cons_of_neg (by simpa using hmoved),
        List.filter_cons_of_neg (by simpa using hy), ih]
    · have hstays : Location.moved l k y = y := if_neg fun hly => hy (hl.trans hly)
      rw [List.map_cons]
      dsimp only
      rw [hstays, List.filter_cons_of_pos (by simpa using hy),
        List.filter_cons_of_pos (by simpa using hy), ih]

/-- What is left out below a location makes no difference to what is elsewhere. -/
theorem filter_filter_of_imp {entries : List (Location × Entry)} {P : Location × Entry → Bool}
    (hP : ∀ x, ¬r <+: x.1 → P x = true) :
    (entries.filter P).filter (¬r <+: ·.1) = entries.filter (¬r <+: ·.1) := by
  rw [List.filter_filter]
  refine List.filter_congr fun x _ => ?_
  by_cases hx : r <+: x.1
  · simp [hx]
  · simp [hx, hP x hx]

/-! ## Changes inside of a directory -/

/-- The tree `u` is `t` but for what is inside of `r`. -/
structure Within (r : Location) (t u : Tree) : Prop where
  base : u.base = t.base
  idle : u.busy = false
  away : ¬r <+: u.ground
  linkless : ∀ x ∈ u.entries, ¬x.1 <+: u.ground → ∀ target, x.2 ≠ .link target
  outside : ∀ m, ¬r.Inside m → u.get? m = t.get? m
  ground : u.ground = t.ground
  locked : u.locked = t.locked
  rest : u.entries.filter (¬r <+: ·.1) = t.entries.filter (¬r <+: ·.1)

theorem Plain.get?_of_mem (h : t.Plain) {x : Location × Entry} (hx : x ∈ t.entries)
    (hground : ¬x.1 <+: t.ground) :
    t.get? x.1 = some x.2 := by
  rw [get?, if_neg hground]
  obtain ⟨before, after, heq⟩ := List.append_of_mem hx
  have honce := h.once
  rw [heq, List.map_append, List.map_cons] at honce
  rw [heq]
  refine List.lookup_eq_some_iff.2 ⟨before, after, rfl, fun y hy => ?_⟩
  have hne : y.1 ≠ x.1 := fun hyx =>
    (List.nodup_append.1 honce).2.2 _ (List.mem_map_of_mem hy) _ (List.mem_cons_self ..) hyx
  simpa using Ne.symm hne

namespace Within

theorem refl (h : t.Plain) (hr : ¬r <+: t.ground) : Within r t t := by
  refine ⟨rfl, h.idle, hr, fun x hx hground target htarget => ?_, fun _ _ => rfl, rfl, rfl, rfl⟩
  exact h.linkless x.1 target (by rw [h.get?_of_mem hx hground, htarget])

theorem get?_linkless (h : Within r t u) : u.Linkless := by
  intro l target hl
  by_cases hground : l <+: u.ground
  · rw [get?, if_pos hground] at hl
    cases hl
  · rw [get?, if_neg hground] at hl
    obtain ⟨before, after, heq, -⟩ := List.lookup_eq_some_iff.1 hl
    exact h.linkless (l, .link target) (by rw [heq]; simp) hground target rfl

theorem put (h : Within r t u) (hk : r.Inside k) (he : ∀ target, e ≠ .link target) :
    Within r t (u.put k e) := by
  refine ⟨h.base, h.idle, h.away, fun x hx hground => ?_, fun m hm => ?_, h.ground, h.locked, ?_⟩
  · rcases List.mem_cons.1 hx with rfl | hx
    · exact he
    · exact h.linkless x (List.mem_of_mem_filter hx) hground
  · rw [← h.outside m hm, get?_put]
    split
    · next hground => rw [get?, if_pos hground]
    · rw [if_neg (by rintro rfl; exact hm hk)]
  · rw [← h.rest, Tree.put, List.filter_cons_of_neg (by simpa using hk.1)]
    exact filter_filter_of_imp fun x hx => by simpa using fun heq : x.1 = k => hx (heq ▸ hk.1)

theorem erase (h : Within r t u) (hk : r.Inside k) : Within r t (u.erase k) := by
  have hground : (u.erase k).ground = u.ground := if_neg fun hkg => h.away (hk.1.trans hkg)
  refine ⟨h.base, h.idle, by rw [hground]; exact h.away, fun x hx hxg => ?_, fun m hm => ?_,
    hground.trans h.ground, h.locked, ?_⟩
  · exact h.linkless x (List.mem_of_mem_filter hx) (by rwa [hground] at hxg)
  · rw [← h.outside m hm, get?_erase u hk.ne_nil, if_neg fun hkm => hm (hk.below hkm)]
  · rw [← h.rest]
    exact filter_filter_of_imp fun x hx => by simpa using fun hkx : k <+: x.1 => hx (hk.1.trans hkx)

theorem relocate (h : Within r t u) (hl : r.Inside l) (hk : r.Inside k) :
    Within r t (u.relocate l k) := by
  refine ⟨h.base, h.idle, h.away, fun x hx hground => ?_, fun m hm => ?_, h.ground, h.locked, ?_⟩
  · obtain ⟨⟨y, e⟩, hy, rfl⟩ := List.mem_map.1 hx
    refine h.linkless (y, e) hy fun hyg => ?_
    by_cases hly : l <+: y
    · exact h.away ((hl.1.trans hly).trans hyg)
    · have hstays : Location.moved l k y = y := if_neg hly
      exact hground (show Location.moved l k y <+: u.ground by rwa [hstays])
  · rw [← h.outside m hm]
    exact get?_relocate_of_away u (fun hlm => hm (hl.below hlm)) fun hkm => hm (hk.below hkm)
  · rw [← h.rest]
    exact filter_moved hl.1 hk.1 u.entries

/-- Entries may be put below a place inside of the directory. -/
theorem foldl_put (h : Within r t u) (hk : r.Inside k) {rows : List (Location × Entry)}
    (hrows : ∀ row ∈ rows, ∀ target, row.2 ≠ .link target) :
    Within r t (rows.foldl (fun t (rest, e) => t.put (k ++ rest) e) u) := by
  induction rows generalizing u with
  | nil => exact h
  | cons row rows ih =>
    obtain ⟨hrow, hrows⟩ := List.forall_mem_cons.1 hrows
    exact ih (h.put (hk.append row.1) hrow) hrows

/-- Nothing below a place inside of the directory is a link. -/
theorem ne_link_of_mem_below (h : Within r t u) (hl : r.Inside l) :
    ∀ row ∈ u.below l, ∀ target, row.2 ≠ .link target := by
  intro row hrow
  obtain ⟨⟨x, e⟩, hx, heq⟩ := List.mem_filterMap.1 hrow
  by_cases hlx : l <+: x ∧ l ≠ x
  · obtain rfl := Option.some.inj ((if_pos hlx).symm.trans heq)
    exact h.linkless (x, e) hx fun hxg => h.away ((hl.1.trans hlx.1).trans hxg)
  · have hnone := (if_neg hlx).symm.trans heq
    cases hnone

theorem location_eq (h : Within r t u) {place : Place} (hp : u.locate follow p = .ok place) :
    place.location = t.location p := by
  rw [← location_congr h.base, Linkless.locate_location h.get?_linkless hp]

/-- If the directory was made anew and is erased with all that is in it, the tree is the one of
before. -/
theorem erase_root (h : Within r (t.put r .directory) u) (ht : t.Plain) (hnone : t.get? r = none) :
    u.erase r = t := by
  have hentries : (u.erase r).entries = t.entries := by
    show u.entries.filter (¬r <+: ·.1) = _
    rw [h.rest, Tree.put, List.filter_cons_of_neg (by simp), List.filter_filter]
    refine List.filter_eq_self.2 fun x hx => ?_
    have hr : ¬r <+: x.1 := fun hr => by
      have hsome :=
        ht.get?_of_mem hx fun hground => not_prefix_ground (ne_directory_of_none hnone)
          (hr.trans hground)
      rw [ht.get?_of_prefix_none hnone hr] at hsome
      cases hsome
    have hne : x.1 ≠ r := fun heq => hr (heq ▸ List.prefix_refl _)
    simp [hr, hne]
  have hground : (u.erase r).ground = t.ground := (if_neg h.away).trans h.ground
  have hidle : u.busy = t.busy := h.idle.trans ht.idle.symm
  show Tree.mk u.base (u.erase r).entries (u.erase r).ground u.busy u.locked = t
  rw [h.base, hentries, hground, hidle, h.locked]
  rfl

end Within

/-! ## Paths that lead into a directory -/

/-- All that a path leads through is a directory of `t` or inside of `r`. -/
def Anchored (r : Location) (t : Tree) (p : Path) : Prop :=
  ∀ n, t.get? (t.location (p.upTo n)) = some .directory ∨ r.Inside (t.location (p.upTo n))

theorem Anchored.upTo (h : Anchored r t p) (n : Nat) : Anchored r t (p.upTo n) := by
  intro m
  have hparts : (p.upTo n).upTo m = p.upTo (min m n) := by
    rw [Path.upTo, Path.upTo, Path.upTo, List.take_take]
  rw [hparts]
  exact h _

namespace Within

/-- Where there was no directory, a new one is inside. -/
theorem inside_of_absent (h : Within r t u)
    (hp : t.get? (t.location p) = some .directory ∨ r.Inside (t.location p))
    (hk : u.locate follow p = .ok (.absent k)) :
    r.Inside k := by
  have hlocation : k = t.location p := h.location_eq hk
  have hnone := Linkless.get?_of_absent h.get?_linkless hk
  by_contra hin
  rw [← hlocation] at hp
  rw [h.outside k hin, hp.resolve_right hin] at hnone
  cases hnone

theorem makeDirectory (h : Within r t u) {n : Nat} (hp : Anchored r t p)
    (hmake : u.makeDirectory (p.upTo n) = .ok v) :
    Within r t v := by
  obtain ⟨k, hk, rfl⟩ := makeDirectory_eq_ok hmake
  exact h.put (h.inside_of_absent (hp n) hk) directory_ne_link

theorem modifyFile (h : Within r t u) {g : List UInt8 → List UInt8}
    (hp : t.get? (t.location p) = some .directory ∨ r.Inside (t.location p))
    (hmodify : u.modifyFile p g = .ok v) :
    Within r t v := by
  unfold Tree.modifyFile at hmodify
  split at hmodify
  · next k hk =>
    cases hmodify
    exact h.put (h.inside_of_absent hp hk) (file_ne_link _)
  · next k old hk =>
    cases hmodify
    have hlocation : k = t.location p := h.location_eq hk
    have hget := Linkless.get?_of_locate h.get?_linkless hk
    rw [← hlocation] at hp
    refine h.put ?_ (file_ne_link _)
    by_contra hin
    rw [h.outside k hin, hp.resolve_right hin] at hget
    cases hget
  · cases hmodify
  · cases hmodify

end Within

end Tree

end SlideDeck
