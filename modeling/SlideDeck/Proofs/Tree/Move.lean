import SlideDeck.Proofs.Tree.Normal
import SlideDeck.Proofs.Tree.Within

/-!
# Moving entries

An entry that is moved to a free location takes all that is in it along, and nothing else changes
(`Plain.get?_relocate`, `TreeAction.move_of_absent`). The tree stays plain if the entry does not go
into itself (`Home.relocate`). If the new path is too long, nothing changes at all
(`TreeAction.move_of_not_fits`).

An entry inside of a directory that is moved to a place inside of that directory stays inside of it,
and so does everything else that happens on the way, whatever is there already: whether the entry is
moved in one step, copied and removed, or stays where it is after a failure
(`TreeAction.move_preserves`).
-/

namespace SlideDeck

open SlideDeck.Action (Preserves)

variable {t u : Tree} {r l k m : Location} {p source target : Path} {e : Entry}

namespace Tree

/-! ## Moving in one step -/

/-- What was at the source is at the target. -/
theorem lookup_moved_target {x : Location} {entries : List (Location × Entry)}
    (hk : entries.lookup (k ++ x) = none) :
    (entries.map fun (y, e) => (Location.moved l k y, e)).lookup (k ++ x) =
      entries.lookup (l ++ x) := by
  induction entries with
  | nil => rfl
  | cons row entries ih =>
    obtain ⟨y, e⟩ := row
    rw [lookup_entry_cons] at hk
    split at hk
    · cases hk
    · next hne =>
      rw [List.map_cons, lookup_entry_cons, lookup_entry_cons, ih hk]
      by_cases hy : l <+: y
      · obtain ⟨z, rfl⟩ := hy
        rw [Location.moved, if_pos (List.prefix_append l z), List.drop_left]
        simp only [List.append_cancel_left_eq]
      · rw [Location.moved, if_neg hy, if_neg hne,
          if_neg (by rintro rfl; exact hy (List.prefix_append ..))]

/-- Nothing is left at the source. -/
theorem lookup_moved_source (hl : l <+: m) (hk : ¬k <+: m) (entries : List (Location × Entry)) :
    (entries.map fun (y, e) => (Location.moved l k y, e)).lookup m = none := by
  induction entries with
  | nil => rfl
  | cons row entries ih =>
    obtain ⟨y, e⟩ := row
    rw [List.map_cons, lookup_entry_cons, ih, if_neg]
    rintro rfl
    by_cases hy : l <+: y
    · rw [Location.moved, if_pos hy] at hk
      exact hk (List.prefix_append ..)
    · rw [Location.moved, if_neg hy] at hl
      exact hy hl

/-- What is not below the target stays apart when it is moved. -/
theorem eq_of_moved_eq {x y : Location} (hx : ¬k <+: x) (hy : ¬k <+: y)
    (heq : Location.moved l k x = Location.moved l k y) : x = y := by
  unfold Location.moved at heq
  split at heq <;> split at heq
  · next hlx hly =>
    obtain ⟨x', rfl⟩ := hlx
    obtain ⟨y', rfl⟩ := hly
    rw [List.drop_left, List.drop_left] at heq
    rw [List.append_cancel_left heq]
  · exact absurd (heq ▸ List.prefix_append k _) hy
  · exact absurd (heq ▸ List.prefix_append k _) hx
  · exact heq

namespace Plain

variable (h : t.Plain)

include h

omit h in
theorem lookup_of_get?_none (hm : t.get? m = none) : t.entries.lookup m = none := by
  rw [lookup_eq_of_ne (ne_directory_of_none hm), hm]

theorem get?_relocate (hk : t.get? k = none) (hl : ¬l <+: t.ground) (m : Location) :
    (t.relocate l k).get? m =
      if k <+: m then t.get? (l ++ m.drop k.length) else if l <+: m then none else t.get? m := by
  by_cases hkm : k <+: m
  · obtain ⟨x, rfl⟩ := hkm
    have hnone := h.get?_of_prefix_none hk (List.prefix_append k x)
    have hground : ¬k ++ x <+: t.ground := not_prefix_ground (ne_directory_of_none hnone)
    have hground' : ¬l ++ x <+: t.ground := fun hlx => hl ((List.prefix_append l x).trans hlx)
    rw [if_pos (List.prefix_append k x), List.drop_left, get?, get?, if_neg hground', ←
      lookup_moved_target (lookup_of_get?_none hnone)]
    exact if_neg hground
  · rw [if_neg hkm]
    split
    · next hlm =>
      have hground : ¬m <+: t.ground := fun hm => hl (hlm.trans hm)
      exact (if_neg hground).trans (lookup_moved_source hlm hkm t.entries)
    · next hlm => exact get?_relocate_of_away t hlm hkm

/-- There are no entries at a free place or below it. -/
theorem not_prefix_of_mem (hk : t.get? k = none) (hm : m ∈ t.entries.map Prod.fst) : ¬k <+: m := by
  intro hkm
  obtain ⟨row, hrow, rfl⟩ := List.mem_map.1 hm
  have hnone := lookup_of_get?_none (h.get?_of_prefix_none hk hkm)
  exact absurd (List.lookup_eq_none_iff.1 hnone row hrow) (by simp)

/-- A tree stays plain if what is moved does not go into itself. -/
theorem relocate (hk : t.get? k = none) (hp : t.get? k.dropLast = some .directory)
    (hl : ¬l <+: t.ground) (hlk : ¬l <+: k) : (t.relocate l k).Plain where
  linkless m target := by
    rw [h.get?_relocate hk hl]
    split
    · exact h.linkless _ _
    · split
      · exact nofun
      · exact h.linkless _ _
  above {m name} hm := by
    rw [h.get?_relocate hk hl] at hm ⊢
    by_cases hkm : k <+: m
    · obtain ⟨x, rfl⟩ := hkm
      rw [if_pos ((List.prefix_append ..).trans (List.prefix_append ..)), List.append_assoc,
        List.drop_left, ← List.append_assoc] at hm
      rw [if_pos (List.prefix_append ..), List.drop_left]
      exact h.above hm
    · rw [if_neg hkm]
      by_cases hnew : k = m ++ [name]
      · -- The target itself is in a directory that stays.
        subst hnew
        rw [List.dropLast_concat] at hp
        rw [if_neg fun hlm => hlk (hlm.trans (List.prefix_append ..)), hp]
      · have hkn : ¬k <+: m ++ [name] := fun hpre => (List.prefix_concat_iff.1 hpre).elim hnew hkm
        rw [if_neg hkn] at hm
        split at hm
        · cases hm
        · next hlm =>
          rw [if_neg fun hpre => hlm (hpre.trans (List.prefix_append ..))]
          exact h.above hm
  once := by
    have hmap : (t.relocate l k).entries.map Prod.fst =
        (t.entries.map Prod.fst).map (Location.moved l k) := by
      rw [Tree.relocate, List.map_map, List.map_map]
      rfl
    rw [hmap]
    exact h.once.map_on fun x hx y hy heq => eq_of_moved_eq (h.not_prefix_of_mem hk hx)
      (h.not_prefix_of_mem hk hy) heq
  idle := h.idle
  unlocked := h.unlocked

end Plain

theorem Home.relocate (h : t.Home) (hk : t.get? k = none) (hp : t.get? k.dropLast = some .directory)
    (hl : ¬l <+: t.ground) (hbase : ¬l <+: t.base) (hlk : ¬l <+: k) : (t.relocate l k).Home where
  toPlain := h.toPlain.relocate hk hp hl hlk
  home := by
    show (t.relocate l k).get? t.base = _
    rw [h.toPlain.get?_relocate hk hl, if_neg, if_neg hbase, h.home]
    intro hkb
    have := h.toPlain.get?_of_prefix_none hk hkb
    rw [h.home] at this
    cases this

/-! ## Moving inside of a directory -/

/-- A path that goes on downwards inside of the directory is anchored if it is anchored as far as
that. -/
theorem Anchored.append (h : Anchored r t p) (hin : r <+: t.location p) {names : List Text}
    (hup : Path.up ∉ names) :
    Anchored r t (p.append ⟨[], names⟩) := by
  intro n
  by_cases hn : n ≤ p.parts.length
  · have hparts : (p.append ⟨[], names⟩).upTo n = p.upTo n := by
      show Path.mk p.root ((p.parts ++ names).take n) = _
      rw [List.take_append_of_le_length hn]
      rfl
    rw [hparts]
    exact h n
  · have hparts :
        (p.append ⟨[], names⟩).upTo n = p.append ⟨[], names.take (n - p.parts.length)⟩ := by
      show Path.mk p.root ((p.parts ++ names).take n) =
          Path.mk p.root (p.parts ++ names.take (n - p.parts.length))
      rw [List.take_append, List.take_of_length_le (by omega)]
    rw [hparts, location_append fun hmem => hup (List.mem_of_mem_take hmem)]
    by_cases hnone : names.take (n - p.parts.length) = []
    · have := h p.parts.length
      rwa [p.upTo_length, ← List.append_nil (t.location p), ← hnone] at this
    · refine .inr ⟨hin.trans (List.prefix_append ..), fun heq => hnone ?_⟩
      have := congrArg List.length heq
      rw [List.length_append] at this
      have := hin.length_le
      exact List.length_eq_zero_iff.1 (by omega)

namespace Within

variable (h : Within r t u)

include h

/-- What is found at the end of a path. -/
theorem entryAt_location {follow : Bool} (hp : u.entryAt follow p = .ok (l, e)) :
    l = t.location p := by
  unfold Tree.entryAt at hp
  split at hp
  · next k e' hk =>
    cases hp
    exact h.location_eq hk
  · cases hp
  · cases hp

theorem rename {v : Tree} (hsource : r.Inside (t.location source))
    (htarget : r.Inside (t.location target)) (hrename : u.rename? source target = some v) :
    Within r t v := by
  unfold Tree.rename? at hrename
  split at hrename
  · cases hrename
  · split at hrename
    · next l e k hl hk =>
      have hlin : l = t.location source := h.location_eq hl
      have hkin : k = t.location target := h.location_eq hk
      split at hrename
      · cases hrename
      · cases hrename
        exact h.relocate (hlin ▸ hsource) (hkin ▸ htarget)
    · next l e k old hl hk =>
      have hlin : l = t.location source := h.location_eq hl
      have hkin : k = t.location target := h.location_eq hk
      split at hrename
      · cases hrename
        exact h
      · split at hrename
        · cases hrename
        · cases hrename
          exact (h.erase (hkin ▸ htarget)).relocate (hlin ▸ hsource) (hkin ▸ htarget)
    · cases hrename

theorem unlink {v : Tree} (hp : r.Inside (t.location p)) (hunlink : u.unlink p = .ok v) :
    Within r t v := by
  unfold Tree.unlink at hunlink
  dsimp only at hunlink
  split at hunlink
  · cases hunlink
  obtain ⟨⟨l, e⟩, hl, hunlink⟩ := Outcome.bind_eq_ok.1 hunlink
  have hlin : l = t.location p := h.entryAt_location hl
  cases e with
  | directory => cases hunlink
  | link target =>
    cases hunlink
    exact h.erase (hlin ▸ hp)
  | file f =>
    cases hunlink
    exact h.erase (hlin ▸ hp)

theorem removeAll {v : Tree} (hp : r.Inside (t.location p)) (hremove : u.removeAll p = .ok v) :
    Within r t v := by
  unfold Tree.removeAll at hremove
  dsimp only at hremove
  split at hremove
  · cases hremove
  obtain ⟨⟨l, e⟩, hl, hremove⟩ := Outcome.bind_eq_ok.1 hremove
  have hlin : l = t.location p := h.entryAt_location hl
  cases e with
  | directory =>
    cases hremove
    exact h.erase (hlin ▸ hp)
  | link target => cases hremove
  | file f => cases hremove

end Within

end Tree

namespace TreeAction

open SlideDeck.Tree (Within Anchored)

theorem copyInto_preserves (hsource : r.Inside (t.location source))
    (htarget : r.Inside (t.location target)) (hanchored : Anchored r t target) :
    Preserves (Within r t) (copyInto source target) := by
  rw [copyInto]
  refine .bind (.find _) fun u row hu hrow => ?_
  have hl : row.1 = t.location source := hu.entryAt_location (e := row.2) hrow
  refine .bind (makeNewDirectory_preserves fun n _ _ hv hmake => hv.makeDirectory hanchored hmake)
    fun _ _ _ _ => ?_
  refine .bind (.find _) fun v row' hv hrow' => .change fun w w' hw heq => ?_
  have hk : row'.1 = t.location target := hv.entryAt_location (e := row'.2) hrow'
  cases heq
  exact hw.foldl_put (hk ▸ htarget) (hw.ne_link_of_mem_below (hl ▸ hsource))

theorem moveByCopy_preserves (hsource : r.Inside (t.location source))
    (htarget : r.Inside (t.location target)) (hanchored : Anchored r t target) :
    Preserves (Within r t) (moveByCopy source target) := by
  rw [moveByCopy]
  refine .bind (.look _) fun _ there _ _ => ?_
  split
  · exact .bind (copyInto_preserves hsource htarget hanchored) fun _ _ _ _ =>
      .change fun _ _ hu hremove => hu.removeAll hsource hremove
  · refine .bind
      (.bind (.find _) fun _ bytes _ _ => .change fun _ _ hu hwrite =>
        hu.modifyFile (.inr htarget) hwrite)
      fun _ _ _ _ => .change fun _ _ hu hunlink => hu.unlink hsource hunlink

theorem goal_cases {g : Path} (h : goal source target t = .ok g) :
    g = target ∨ g = target.append ⟨[], [source.name]⟩ := by
  unfold goal at h
  split at h
  · dsimp only at h
    split at h
    · cases h
    · exact .inr (Except.ok.inj h).symm
  · exact .inl (Except.ok.inj h).symm

/-- What is moved to a path where no directory is goes to the path itself. -/
theorem goal_of_not_isDirectory (h : t.isDirectory target = false) :
    goal source target t = .ok target := if_neg (by rw [h]; simp)

/-- An entry that is moved inside of a directory stays inside of it, however that ends. -/
theorem move_preserves (hsource : r.Inside (t.location source))
    (htarget : r.Inside (t.location target)) (hanchored : Anchored r t target)
    (hname : source.name ≠ Path.up) : Preserves (Within r t) (move source target) := by
  have hup : Path.up ∉ [source.name] := by simpa [eq_comm] using hname
  rw [move]
  refine .bind (.find _) fun u g hu hg => ?_
  have hgoal : r.Inside (t.location g) ∧ Anchored r t g := by
    rcases goal_cases hg with rfl | rfl
    · exact ⟨htarget, hanchored⟩
    · exact ⟨by rw [Tree.location_append hup]; exact htarget.append _,
        hanchored.append htarget.1 hup⟩
  refine .bind (.look _) fun v renamed hv hrenamed => ?_
  split
  · next w =>
    have hw : Within r t w := hv.rename hsource hgoal.1 (Except.ok.inj hrenamed)
    exact .change fun _ _ _ heq => Except.ok.inj heq ▸ hw
  · refine .bind (.look _) fun _ _ _ _ => ?_
    split
    · exact .bind (.throw _) fun _ _ _ h => nomatch h
    · refine .bind (.look _) fun _ _ _ _ => ?_
      split
      · exact .bind (.throw _) fun _ _ _ h => nomatch h
      · exact moveByCopy_preserves hsource hgoal.1 hgoal.2

/-! ## Moving to a free location -/

/-- An entry that is moved to a free location is there afterwards, with all that is in it. -/
theorem move_of_absent (ht : t.Plain) (hsource : t.Leads source l e)
    (htarget : t.locate false target = .ok (.absent k)) (hs : source.name ≠ Path.up)
    (hn : target.name ≠ Path.up) (hlk : ¬l <+: k) :
    move source target t = (⟨[], .ok ()⟩, t.relocate l k) := by
  have hfree : t.isDirectory target = false := by
    rw [ht.locate_follow] at htarget
    rw [Tree.isDirectory, Tree.entry?, Tree.entryAt, htarget]
    rfl
  have hrename : t.rename? source target = some (t.relocate l k) := by
    have hleads : t.locate false source = .ok (.present l e) := by rw [ht.locate_follow, hsource]
    rw [Tree.rename?, if_neg (by rintro (h | h); exacts [hs h, hn h]), hleads, htarget]
    exact if_neg hlk
  rw [move, Action.bind_find_of_ok (goal_of_not_isDirectory hfree), Action.bind_look, hrename]
  exact Action.change_of_ok rfl

/-! ## Moving along a path that is too long -/

/-- A path that reads as one into another directory leads into it. -/
theorem location_of_leadsInto {inner outer : Path} (h : leadsInto inner outer = true) {name : Text}
    (hlast : outer.parts.getLast? = some name) (hname : name ≠ Path.up) :
    t.location outer <+: t.location inner := by
  obtain ⟨hroot, rest, hrest⟩ := of_decide_eq_true h
  obtain ⟨init, hinit⟩ : ∃ init, outer.normal.parts = init ++ [name] := by
    have hparts : outer = outer.parent.append ⟨[], [name]⟩ := by
      show outer = Path.mk outer.root (outer.parts.dropLast ++ [name])
      rw [List.dropLast_append_getLast? name hlast]
    rw [hparts, Path.normal_append _ (by simpa [eq_comm] using hname)]
    exact ⟨_, rfl⟩
  -- Behind a name that is no step up there are no steps up.
  have hup : Path.up ∉ rest := by
    obtain ⟨n, names, hnames, hup⟩ := inner.exists_normal
    rw [hnames, hinit] at hrest
    rcases List.append_eq_append_iff.1 hrest with ⟨more, hmore, -⟩ | ⟨more, -, rfl⟩
    · have hmem : name ∈ List.replicate n Path.up := by simp [hmore]
      exact absurd (List.eq_of_mem_replicate hmem) hname
    · exact fun hmem => hup (List.mem_append_right more hmem)
  have hstart : t.start outer.normal = t.start inner.normal := by
    rw [Tree.start, Tree.start, hroot]
  rw [← Tree.location_normal t inner, ← Tree.location_normal t outer, Tree.location, Tree.location,
    ← hrest,
    List.foldl_append, hstart, Location.foldl_toward_of_not_mem hup]
  exact List.prefix_append ..

section TooLong

variable {dir : Path} {name : Text} (ht : t.Plain) (hdir : t.Leads dir k .directory)
  (hfits : (dir.append ⟨[], [name]⟩).fits = false)

include ht hdir hfits

theorem makeNewDirectory_of_not_fits :
    makeNewDirectory (dir.append ⟨[], [name]⟩) t =
      (⟨[], .error (.refused .nameTooLong (dir.append ⟨[], [name]⟩).toText)⟩, t) := by
  have hlength : (dir.append ⟨[], [name]⟩).parts.length = dir.parts.length + 1 := List.length_append
  have hparent : (dir.append ⟨[], [name]⟩).parent = dir := by
    show Path.mk dir.root (dir.parts ++ [name]).dropLast = dir
    rw [List.dropLast_concat]
  have hthere : t.contains dir = true := Tree.contains_iff.2 ⟨_, _, hdir⟩
  rw [makeNewDirectory, hlength, makeFrom, hparent, Action.bind_look, if_neg (by rw [hthere]; simp)]
  exact Action.change_of_error (by rw [Tree.makeDirectory, hdir.locate_of_not_fits ht hfits])

/-- Copying starts at the entry itself, and no entry is made along such a path. -/
theorem moveByCopy_of_not_fits (hsource : t.Leads source l e) :
    moveByCopy source (dir.append ⟨[], [name]⟩) t =
      (⟨[], .error (.refused .nameTooLong (dir.append ⟨[], [name]⟩).toText)⟩, t) := by
  rw [moveByCopy, Action.bind_look]
  cases e with
  | link link => exact absurd (hsource.get?_eq ht) (ht.linkless l link)
  | directory =>
    rw [if_pos (Tree.isDirectory_iff.2 ⟨l, hsource⟩), copyInto]
    refine Action.bind_of_error ?_ _
    have hentry :
        Action.find (fun t : Tree => t.entryAt true source) t = (⟨[], .ok (l, .directory)⟩, t) :=
      Action.find_of_ok hsource.entryAt_eq
    exact (Action.bind_of_silent hentry _).trans
      (Action.bind_of_error (makeNewDirectory_of_not_fits ht hdir hfits) _)
  | file f =>
    have hnot : ¬t.isDirectory source = true := by
      rw [Tree.isDirectory_iff]
      rintro ⟨k', hk'⟩
      cases (hsource.unique hk').2
    rw [if_neg hnot, copyFile]
    refine Action.bind_of_error ?_ _
    have hread : Action.find (fun t : Tree => t.read source) t = (⟨[], .ok f.bytes⟩, t) :=
      Action.find_of_ok hsource.read_eq
    have hwrite : t.write (dir.append ⟨[], [name]⟩) f.bytes =
        .error (.refused .nameTooLong (dir.append ⟨[], [name]⟩).toText) := by
      rw [Tree.write, Tree.modifyFile, hdir.locate_of_not_fits ht hfits]
    exact (Action.bind_of_silent hread _).trans (Action.change_of_error hwrite)

/-- An entry that is moved to a place in a directory stays where it is if the path of the place is
too long. -/
theorem move_of_not_fits (hsource : t.Leads source l e) (hs : source.parts.getLast? = some name)
    (hname : name ≠ Path.up) (hlk : ¬l <+: k ++ [name]) :
    move source (dir.append ⟨[], [name]⟩) t =
      (⟨[], .error (.refused .nameTooLong (dir.append ⟨[], [name]⟩).toText)⟩, t) := by
  have hlocate (follow : Bool) : t.locate follow (dir.append ⟨[], [name]⟩) = .error .nameTooLong :=
    hdir.locate_of_not_fits ht hfits
  have hfree : t.isDirectory (dir.append ⟨[], [name]⟩) = false :=
    Tree.isDirectory_of_locate_error (hlocate true)
  have hrename : t.rename? source (dir.append ⟨[], [name]⟩) = none := by
    rw [Tree.rename?, hlocate]
    split
    · rfl
    · split <;> first | rfl | contradiction
  have hinto : leadsInto (dir.append ⟨[], [name]⟩) source = false := by
    rw [Bool.eq_false_iff]
    intro hinto
    have hpre : t.location source <+: t.location (dir.append ⟨[], [name]⟩) :=
      location_of_leadsInto hinto hs hname
    rw [Tree.location_append (by simpa [eq_comm] using hname), hsource.location_eq ht,
      hdir.location_eq ht] at hpre
    exact hlk hpre
  rw [move, Action.bind_find_of_ok (goal_of_not_isDirectory hfree), Action.bind_look, hrename]
  dsimp only
  rw [Action.bind_look, if_neg (by rw [hfree]; simp), Action.bind_look,
    if_neg (by rw [hinto]; simp)]
  exact moveByCopy_of_not_fits ht hdir hfits hsource

end TooLong

end TreeAction

end SlideDeck
