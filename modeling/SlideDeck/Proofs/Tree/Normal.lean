import SlideDeck.Proofs.Tree.Location

/-!
# Normal paths

A path in which every step up is taken goes up first, if at all, and then only down
(`exists_normal`). It has the location that it had before (`location_normal`), and where there are
no links it leads to the same directory (`Leads.normal`).
-/

namespace SlideDeck

variable {p : Path} {rooted : Bool} {below names rest : List Text}

namespace Path

theorem climb_cons_of_ne {name : Text} (h : name ≠ up) :
    climb rooted below (name :: names) = climb rooted (name :: below) names := by
  rw [climb.eq_def]
  exact if_pos h

theorem climb_nil_up :
    climb rooted [] (up :: names) = climb rooted (if rooted then [] else [up]) names := by
  rw [climb.eq_def]
  exact if_neg (not_not_intro rfl)

theorem climb_cons_up (last : Text) (below : List Text) :
    climb rooted (last :: below) (up :: names) =
      climb rooted (if last = up then up :: last :: below else below) names := by
  rw [climb.eq_def]
  exact if_neg (not_not_intro rfl)

theorem climb_append (names rest : List Text) :
    climb rooted below (names ++ rest) = climb rooted (climb rooted below names) rest := by
  induction names generalizing below with
  | nil => rw [climb.eq_def rooted below []]; rfl
  | cons name names ih =>
    rw [List.cons_append]
    by_cases hname : name = up
    · subst hname
      cases below with
      | nil => rw [climb_nil_up, climb_nil_up, ih]
      | cons last below => rw [climb_cons_up, climb_cons_up, ih]
    · rw [climb_cons_of_ne hname, climb_cons_of_ne hname, ih]

/-- Names that lead downwards are kept. -/
theorem climb_of_not_mem (h : up ∉ names) : climb rooted below names = names.reverse ++ below := by
  induction names generalizing below with
  | nil => rw [climb.eq_def]; rfl
  | cons name names ih =>
    simp only [List.mem_cons, not_or] at h
    rw [climb_cons_of_ne (Ne.symm h.1), ih h.2, List.reverse_cons, List.append_assoc]
    rfl

theorem normal_append (p : Path) (h : up ∉ names) :
    (p.append ⟨[], names⟩).normal = p.normal.append ⟨[], names⟩ := by
  show Path.mk p.root (climb (p.root ≠ []) [] (p.parts ++ names)).reverse =
    Path.mk p.root ((climb (p.root ≠ []) [] p.parts).reverse ++ names)
  rw [climb_append, climb_of_not_mem h, List.reverse_append, List.reverse_reverse]

/-- No names are added. -/
theorem climb_sublist (names : List Text) :
    (climb rooted below names).reverse.Sublist (below.reverse ++ names) := by
  induction names generalizing below with
  | nil => rw [climb.eq_def, List.append_nil]
  | cons name names ih =>
    by_cases hname : name = up
    · subst hname
      cases below with
      | nil =>
        rw [climb_nil_up]
        refine ih.trans ?_
        cases rooted with
        | true => exact List.sublist_cons_self up names
        | false => exact List.Sublist.refl _
      | cons last below =>
        rw [climb_cons_up]
        split
        · refine ih.trans ?_
          rw [List.reverse_cons, List.append_assoc]
          exact List.Sublist.refl _
        · refine ih.trans ?_
          rw [List.reverse_cons, List.append_assoc]
          exact (List.Sublist.refl _).append (List.sublist_append_right [last, up] names)
    · rw [climb_cons_of_ne hname]
      refine ih.trans ?_
      rw [List.reverse_cons, List.append_assoc]
      exact List.Sublist.refl _

theorem fits_normal (h : p.fits = true) : p.normal.fits = true :=
  fits_of_sublist (q := p) (List.Sublist.refl _) (climb_sublist p.parts) h

/-- Steps up come before all other names. -/
theorem exists_climb (hbelow : ∃ n rest, below = rest ++ List.replicate n up ∧ up ∉ rest)
    (names : List Text) :
    ∃ n rest, climb rooted below names = rest ++ List.replicate n up ∧ up ∉ rest := by
  induction names generalizing below with
  | nil =>
    rw [climb.eq_def]
    exact hbelow
  | cons name names ih =>
    obtain ⟨n, rest, rfl, hrest⟩ := hbelow
    by_cases hname : name = up
    · subst hname
      cases rest with
      | cons last rest =>
        simp only [List.mem_cons, not_or] at hrest
        rw [List.cons_append, climb_cons_up, if_neg (Ne.symm hrest.1)]
        exact ih ⟨n, rest, rfl, hrest.2⟩
      | nil =>
        cases n with
        | zero =>
          rw [List.replicate_zero, List.append_nil, climb_nil_up]
          cases rooted with
          | true => exact ih ⟨0, [], rfl, List.not_mem_nil⟩
          | false => exact ih ⟨1, [], rfl, List.not_mem_nil⟩
        | succ n =>
          rw [List.nil_append, List.replicate_succ, climb_cons_up, if_pos rfl]
          exact ih ⟨n + 2, [], rfl, List.not_mem_nil⟩
    · rw [climb_cons_of_ne hname]
      exact ih ⟨n, name :: rest, rfl, by simp [Ne.symm hname, hrest]⟩

theorem exists_normal (p : Path) : ∃ n rest, p.normal.parts = List.replicate n up ++ rest ∧
    up ∉ rest := by
  obtain ⟨n, rest, heq, hrest⟩ :
      ∃ n rest, climb (p.root ≠ []) [] p.parts = rest ++ List.replicate n up ∧ up ∉ rest :=
    exists_climb ⟨0, [], rfl, List.not_mem_nil⟩ p.parts
  refine ⟨n, rest.reverse, ?_, by rwa [List.mem_reverse]⟩
  rw [normal, heq, List.reverse_append, List.reverse_replicate]

end Path

namespace Tree

variable {t : Tree} {l : Location} {follow : Bool}

theorem foldl_toward_climb {s : Location} (hs : rooted = true → s = []) (names : List Text) :
    (Path.climb rooted below names).reverse.foldl Location.toward s =
      (below.reverse ++ names).foldl Location.toward s := by
  induction names generalizing below with
  | nil => rw [Path.climb.eq_def, List.append_nil]
  | cons name names ih =>
    by_cases hname : name = Path.up
    · subst hname
      cases below with
      | nil =>
        rw [Path.climb_nil_up, ih]
        cases rooted with
        | true =>
          obtain rfl := hs rfl
          rfl
        | false => rfl
      | cons last below =>
        rw [Path.climb_cons_up, ih]
        split
        · rw [List.reverse_cons, List.append_assoc]
          rfl
        · next hlast =>
          have hback (l : Location) : (l.toward last).toward Path.up = l := by
            rw [Location.toward_of_ne hlast, Location.toward, if_pos rfl, List.dropLast_concat]
          rw [List.reverse_cons, List.append_assoc, List.foldl_append, List.foldl_append,
            List.singleton_append, List.foldl_cons, List.foldl_cons, hback]
    · rw [Path.climb_cons_of_ne hname, ih, List.reverse_cons, List.append_assoc]
      rfl

/-- Taking the steps up does not change where a path leads. -/
theorem location_normal (t : Tree) (p : Path) : t.location p.normal = t.location p := by
  have hstart : decide (p.root ≠ []) = true → t.start p = [] := fun hroot => by
    rw [start]
    exact if_neg (of_decide_eq_true hroot)
  exact foldl_toward_climb hstart p.parts

theorem advance_climb (t : Tree) (follow : Bool) (n : Nat) (l : Location) (names : List Text) :
    advance t follow l (List.replicate n Path.up ++ names) =
      advance t follow ((List.replicate n Path.up).foldl Location.toward l) names := by
  induction n generalizing l with
  | zero => rfl
  | succ n ih =>
    rw [List.replicate_succ, List.cons_append, advance_up, ih, List.foldl_cons, Location.toward,
      if_pos rfl]

theorem Leads.normal (h : t.Plain) (hp : t.Leads p l .directory) :
    t.Leads p.normal l .directory := by
  have hlocation : t.location p.normal = l := by rw [location_normal, hp.location_eq h]
  obtain ⟨n, rest, hparts, hup⟩ := p.exists_normal
  rw [location, hparts, List.foldl_append, Location.foldl_toward_of_not_mem hup] at hlocation
  have hl := hp.get?_eq h
  have hfits := Path.fits_normal (hp.fits h)
  refine h.leads_of_walk (Path.fitsText_of_fits hfits) ?_
  rw [hparts, advance_climb]
  have hrest : ∀ name ∈ rest, Path.fitsName name = true := fun name hname =>
    Path.fitsName_of_fits hfits name (by rw [hparts]; exact List.mem_append_right _ hname)
  refine (h.advance_down ?_ hup hrest).2 ⟨hlocation.symm, hl⟩
  rw [← hlocation] at hl
  by_cases hrest : rest = []
  · rwa [hrest, List.append_nil] at hl
  · exact h.directory_of_prefix (by rw [hl]; rfl) (List.prefix_append ..) (by simpa using hrest)

end Tree

end SlideDeck
