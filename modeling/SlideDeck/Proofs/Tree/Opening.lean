import SlideDeck.Proofs.Action
import SlideDeck.Proofs.Tree.Location
import SlideDeck.Tree.Action

/-!
# Making a directory and those above it

What is kept when a directory is made at each of the places that a path leads through is kept when
the path is opened up, however many of them are missing and however that ends
(`makeWithParents_preserves`, `makeFrom_preserves`). So the tree is changed by nothing else than new
directories on the way (`Opens`, `makeDirectories_opens`).
-/

namespace SlideDeck

namespace Path

theorem exists_upTo_parent (p : Path) (n : Nat) : ∃ m, (p.upTo n).parent = p.upTo m := by
  refine ⟨min n p.parts.length - 1, ?_⟩
  rw [upTo, parent, upTo, List.dropLast_eq_take, List.length_take, List.take_take]
  congr 2
  omega

end Path

namespace TreeAction

open SlideDeck.Action (Preserves)

variable {I : Tree → Prop} {p : Path}

theorem tolerate_preserves (lenient : Bool) (p : Path) (e : Failure) :
    Preserves I (tolerate lenient p e) := by
  unfold tolerate
  split
  · refine .bind (.find _) fun _ there _ _ => ?_
    split
    · exact .pure ()
    · exact .throw e
  · exact .throw e

theorem makeOne_preserves (h : ∀ t u, I t → t.makeDirectory p = .ok u → I u) (lenient : Bool) :
    Preserves I (makeOne lenient p) := .rescue (.change h) fun e => tolerate_preserves lenient p e

/-- What is kept when a directory is made at each of the places that a path leads through is kept
when the missing ones are made. -/
theorem makeWithParents_preserves (h : ∀ n t u, I t → t.makeDirectory (p.upTo n) = .ok u → I u)
    (n : Nat) (lenient : Bool) (m : Nat) : Preserves I (makeWithParents n lenient (p.upTo m)) := by
  induction n generalizing lenient m with
  | zero => exact makeOne_preserves (h m) lenient
  | succ n ih =>
    rw [makeWithParents]
    refine .rescue (.change (h m)) fun e => ?_
    split
    · split
      · exact .throw _
      · obtain ⟨m', hm'⟩ := p.exists_upTo_parent m
        exact .bind (hm' ▸ ih true m') fun _ _ _ _ => makeOne_preserves (h m) lenient
    · exact tolerate_preserves lenient _ _

theorem makeFrom_preserves (h : ∀ n t u, I t → t.makeDirectory (p.upTo n) = .ok u → I u)
    (n m : Nat) :
    Preserves I (makeFrom n (p.upTo m)) := by
  induction n generalizing m with
  | zero => exact .change (h m)
  | succ n ih =>
    rw [makeFrom]
    obtain ⟨m', hm'⟩ := p.exists_upTo_parent m
    refine .bind (.look _) fun _ there _ _ => ?_
    split
    · refine .bind (.rescue (hm' ▸ ih m') fun e => ?_) fun _ _ _ _ => .change (h m)
      split
      · exact .pure ()
      · exact .throw _
    · exact .change (h m)

theorem makeNewDirectory_preserves (h : ∀ n t u, I t → t.makeDirectory (p.upTo n) = .ok u → I u) :
    Preserves I (makeNewDirectory p) := by
  have := makeFrom_preserves h p.parts.length p.parts.length
  rwa [p.upTo_length] at this

end TreeAction

namespace Tree

variable {t u v : Tree} {l k m : Location} {p : Path}

/-- A directory is made where a path leads to a free location. -/
theorem makeDirectory_eq_ok (h : t.makeDirectory p = .ok u) :
    ∃ k, t.locate false p = .ok (.absent k) ∧ u = t.put k .directory := by
  unfold makeDirectory at h
  split at h
  · next k hk => exact ⟨k, hk, (Except.ok.inj h).symm⟩
  · cases h
  · cases h

namespace Home

theorem makeDirectory (h : t.Home) (hmake : t.makeDirectory p = .ok u) : u.Home := by
  obtain ⟨k, hk, rfl⟩ := makeDirectory_eq_ok hmake
  exact h.put_absent hk directory_ne_link

theorem modifyFile (h : t.Home) {g : List UInt8 → List UInt8} (hmodify : t.modifyFile p g = .ok u) :
    u.Home := by
  unfold Tree.modifyFile at hmodify
  split at hmodify
  · next k hk =>
    cases hmodify
    exact h.put_absent hk (file_ne_link _)
  · next k old hk =>
    cases hmodify
    have hget := Linkless.get?_of_locate h.linkless hk
    have hne : t.get? k ≠ some .directory := ne_directory_of_file hget
    exact h.put hne (h.toPlain.parent (ne_nil_of_get?_ne hne) (by rw [hget]; rfl)) (file_ne_link _)
  · cases hmodify
  · cases hmodify

end Home

/-- The tree `u` is `t` but for directories that were missing where the path `p` leads through. -/
structure Opens (p : Path) (t u : Tree) : Prop where
  base : u.base = t.base
  grown : ∀ m, u.get? m = t.get? m ∨
    t.get? m = none ∧ u.get? m = some .directory ∧ ∃ n, m = t.location (p.upTo n)

namespace Opens

theorem refl (p : Path) (t : Tree) : Opens p t t := ⟨rfl, fun _ => .inl rfl⟩

theorem makeDirectory (h : Opens p t u) (hu : u.Home) (n : Nat)
    (hmake : u.makeDirectory (p.upTo n) = .ok v) :
    Opens p t v := by
  obtain ⟨k, hk, rfl⟩ := makeDirectory_eq_ok hmake
  have hnone := Linkless.get?_of_absent hu.linkless hk
  have hlocation : k = t.location (p.upTo n) := by
    rw [← location_congr h.base]
    exact Linkless.locate_location hu.linkless hk
  refine ⟨h.base, fun m => ?_⟩
  rw [get?_put_of_ne (ne_directory_of_none hnone)]
  split
  · next hm =>
    subst hm
    refine .inr ⟨?_, rfl, n, hlocation⟩
    rcases h.grown m with heq | ⟨hm, -, -⟩
    · rw [← heq, hnone]
    · exact hm
  · exact h.grown m

/-- What is there stays. -/
theorem kept (h : Opens p t u) {e : Entry} (hm : t.get? m = some e) : u.get? m = some e := by
  rcases h.grown m with heq | ⟨hnone, -, -⟩
  · rw [heq, hm]
  · rw [hm] at hnone
    cases hnone

theorem none_of_none (h : Opens p t u) (hm : u.get? m = none) : t.get? m = none := by
  rcases h.grown m with heq | ⟨hnone, -, -⟩
  · rw [← heq, hm]
  · exact hnone

/-- If the path leads downwards to a directory at last, the directories above it are all that is
new. -/
theorem get?_eq (h : Opens p t u) (hu : u.Home) (hup : Path.up ∉ p.parts)
    (hl : u.Leads p l .directory) (m : Location) :
    u.get? m = if m <+: l then some .directory else t.get? m := by
  have hlocation : t.location p = l := by rw [← location_congr h.base, hl.location_eq hu.toPlain]
  split
  · next hm =>
    by_cases heq : m = l
    · rw [heq, hl.get?_eq hu.toPlain]
    · exact hu.toPlain.directory_of_prefix (by rw [hl.get?_eq hu.toPlain]; rfl) hm heq
  · next hm =>
    rcases h.grown m with heq | ⟨-, -, n, rfl⟩
    · exact heq
    · exact absurd (hlocation ▸ location_above hup t n) hm

/-- Nothing that is further down than the path leads is touched. -/
theorem get?_below (h : Opens p t u) (hup : Path.up ∉ p.parts) (hk : t.location p <+: k)
    (hne : t.location p ≠ k) (hm : k <+: m) : u.get? m = t.get? m := by
  rcases h.grown m with heq | ⟨-, -, n, rfl⟩
  · exact heq
  · have hpk : k <+: t.location p := hm.trans (location_above hup t n)
    exact absurd (hk.eq_of_length_le hpk.length_le) hne

end Opens

end Tree

/-- However it ends, opening up a path changes nothing else. -/
theorem TreeAction.makeDirectories_opens {t : Tree} (h : t.Home) (lenient : Bool) (p : Path) :
    (makeDirectories lenient p t).2.Home ∧ t.Opens p (makeDirectories lenient p t).2 := by
  have hpreserves := makeWithParents_preserves (I := fun u => u.Home ∧ t.Opens p u)
    (fun n _ _ hu hmake => ⟨hu.1.makeDirectory hmake, hu.2.makeDirectory hu.1 n hmake⟩)
      p.parts.length lenient
    p.parts.length
  rw [p.upTo_length] at hpreserves
  exact hpreserves t ⟨h, .refl p t⟩

end SlideDeck
