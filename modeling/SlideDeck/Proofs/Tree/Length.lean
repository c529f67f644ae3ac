import Mathlib.Algebra.Order.BigOperators.Group.List
import Mathlib.Algebra.Order.Group.Nat
import SlideDeck.Tree.Path

/-!
# Lengths of paths

A path fits if neither it nor a name in it is too long (`Path.fits`). With fewer names it still fits
(`Path.fits_of_sublist`), so when it ends earlier (`Path.fits_parent`), and when what its last names
are seen from is left out (`Path.fits_names`).
-/

namespace SlideDeck

namespace Text

theorem size_le_of_sublist {a b : Text} (h : a.Sublist b) : size a ≤ size b := by
  induction h with
  | slnil => exact Nat.le_refl _
  | cons c _ ih => exact ih.trans (Nat.le_add_left _ _)
  | cons_cons c _ ih => exact Nat.add_le_add_left ih _

theorem join_cons (sep piece : Text) (pieces : List Text) :
    join sep (piece :: pieces) = piece ++ if pieces = [] then [] else sep ++ join sep pieces := by
  cases pieces with
  | nil => simp [join]
  | cons next rest => simp [join]

theorem join_sublist (sep : Text) {a b : List Text} (h : a.Sublist b) :
    (join sep a).Sublist (join sep b) := by
  induction h with
  | slnil => exact .slnil
  | @cons a b piece h ih =>
    rw [join_cons]
    split
    · next hb =>
      subst hb
      rw [List.sublist_nil.1 h]
      exact List.nil_sublist _
    · exact (ih.trans (List.sublist_append_right sep _)).trans (List.sublist_append_right piece _)
  | @cons_cons a b piece h ih =>
    rw [join_cons, join_cons]
    refine List.Sublist.append (List.Sublist.refl piece) ?_
    split
    · exact List.nil_sublist _
    · next ha =>
      rw [if_neg (by rintro rfl; exact ha (List.sublist_nil.1 h))]
      exact List.Sublist.append (List.Sublist.refl sep) ih

theorem size_append (a b : Text) : size (a ++ b) = size a + size b := by
  induction a with
  | nil => rw [List.nil_append, size, Nat.zero_add]
  | cons c a ih => rw [List.cons_append, size, size, ih, Nat.add_assoc]

theorem size_join_concat_le (sep : Text) (pieces : List Text) {a b : Text} (h : size b ≤ size a) :
    size (join sep (pieces ++ [b])) ≤ size (join sep (pieces ++ [a])) := by
  induction pieces with
  | nil => exact h
  | cons piece pieces ih =>
    rw [List.cons_append, List.cons_append, join_cons, join_cons, if_neg (by simp),
      if_neg (by simp), size_append, size_append, size_append, size_append]
    exact Nat.add_le_add_left (Nat.add_le_add_left ih _) _

theorem join_concat_pair (sep : Text) (pieces : List Text) (a b : Text) :
    join sep (pieces ++ [a, b]) = join sep (pieces ++ [a ++ sep ++ b]) := by
  induction pieces with
  | nil => simp [join_cons]
  | cons piece pieces ih =>
      rw [List.cons_append, List.cons_append, join_cons, join_cons, if_neg (by simp),
        if_neg (by simp), ih]

end Text

namespace Path

variable {p q : Path}

/-- Neither a path nor a name in it is too long. -/
def fits (p : Path) : Bool := p.fitsText && p.parts.all fitsName

theorem fitsText_of_fits (h : p.fits = true) : p.fitsText = true := (Bool.and_eq_true_iff.1 h).1

theorem fitsName_of_fits (h : p.fits = true) : ∀ name ∈ p.parts, fitsName name = true :=
  List.all_eq_true.1 (Bool.and_eq_true_iff.1 h).2

theorem fitsText_of_sublist (hroot : p.root.Sublist q.root) (hparts : p.parts.Sublist q.parts)
    (h : q.fitsText = true) :
    p.fitsText = true := by
  rw [fitsText, decide_eq_true_eq] at h ⊢
  by_cases hp : p.root = [] ∧ p.parts = []
  · rw [toText, if_pos hp]
    decide
  · have hq : ¬(q.root = [] ∧ q.parts = []) := fun hq =>
      hp ⟨List.sublist_nil.1 (hq.1 ▸ hroot), List.sublist_nil.1 (hq.2 ▸ hparts)⟩
    rw [toText, if_neg hq] at h
    rw [toText, if_neg hp]
    exact (Text.size_le_of_sublist (hroot.append (Text.join_sublist _ hparts))).trans h

/-- A path with fewer names is not longer. -/
theorem fits_of_sublist (hroot : p.root.Sublist q.root) (hparts : p.parts.Sublist q.parts)
    (h : q.fits = true) :
    p.fits = true := by
  refine Bool.and_eq_true_iff.2
    ⟨fitsText_of_sublist hroot hparts (fitsText_of_fits h), List.all_eq_true.2 fun name hname => ?_⟩
  exact fitsName_of_fits h name (hparts.subset hname)

theorem fitsText_parent (h : p.fitsText = true) : p.parent.fitsText = true :=
  fitsText_of_sublist (q := p) (List.Sublist.refl _) (List.dropLast_sublist _) h

theorem fits_parent (h : p.fits = true) : p.parent.fits = true :=
  fits_of_sublist (q := p) (List.Sublist.refl _) (List.dropLast_sublist _) h

theorem toText_append {names : List Text} (h : names ≠ []) (p : Path) :
    (p.append ⟨[], names⟩).toText = p.root ++ Text.join ['/'] (p.parts ++ names) :=
  if_neg fun hnil => List.append_ne_nil_of_right_ne_nil p.parts h hnil.2

/-- The path of an entry beside another one, with a name that is not longer, is not longer. -/
theorem fitsText_append_of_size_le {a b : Text} (h : Text.size b ≤ Text.size a)
    (ha : (p.append ⟨[], [a]⟩).fitsText = true) : (p.append ⟨[], [b]⟩).fitsText = true := by
  rw [fitsText, decide_eq_true_eq, toText_append (by simp), Text.size_append] at ha ⊢
  exact (Nat.add_le_add_left (Text.size_join_concat_le _ _ h) _).trans ha

/-- The path of an entry below a directory is as long as that of one beside it with both names in
one. -/
theorem fitsText_append_pair (a b : Text) :
    (p.append ⟨[], [a, b]⟩).fitsText = (p.append ⟨[], [a ++ ['/'] ++ b]⟩).fitsText := by
  rw [fitsText, fitsText, toText_append (by simp), toText_append (by simp), Text.join_concat_pair]

/-- Behind a path that fits, a longer one fits if neither it nor one of its last names is too
long. -/
theorem fits_append_iff {names : List Text} (hp : p.fits = true) :
    (p.append ⟨[], names⟩).fits = true ↔
      (p.append ⟨[], names⟩).fitsText = true ∧ ∀ name ∈ names, fitsName name = true := by
  rw [fits, Bool.and_eq_true]
  show _ ∧ (p.parts ++ names).all fitsName = true ↔ _
  rw [List.all_append, List.all_eq_true.2 (fitsName_of_fits hp), Bool.true_and, List.all_eq_true]

theorem fitsText_names {names : List Text} (h : (p.append ⟨[], names⟩).fitsText = true) :
    fitsText ⟨[], names⟩ = true :=
  fitsText_of_sublist (q := p.append ⟨[], names⟩) (List.nil_sublist _)
    (List.sublist_append_right p.parts names) h

/-- The names behind a path make a path of their own, which is not longer. -/
theorem fits_names {names : List Text} (h : (p.append ⟨[], names⟩).fits = true) :
    fits ⟨[], names⟩ = true :=
  fits_of_sublist (q := p.append ⟨[], names⟩) (List.nil_sublist _)
    (List.sublist_append_right p.parts names) h

end Path

end SlideDeck
