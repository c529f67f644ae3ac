import Mathlib.Data.List.DropRight
import SlideDeck.Text.Blank

/-!
# Texts cut into pieces

To cut a text at a character and to put pieces together are the operations that the library of lists
has (`splitWhere_eq_splitOnP`, `join_eq_intercalate`), so pieces without the character are found
again in what they are joined to (`split_join`), and the pieces of a text are joined to the text
(`join_split`). A piece holds what the text holds, but not the character that the text was cut at
(`of_mem_splitWhere`).

To strip a text twice is to strip it once (`strip_strip`), and a text without blanks is not changed
by it.
-/

namespace SlideDeck.Text

/-! ## Cutting and joining -/

theorem splitWhere_eq_splitOnP (isSep : Char → Bool) (s : Text) :
    splitWhere isSep s = s.splitOnP isSep := by
  induction s with
  | nil => rw [List.splitOnP_nil, splitWhere]
  | cons c s ih =>
    rw [List.splitOnP_cons_eq_if_modifyHead, splitWhere, ih]
    obtain ⟨piece, pieces, hsplit⟩ := List.exists_cons_of_ne_nil (List.splitOnP_ne_nil isSep s)
    rw [hsplit]
    rfl

theorem join_eq_intercalate (sep : Text) (pieces : List Text) :
    join sep pieces = sep.intercalate pieces := by
  induction pieces with
  | nil => rfl
  | cons piece pieces ih =>
    cases pieces with
    | nil => simp [join]
    | cons next pieces => rw [join, ih, List.intercalate_cons_cons]; simp

/-- Pieces that are joined by a character that none of them holds are found again where the text is
cut at it. -/
theorem split_join {sep : Char} {pieces : List Text} (hpieces : ∀ piece ∈ pieces, sep ∉ piece)
    (hne : pieces ≠ []) :
    split sep (join [sep] pieces) = pieces := by
  rw [split, splitWhere_eq_splitOnP, join_eq_intercalate]
  exact List.splitOn_intercalate sep hpieces hne

/-- The pieces of a text are joined to the text again. -/
theorem join_split (sep : Char) (s : Text) : join [sep] (split sep s) = s := by
  rw [join_eq_intercalate, split, splitWhere_eq_splitOnP]
  exact List.intercalate_splitOn sep

theorem length_splitWhere (isSep : Char → Bool) (s : Text) :
    (splitWhere isSep s).length = s.countP isSep + 1 := by
  induction s with
  | nil => rfl
  | cons c s ih =>
    rw [splitWhere, List.countP_cons]
    split
    · rw [List.length_cons, ih]
    · split
      · next hnil => exact absurd hnil (splitWhere_ne_nil isSep s)
      · next first rest hsplit =>
          rw [← ih, hsplit, List.length_cons, List.length_cons, Nat.add_zero]

/-- A text is cut into one piece more than it has separators. -/
theorem length_split (sep : Char) (s : Text) : (split sep s).length = s.count sep + 1 :=
  length_splitWhere _ s

/-- What stands in a piece stands in the text, and the text is not cut there. -/
theorem of_mem_splitWhere {isSep : Char → Bool} {s piece : Text} {c : Char}
    (hpiece : piece ∈ splitWhere isSep s) (hc : c ∈ piece) : c ∈ s ∧ isSep c = false := by
  induction s generalizing piece with
  | nil =>
    rw [splitWhere, List.mem_singleton] at hpiece
    rw [hpiece] at hc
    cases hc
  | cons d s ih =>
    have hlater {piece : Text} (hpiece : piece ∈ splitWhere isSep s) (hc : c ∈ piece) :
        c ∈ d :: s ∧ isSep c = false :=
      (ih hpiece hc).imp_left (List.mem_cons_of_mem d)
    rw [splitWhere] at hpiece
    split at hpiece
    · rcases List.mem_cons.1 hpiece with rfl | hpiece
      · cases hc
      · exact hlater hpiece hc
    · next hd =>
      split at hpiece
      · next hnil => exact absurd hnil (splitWhere_ne_nil isSep s)
      · next first rest hsplit =>
        rcases List.mem_cons.1 hpiece with rfl | hpiece
        · rcases List.mem_cons.1 hc with rfl | hc
          · exact ⟨List.mem_cons_self .., Bool.eq_false_iff.2 hd⟩
          · exact hlater (by rw [hsplit]; exact List.mem_cons_self ..) hc
        · exact hlater (by rw [hsplit]; exact List.mem_cons_of_mem _ hpiece) hc

theorem not_mem_of_mem_split {sep : Char} {s piece : Text} (h : piece ∈ split sep s) :
    sep ∉ piece := fun hsep => by
  simpa using (of_mem_splitWhere h hsep).2

/-- What stands before a text belongs to its first piece if it cannot be cut. -/
theorem splitWhere_append {isSep : Char → Bool} {s before first : Text} {rest : List Text}
    (hbefore : before.any isSep = false) (hsplit : splitWhere isSep s = first :: rest) :
    splitWhere isSep (before ++ s) = (before ++ first) :: rest := by
  induction before with
  | nil => exact hsplit
  | cons c before ih =>
    obtain ⟨hc, hbefore⟩ := Bool.or_eq_false_iff.1 hbefore
    rw [List.cons_append, splitWhere, if_neg (by rw [hc]; exact Bool.false_ne_true), ih hbefore]
    rfl

/-! ## Stripping -/

theorem mem_of_mem_strip {s : Text} {c : Char} (h : c ∈ strip s) : c ∈ s :=
  (List.dropWhile_suffix _).subset ((List.rdropWhile_prefix isBlank _).subset h)

/-- A text is not changed by stripping if it has no blank at its ends. -/
theorem strip_eq_self {s : Text} (h : ∀ c ∈ s, isBlank c = false) : strip s = s := by
  have hleft : stripLeft s = s := List.dropWhile_eq_self_iff.2 fun hl => by
    rw [h _ (List.getElem_mem hl)]
    exact Bool.false_ne_true
  rw [strip, hleft]
  exact List.rdropWhile_eq_self_iff.2 fun hl => by
    rw [h _ (List.getLast_mem hl)]
    exact Bool.false_ne_true

/-- A text that starts with no blank still does so without the blanks at its end. -/
theorem stripLeft_stripRight {s : Text} (h : stripLeft s = s) :
    stripLeft (stripRight s) = stripRight s := by
  have hstarts : stripRight s <+: s := List.rdropWhile_prefix isBlank s
  refine List.dropWhile_eq_self_iff.2 fun hl => ?_
  rw [hstarts.getElem hl]
  exact List.dropWhile_eq_self_iff.1 h _

theorem strip_strip (s : Text) : strip (strip s) = strip s := by
  have hleft : stripLeft (strip s) = strip s :=
    stripLeft_stripRight (List.dropWhile_idempotent isBlank s)
  rw [strip, hleft]
  exact List.rdropWhile_idempotent isBlank _

end SlideDeck.Text
