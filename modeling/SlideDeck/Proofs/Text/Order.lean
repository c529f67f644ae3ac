import SlideDeck.Text.Basic

/-!
# The order of texts

`Text.upTo` compares any two texts (`upTo_total`) and is transitive (`upTo_trans`), so `Text.sort`
puts texts in this order (`sort_perm`, `pairwise_sort`). Two texts that are up to each other are the
same (`upTo_antisymm`), so there is one order only for texts that are there once each
(`eq_of_sorted`).
-/

namespace SlideDeck.Text

theorem upTo_cons {a b : Char} {s t : Text} :
    upTo (a :: s) (b :: t) = true ↔ a.toNat < b.toNat ∨ a = b ∧ upTo s t = true := by
  simp only [upTo, Bool.or_eq_true, decide_eq_true_eq, Bool.and_eq_true, beq_iff_eq]

theorem upTo_total (s t : Text) : upTo s t = true ∨ upTo t s = true := by
  induction s generalizing t with
  | nil => exact .inl rfl
  | cons a s ih =>
    cases t with
    | nil => exact .inr rfl
    | cons b t =>
      rw [upTo_cons, upTo_cons]
      rcases Nat.lt_trichotomy a.toNat b.toNat with h | h | h
      · exact .inl (.inl h)
      · obtain rfl := Char.toNat_inj.1 h
        rcases ih t with hs | ht
        · exact .inl (.inr ⟨rfl, hs⟩)
        · exact .inr (.inr ⟨rfl, ht⟩)
      · exact .inr (.inl h)

theorem upTo_trans {s t u : Text} (h₁ : upTo s t = true) (h₂ : upTo t u = true) :
    upTo s u = true := by
  induction s generalizing t u with
  | nil => rfl
  | cons a s ih =>
    cases t with
    | nil => cases h₁
    | cons b t =>
      cases u with
      | nil => cases h₂
      | cons c u =>
        rw [upTo_cons] at h₁ h₂ ⊢
        rcases h₁ with h₁ | ⟨rfl, h₁⟩ <;> rcases h₂ with h₂ | ⟨rfl, h₂⟩
        · exact .inl (Nat.lt_trans h₁ h₂)
        · exact .inl h₁
        · exact .inl h₂
        · exact .inr ⟨rfl, ih h₁ h₂⟩

theorem upTo_antisymm {s t : Text} (h₁ : upTo s t = true) (h₂ : upTo t s = true) : s = t := by
  induction s generalizing t with
  | nil =>
    cases t with
    | nil => rfl
    | cons b t => cases h₂
  | cons a s ih =>
    cases t with
    | nil => cases h₁
    | cons b t =>
      rw [upTo_cons] at h₁ h₂
      rcases h₁ with h₁ | ⟨rfl, h₁⟩
      · rcases h₂ with h₂ | ⟨rfl, -⟩ <;> omega
      · rcases h₂ with h₂ | ⟨-, h₂⟩
        · omega
        · rw [ih h₁ h₂]

/-- Two lists of the same texts, each text once and in order, are equal. -/
theorem eq_of_sorted {ss ts : List Text} (hs : ss.Pairwise fun a b => upTo a b = true)
    (ht : ts.Pairwise fun a b => upTo a b = true) (hs' : ss.Nodup) (ht' : ts.Nodup)
    (h : ∀ s, s ∈ ss ↔ s ∈ ts) : ss = ts :=
  ((List.perm_ext_iff_of_nodup hs' ht').2 h).eq_of_pairwise (fun _ _ _ _ => upTo_antisymm) hs ht

theorem insertSorted_perm (s : Text) (ts : List Text) : (insertSorted s ts).Perm (s :: ts) := by
  induction ts with
  | nil => exact .refl _
  | cons t ts ih =>
    rw [insertSorted]
    split
    · exact .refl _
    · exact (ih.cons t).trans (.swap s t ts)

theorem sort_perm (texts : List Text) : (sort texts).Perm texts := by
  induction texts with
  | nil => exact .refl _
  | cons s ss ih => exact (insertSorted_perm s _).trans (ih.cons s)

theorem pairwise_insertSorted {ts : List Text} (h : ts.Pairwise fun a b => upTo a b = true)
    (s : Text) :
    (insertSorted s ts).Pairwise fun a b => upTo a b = true := by
  induction ts with
  | nil => exact List.pairwise_singleton _ s
  | cons t ts ih =>
    obtain ⟨ht, hts⟩ := List.pairwise_cons.1 h
    rw [insertSorted]
    split
    · next hst =>
      refine List.pairwise_cons.2 ⟨fun u hu => ?_, h⟩
      rcases List.mem_cons.1 hu with rfl | hu
      · exact hst
      · exact upTo_trans hst (ht u hu)
    · next hst =>
      refine List.pairwise_cons.2 ⟨fun u hu => ?_, ih hts⟩
      rcases List.mem_cons.1 ((insertSorted_perm s ts).mem_iff.1 hu) with rfl | hu
      · exact (upTo_total u t).resolve_left hst
      · exact ht u hu

theorem pairwise_sort (texts : List Text) : (sort texts).Pairwise fun a b => upTo a b = true := by
  induction texts with
  | nil => exact .nil
  | cons s ss ih => exact pairwise_insertSorted ih s

end SlideDeck.Text
