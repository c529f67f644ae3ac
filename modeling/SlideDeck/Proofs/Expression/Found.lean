import SlideDeck.Expression.Match

/-!
# What is met in a text

Where an expression is met, it starts in the text that is searched (`start_of_mem_found`).
-/

namespace SlideDeck.Expression

variable {e : Expression} {whole s : Text} {x : Nat × Place} {position skip start : Nat}

theorem start_of_mem_foundFrom (h : x ∈ e.foundFrom whole position skip s) :
    position ≤ x.1 ∧ x.1 ≤ position + s.length := by
  induction s generalizing position skip with
  | nil =>
    cases skip with
    | zero =>
      obtain ⟨q, -, rfl⟩ := List.mem_map.1 h
      exact ⟨Nat.le_refl _, Nat.le_refl _⟩
    | succ skip => cases h
  | cons c r ih =>
    have later {skip' : Nat} (h : x ∈ e.foundFrom whole (position + 1) skip' r) :
        position ≤ x.1 ∧ x.1 ≤ position + (c :: r).length := by
      have := ih h
      rw [List.length_cons]
      omega
    cases skip with
    | succ skip => exact later h
    | zero =>
      rcases List.mem_append.1 h with h | h
      · obtain ⟨q, -, rfl⟩ := List.mem_map.1 h
        exact ⟨Nat.le_refl _, Nat.le_add_right ..⟩
      · exact later h

theorem start_of_mem_found (h : x ∈ e.found whole start) :
    start ≤ x.1 ∧ x.1 ≤ start + (whole.length - start) := by
  have := start_of_mem_foundFrom h
  rwa [List.length_drop] at this

end SlideDeck.Expression
