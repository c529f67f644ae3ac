import SlideDeck.Text.Basic

/-!
# Runs of characters

Where a run of characters of one kind is followed by the end of the text or by a character of
another kind, `takeWhile` takes exactly the run and `dropWhile` leaves exactly what follows.
-/

namespace SlideDeck.Text

variable {p : Char → Bool} {a r : Text}

/-- The text does not go on with a character of the kind. -/
def Stops (p : Char → Bool) (r : Text) : Prop := ∀ c ∈ r.head?, p c = false

theorem stops_nil (p : Char → Bool) : Stops p [] := by simp [Stops]

theorem stops_cons {c : Char} (h : p c = false) (r : Text) :
    Stops p (c :: r) := by simpa [Stops] using h

theorem takeWhile_append_of_stops (ha : ∀ c ∈ a, p c = true) (hr : Stops p r) :
    (a ++ r).takeWhile p = a := by
  rw [List.takeWhile_append_of_pos ha]
  cases r with
  | nil => simp
  | cons c r => rw [List.takeWhile_cons_of_neg (by simp [hr c rfl]), List.append_nil]

theorem dropWhile_append_of_stops (ha : ∀ c ∈ a, p c = true) (hr : Stops p r) :
    (a ++ r).dropWhile p = r := by
  rw [List.dropWhile_append_of_pos ha]
  cases r with
  | nil => rfl
  | cons c r => rw [List.dropWhile_cons_of_neg (by simp [hr c rfl])]

/-- A run that a character ends is the same run whatever follows that character. -/
theorem exists_run_of_dropWhile {s : Text} {c : Char} (h : s.dropWhile p = c :: r) :
    ∃ a, s = a ++ c :: r ∧ ∀ r', (a ++ c :: r').takeWhile p = a ∧
      (a ++ c :: r').dropWhile p = c :: r' := by
  have hin := List.all_eq_true.1 (List.all_takeWhile (p := p) (l := s))
  have hc : p c = false := by
    have := List.head?_dropWhile_not p s
    rw [h] at this
    simpa using this
  refine ⟨s.takeWhile p, by rw [← h, List.takeWhile_append_dropWhile], fun r' => ?_⟩
  exact ⟨takeWhile_append_of_stops hin (stops_cons hc r'),
    dropWhile_append_of_stops hin (stops_cons hc r')⟩

end SlideDeck.Text
