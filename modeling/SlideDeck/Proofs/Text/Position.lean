import Mathlib.Data.List.Induction
import SlideDeck.Text.Position

/-!
# Positions and offsets

The position behind a text leads back to the length of the text, whatever follows it
(`offset?_after`), and an offset that is found in a text stays where it is when the text changes
behind it (`offset?_append`).

The line is one more than the line feeds that were counted, and the column is how far the last of
them lies back (`after_start`). So the search for a line goes back from what was counted to the
offset, and it fails exactly for lines that start behind the last line feed of the text
(`locate?_counted`).
-/

namespace SlideDeck.Position

theorem after_append (p : Position) (a b : Text) : p.after (a ++ b) = (p.after a).after b :=
  List.foldl_append

/-- Behind a text, the position is in the same line, or in one that starts in the text. -/
theorem after_cases (q : Position) (a r : Text) :
    q.after a = ⟨q.line, q.column + a.length⟩ ∨
      ∃ n k, (q.after a).line = q.line + (n + 1) ∧ lineStart? (n + 1) (a ++ r) = some k ∧
        k + (q.after a).column = a.length := by
  induction a generalizing q with
  | nil => exact .inl rfl
  | cons c a ih =>
    have hafter : q.after (c :: a) = (q.step c).after a := rfl
    have hline : lineStart? 0 (a ++ r) = some 0 := by cases a ++ r <;> rfl
    rw [hafter]
    by_cases hc : c = '\n'
    · have hstep : q.step c = ⟨q.line + 1, 0⟩ := by rw [step, if_pos hc]
      right
      rcases ih (q.step c) with h | ⟨n, k, hl, hk, hs⟩
      · refine ⟨0, 1, by rw [h, hstep], ?_, ?_⟩
        · rw [List.cons_append, lineStart?, if_pos hc, hline]
          rfl
        · rw [h, hstep, List.length_cons]
          show 1 + (0 + a.length) = a.length + 1
          omega
      · refine ⟨n + 1, k + 1, ?_, ?_, by rw [List.length_cons]; omega⟩
        · rw [hl, hstep]
          show q.line + 1 + (n + 1) = q.line + (n + 1 + 1)
          omega
        · rw [List.cons_append, lineStart?, if_pos hc, hk]
          rfl
    · have hstep : q.step c = ⟨q.line, q.column + 1⟩ := by rw [step, if_neg hc]
      rcases ih (q.step c) with h | ⟨n, k, hl, hk, hs⟩
      · left
        rw [h, hstep, List.length_cons, Nat.add_assoc, Nat.add_comm 1]
      · right
        refine ⟨n, k + 1, by rw [hl, hstep], ?_, by rw [List.length_cons]; omega⟩
        rw [List.cons_append, lineStart?, if_neg hc, hk]
        rfl

/-- The position behind a text is found at the length of the text. -/
theorem offset?_after (a r : Text) : (start.after a).offset? (a ++ r) = some a.length := by
  rcases after_cases start a r with h | ⟨n, k, hl, hk, hs⟩
  · have hline : lineStart? 0 (a ++ r) = some 0 := by cases a ++ r <;> rfl
    rw [h, offset?]
    show (lineStart? 0 (a ++ r)).map (· + (0 + a.length)) = _
    rw [hline]
    simp
  · have hn : (start.after a).line - 1 = n + 1 := by
      rw [hl]
      exact Nat.add_sub_cancel_left ..
    rw [offset?, hn, hk, Option.map_some, hs]

/-- A line starts where it did as long as the text up to there is the same. -/
theorem lineStart?_append {n k : Nat} {a r : Text} (h : lineStart? n (a ++ r) = some k)
    (hk : k ≤ a.length) (r' : Text) :
    lineStart? n (a ++ r') = some k := by
  induction a generalizing n k with
  | nil =>
    obtain rfl : k = 0 := by simpa using hk
    cases n with
    | zero => simp [lineStart?]
    | succ n =>
      cases r with
      | nil => cases h
      | cons d r =>
        obtain ⟨j, -, hj⟩ := Option.map_eq_some_iff.1 h
        cases hj
  | cons c a ih =>
    cases n with
    | zero => exact h
    | succ n =>
      obtain ⟨j, hj, rfl⟩ := Option.map_eq_some_iff.1 h
      have ih := ih hj (by simpa using hk)
      rw [List.cons_append, lineStart?, ih]
      rfl

theorem offset?_append {p : Position} {k : Nat} {a r : Text} (h : p.offset? (a ++ r) = some k)
    (hk : k ≤ a.length) (r' : Text) : p.offset? (a ++ r') = some k := by
  obtain ⟨j, hj, rfl⟩ := Option.map_eq_some_iff.1 h
  rw [offset?, lineStart?_append hj (by omega) r']
  rfl

/-! ## Counting line feeds -/

/-- How many characters stand behind the last line feed of a text. -/
def columnBehind (a : Text) : Nat := (a.reverse.takeWhile (· ≠ '\n')).length

theorem columnBehind_append_feed (a : Text) :
    columnBehind (a ++ ['\n']) = 0 := by simp [columnBehind]

theorem columnBehind_append_of_ne {c : Char} (hc : c ≠ '\n') (a : Text) :
    columnBehind (a ++ [c]) = columnBehind a + 1 := by
  simp [columnBehind, hc]

/-- The position behind a text, told by its line feeds. -/
theorem after_start (a : Text) : start.after a = ⟨1 + a.count '\n', columnBehind a⟩ := by
  -- The position is carried from the left to the right, so the induction takes characters from the
  -- end of the text.
  induction a using List.reverseRecOn with
  | nil => rfl
  | append_singleton a c ih =>
    rw [after_append, ih]
    show step ⟨1 + a.count '\n', columnBehind a⟩ c = _
    by_cases hc : c = '\n'
    · subst hc
      simp [step, columnBehind_append_feed, Nat.add_assoc]
    · simp [step, hc, columnBehind_append_of_ne hc]

/-- A line is found if the text has the line feeds in front of it. -/
theorem lineStart?_eq_none_iff {n : Nat} {s : Text} : lineStart? n s = none ↔ s.count '\n' < n := by
  induction s generalizing n with
  | nil => cases n <;> simp [lineStart?]
  | cons c s ih =>
    cases n with
    | zero => simp [lineStart?]
    | succ n =>
      rw [lineStart?, Option.map_eq_none_iff, ih, List.count_cons]
      by_cases hc : c = '\n' <;> simp [hc]

theorem locate?_eq_none_iff {html : Text} {line column : Int} :
    locate? html line column = none ↔ lineStart? (line - 1).toNat html = none := by
  rw [locate?]
  cases lineStart? (line - 1).toNat html <;> simp

/-- The offset of a position is the offset of its line and its column. -/
theorem locate?_eq_offset? (html : Text) (p : Position) :
    locate? html p.line p.column = (p.offset? html).map fun offset => (offset : Int) := by
  have hline : ((p.line : Int) - 1).toNat = p.line - 1 := by omega
  rw [locate?, offset?, hline]
  cases lineStart? (p.line - 1) html <;> simp

/-- Locating inverts counting. An offset of a text is at the line and the column that are counted up
to it, and the search leads back from them to the offset; no line is found that starts behind the
last line feed. -/
theorem locate?_counted (html : Text) :
    (∀ p ≤ html.length,
      start.after (html.take p) = ⟨1 + (html.take p).count '\n', columnBehind (html.take p)⟩ ∧
        locate? html (1 + (html.take p).count '\n' : Nat) (columnBehind (html.take p)) = some p) ∧
    ∀ line column : Int, locate? html line column = none ↔ 1 + (html.count '\n' : Int) < line := by
  refine ⟨fun p hp => ⟨after_start _, ?_⟩, fun line column => ?_⟩
  · have hoffset := offset?_after (html.take p) (html.drop p)
    rw [List.take_append_drop, List.length_take_of_le hp, after_start] at hoffset
    have hlocate :=
      locate?_eq_offset? html ⟨1 + (html.take p).count '\n', columnBehind (html.take p)⟩
    rwa [hoffset] at hlocate
  · rw [locate?_eq_none_iff, lineStart?_eq_none_iff]
    omega

/-- Right behind a line feed, with an empty line before and no line feed at the end. -/
theorem locate?_counted_empty_line :
    let html := "a\n\r\n\nbc".toList
    5 ≤ html.length ∧ locate? html 4 0 = some 5 ∧ (1 + (html.count '\n' : Int) < 5) ∧
      locate? html 5 0 = none := by
  have h := locate?_counted "a\n\r\n\nbc".toList
  have hcount : (1 + ("a\n\r\n\nbc".toList.count '\n' : Int) < 5) := by decide
  exact ⟨by decide, (h.1 5 (by decide)).2, hcount, (h.2 5 0).2 hcount⟩

end SlideDeck.Position
