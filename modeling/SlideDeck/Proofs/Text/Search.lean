import SlideDeck.Text.Basic

/-!
# First occurrences

`Text.cut` finds the first occurrence of a pattern: what stands before it is as short as it can be
(`length_le_of_cut`). Where the first occurrence is does not depend on what follows it
(`cut_append_of_cut`), and a part of a text in which no occurrence starts is passed over
(`cut_cons_of_not_prefix`).

Two characters in a row that stand in a text of two parts stand in one of the parts, if the second
part does not start with the second character (`pair_of_append`).
-/

namespace SlideDeck.Text

variable {pat : Text}

theorem cut_cons_of_not_prefix {c : Char} {r : Text} (h : ¬pat <+: c :: r) :
    cut pat (c :: r) = (cut pat r).map fun (before, after) => (c :: before, after) := by
  rw [cut, if_neg h]

theorem cut_self (after : Text) : cut pat (pat ++ after) = some ([], after) := by
  cases pat with
  | nil => cases after <;> simp [cut]
  | cons p ps =>
    rw [List.cons_append, cut, if_pos ⟨after, rfl⟩]
    simp

/-- No occurrence starts before the first one. -/
theorem length_le_of_cut {s before after before' after' : Text}
    (h : cut pat s = some (before, after)) (hs : s = before' ++ pat ++ after') :
    before.length ≤ before'.length := by
  induction s generalizing before before' with
  | nil =>
    rw [cut] at h
    split at h
    · obtain ⟨rfl, -⟩ := Prod.mk.inj (Option.some.inj h)
      exact Nat.zero_le _
    · cases h
  | cons c r ih =>
    rw [cut] at h
    split at h
    · obtain ⟨rfl, -⟩ := Prod.mk.inj (Option.some.inj h)
      exact Nat.zero_le _
    · next hp =>
      obtain ⟨⟨b, a⟩, hr, hb⟩ := Option.map_eq_some_iff.1 h
      obtain ⟨rfl, rfl⟩ := Prod.mk.inj hb
      cases before' with
      | nil => exact absurd ⟨after', by rw [hs]; simp⟩ hp
      | cons d before' =>
        simp only [List.cons_append, List.cons.injEq] at hs
        exact Nat.succ_le_succ (ih hr hs.2)

/-- The first occurrence stays where it is when what follows it changes. -/
theorem cut_append_of_cut {s before after : Text} (h : cut pat s = some (before, after))
    (after' : Text) :
    cut pat (before ++ pat ++ after') = some (before, after') := by
  induction s generalizing before with
  | nil =>
    rw [cut] at h
    split at h
    · obtain ⟨rfl, -⟩ := Prod.mk.inj (Option.some.inj h)
      exact cut_self after'
    · cases h
  | cons c r ih =>
    have hs := cut_eq_some h
    rw [cut] at h
    split at h
    · obtain ⟨rfl, -⟩ := Prod.mk.inj (Option.some.inj h)
      exact cut_self after'
    · next hp =>
      obtain ⟨⟨b, a⟩, hr, hb⟩ := Option.map_eq_some_iff.1 h
      obtain ⟨rfl, rfl⟩ := Prod.mk.inj hb
      rw [List.cons_append, List.cons_append, cut_cons_of_not_prefix, ih hr]
      · rfl
      -- The pattern would be a prefix of what both texts start with.
      · intro hp'
        refine hp (hs ▸ ?_)
        have hl : pat.length ≤ (c :: b ++ pat).length := by simp; omega
        have := List.prefix_of_prefix_length_le hp' ⟨after', rfl⟩ hl
        exact this.trans ⟨a, rfl⟩

/-- A pattern that occurs in a text is found there, whatever follows the text. -/
theorem cut_append_of_holds {s : Text} (h : Holds pat s) (r : Text) :
    ∃ before after, s = before ++ pat ++ after ∧ cut pat (s ++ r) = some (before, after ++ r) := by
  obtain ⟨⟨before, after⟩, hc⟩ := Option.isSome_iff_exists.1 (cut_isSome_iff.2 h)
  have hs := cut_eq_some hc
  refine ⟨before, after, hs, ?_⟩
  have := cut_append_of_cut hc (after ++ r)
  rwa [← List.append_assoc, ← hs] at this

/-- What stands before a place in a text is no longer than the text. -/
theorem length_le_of_search {recognize : Text → Option Text} {s before after : Text}
    (h : search recognize s = some (before, after)) : before.length ≤ s.length := by
  induction s generalizing before with
  | nil =>
    obtain ⟨rest, -, hb⟩ := Option.map_eq_some_iff.1 h
    obtain ⟨rfl, -⟩ := Prod.mk.inj hb
    exact Nat.le_refl _
  | cons c r ih =>
    rw [search] at h
    split at h
    · cases h
      exact Nat.zero_le _
    · obtain ⟨⟨b, a⟩, hr, hb⟩ := Option.map_eq_some_iff.1 h
      obtain ⟨rfl, rfl⟩ := Prod.mk.inj hb
      exact Nat.succ_le_succ (ih hr)

/-! ## Two characters in a row -/

variable {a b c : Char} {p q s u x y : Text}

theorem holds_pair_iff : Holds [a, b] s ↔ ∃ x y, s = x ++ a :: b :: y := by
  simp only [Holds, List.append_assoc, List.cons_append, List.nil_append]

theorem pair_of_append (hb : q.head? ≠ some b) (h : p ++ q = x ++ a :: b :: y) :
    (∃ z, p = x ++ a :: b :: z) ∨ ∃ z, x = p ++ z ∧ q = z ++ a :: b :: y := by
  rcases List.append_eq_append_iff.1 h with ⟨z, hx, hq⟩ | ⟨z, hp, hq⟩
  · exact .inr ⟨z, hx, hq⟩
  · match z, hp, hq with
    | [], hp, hq => exact .inr ⟨[], by simpa using hp.symm, hq.symm⟩
    | [_], hp, hq =>
      simp only [List.cons_append, List.nil_append, List.cons.injEq] at hq
      exact absurd (by rw [← hq.2]; rfl) hb
    | _ :: _ :: z, hp, hq =>
      simp only [List.cons_append, List.cons.injEq] at hq
      obtain ⟨rfl, rfl, -⟩ := hq
      exact .inl ⟨z, hp⟩

theorem pair_of_append_of_not_mem (ha : a ∉ p) (h : p ++ q = x ++ a :: b :: y) :
    ∃ z, x = p ++ z ∧ q = z ++ a :: b :: y := by
  rcases List.append_eq_append_iff.1 h with ⟨z, hx, hq⟩ | ⟨z, hp, hq⟩
  · exact ⟨z, hx, hq⟩
  · cases z with
    | nil => exact ⟨[], by simpa using hp.symm, hq.symm⟩
    | cons d z =>
      obtain ⟨rfl, -⟩ := List.cons.inj hq
      exact absurd (hp ▸ List.mem_append_right _ (List.mem_cons_self ..)) ha

/-- Two characters are found right behind a text in which they do not occur. -/
theorem cut_pair_of_not_holds (h : ¬Holds [a, b] (p ++ [a])) (r : Text) :
    cut [a, b] (p ++ a :: b :: r) = some (p, r) := by
  induction p with
  | nil => exact cut_self r
  | cons c p ih =>
    have hp : ¬[a, b] <+: c :: (p ++ a :: b :: r) := by
      intro hp
      have hl : [a, b].length ≤ (c :: (p ++ [a])).length := by simp
      have hq : c :: (p ++ [a]) <+: c :: (p ++ a :: b :: r) := ⟨b :: r, by simp⟩
      obtain ⟨t, ht⟩ := List.prefix_of_prefix_length_le hp hq hl
      exact h ⟨[], t, ht.symm⟩
    have ih := ih fun ⟨x, y, hs⟩ => h ⟨c :: x, y, congrArg (c :: ·) hs⟩
    rw [List.cons_append, cut_cons_of_not_prefix hp, ih]
    rfl

/-- What follows the first character needs a place. -/
theorem not_pair_of_append_singleton (ha : a ∉ p) (h : p ++ [c] = x ++ a :: b :: y) : False := by
  obtain ⟨z, -, hz⟩ := pair_of_append_of_not_mem ha h
  have := congrArg List.length hz
  simp only [List.length_append, List.length_cons, List.length_nil] at this
  omega

/-- A text that is cut off behind a character starts like the whole text. -/
theorem exists_cons_of_append (h : c :: u = x ++ a :: y) : ∃ t, x ++ [a] = c :: t := by
  cases x with
  | nil => exact ⟨[], by rw [(List.cons.inj h).1]; rfl⟩
  | cons d x => exact ⟨x ++ [a], by rw [(List.cons.inj h).1]; rfl⟩

end SlideDeck.Text
