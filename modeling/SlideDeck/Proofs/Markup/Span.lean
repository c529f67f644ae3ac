import SlideDeck.Markup.Span
import SlideDeck.Proofs.Expression.Found
import SlideDeck.Proofs.Outcome
import SlideDeck.Proofs.Text.Search

/-!
# Where inner spans lie

The span of an element's content lies in the text (`Element.span_within`): it starts no later than
it stops, and it stops no later than the text.
-/

namespace SlideDeck.Markup

theorem length_le_of_skipTagRest {mark : Option Char} {s rest : Text}
    (h : skipTagRest mark s = some rest) :
    rest.length ≤ s.length := by
  induction s generalizing mark with
  | nil => cases mark <;> cases h
  | cons c r ih =>
    cases mark with
    | some m =>
      exact Nat.le_succ_of_le (ih h)
    | none =>
      rw [skipTagRest] at h
      split at h
      · cases h
        exact Nat.le_succ _
      · exact Nat.le_succ_of_le (ih h)

namespace Tag

theorem offset_le_of_mem_allFrom {n : Text} {offset skip : Nat} {s : Text} {t : Tag}
    (h : t ∈ allFrom n offset skip s) : t.offset ≤ offset + s.length := by
  induction s generalizing offset skip with
  | nil => cases skip <;> cases h
  | cons c r ih =>
    have ih {offset' skip' : Nat} (h : t ∈ allFrom n offset' skip' r) := ih h
    cases skip with
    | succ skip =>
      have := ih h
      rw [List.length_cons]
      omega
    | zero =>
      rw [allFrom] at h
      split at h
      · rcases List.mem_cons.1 h with rfl | h
        · exact Nat.le_add_right _ _
        · have := ih h
          rw [List.length_cons]
          omega
      · have := ih h
        rw [List.length_cons]
        omega

theorem mem_of_balance? {depth : Nat} {tags : List Tag} {t : Tag}
    (h : balance? depth tags = some t) : t ∈ tags := by
  induction tags generalizing depth with
  | nil => cases depth <;> cases h
  | cons u us ih =>
    rw [balance?] at h
    split at h
    · exact List.mem_cons_of_mem _ (ih h)
    · exact List.mem_cons_of_mem _ (ih h)
    · split at h
      · cases h
        exact List.mem_cons_self ..
      · exact List.mem_cons_of_mem _ (ih h)

end Tag

/-- A tag in the last part of a text starts in this part. -/
theorem offset_le_of_mem_tagsIn {n html inside : Text} {tags : List Tag} {t : Tag}
    (h : tagsIn n html inside = .ok tags) (ht : t ∈ tags) : t.offset ≤ inside.length := by
  unfold tagsIn at h
  split at h
  · cases h
    have := Tag.offset_le_of_mem_allFrom ht
    rwa [Nat.zero_add] at this
  · dsimp only at h
    split at h
    · cases h
      obtain ⟨x, hx, rfl⟩ := List.mem_map.1 ht
      have := Expression.start_of_mem_found hx
      show x.1 - (html.length - inside.length) ≤ inside.length
      omega
    · cases h

theorem spanAt_within {html name : Text} {offset : Nat} {s : Span}
    (h : spanAt html offset name = .ok s) :
    s.start ≤ s.stop ∧ s.stop ≤ html.length := by
  rw [spanAt] at h
  split at h
  · cases h
  · next inside hi =>
    have hl := length_le_of_skipTagRest hi
    rw [List.length_drop] at hl
    dsimp only at h
    split at h
    · split at h
      · next content _ hc =>
        cases h
        have := Text.length_le_of_search hc
        exact ⟨Nat.le_add_right _ _, by
          show html.length - inside.length + content.length ≤ _; omega⟩
      · cases h
    · obtain ⟨tags, htags, h⟩ := Outcome.bind_eq_ok.1 h
      split at h
      · next t ht =>
        cases h
        have := offset_le_of_mem_tagsIn htags (Tag.mem_of_balance? ht)
        exact ⟨Nat.le_add_right _ _, by show html.length - inside.length + t.offset ≤ _; omega⟩
      · cases h

theorem Element.span_within {html : Text} {e : Element} {s : Span} (h : e.span html = .ok s) :
    s.start ≤ s.stop ∧ s.stop ≤ html.length := by
  rw [Element.span] at h
  split at h
  · exact spanAt_within h
  · cases h

end SlideDeck.Markup
