import SlideDeck.Markup.Edit
import SlideDeck.Proofs.Markup.Balance
import SlideDeck.Proofs.Markup.EndTag
import SlideDeck.Proofs.Markup.Span
import SlideDeck.Proofs.Text.Position

/-!
# Spans behind an edit

An edit that replaces the content of an element leaves the tags of the element where they are, so
that the element is found again (`Element.exists_of_span`). Its span is then the new content, if a
scan for the end of the element passes over it (`Element.span_apply_of_passes`) or, in an element
that is searched for its end tag alone, if no tag starts in it (`Element.span_apply_of_raw`).
-/

namespace SlideDeck

namespace Markup

/-- What is read of a tag ends with a bracket, and it is read whatever follows the tag. -/
theorem exists_of_skipTagRest {mark : Option Char} {s rest : Text}
    (h : skipTagRest mark s = some rest) :
    ∃ a, (∃ w, a = w ++ ['>']) ∧ s = a ++ rest ∧ ∀ r, skipTagRest mark (a ++ r) = some r := by
  induction s generalizing mark with
  | nil => cases mark <;> cases h
  | cons c r ih =>
    cases mark with
    | some m =>
      rw [skipTagRest] at h
      obtain ⟨a, ⟨w, rfl⟩, rfl, ha⟩ := ih h
      exact ⟨c :: (w ++ ['>']), ⟨c :: w, rfl⟩, rfl,
        fun r => by rw [List.cons_append, skipTagRest, ha r]⟩
    | none =>
      rw [skipTagRest] at h
      split at h
      · next hc =>
        obtain rfl := Option.some.inj h
        exact ⟨[c], ⟨[], by rw [hc]; rfl⟩, rfl, fun r => by simp [skipTagRest, hc]⟩
      · next hc =>
        obtain ⟨a, ⟨w, rfl⟩, rfl, ha⟩ := ih h
        exact ⟨c :: (w ++ ['>']), ⟨c :: w, rfl⟩, rfl,
          fun r => by rw [List.cons_append, skipTagRest, if_neg hc, ha r]⟩

/-- The rest of a tag that is read from a place in a text stands between this place and what is
left. It is read there whatever is put in the place of what is left. -/
theorem skipTagRest_drop_take {html inside : Text} {k : Nat}
    (h : skipTagRest none (html.drop k) = some inside) :
    k < html.length - inside.length ∧ html.drop (html.length - inside.length) = inside ∧
      ∀ new, skipTagRest none ((html.take (html.length - inside.length) ++ new).drop k) =
        some new := by
  obtain ⟨a, ⟨w, hw⟩, ha, hall⟩ := exists_of_skipTagRest h
  have hlength := congrArg List.length ha
  rw [List.length_drop, List.length_append] at hlength
  have hpos : 0 < a.length := by simp [hw]
  have hstart : html.length - inside.length = k + a.length := by omega
  rw [hstart]
  refine ⟨by omega, by rw [← List.drop_drop, ha, List.drop_left], fun new => ?_⟩
  have hk : (html.take k).length = k := List.length_take_of_le (by omega)
  have hdrop : (html.take k ++ (a ++ new)).drop k = a ++ new := by
    rw [List.drop_append_of_le_length (Nat.le_of_eq hk.symm),
      List.drop_eq_nil_of_le (Nat.le_of_eq hk), List.nil_append]
  rw [List.take_add, ha, List.take_left, List.append_assoc, hdrop]
  exact hall new

namespace Tag

/-- A tag that is found in a text stands there. -/
theorem at?_of_mem_allFrom {n : Text} {offset skip : Nat} {s : Text} {t : Tag}
    (h : t ∈ allFrom n offset skip s) :
    ∃ k, t.offset = offset + k ∧ at? n (s.drop k) = some (t.role, t.length) := by
  induction s generalizing offset skip with
  | nil => cases skip <;> cases h
  | cons c r ih =>
    have later {skip' : Nat} (h : t ∈ allFrom n (offset + 1) skip' r) :
        ∃ k, t.offset = offset + k ∧ at? n ((c :: r).drop k) = some (t.role, t.length) := by
      obtain ⟨k, hk, hat⟩ := ih h
      exact ⟨k + 1, by omega, hat⟩
    cases skip with
    | succ skip => exact later h
    | zero =>
      rw [allFrom] at h
      split at h
      · next role length hat =>
        rcases List.mem_cons.1 h with rfl | h
        · exact ⟨0, rfl, hat⟩
        · exact later h
      · exact later h

theorem role_of_balance? {depth : Nat} {tags : List Tag} {t : Tag}
    (h : balance? depth tags = some t) :
    t.role = .closes := by
  induction tags generalizing depth with
  | nil => cases depth <;> cases h
  | cons u us ih =>
    rw [balance?] at h
    split at h
    · exact ih h
    · exact ih h
    · next hu =>
      split at h
      · cases h
        exact hu
      · exact ih h

end Tag

/-- Where something is recognized in a text. -/
theorem recognize_of_search {recognize : Text → Option Text} {s before after : Text}
    (h : Text.search recognize s = some (before, after)) :
    recognize (s.drop before.length) = some after := by
  induction s generalizing before with
  | nil =>
    obtain ⟨rest, hr, hb⟩ := Option.map_eq_some_iff.1 h
    obtain ⟨rfl, rfl⟩ := Prod.mk.inj hb
    exact hr
  | cons c r ih =>
    rw [Text.search] at h
    split at h
    · next hr =>
      obtain ⟨rfl, rfl⟩ := Prod.mk.inj (Option.some.inj h)
      exact hr
    · obtain ⟨⟨b, a⟩, hr, hb⟩ := Option.map_eq_some_iff.1 h
      obtain ⟨rfl, rfl⟩ := Prod.mk.inj hb
      exact ih hr

namespace Element

variable {html new : Text} {e : Element} {s : Span}

/-- What an element with a span is made of: the text before its content, and its end tag at the
start of what follows the content. Any other content between the two is what is searched for the end
tag then. -/
theorem exists_of_span (h : e.span html = .ok s) :
    ∃ offset, e.position.offset? html = some offset ∧ offset < s.start ∧
      (if isRawSpan e.name then ∃ rest, skipPlainEndTag e.name (html.drop s.stop) = some rest
        else isPlainName e.name = true →
          ∃ length, Tag.at? e.name (html.drop s.stop) = some (.closes, length)) ∧
      ∀ new, skipTagRest none ((html.take s.start ++ new).drop (offset + 1 + e.name.length)) =
        some new := by
  rw [span] at h
  split at h
  · next offset ho =>
    refine ⟨offset, ho, ?_⟩
    rw [spanAt] at h
    split at h
    · cases h
    next inside hinside =>
    obtain ⟨hlt, hdrop, hskip⟩ := skipTagRest_drop_take hinside
    have hbehind (n : Nat) : html.drop (html.length - inside.length + n) = inside.drop n := by
      rw [← List.drop_drop, hdrop]
    have hoffset : offset < html.length - inside.length := by omega
    dsimp only at h
    split at h
    · next hr =>
      split at h
      · next content rest hs =>
        cases h
        refine ⟨hoffset, ?_, hskip⟩
        rw [if_pos hr]
        exact ⟨rest, by rw [hbehind]; exact recognize_of_search hs⟩
      · cases h
    · next hr =>
      obtain ⟨tags, htags, h⟩ := Outcome.bind_eq_ok.1 h
      split at h
      · next t ht =>
        cases h
        refine ⟨hoffset, ?_, hskip⟩
        rw [if_neg hr]
        intro hplain
        rw [tagsIn, if_pos hplain] at htags
        cases htags
        obtain ⟨k, hk, hat⟩ := Tag.at?_of_mem_allFrom (Tag.mem_of_balance? ht)
        rw [Nat.zero_add] at hk
        rw [Tag.role_of_balance? ht, ← hk] at hat
        exact ⟨t.length, by rw [hbehind]; exact hat⟩
      · cases h
  · cases h

/-- Behind an edit of its content, an element starts where it did, and behind its start tag stands
the new content. -/
theorem exists_of_span_apply (h : e.span html = .ok s) (new : Text) :
    ∃ offset, e.position.offset? (Edit.apply html ⟨s, new⟩) = some offset ∧
      skipTagRest none ((Edit.apply html ⟨s, new⟩).drop (offset + 1 + e.name.length)) =
        some (new ++ html.drop s.stop) ∧
      (Edit.apply html ⟨s, new⟩).length - (new ++ html.drop s.stop).length = s.start := by
  obtain ⟨offset, ho, hlt, -, hskip⟩ := exists_of_span h
  have hl : (html.take s.start).length = s.start := by
    have := span_within h
    rw [List.length_take]
    omega
  have he : Edit.apply html ⟨s, new⟩ = html.take s.start ++ (new ++ html.drop s.stop) :=
    List.append_assoc ..
  refine ⟨offset, ?_, ?_, ?_⟩
  · rw [← List.take_append_drop s.start html] at ho
    rw [he]
    exact Position.offset?_append ho (by omega) _
  · rw [he]
    exact hskip _
  · rw [he, List.length_append, hl, Nat.add_sub_cancel]

/-- New content that a scan passes over is the content of the element. -/
theorem span_apply_of_passes (hn : IsNamed e.name) (hr : isRawSpan e.name = false)
    (h : e.span html = .ok s) (hp : Tag.Passes e.name new (html.drop s.stop)) :
    e.span (Edit.apply html ⟨s, new⟩) = .ok ⟨s.start, s.start + new.length⟩ := by
  obtain ⟨offset, ho, hskip, hlen⟩ := exists_of_span_apply h new
  obtain ⟨-, -, -, hend, -⟩ := exists_of_span h
  rw [hr, if_neg Bool.false_ne_true] at hend
  obtain ⟨length, hat⟩ := hend (isPlainName_of_isNamed hn.2)
  have hb : Tag.balance? 1 (Tag.all e.name (new ++ html.drop s.stop)) =
      some ⟨new.length, length, .closes⟩ := by
    rw [Tag.all, hp 0 1 (Nat.le_refl 1)]
    cases hd : html.drop s.stop with
    | nil =>
      rw [hd] at hat
      cases hat
    | cons c r =>
      rw [hd] at hat
      simp only [Tag.allFrom, hat, Tag.balance?, Nat.le_refl, ite_true, Nat.zero_add]
  simp only [span, ho, spanAt, hskip, hlen, hr, Bool.false_eq_true, ite_false,
    tagsIn_of_isNamed hn.2, bind, Except.bind, hb]

/-- New content without a bracket is the content of an element that is searched for its end tag
alone. -/
theorem span_apply_of_raw (hr : isRawSpan e.name = true) (h : e.span html = .ok s)
    (hnew : '<' ∉ new) :
    e.span (Edit.apply html ⟨s, new⟩) = .ok ⟨s.start, s.start + new.length⟩ := by
  obtain ⟨offset, ho, hskip, hlen⟩ := exists_of_span_apply h new
  obtain ⟨-, -, -, hend, -⟩ := exists_of_span h
  rw [hr, if_pos rfl] at hend
  obtain ⟨rest, hrest⟩ := hend
  have hs : Text.search (skipPlainEndTag e.name) (new ++ html.drop s.stop) = some (new, rest) := by
    rw [Text.search_append, Text.search_of_recognize hrest]
    · simp
    · intro x y hxy hy
      obtain ⟨c, y, rfl⟩ := List.exists_cons_of_ne_nil hy
      have hc : c ≠ '<' := by
        rintro rfl
        exact hnew (by simp [hxy])
      exact skipPlainEndTag_of_ne hc _
  simp only [span, ho, spanAt, hskip, hlen, hr, ite_true, hs]

end Element

end Markup

end SlideDeck
