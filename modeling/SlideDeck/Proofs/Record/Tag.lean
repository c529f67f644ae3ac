import SlideDeck.Proofs.Markup.Stylesheet
import SlideDeck.Proofs.Record.Written

/-!
# Tags in written values

A record is written into a script, in which markup looks for the end tag. All that stands between
the keys and strings of a written value is without brackets, and neither a quote nor a brace stands
in a tag: a value holds no tag of some kind (`IsTagKind`) if none of its keys and strings does, as
it is written (`Open.renderAt`).
-/

namespace SlideDeck.Record

variable {recognize : Text → Option Text} {s t : Text} {level depth : Nat} {v : Value}

/-- The marks that stand in no tag. -/
def tagMarks : List Char := ['"', '\x7b', '\x7d']

/-- A kind of tags: they start with a bracket and hold no mark, and they are what they are whatever
mark follows. -/
structure IsTagKind (recognize : Text → Option Text) : Prop where
  nil : recognize [] = none
  bracket : ∀ {c}, c ≠ '<' → ∀ r, recognize (c :: r) = none
  mark : ∀ {d}, d ∈ tagMarks → ∀ {s}, s ≠ [] → ∀ r, recognize (s ++ d :: r) = none ↔
    recognize s = none

namespace IsTagKind

variable (h : IsTagKind recognize)

include h

theorem search_append_of_not_mem (ht : '<' ∉ t) (r : Text) :
    Text.search recognize (t ++ r) = none ↔ Text.search recognize r = none :=
  Text.search_append_of_not_mem h.bracket ht r

/-- No tag goes over a mark. -/
theorem search_append_cons {d : Char} (hd : d ∈ tagMarks) (t r : Text) :
    Text.search recognize (t ++ d :: r) = none ↔
      Text.search recognize t = none ∧ Text.search recognize (d :: r) = none := by
  constructor
  · intro hall
    rw [Text.search_eq_none_iff] at hall
    refine ⟨Text.search_eq_none_iff.2 fun x y hxy => ?_,
      Text.search_eq_none_iff.2 fun x y hxy => ?_⟩
    · by_cases hy : y = []
      · rw [hy, h.nil]
      · exact (h.mark hd hy r).1 (hall x (y ++ d :: r) (by rw [hxy, List.append_assoc]))
    · exact hall (t ++ x) y (by rw [hxy, List.append_assoc])
  · rintro ⟨ht, hr⟩
    rw [Text.search_append, hr]
    · rfl
    · intro x y hxy hy
      exact (h.mark hd hy r).2 (Text.recognize_eq_none_of_search ht hxy)

end IsTagKind

/-- The end tags of scripts. -/
theorem isTagKind_skipEndTag : IsTagKind (Markup.skipEndTag "script".toList) where
  nil := rfl
  bracket hc r := Markup.skipEndTag_of_ne hc r
  mark {d} hd {s} hs r := by
    have hall : tagMarks.all (fun d => "script".toList.all fun c => !Text.sameLetter c d) =
        true := by decide
    have hletter : ∀ c ∈ "script".toList, Text.sameLetter c d = false :=
      Markup.Stylesheet.sameLetter_of_all (List.all_eq_true.1 hall d hd)
    refine Markup.skipEndTag_append_eq_none_iff (by decide) ?_ hs r
    simp only [tagMarks, List.mem_cons, List.not_mem_nil, or_false] at hd
    rcases hd with rfl | rfl | rfl <;> exact ⟨by decide, by decide, by decide, hletter⟩

/-- The starts of link tags. -/
theorem isTagKind_skipOpening : IsTagKind Markup.Stylesheet.skipOpening where
  nil := rfl
  bracket {c} hc r := by
    have ho := Markup.Stylesheet.not_opens_of_ne
      (Bool.eq_false_iff.2 fun h => hc (Markup.eq_of_sameLetter (by decide) h)) r
    rw [Markup.Stylesheet.skipOpening, ho]
    rfl
  mark {d} hd {s} hs r := by
    have hall : tagMarks.all (fun d => "link".toList.all fun c => !Text.sameLetter c d) = true := by
      decide
    rw [Markup.Stylesheet.skipOpening, Markup.Stylesheet.skipOpening,
      Markup.Stylesheet.startsWithLetters_opening_append
        (Markup.Stylesheet.sameLetter_of_all (List.all_eq_true.1 hall d hd)) hs]
    cases Text.startsWithLetters Markup.Stylesheet.opening s <;> simp

/-- What no tag stands in, whatever text without tags is behind it. -/
def Open (recognize : Text → Option Text) (t : Text) : Prop :=
  ∀ rest, Text.search recognize rest = none → Text.search recognize (t ++ rest) = none

namespace Open

theorem append {t u : Text} (ht : Open recognize t) (hu : Open recognize u) :
    Open recognize (t ++ u) := fun rest hr => by
  rw [List.append_assoc]
  exact ht _ (hu _ hr)

theorem of_not_mem (hk : IsTagKind recognize) {t : Text} (h : '<' ∉ t) :
    Open recognize t := fun _ hr =>
  (hk.search_append_of_not_mem h _).2 hr

/-- A string is closed by its quote. -/
theorem string (hk : IsTagKind recognize) (h : Text.search recognize (string s) = none) :
    Open recognize (string s) := fun rest hr => by
  have hs : Record.string s = ('"' :: s.flatMap escapeChar) ++ ['"'] := rfl
  rw [hs, hk.search_append_cons (by decide)] at h
  rw [hs, List.append_assoc]
  exact (hk.search_append_cons (by decide) _ _).2
    ⟨h.1, (hk.search_append_of_not_mem (t := ['"']) (by decide) rest).2 hr⟩

/-- A written value holds no tag if none of its keys and strings does. -/
theorem renderAt (hk : IsTagKind recognize) (hf : v.Fits depth) (hi : v.Integral)
    (h : ∀ s ∈ v.texts, Text.search recognize (Record.string s) = none) :
    Open recognize (renderAt level v) :=
  renderAt_of_texts append (fun ht => of_not_mem hk (not_mem_of_all_isOutside (by decide) ht)) hf hi
    fun s hs => string hk (h s hs)

end Open

end SlideDeck.Record
