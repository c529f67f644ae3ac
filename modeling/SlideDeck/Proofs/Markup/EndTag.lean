import SlideDeck.Markup.Event
import SlideDeck.Markup.Span
import SlideDeck.Proofs.Markup.StartTag
import SlideDeck.Proofs.Text.Search

/-!
# The end of raw text

The raw text of a script or a style sheet goes up to the first end tag of its name (`skipEndTag`).
Only a few characters stand in an end tag, and no other bracket (`skipEndTag_eq_some`), so that a
text without end tags does not become part of one when another tag follows it: the first end tag is
then the one that follows (`search_skipEndTag`). The span of the content is searched for a narrower
kind of end tag (`skipPlainEndTag`), and it ends at the same place (`search_skipPlainEndTag`).
-/

namespace SlideDeck.Text

/-- What is recognized nowhere in a text, whatever is behind it, is searched for behind it. -/
theorem search_append {recognize : Text → Option Text} {t r : Text}
    (h : ∀ x y, t = x ++ y → y ≠ [] → recognize (y ++ r) = none) :
    search recognize (t ++ r) = (search recognize r).map fun (before, after) =>
      (t ++ before, after) := by
  induction t with
  | nil => simp
  | cons c t ih =>
    have hc : recognize (c :: (t ++ r)) = none := h [] (c :: t) rfl (by simp)
    have ih := ih fun x y hxy hy => h (c :: x) y (by rw [hxy]; rfl) hy
    rw [List.cons_append, search, hc, ih, Option.map_map]
    rfl

/-- What is recognized at the start of a text is found there. -/
theorem search_of_recognize {recognize : Text → Option Text} {s rest : Text}
    (h : recognize s = some rest) :
    search recognize s = some ([], rest) := by
  cases s with
  | nil => rw [search, h]; rfl
  | cons c s => rw [search, h]

/-- What is not found in a text is recognized at no place in it. -/
theorem recognize_eq_none_of_search {recognize : Text → Option Text} {t x y : Text}
    (h : search recognize t = none) (ht : t = x ++ y) : recognize y = none := by
  induction t generalizing x y with
  | nil =>
    obtain ⟨rfl, rfl⟩ := List.nil_eq_append_iff.1 ht
    simpa [search] using h
  | cons c t ih =>
    rw [search] at h
    split at h
    · cases h
    · next hc =>
      cases x with
      | nil => rw [List.nil_append] at ht; rw [← ht]; exact hc
      | cons d x => exact ih (Option.map_eq_none_iff.1 h) (List.cons.inj ht).2

theorem search_eq_none_iff {recognize : Text → Option Text} {t : Text} :
    search recognize t = none ↔ ∀ x y, t = x ++ y → recognize y = none := by
  refine ⟨fun h x y => recognize_eq_none_of_search h, fun h => ?_⟩
  rw [← List.append_nil t, search_append fun x y hxy _ => ?_, search,
    h t [] (List.append_nil t).symm]
  · rfl
  · rw [List.append_nil]
    exact h x y hxy

/-- Where only a bracket starts what is recognized, a text without brackets need not be searched. -/
theorem search_append_of_not_mem {recognize : Text → Option Text}
    (h : ∀ {c}, c ≠ '<' → ∀ r, recognize (c :: r) = none) {t : Text} (ht : '<' ∉ t) (r : Text) :
    search recognize (t ++ r) = none ↔ search recognize r = none := by
  rw [search_append, Option.map_eq_none_iff]
  intro x y hxy hy
  obtain ⟨c, y, rfl⟩ := List.exists_cons_of_ne_nil hy
  refine h ?_ _
  rintro rfl
  exact ht (by rw [hxy]; simp)

end SlideDeck.Text

namespace SlideDeck.Markup

variable {name s rest : Text}

/-- A character that does not stand in any end tag of the name, behind its first one. -/
def Seals (name : Text) (d : Char) : Prop :=
  d ≠ '/' ∧ d ≠ '>' ∧ Text.isBlank d = false ∧ ∀ c ∈ name, Text.sameLetter c d = false

theorem seals_bracket (hn : ∀ c ∈ name, isElementNameChar c = true) : Seals name '<' :=
  ⟨by decide, by decide, by decide, fun c hc => sameLetter_mark (hn c hc) (by decide)⟩

theorem isBlank_of_isElementNameChar {c : Char} (h : isElementNameChar c = true) :
    Text.isBlank c = false := by
  rw [isElementNameChar, Bool.or_eq_true, isAlphanum_iff, isUpper_iff, isLower_iff,
    Text.isDigit_iff, beq_iff_eq] at h
  rcases h with ((h | h) | h) | rfl
  · exact Text.isBlank_of_visible (by omega)
  · exact Text.isBlank_of_visible (by omega)
  · exact Text.isBlank_of_visible (by omega)
  · rfl

theorem isElementNameChar_lowerChar {c : Char} (h : isElementNameChar c = true) :
    isElementNameChar (Text.lowerChar c) = true := by
  have hlt := toNat_lt_of_isElementNameChar h
  cases hu : c.isUpper with
  | false => rwa [lowerChar_of_lt hlt hu]
  | true =>
    have hc := isUpper_iff.1 hu
    have hlower : c.toLower.isLower = true := by
      rw [isLower_iff, toNat_toLower_of_isUpper hu]
      omega
    rw [Text.lowerChar, if_pos hlt, isElementNameChar, Bool.or_eq_true, isAlphanum_iff]
    exact .inl (.inl (.inr hlower))

/-- A blank has no other case and no other form. -/
theorem eq_of_sameLetter_of_isBlank {c d : Char} (hd : Text.isBlank d = true)
    (h : Text.sameLetter c d = true) :
    Text.lowerChar c = d := by
  have hall : ∀ range ∈ Text.blankRanges, ∀ k < range.2 + 1 - range.1,
      Text.lowerChar (Char.ofNat (range.1 + k)) = Char.ofNat (range.1 + k) ∧
        ∀ forms ∈ Text.letterForms, range.1 + k ∉ forms := by decide +kernel
  simp only [Text.isBlank, Text.inRanges, List.any_eq_true, Bool.and_eq_true, decide_eq_true_eq]
    at hd
  obtain ⟨range, hr, h₁, h₂⟩ := hd
  have hblank := hall range hr (d.toNat - range.1) (by omega)
  rw [Nat.add_sub_cancel' h₁, Char.ofNat_toNat] at hblank
  simp only [Text.sameLetter, hblank.1, Bool.or_eq_true, beq_iff_eq, List.any_eq_true,
    Bool.and_eq_true, List.contains_iff_mem] at h
  rcases h with h | ⟨forms, hf, -, hmem⟩
  · exact h
  · exact absurd hmem (hblank.2 forms hf)

/-- A name's character is not like any blank. -/
theorem isBlank_eq_false_of_sameLetter {c d : Char} (hc : isElementNameChar c = true)
    (h : Text.sameLetter c d = true) : Text.isBlank d = false := by
  refine Bool.eq_false_iff.2 fun hd => ?_
  have := isBlank_of_isElementNameChar (isElementNameChar_lowerChar hc)
  rw [eq_of_sameLetter_of_isBlank hd h, hd] at this
  cases this

/-- Letters that are met are as many as the name has, and each of them is like one of the name. -/
theorem exists_of_startsWithLetters (h : Text.startsWithLetters name s = true) :
    ∃ letters r, s = letters ++ r ∧ letters.length = name.length ∧
      (∀ d, (∀ c ∈ name, Text.sameLetter c d = false) → d ∉ letters) ∧
      ∀ r', Text.startsWithLetters name (letters ++ r') = true := by
  induction name generalizing s with
  | nil => exact ⟨[], s, rfl, rfl, fun _ _ => List.not_mem_nil, fun _ => rfl⟩
  | cons c name ih =>
    cases s with
    | nil => cases h
    | cons d s =>
      simp only [Text.startsWithLetters, Bool.and_eq_true] at h
      obtain ⟨letters, r, rfl, hl, hb, hs⟩ := ih h.2
      refine ⟨d :: letters, r, rfl, congrArg (· + 1) hl, fun e he => ?_, fun r' => ?_⟩
      · rw [List.mem_cons, not_or]
        refine ⟨?_, hb e fun c hc => he c (List.mem_cons_of_mem _ hc)⟩
        rintro rfl
        rw [he c (List.mem_cons_self ..)] at h
        cases h.1
      · simp [Text.startsWithLetters, h.1, hs r']

theorem stripLeft_append {b r : Text} (hb : ∀ c ∈ b, Text.isBlank c = true)
    (hr : Text.Stops Text.isBlank r) :
    Text.stripLeft (b ++ r) = r := Text.dropWhile_append_of_stops hb hr

/-- A text is the blanks at its start and what is left without them. -/
theorem exists_stripLeft (s : Text) :
    ∃ b, s = b ++ Text.stripLeft s ∧ (∀ c ∈ b, Text.isBlank c = true) ∧
      Text.Stops Text.isBlank (Text.stripLeft s) := by
  have hall := List.all_eq_true.1 (@List.all_takeWhile _ Text.isBlank s)
  refine ⟨s.takeWhile Text.isBlank, List.takeWhile_append_dropWhile.symm, hall, ?_⟩
  intro c hc
  have := List.head?_dropWhile_not Text.isBlank s
  rw [show (s.dropWhile Text.isBlank).head? = some c from hc] at this
  simpa using this

/-- An end tag is a bracket and a text that no character seals, and it is one whatever follows
it. -/
theorem skipEndTag_eq_some (hne : name ≠ []) (h : skipEndTag name s = some rest) :
    ∃ body, s = '<' :: body ++ rest ∧ (∀ d, Seals name d → d ∉ body) ∧
      ∀ r, skipEndTag name ('<' :: body ++ r) = some r := by
  rw [skipEndTag.eq_def] at h
  split at h
  · next r =>
    obtain ⟨b, hr, hb, hstop⟩ := exists_stripLeft r
    dsimp only at h
    split at h
    · next hl =>
      obtain ⟨letters, r₂, hr₂, hlen, hbr, hs⟩ := exists_of_startsWithLetters hl
      obtain ⟨b₂, hr₃, hb₂, hstop₂⟩ := exists_stripLeft r₂
      rw [hr₂, ← hlen, List.drop_left] at h
      split at h
      · next hrest =>
        obtain rfl := Option.some.inj h
        have hnb {d : Char} (hd : Seals name d) {t : Text} (ht : ∀ c ∈ t, Text.isBlank c = true) :
            d ∉ t := fun hc => by
          cases (ht d hc).symm.trans hd.2.2.1
        -- The letters do not start with a blank, since no blank is left in front of them.
        have hstop' : ∀ t, Text.Stops Text.isBlank (letters ++ t) := by
          intro t
          cases letters with
          | nil => exact absurd (List.length_eq_zero_iff.1 hlen.symm) hne
          | cons d letters =>
            refine Text.stops_cons ?_ _
            rw [hr₂] at hstop
            exact hstop d rfl
        refine ⟨'/' :: (b ++ letters ++ b₂ ++ ['>']), ?_, fun d hd => ?_, fun t => ?_⟩
        · rw [hr, hr₂, hr₃, hrest]
          simp
        · simp [hd.1, hd.2.1, hnb hd hb, hbr d hd.2.2.2, hnb hd hb₂]
        · have h₁ : Text.stripLeft (b ++ (letters ++ (b₂ ++ '>' :: t))) =
              letters ++ (b₂ ++ '>' :: t) :=
            stripLeft_append hb (hstop' _)
          have h₂ : Text.stripLeft (b₂ ++ '>' :: t) = '>' :: t :=
            stripLeft_append hb₂ (Text.stops_cons (by decide) _)
          simp only [List.cons_append, List.append_assoc, List.nil_append, skipEndTag, h₁, hs,
            ite_true, ← hlen, List.drop_left, h₂]
      · cases h
    · cases h
  · cases h

/-- A text that does not start with an end tag does not start with one either when a character that
seals follows. -/
theorem skipEndTag_append (hne : name ≠ []) {d : Char} (hd : Seals name d) (hs : s ≠ [])
    (h : skipEndTag name s = none) (r : Text) : skipEndTag name (s ++ d :: r) = none := by
  rw [Option.eq_none_iff_forall_not_mem]
  intro rest hrest
  obtain ⟨body, he, hb, hall⟩ := skipEndTag_eq_some hne hrest
  obtain ⟨c, s, rfl⟩ := List.exists_cons_of_ne_nil hs
  obtain ⟨rfl, he⟩ := List.cons.inj he
  rcases List.append_eq_append_iff.1 he with ⟨z, hz, hr⟩ | ⟨z, hz, -⟩
  · cases z with
    | nil =>
      rw [List.append_nil] at hz
      have := hall []
      rw [List.append_nil, hz, h] at this
      cases this
    -- The character behind the text would stand inside of the end tag.
    | cons e z =>
      obtain ⟨rfl, -⟩ := List.cons.inj hr
      have hbody : body = s ++ d :: z := (List.cons.inj hz).2
      exact hb d hd (by rw [hbody]; simp)
  · have := hall z
    rw [← hz, h] at this
    cases this

theorem skipEndTag_append_eq_none_iff (hne : name ≠ []) {d : Char} (hd : Seals name d) (hs : s ≠ [])
    (r : Text) :
    skipEndTag name (s ++ d :: r) = none ↔ skipEndTag name s = none := by
  refine ⟨fun h => ?_, fun h => skipEndTag_append hne hd hs h r⟩
  rw [Option.eq_none_iff_forall_not_mem]
  intro rest hrest
  obtain ⟨body, rfl, -, hall⟩ := skipEndTag_eq_some hne hrest
  have := hall (rest ++ d :: r)
  rw [← List.append_assoc, h] at this
  cases this

theorem skipEndTag_writeEnd (hn : isTagName name = true) (r : Text) :
    skipEndTag name (writeEnd name ++ r) = some r := by
  have hstop : Text.Stops Text.isBlank (name ++ '>' :: r) := by
    cases name with
    | nil => cases hn
    | cons c name =>
      refine Text.stops_cons ?_ _
      have hc := isElementNameChar_of_isTagNameChar
          (forall_of_isTagName hn c (List.mem_cons_self ..))
      exact isBlank_eq_false_of_sameLetter hc (sameLetter_self c)
  have h₁ : Text.stripLeft (name ++ '>' :: r) = name ++ '>' :: r :=
    @stripLeft_append [] _ (by simp) hstop
  have h₂ : Text.stripLeft ('>' :: r) = '>' :: r := rfl
  simp [writeEnd, skipEndTag, h₁, startsWithLetters_append, h₂]

/-- The narrower kind of end tag is an end tag. -/
theorem skipEndTag_of_skipPlainEndTag (hne : name ≠ [])
    (hn : ∀ c ∈ name, isElementNameChar c = true) (h : skipPlainEndTag name s = some rest) :
    skipEndTag name s = some rest := by
  rw [skipPlainEndTag.eq_def] at h
  split at h
  · next r =>
    split at h
    · next hl =>
      have hr : Text.stripLeft r = r := by
        refine @stripLeft_append [] _ (by simp) ?_
        cases name with
        | nil => exact absurd rfl hne
        | cons c name =>
          cases r with
          | nil => exact Text.stops_nil _
          | cons d r =>
            simp only [Text.startsWithLetters, Bool.and_eq_true] at hl
            exact Text.stops_cons
              (isBlank_eq_false_of_sameLetter (hn c (List.mem_cons_self ..)) hl.1) _
      simp only [skipEndTag, hr, hl, ite_true]
      exact h
    · cases h
  · cases h

theorem skipPlainEndTag_writeEnd (name r : Text) :
    skipPlainEndTag name (writeEnd name ++ r) = some r := by
  have h : Text.stripLeft ('>' :: r) = '>' :: r := rfl
  simp [writeEnd, skipPlainEndTag, startsWithLetters_append, h]

/-- No end tag starts with another character than a bracket. -/
theorem skipPlainEndTag_of_ne {c : Char} (hc : c ≠ '<') (r : Text) :
    skipPlainEndTag name (c :: r) = none := by
  unfold skipPlainEndTag
  split
  · next he => exact absurd (List.cons.inj he).1 hc
  · rfl

/-- Behind a text without end tags, the first end tag is the one that follows. -/
theorem search_skipEndTag (hn : isTagName name = true) {t : Text}
    (ht : Text.search (skipEndTag name) t = none) (rest : Text) :
    Text.search (skipEndTag name) (t ++ (writeEnd name ++ rest)) = some (t, rest) := by
  obtain ⟨hne, hc⟩ := isNamed_of_isTagName hn
  rw [Text.search_append, Text.search_of_recognize (skipEndTag_writeEnd hn rest)]
  · simp
  · intro x y hxy hy
    exact skipEndTag_append hne (seals_bracket hc) hy (Text.recognize_eq_none_of_search ht hxy) _

theorem search_skipPlainEndTag (hn : isTagName name = true) {t : Text}
    (ht : Text.search (skipEndTag name) t = none) (rest : Text) :
    Text.search (skipPlainEndTag name) (t ++ (writeEnd name ++ rest)) = some (t, rest) := by
  obtain ⟨hne, hc⟩ := isNamed_of_isTagName hn
  rw [Text.search_append, Text.search_of_recognize (skipPlainEndTag_writeEnd name rest)]
  · simp
  · intro x y hxy hy
    have h := skipEndTag_append hne (seals_bracket hc) hy (Text.recognize_eq_none_of_search ht hxy)
      ('/' :: name ++ ['>'] ++ rest)
    rw [Option.eq_none_iff_forall_not_mem]
    intro r hr
    have := skipEndTag_of_skipPlainEndTag hne hc hr
    rw [show writeEnd name ++ rest = '<' :: ('/' :: name ++ ['>'] ++ rest) from rfl, h] at this
    cases this

/-! ## Texts without end tags -/

theorem skipEndTag_of_ne {c : Char} (hc : c ≠ '<') (r : Text) :
    skipEndTag name (c :: r) = none := by
  unfold skipEndTag
  split
  · next he => exact absurd (List.cons.inj he).1 hc
  · rfl

/-- No end tag starts in a text without brackets. -/
theorem search_skipEndTag_of_not_mem {t : Text} (h : '<' ∉ t) :
    Text.search (skipEndTag name) t = none := by
  rw [← List.append_nil t]
  exact (Text.search_append_of_not_mem skipEndTag_of_ne h []).2 rfl

end SlideDeck.Markup
