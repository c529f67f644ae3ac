import SlideDeck.Proofs.Layout.Grammar
import SlideDeck.Proofs.Text.Numeral

/-!
# Typed counts

A count of slides may be typed as a text of its own or as a token of a structure text. Both readers
look for a plain numeral between blanks, but a typed count is read as an integer with its blanks,
and the blanks that may surround an integer do not include the separator controls
(`Numeral.isSeparator`). So the readers agree on every text without these controls, and a count next
to one of them is read as a token only (`Layout.validate_iff_ofToken`).
-/

namespace SlideDeck

namespace Text

/-- A text is made of its blanks at both ends and of what is left without them. -/
theorem exists_strip (s : Text) :
    ∃ a b, s = a ++ strip s ++ b ∧ (∀ c ∈ a, isBlank c = true) ∧ ∀ c ∈ b, isBlank c = true := by
  refine ⟨s.takeWhile isBlank, trailing (stripLeft s), ?_, fun c => List.mem_takeWhile_imp,
    fun c hc => ?_⟩
  · rw [List.append_assoc, strip, stripRight_append_trailing]
    exact List.takeWhile_append_dropWhile.symm
  · exact List.mem_takeWhile_imp (List.mem_reverse.1 hc)

theorem mem_dropWhile {p : Char → Bool} {s : Text} {c : Char} (hc : c ∈ s) (hp : p c = false) :
    c ∈ s.dropWhile p := by
  rw [← List.takeWhile_append_dropWhile (p := p) (l := s), List.mem_append] at hc
  refine hc.resolve_left fun ht => ?_
  rw [List.mem_takeWhile_imp ht] at hp
  cases hp

end Text

namespace Numeral

variable {s : Text}

/-- The four separator controls. They are blanks, but not around an integer. -/
def isSeparator (c : Char) : Bool := 0x1c ≤ c.toNat && c.toNat ≤ 0x1f

theorem isPadding_eq (c : Char) : isPadding c = (Text.isBlank c && !isSeparator c) := rfl

theorem isPlain_iff : isPlain s = true ↔ s ≠ [] ∧ ∀ c ∈ s, c.isDigit = true := by
  rw [isPlain, Bool.and_eq_true, Bool.not_eq_true', List.isEmpty_eq_false_iff, List.all_eq_true]

/-! ## Padding -/

/-- The padding around a text without padding in it is what is taken away. -/
theorem unpad_append {a d b : Text} (ha : ∀ c ∈ a, isPadding c = true)
    (hb : ∀ c ∈ b, isPadding c = true) (hne : d ≠ []) (hd : ∀ c ∈ d, isPadding c = false) :
    unpad (a ++ d ++ b) = d := by
  have hfirst : Text.Stops isPadding (d ++ b) := by
    obtain ⟨c, r, rfl⟩ := List.exists_cons_of_ne_nil hne
    exact Text.stops_cons (hd c (List.mem_cons_self ..)) _
  have hlast : Text.Stops isPadding d.reverse :=
    fun c hc => hd c (List.mem_reverse.1 (List.mem_of_mem_head? hc))
  have hb' : ∀ c ∈ b.reverse, isPadding c = true := fun c hc => hb c (List.mem_reverse.1 hc)
  rw [unpad, List.append_assoc, Text.dropWhile_append_of_stops ha hfirst, List.reverse_append,
    Text.dropWhile_append_of_stops hb' hlast, List.reverse_reverse]

theorem mem_unpad {c : Char} (hc : c ∈ s) (hp : isPadding c = false) : c ∈ unpad s := by
  rw [unpad, List.mem_reverse]
  exact Text.mem_dropWhile (List.mem_reverse.2 (Text.mem_dropWhile hc hp)) hp

/-! ## Digits -/

theorem digit?_of_isDigit {c : Char} (h : c.isDigit = true) :
    digit? c = some (c.toNat - '0'.toNat) := by
  have hrange := Text.isDigit_iff.1 h
  rw [digit?, if_pos (by omega), if_pos h]

theorem digit?_of_isSeparator {c : Char} (h : isSeparator c = true) : digit? c = none := by
  rw [isSeparator, Bool.and_eq_true, decide_eq_true_iff, decide_eq_true_iff] at h
  have hdigit : ¬c.isDigit = true := by
    rw [Text.isDigit_iff]
    omega
  rw [digit?, if_pos (by omega), if_neg hdigit]

theorem grouped?_of_isPlain (h : isPlain s = true) :
    grouped? s = some (s.map fun c => c.toNat - '0'.toNat) := by
  obtain ⟨hne, hs⟩ := isPlain_iff.1 h
  clear h
  induction s using grouped?.induct with
  | case1 => exact absurd rfl hne
  | case2 c => simp [grouped?, digit?_of_isDigit (hs c (by simp))]
  | case3 c r => exact absurd (hs '_' (by simp)) (by decide)
  | case4 c r hr hgroup ih =>
    rw [grouped?, digit?_of_isDigit (hs c (by simp)),
      ih hr fun d hd => hs d (List.mem_cons_of_mem c hd)]
    · rfl
    · exact hr
    · exact hgroup

/-- Digits and underscores are all that a group of digits holds. -/
theorem forall_of_grouped? {digits : List Nat} (h : grouped? s = some digits) :
    ∀ c ∈ s, c = '_' ∨ (digit? c).isSome := by
  induction s using grouped?.induct generalizing digits with
  | case1 => cases h
  | case2 c =>
    obtain ⟨d, hd, -⟩ := Option.map_eq_some_iff.1 h
    simp [hd]
  | case3 c r ih =>
    obtain ⟨d, hd, h⟩ := Option.bind_eq_some_iff.1 h
    obtain ⟨more, hmore, -⟩ := Option.bind_eq_some_iff.1 h
    simpa [hd] using ih hmore
  | case4 c r hr hgroup ih =>
    rw [grouped?] at h
    · obtain ⟨d, hd, h⟩ := Option.bind_eq_some_iff.1 h
      obtain ⟨more, hmore, -⟩ := Option.bind_eq_some_iff.1 h
      simpa [hd] using ih hmore
    · exact hr
    · exact hgroup

/-! ## Integers -/

/-- The number of a run of digits in groups, if there are not too many. -/
def readDigits? (r : Text) : Option Nat := do
  let digits ← grouped? r
  if digits.length ≤ maxDigits then some (ofDigits digits) else none

theorem readDigits?_eq_none {c : Char} (hc : c ∈ s) (hu : c ≠ '_') (hd : digit? c = none) :
    readDigits? s = none := by
  rw [readDigits?]
  cases hg : grouped? s with
  | none => rfl
  | some digits =>
    have := (forall_of_grouped? hg c hc).resolve_left hu
    rw [hd] at this
    cases this

/-- An integer is a run of digits between padding, with a sign or without. -/
theorem readInt?_cases (s : Text) :
    (∃ r, unpad s = '-' :: r ∧ readInt? s = (readDigits? r).map fun n => -(n : Int)) ∨
      (∃ r, unpad s = '+' :: r ∧ readInt? s = (readDigits? r).map fun n => (n : Int)) ∨
        (unpad s).head? ≠ some '-' ∧ (unpad s).head? ≠ some '+' ∧
          readInt? s = (readDigits? (unpad s)).map fun n => (n : Int) := by
  rw [readInt?]
  split
  · next r hr => exact .inl ⟨r, hr, rfl⟩
  · next r hr => exact .inr (.inl ⟨r, hr, rfl⟩)
  · next hminus hplus =>
    refine .inr (.inr ⟨?_, ?_, rfl⟩)
    · rw [ne_eq, List.head?_eq_some_iff, not_exists]
      exact hminus
    · rw [ne_eq, List.head?_eq_some_iff, not_exists]
      exact hplus

/-- An integer has no separator controls around it. -/
theorem readInt?_of_isSeparator {c : Char} (hc : c ∈ s) (hsep : isSeparator c = true) :
    readInt? s = none := by
  have hunpad :
      c ∈ unpad s := mem_unpad hc (by rw [isPadding_eq, hsep, Bool.not_true, Bool.and_false])
  have hdigit := digit?_of_isSeparator hsep
  have hne : ∀ d, isSeparator d = false → c ≠ d := fun d hd h => by
    rw [← h, hsep] at hd
    cases hd
  have hunder := hne '_' (by decide)
  rcases readInt?_cases s with ⟨r, hr, h⟩ | ⟨r, hr, h⟩ | ⟨-, -, h⟩
  · rw [hr] at hunpad
    rw [h, readDigits?_eq_none ((List.mem_cons.1 hunpad).resolve_left (hne '-' (by decide))) hunder
      hdigit]
    rfl
  · rw [hr] at hunpad
    rw [h, readDigits?_eq_none ((List.mem_cons.1 hunpad).resolve_left (hne '+' (by decide))) hunder
      hdigit]
    rfl
  · rw [h, readDigits?_eq_none hunpad hunder hdigit]
    rfl

/-- A plain numeral between blanks that are no separator controls is read as the number it
denotes. -/
theorem readInt?_of_isPlain (h : isPlain (Text.strip s) = true)
    (hsep : ∀ c ∈ s, isSeparator c = false) :
    readInt? s = if (Text.strip s).length ≤ maxDigits then some (value (Text.strip s) : Int)
      else none := by
  obtain ⟨hne, hdigits⟩ := isPlain_iff.1 h
  obtain ⟨a, b, hs, ha, hb⟩ := Text.exists_strip s
  generalize Text.strip s = d at h hne hdigits hs
  subst hs
  have hpadding : ∀ c ∈ a ++ d ++ b, isPadding c = Text.isBlank c := fun c hc => by
    rw [isPadding_eq, hsep c hc, Bool.not_false, Bool.and_true]
  have hunpad : unpad (a ++ d ++ b) = d := by
    refine unpad_append (fun c hc => ?_) (fun c hc => ?_) hne fun c hc => ?_
    · rw [hpadding c (by simp [hc]), ha c hc]
    · rw [hpadding c (by simp [hc]), hb c hc]
    · rw [hpadding c (by simp [hc]), Text.isBlank_of_isDigit (hdigits c hc)]
  have hread : readDigits? d = if d.length ≤ maxDigits then some (value d) else none := by
    rw [readDigits?, grouped?_of_isPlain h]
    show (if (d.map _).length ≤ maxDigits then some (ofDigits _) else none) = _
    rw [List.length_map, value]
  have hhead : ∀ c r, d = c :: r → c.isDigit = true :=
    fun c r hd => hdigits c (by rw [hd]; exact List.mem_cons_self ..)
  rcases readInt?_cases (a ++ d ++ b) with ⟨r, hr, -⟩ | ⟨r, hr, -⟩ | ⟨-, -, h⟩
  · exact absurd (hhead '-' r (hunpad ▸ hr)) (by decide)
  · exact absurd (hhead '+' r (hunpad ▸ hr)) (by decide)
  · rw [h, hunpad, hread]
    split <;> rfl

end Numeral

namespace Group

variable {marker token : Text} {n : Nat}

/-- A token that is not the marker of dividers tells a number of slides if it is the numeral of this
number. -/
theorem ofToken_eq_ofCount_iff (hmarker : marker ≠ Text.strip token) (pos : 0 < n) :
    ofToken marker token = .ok (.ofCount n pos) ↔
      Numeral.IsCount (Text.strip token) ∧ Numeral.value (Text.strip token) = n := by
  have hcounts (hcount : Numeral.IsCount (Text.strip token)) :
      ofToken marker token = .ok (.ofCount (Numeral.value (Text.strip token)) hcount.pos) := by
    rw [ofToken_eq_ok_iff, ofCount]
    split
    · next hone => exact .single hmarker.symm hcount hone
    · next hmore => exact .stack hmarker.symm hcount hmore
  constructor
  · intro h
    have hcount : Numeral.IsCount (Text.strip token) :=
      (exists_reads_iff.1 ⟨_, ofToken_eq_ok_iff.1 h⟩).resolve_left
      hmarker.symm
    have hgroup : ofCount (Numeral.value (Text.strip token)) hcount.pos = ofCount n pos :=
      Except.ok.inj ((hcounts hcount).symm.trans h)
    refine ⟨hcount, ?_⟩
    rw [ofCount, ofCount] at hgroup
    split at hgroup <;> split at hgroup
    · omega
    · cases hgroup
    · cases hgroup
    · exact Group.stack.inj hgroup
  · rintro ⟨hcount, rfl⟩
    exact hcounts hcount

end Group

namespace Layout

variable {marker s : Text} {n : Nat}

theorem validate_cases (count : Count) :
    (∃ i, count.toInt? = some i ∧ 1 ≤ i ∧ count.validate = .ok i.toNat) ∨
      (∀ i, count.toInt? = some i → i < 1) ∧ count.validate = .error (.badCount count.shown) := by
  rw [Count.validate]
  cases h : count.toInt? with
  | none => exact .inr ⟨nofun, rfl⟩
  | some i =>
    dsimp only
    split
    · next hi => exact .inl ⟨i, rfl, hi, rfl⟩
    · next hi => exact .inr ⟨fun j hj => by cases hj; omega, rfl⟩

/-- A typed count is a plain numeral between blanks, none of them a separator control. -/
theorem toInt?_text_eq_some_iff {i : Int} : (Count.text s).toInt? = some i ↔
    (Numeral.isPlain (Text.strip s) = true ∧ (Text.strip s).length ≤ Numeral.maxDigits) ∧
      (∀ c ∈ s, Numeral.isSeparator c = false) ∧ (Numeral.value (Text.strip s) : Int) = i := by
  rw [Count.toInt?]
  by_cases hplain : Numeral.isPlain (Text.strip s) = true
  · rw [if_pos hplain]
    by_cases hsep : ∀ c ∈ s, Numeral.isSeparator c = false
    · rw [Numeral.readInt?_of_isPlain hplain hsep, Option.ite_none_right_eq_some]
      simp only [hplain, eq_true hsep, true_and, Option.some.injEq]
    · refine iff_of_false ?_ fun h => hsep h.2.1
      simp only [not_forall, Bool.not_eq_false] at hsep
      obtain ⟨c, hc, hsep⟩ := hsep
      rw [Numeral.readInt?_of_isSeparator hc hsep]
      nofun
  · rw [if_neg hplain]
    exact iff_of_false nofun fun h => hplain h.1.1

theorem validate_text_eq_ok_iff (pos : 0 < n) : (Count.text s).validate = .ok n ↔
    (Numeral.IsCount (Text.strip s) ∧ Numeral.value (Text.strip s) = n) ∧
      ∀ c ∈ s, Numeral.isSeparator c = false := by
  rcases validate_cases (.text s) with ⟨i, hi, hone, h⟩ | ⟨hi, h⟩
  · obtain ⟨⟨hplain, hlength⟩, hsep, rfl⟩ := toInt?_text_eq_some_iff.1 hi
    rw [h, Int.toNat_natCast]
    constructor
    · intro hn
      exact ⟨⟨⟨hplain, hlength, by omega⟩, Except.ok.inj hn⟩, hsep⟩
    · rintro ⟨⟨-, rfl⟩, -⟩
      rfl
  · refine iff_of_false (by rw [h]; nofun) ?_
    rintro ⟨⟨hcount, rfl⟩, hsep⟩
    have hvalue := hi _ (toInt?_text_eq_some_iff.2 ⟨⟨hcount.plain, hcount.length_le⟩, hsep, rfl⟩)
    omega

/-- The two readers of counts. A text that is not the marker of dividers is a typed count exactly if
it is the token of that many slides and no separator control stands in it; a token with such a
control is refused as a count, with the text as it was typed. -/
theorem validate_iff_ofToken (hmarker : marker ≠ Text.strip s) (pos : 0 < n) :
    ((Count.text s).validate = .ok n ↔
      Group.ofToken marker s = .ok (.ofCount n pos) ∧ ∀ c ∈ s, Numeral.isSeparator c = false) ∧
    (Group.ofToken marker s = .ok (.ofCount n pos) → (∃ c ∈ s, Numeral.isSeparator c = true) →
      (Count.text s).validate = .error (.badCount s)) := by
  constructor
  · rw [validate_text_eq_ok_iff pos, Group.ofToken_eq_ofCount_iff hmarker pos]
  · rintro - ⟨c, hc, hsep⟩
    rcases validate_cases (.text s) with ⟨i, hi, -⟩ | ⟨-, h⟩
    · obtain ⟨-, hnone, -⟩ := toInt?_text_eq_some_iff.1 hi
      rw [hnone c hc] at hsep
      cases hsep
    · exact h

/-- With blanks of several kinds and leading zeros, both readers read twelve. -/
theorem validate_iff_ofToken_blanks :
    let s := [' ', Char.ofNat 0x2003, '0', '1', '2', Char.ofNat 0x85]
    ['d'] ≠ Text.strip s ∧ 0 < 12 ∧ Group.ofToken ['d'] s = .ok (.stack 12 (by decide)) ∧
      (∀ c ∈ s, Numeral.isSeparator c = false) ∧ (Count.text s).validate = .ok 12 := by
  have hmarker : ['d'] ≠ Text.strip [' ', Char.ofNat 0x2003, '0', '1', '2', Char.ofNat 0x85] := by
    decide
  have htoken : Group.ofToken ['d'] [' ', Char.ofNat 0x2003, '0', '1', '2', Char.ofNat 0x85] =
      .ok (.ofCount 12 (by decide)) := by
    rfl
  have hsep : ∀ c ∈ [' ', Char.ofNat 0x2003, '0', '1', '2', Char.ofNat 0x85],
      Numeral.isSeparator c = false := by
    simp [Numeral.isSeparator]
  exact ⟨hmarker, by decide, htoken, hsep,
    (validate_iff_ofToken hmarker (by decide)).1.2 ⟨htoken, hsep⟩⟩

/-- A five behind a separator control is a token of five slides, and no typed count. -/
theorem ofToken_behind_separator :
    let s := [Char.ofNat 0x1c, '5']
    ['d'] ≠ Text.strip s ∧ Group.ofToken ['d'] s = .ok (.stack 5 (by decide)) ∧
      (Count.text s).validate ≠ .ok 5 ∧ (Count.text s).validate = .error (.badCount s) := by
  refine ⟨by decide, rfl, ?_, rfl⟩
  rw [show (Count.text [Char.ofNat 0x1c, '5']).validate =
    .error (.badCount [Char.ofNat 0x1c, '5']) from rfl]
  nofun

end Layout

end SlideDeck
