import SlideDeck.Proofs.Markup.Tag
import SlideDeck.Proofs.Text.Numeral

/-!
# Names of elements

A name of letters, digits and hyphens is searched for as it is (`tagsIn_of_isNamed`). The tags that
are found are those of the same name but for case, where the name of the tag is made of letters and
digits (`Tag.skipNamed_tag`): a shorter name does not end inside of such a name, and a longer one
goes on behind it.
-/

namespace SlideDeck.Markup

/-- A character of an element's name: an ASCII letter, a digit or a hyphen. -/
def isElementNameChar (c : Char) : Bool := c.isAlphanum || c == '-'

/-- A name of letters, digits and hyphens. -/
def IsNamed (name : Text) : Prop := name ≠ [] ∧ ∀ c ∈ name, isElementNameChar c = true

/-- The characters that end the name of a written tag or stand before it. -/
def marks : List Char := [' ', '>', '<', '/', '!', '"']

theorem isUpper_iff {c : Char} : c.isUpper = true ↔ 65 ≤ c.toNat ∧ c.toNat ≤ 90 :=
  decide_eq_true_iff

theorem isUpper_eq_false {c : Char} (h : c.toNat < 65 ∨ 90 < c.toNat) : c.isUpper = false := by
  rw [← Bool.not_eq_true, isUpper_iff]
  omega

theorem isLower_iff {c : Char} : c.isLower = true ↔ 97 ≤ c.toNat ∧ c.toNat ≤ 122 := by
  show (decide (97 ≤ c.toNat) && decide (c.toNat ≤ 122)) = true ↔ _
  rw [Bool.and_eq_true, decide_eq_true_iff, decide_eq_true_iff]

theorem isAlphanum_iff {c : Char} :
    c.isAlphanum = true ↔ (c.isUpper = true ∨ c.isLower = true) ∨ c.isDigit = true := by
  rw [← Bool.or_eq_true, ← Bool.or_eq_true]
  rfl

theorem toNat_lt_of_isElementNameChar {c : Char} (h : isElementNameChar c = true) :
    c.toNat < 128 := by
  rw [isElementNameChar, Bool.or_eq_true, isAlphanum_iff, isUpper_iff, isLower_iff,
    Text.isDigit_iff, beq_iff_eq] at h
  rcases h with ((h | h) | h) | rfl
  · omega
  · omega
  · omega
  · decide

theorem lowerChar_of_lt {c : Char} (h : c.toNat < 128) (hu : c.isUpper = false) :
    Text.lowerChar c = c := by
  rw [Text.lowerChar, if_pos h]
  exact dif_neg (of_decide_eq_false hu)

theorem toNat_toLower_of_isUpper {c : Char} (h : c.isUpper = true) :
    c.toLower.toNat = c.toNat + 32 := by
  have hc := isUpper_iff.1 h
  have hlower : c.toLower.val = c.val + 32 := congrArg Char.val (dif_pos (of_decide_eq_true h))
  show c.toLower.val.toNat = c.toNat + 32
  rw [hlower, UInt32.toNat_add]
  exact Nat.mod_eq_of_lt (Nat.lt_of_le_of_lt (Nat.add_le_add_right hc.2 32) (by decide))

/-- A character in front of the letters is the lower case of no other. -/
theorem eq_of_lowerChar {c d : Char} (hd : 0 < d.toNat ∧ d.toNat < 65) (h : Text.lowerChar c = d) :
    c = d := by
  by_cases hlt : c.toNat < 128
  · cases hu : c.isUpper with
    | false => exact (lowerChar_of_lt hlt hu).symm.trans h
    | true =>
      rw [Text.lowerChar, if_pos hlt] at h
      have hd' := toNat_toLower_of_isUpper hu
      have hc := isUpper_iff.1 hu
      rw [h] at hd'
      omega
  · rw [Text.lowerChar, if_neg hlt] at h
    split at h
    · next first last step distance hf =>
      have hall : ∀ run ∈ Text.capitalRuns, (65 : Int) ≤ run.1 + run.2.2.2 := by decide +kernel
      have hrun : (65 : Int) ≤ first + distance := hall _ (List.mem_of_find?_eq_some hf)
      have hc := List.find?_some hf
      simp only [Bool.and_eq_true, decide_eq_true_eq] at hc
      have hn := congrArg Char.toNat h
      by_cases hv : (c.toNat + distance : Int).toNat.isValidChar
      · rw [Char.ofNat, dif_pos hv] at hn
        have : (Char.ofNatAux _ hv).toNat = (c.toNat + distance : Int).toNat := rfl
        omega
      · rw [Char.ofNat, dif_neg hv] at hn
        have : 0 = d.toNat := hn
        omega
    · exact h

/-- A character in front of the letters is like no other. -/
theorem eq_of_sameLetter {c d : Char} (hd : 0 < d.toNat ∧ d.toNat < 65)
    (h : Text.sameLetter d c = true) : c = d := by
  have hforms : ∀ forms ∈ Text.letterForms, ∀ n ∈ forms, 65 ≤ n := by decide
  have hlower : Text.lowerChar d = d := lowerChar_of_lt (by omega) (isUpper_eq_false (.inl hd.2))
  simp only [Text.sameLetter, hlower, Bool.or_eq_true, beq_iff_eq, List.any_eq_true,
    Bool.and_eq_true, List.contains_iff_mem] at h
  rcases h with h | ⟨forms, hf, hmem, -⟩
  · exact eq_of_lowerChar hd h.symm
  · exact absurd (hforms forms hf _ hmem) (by omega)

theorem sameLetter_comm (c d : Char) : Text.sameLetter c d = Text.sameLetter d c := by
  simp only [Text.sameLetter, Bool.and_comm, Bool.beq_comm]

/-- A name's character is not like any of the marks, whatever the case. -/
theorem sameLetter_mark {c d : Char} (h : isElementNameChar c = true) (hd : d ∈ marks) :
    Text.sameLetter c d = false := by
  have hmarks : marks.all (fun d => decide (0 < d.toNat ∧ d.toNat < 65) && !isElementNameChar d) =
      true := rfl
  have hmark := List.all_eq_true.1 hmarks d hd
  rw [Bool.and_eq_true, decide_eq_true_eq, Bool.not_eq_true'] at hmark
  rw [Bool.eq_false_iff, sameLetter_comm]
  intro hsame
  rw [eq_of_sameLetter hmark.1 hsame, hmark.2] at h
  cases h

/-- A name's character stands for itself in an expression. -/
theorem isPlainName_of_isNamed {name : Text} (h : ∀ c ∈ name, isElementNameChar c = true) :
    isPlainName name = true := by
  have hsigns : Expression.signs.all (fun c => !isElementNameChar c) = true := rfl
  rw [isPlainName, List.all_eq_true]
  intro c hc
  refine decide_eq_true fun hsign => ?_
  have := List.all_eq_true.1 hsigns c hsign
  rw [h c hc] at this
  cases this

theorem tagsIn_of_isNamed {name : Text} (h : ∀ c ∈ name, isElementNameChar c = true)
    (html inside : Text) :
    tagsIn name html inside = .ok (Tag.all name inside) := if_pos (isPlainName_of_isNamed h)

/-! ## Names of tags -/

/-- A character of a written tag's name. -/
def isTagNameChar (c : Char) : Bool := c.isLower || c.isDigit

/-- A name as written tags have it: small letters and digits, a letter first. -/
def isTagName : Text → Bool
  | [] => false
  | c :: r => c.isLower && r.all isTagNameChar

theorem forall_of_isTagName {name : Text} (h : isTagName name = true) :
    ∀ c ∈ name, isTagNameChar c = true := by
  cases name with
  | nil => cases h
  | cons c r =>
    simp only [isTagName, Bool.and_eq_true, List.all_eq_true] at h
    intro d hd
    rcases List.mem_cons.1 hd with rfl | hd
    · simp [isTagNameChar, h.1]
    · exact h.2 d hd

theorem ne_nil_of_isTagName {name : Text} (h : isTagName name = true) : name ≠ [] := by
  rintro rfl
  cases h

theorem isElementNameChar_of_isTagNameChar {c : Char} (h : isTagNameChar c = true) :
    isElementNameChar c = true := by
  rw [isTagNameChar, Bool.or_eq_true] at h
  rw [isElementNameChar, Bool.or_eq_true, isAlphanum_iff]
  exact .inl (h.imp .inr id)

theorem isNamed_of_isTagName {name : Text} (h : isTagName name = true) : IsNamed name :=
  ⟨ne_nil_of_isTagName h,
    fun c hc => isElementNameChar_of_isTagNameChar (forall_of_isTagName h c hc)⟩

theorem isWord_of_isTagNameChar {c : Char} (h : isTagNameChar c = true) : Text.isWord c = true := by
  have hlt := toNat_lt_of_isElementNameChar (isElementNameChar_of_isTagNameChar h)
  rw [isTagNameChar, Bool.or_eq_true] at h
  rw [Text.isWord, if_pos hlt, Bool.or_eq_true, isAlphanum_iff]
  exact .inl (h.imp .inr id)

theorem isTagNameChar_toNat {c : Char} (h : isTagNameChar c = true) :
    97 ≤ c.toNat ∧ c.toNat ≤ 122 ∨ 48 ≤ c.toNat ∧ c.toNat ≤ 57 := by
  rwa [isTagNameChar, Bool.or_eq_true, isLower_iff, Text.isDigit_iff] at h

theorem lowerChar_of_isTagNameChar {c : Char} (h : isTagNameChar c = true) :
    Text.lowerChar c = c := by
  have := isTagNameChar_toNat h
  exact lowerChar_of_lt (by omega) (isUpper_eq_false (by omega))

/-- Two characters of tags' names that are the same but for case are the same: a letter has one form
in ASCII. -/
theorem eq_of_sameLetter_of_isTagNameChar {c d : Char} (hc : isTagNameChar c = true)
    (hd : isTagNameChar d = true) (h : Text.sameLetter c d = true) : c = d := by
  have hforms : ∀ forms ∈ Text.letterForms, ∀ n ∈ forms, ∀ m ∈ forms, n < 128 → m < 128 →
      n = m := by decide +kernel
  simp only [Text.sameLetter, lowerChar_of_isTagNameChar hc, lowerChar_of_isTagNameChar hd,
    Bool.or_eq_true,
    beq_iff_eq, List.any_eq_true, Bool.and_eq_true, List.contains_iff_mem] at h
  rcases h with h | ⟨forms, hf, hcf, hdf⟩
  · exact h
  · have hcn := isTagNameChar_toNat hc
    have hdn := isTagNameChar_toNat hd
    exact Char.toNat_inj.1 (hforms forms hf _ hcf _ hdf (by omega) (by omega))

/-- Whether two names are the same but for case. -/
def sameName (n m : Text) : Bool := n.length == m.length && Text.startsWithLetters n m

theorem sameName_self (n : Text) : sameName n n = true := by
  have := startsWithLetters_append n []
  rw [List.append_nil] at this
  simp [sameName, this]

/-- Names of tags that are the same but for case are the same. -/
theorem eq_of_sameName {n m : Text} (hn : ∀ c ∈ n, isTagNameChar c = true)
    (hm : ∀ c ∈ m, isTagNameChar c = true) (h : sameName n m = true) : n = m := by
  induction n generalizing m with
  | nil =>
    simp only [sameName, List.length_nil, Bool.and_eq_true, beq_iff_eq] at h
    exact (List.length_eq_zero_iff.1 h.1.symm).symm
  | cons c n ih =>
    cases m with
    | nil => cases h
    | cons d m =>
      have hc := hn c (List.mem_cons_self ..)
      have hd := hm d (List.mem_cons_self ..)
      simp only [sameName, List.length_cons, Text.startsWithLetters, Bool.and_eq_true, beq_iff_eq,
        Nat.add_right_cancel_iff] at h
      have ih := ih (fun e he => hn e (List.mem_cons_of_mem _ he))
          (fun e he => hm e (List.mem_cons_of_mem _ he))
        (by simp [sameName, h.1, h.2.2])
      rw [ih, eq_of_sameLetter_of_isTagNameChar hc hd h.2.1]

/-- Letters do not go on over a character that is none of them. -/
theorem startsWithLetters_append_of_ne {n : Text} {d : Char}
    (hd : ∀ c ∈ n, Text.sameLetter c d = false) (m r : Text) :
    Text.startsWithLetters n (m ++ d :: r) = Text.startsWithLetters n m := by
  induction n generalizing m with
  | nil => rfl
  | cons c n ih =>
    have ih := ih fun e he => hd e (List.mem_cons_of_mem _ he)
    cases m with
    | nil => simp [Text.startsWithLetters, hd c (List.mem_cons_self ..)]
    | cons e m => simp only [List.cons_append, Text.startsWithLetters, ih]

/-- A name does not go on behind a text with a mark. -/
theorem startsWithLetters_append_mark {n : Text} (hn : ∀ c ∈ n, isElementNameChar c = true)
    {d : Char} (hd : d ∈ marks) (m r : Text) :
    Text.startsWithLetters n (m ++ d :: r) = Text.startsWithLetters n m :=
  startsWithLetters_append_of_ne (fun c hc => sameLetter_mark (hn c hc) hd) m r

theorem length_le_of_startsWithLetters {n m : Text} (h : Text.startsWithLetters n m = true) :
    n.length ≤ m.length := by
  induction n generalizing m with
  | nil => exact Nat.zero_le _
  | cons c n ih =>
    cases m with
    | nil => cases h
    | cons d m =>
      simp only [Text.startsWithLetters, Bool.and_eq_true] at h
      exact Nat.succ_le_succ (ih h.2)

namespace Tag

/-- What is behind a tag of which the name is made of letters and digits: the tag counts if it has
the name that is searched for. -/
theorem skipNamed_tag {n m : Text} (hn : ∀ c ∈ n, isElementNameChar c = true) (hne : n ≠ [])
    (hm : ∀ c ∈ m, isTagNameChar c = true) {d : Char} (hd : d = ' ' ∨ d = '>') (r : Text) :
    skipNamed n (m ++ d :: r) = if sameName n m then skipTagRest none (d :: r) else none := by
  have hmark : d ∈ marks := by
    rcases hd with rfl | rfl <;> decide
  have hdw : Text.isWord d = false := by
    rcases hd with rfl | rfl <;> decide
  rw [skipNamed, startsWithLetters_append_mark hn hmark]
  cases hs : Text.startsWithLetters n m with
  | false => simp [sameName, hs]
  | true =>
    have hle := length_le_of_startsWithLetters hs
    have hpos := List.length_pos_iff.2 hne
    -- The last character that is met belongs to the tag's name.
    have hlast : ∃ c, (m.take n.length).getLast? = some c ∧ Text.isWord c = true := by
      have hl : m.take n.length ≠ [] := by
        rw [ne_eq, List.take_eq_nil_iff, not_or]
        constructor
        · omega
        · rintro rfl
          simp only [List.length_nil] at hle
          omega
      refine ⟨_, List.getLast?_eq_some_getLast hl, ?_⟩
      exact isWord_of_isTagNameChar (hm _ (List.mem_of_mem_take (List.getLast_mem hl)))
    obtain ⟨c, hc, hcw⟩ := hlast
    rw [List.take_append_of_le_length hle, List.drop_append_of_le_length hle, hc]
    rcases Nat.lt_or_eq_of_le hle with hlt | heq
    -- A shorter name ends before another letter of the tag's name.
    · have hhead : ∃ e, (m.drop n.length).head? = some e ∧ Text.isWord e = true := by
        refine ⟨m[n.length], ?_, isWord_of_isTagNameChar (hm _ (List.getElem_mem hlt))⟩
        rw [List.drop_eq_getElem_cons hlt, List.head?_cons]
      obtain ⟨e, he, hew⟩ := hhead
      rw [List.head?_append, he]
      have hne : (n.length == m.length) = false := by simpa using Nat.ne_of_lt hlt
      simp [Text.boundary, hcw, hew, sameName, hne]
    · have hnil : m.drop n.length = [] := by rw [heq, List.drop_length]
      have heq' : (n.length == m.length) = true := by simpa using heq
      simp [hnil, Text.boundary, hcw, hdw, sameName, heq', hs]

end Tag

end SlideDeck.Markup
