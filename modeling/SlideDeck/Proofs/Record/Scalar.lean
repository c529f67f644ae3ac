import Mathlib.Tactic.SplitIfs
import SlideDeck.Proofs.Record.Value
import SlideDeck.Proofs.Text.Numeral
import SlideDeck.Record.Printer

/-!
# Reading written strings and numbers

A written string is read again, with all its escapes (`readString_string`), and so is a written
integer of a length that can be read (`readScalar_ofInt`), if nothing stands behind it that may
belong to a number. `readChars_flatMap` also serves strings that are cut off.
-/

namespace SlideDeck.Record

open Text (Stops stops_cons)

/-! ## Strings -/

/-- The characters that escapes are made of. -/
def escapeSigns : List Char := "\"\\nrtbfu0123456789abcdef".toList

/-- A character stands for itself, or an escape stands for it. -/
theorem escapeChar_cases (c : Char) :
    (escapeChar c = [c] ∧ c ≠ '"' ∧ c ≠ '\\' ∧ ¬c.toNat < 0x20) ∨
      ∃ t, escapeChar c = '\\' :: t ∧ t.all escapeSigns.contains = true := by
  have hunicode : ∀ n < 0x20, ('u' :: Text.hex 4 n).all escapeSigns.contains = true := by decide
  rw [escapeChar]
  iterate 7
    split
    · exact .inr ⟨_, rfl, rfl⟩
  split
  · exact .inr ⟨_, rfl, hunicode _ ‹_›⟩
  · exact .inl ⟨rfl, ‹_›, ‹_›, ‹_›⟩

/-- What stands for a character, and is no sign of an escape, is the character. -/
theorem eq_of_mem_escapeChar {c d : Char} (hd : d ∈ escapeChar c) (hsign : d ∉ escapeSigns) :
    escapeChar c = [c] ∧ d = c ∧ ¬c.toNat < 0x20 := by
  rcases escapeChar_cases c with ⟨h, -, -, hlow⟩ | ⟨t, h, ht⟩ <;> rw [h] at hd
  · exact ⟨h, List.mem_singleton.1 hd, hlow⟩
  · rcases List.mem_cons.1 hd with rfl | hd
    · exact absurd (by decide) hsign
    · exact absurd (List.contains_iff_mem.1 (List.all_eq_true.1 ht d hd)) hsign

theorem length_le_length_flatMap_escapeChar (s : Text) :
    s.length ≤ (s.flatMap escapeChar).length := by
  induction s with
  | nil => exact Nat.zero_le _
  | cons c s ih =>
    rw [List.flatMap_cons, List.length_append, List.length_cons]
    rcases escapeChar_cases c with ⟨h, -⟩ | ⟨t, h, -⟩ <;> rw [h, List.length_cons] <;> omega

theorem codePoint_toNat (c : Char) : codePoint c.toNat = c := by
  have hv : c.toNat.isValidChar := c.valid
  rw [codePoint, if_pos hv, Char.ofNat_toNat]

/-- The escape of a control character, digit by digit. -/
theorem unicodeEscape_of_lt : ∀ n < 0x20,
    unicodeEscape n = ['\\', 'u', '0', '0', (n / 16).digitChar, (n % 16).digitChar] ∧
      hex4? '0' '0' (n / 16).digitChar (n % 16).digitChar = some n := by decide

theorem readUnicode_of_hex4? {a b c d : Char} {n : Nat} (h : hex4? a b c d = some n)
    (hn : n < 0xd800) {t : Text} (ht : t ≠ []) :
    readUnicode (a :: b :: c :: d :: t) = .ok (codePoint n, t) := by
  cases t with
  | nil => exact absurd rfl ht
  | cons e r =>
    simp only [readUnicode, h]
    rw [if_neg (by omega)]

/-- A written character is read again if the text goes on behind it. -/
theorem readChar_escapeChar (opening : Nat) (c : Char) {t : Text} (ht : t ≠ []) :
    readChar opening (escapeChar c ++ t) = .ok (c, t) := by
  rw [escapeChar]
  split_ifs with h₁ h₂ h₃ h₄ h₅ h₆ h₇ h₈
  iterate 5 rw [‹c = _›]; rfl
  · rw [← Char.ofNat_toNat c, h₆]; rfl
  · rw [← Char.ofNat_toNat c, h₇]; rfl
  · obtain ⟨he, hx⟩ := unicodeEscape_of_lt c.toNat h₈
    have hr := readUnicode_of_hex4? hx (by omega) ht
    rw [codePoint_toNat] at hr
    rw [he]
    exact hr
  · rw [List.singleton_append, readChar.eq_def]
    split
    · next e => cases e
    · next e => exact absurd (List.cons.inj e).1 h₂
    · next e => exact absurd (List.cons.inj e).1 h₂
    · next e => exact absurd (List.cons.inj e).1 h₂
    · next e =>
      obtain ⟨rfl, rfl⟩ := List.cons.inj e
      rw [if_neg h₈]

theorem readChars_quote (opening fuel : Nat) (r : Text) :
    readChars opening (fuel + 1) ('"' :: r) = .ok ([], r) := rfl

/-- A written character is the first that is read inside a string. -/
theorem readChars_escapeChar (opening fuel : Nat) (c : Char) {t : Text} (ht : t ≠ []) :
    readChars opening (fuel + 1) (escapeChar c ++ t) =
      (readChars opening fuel t).map fun (u, r) => (c :: u, r) := by
  have hc : ∀ r, escapeChar c ++ t ≠ '"' :: r := by
    intro r h
    rcases escapeChar_cases c with ⟨he, hq, -⟩ | ⟨u, he, -⟩ <;> rw [he] at h
    · exact hq (List.cons.inj h).1
    · exact absurd (List.cons.inj h).1 (by simp)
  rw [readChars.eq_def]
  dsimp only
  split
  · next h => exact absurd h (hc _)
  · rw [readChar_escapeChar opening c ht]
    simp only [bind, Except.bind, pure, Except.pure, Except.map]

/-- Written characters are the first that are read inside a string. -/
theorem readChars_flatMap (opening fuel : Nat) (s : Text) {t : Text} (ht : t ≠ []) :
    readChars opening (s.length + fuel) (s.flatMap escapeChar ++ t) =
      (readChars opening fuel t).map fun (u, r) => (s ++ u, r) := by
  induction s with
  | nil =>
    rw [List.length_nil, Nat.zero_add, List.flatMap_nil, List.nil_append]
    cases readChars opening fuel t <;> rfl
  | cons c s ih =>
    rw [List.length_cons, Nat.add_right_comm, List.flatMap_cons, List.append_assoc,
      readChars_escapeChar _ _ _ (by simp [ht]), ih]
    cases readChars opening fuel t <;> rfl

/-- A written string is read again. -/
theorem readString_string (s rest : Text) :
    readString (s.flatMap escapeChar ++ '"' :: rest) = .ok (s, rest) := by
  have hl := length_le_length_flatMap_escapeChar s
  rw [readString]
  generalize hn : (s.flatMap escapeChar ++ '"' :: rest).length = n
  obtain ⟨k, hk⟩ : ∃ k, n + 1 = s.length + (k + 1) := by
    rw [List.length_append, List.length_cons] at hn
    exact ⟨n - s.length, by omega⟩
  rw [hk, readChars_flatMap _ _ _ (by simp), readChars_quote]
  simp only [Except.map, List.append_nil]

/-! ## Blanks -/

theorem isSpace_of_isDigit {c : Char} (h : c.isDigit = true) : isSpace c = false := by
  cases hs : isSpace c with
  | false => rfl
  | true =>
    simp only [isSpace, Bool.or_eq_true, beq_iff_eq] at hs
    rcases hs with ((rfl | rfl) | rfl) | rfl <;> exact absurd h (by simp)

theorem skipSpace_of_stops {s : Text} (h : Stops isSpace s) : skipSpace s = s := by
  cases s with
  | nil => rfl
  | cons c r => rw [skipSpace, List.dropWhile_cons_of_neg (by simp [h c rfl])]

theorem skipSpace_line (level : Nat) {s : Text} (h : Stops isSpace s) :
    skipSpace (line level ++ s) = s := by
  refine Text.dropWhile_append_of_stops (fun c hc => ?_) h
  rcases List.mem_cons.1 hc with rfl | hc
  · rfl
  · rw [List.eq_of_mem_replicate hc]
    rfl

/-! ## Numbers -/

/-- Whether a character behind a number may belong to it. -/
def extendsNumber (c : Char) : Bool := c.isDigit || c == '.' || c == 'e' || c == 'E'

/-- A whole number of a length that can be read, with nothing behind it that may belong to it. -/
theorem readFraction_of_stops (negative : Bool) {whole rest : Text}
    (hl : whole.length ≤ Numeral.maxDigits) (hr : Stops extendsNumber rest) :
    readFraction negative whole rest =
      .ok (.integer (if negative then -(Numeral.value whole : Int) else Numeral.value whole),
        rest) := by
  have hf : takeFraction rest = ([], rest) := by
    rw [takeFraction.eq_def]
    split
    · exact absurd (hr '.' rfl) (by decide)
    · rfl
  have he : takeExponent? rest = none := by
    cases rest with
    | nil => rfl
    | cons c r =>
      rw [takeExponent?.eq_def]
      dsimp only
      rw [if_neg]
      rintro (rfl | rfl)
      · exact absurd (hr 'e' rfl) (by decide)
      · exact absurd (hr 'E' rfl) (by decide)
  simp only [readFraction, hf, he, ne_eq, not_true_eq_false, ite_false, Numeral.read, if_pos hl]

/-- The numeral of a number is read as this number. -/
theorem readNumber_ofNat {n : Nat} (hl : (Text.ofNat n).length ≤ Numeral.maxDigits) (start : Text)
    (negative : Bool) {rest : Text} (hr : Stops extendsNumber rest) :
    readNumber start negative (Text.ofNat n ++ rest) =
      .ok (.integer (if negative then -(n : Int) else n), rest) := by
  have hd : Stops Char.isDigit rest := fun c hc => by
    have := hr c hc
    simp only [extendsNumber, Bool.or_eq_false_iff] at this
    exact this.1.1.1
  have hf := readFraction_of_stops negative hl hr
  rw [Numeral.value_ofNat] at hf
  obtain ⟨c, cs, hn⟩ := List.exists_cons_of_ne_nil (Text.ofNat_ne_nil n)
  have hcs : ∀ d ∈ c :: cs, Char.isDigit d = true := fun d h => Text.isDigit_of_mem_ofNat (hn ▸ h)
  rw [hn, List.cons_append, readNumber.eq_def]
  split
  -- A numeral that starts with a zero is the numeral of zero.
  · next e =>
    obtain ⟨rfl, rfl⟩ := List.cons.inj e
    obtain rfl := Text.ofNat_eq_zero_cons hn
    obtain rfl : cs = [] := (List.cons.inj (hn.symm.trans (rfl : Text.ofNat 0 = ['0']))).2
    exact hf
  · next e =>
    obtain ⟨rfl, rfl⟩ := List.cons.inj e
    have hcs' : ∀ d ∈ cs, Char.isDigit d = true := fun d h => hcs d (List.mem_cons_of_mem _ h)
    rw [if_pos (hcs c (List.mem_cons_self ..)), Text.takeWhile_append_of_stops hcs' hd,
      Text.dropWhile_append_of_stops hcs' hd, ← hn]
    exact hf
  · next e => cases e

theorem readScalar_of_isDigit {c : Char} (hc : c.isDigit = true) (r : Text) :
    readScalar (c :: r) = readNumber (c :: r) false (c :: r) := by
  rw [readScalar.eq_def]
  split
  iterate 7 next e => rw [(List.cons.inj e).1] at hc; exact absurd hc (by simp)
  rfl

theorem readScalar_minus {c : Char} (hc : c.isDigit = true) (r : Text) :
    readScalar ('-' :: c :: r) = readNumber ('-' :: c :: r) true (c :: r) := by
  rw [readScalar.eq_def]
  split
  iterate 5 next e => exact absurd (List.cons.inj e).1 (by simp)
  · next e =>
    rw [(List.cons.inj (List.cons.inj e).2).1] at hc
    exact absurd hc (by simp)
  · next e =>
    rw [(List.cons.inj e).2]
  · next h => exact absurd rfl (h _)

/-- A written integer is read again. -/
theorem readScalar_ofInt {n : Int} (hl : (Text.ofNat n.natAbs).length ≤ Numeral.maxDigits)
    {rest : Text} (hr : Stops extendsNumber rest) :
    readScalar (Text.ofInt n ++ rest) = .ok (.integer n, rest) := by
  have hs (m : Nat) : ∃ c cs, Text.ofNat m = c :: cs ∧ Char.isDigit c = true := by
    obtain ⟨c, cs, h⟩ := List.exists_cons_of_ne_nil (Text.ofNat_ne_nil m)
    exact ⟨c, cs, h, Text.isDigit_of_mem_ofNat (h ▸ List.mem_cons_self ..)⟩
  cases n with
  | ofNat n =>
    obtain ⟨c, cs, h, hc⟩ := hs n
    have hn := readNumber_ofNat hl (Text.ofNat n ++ rest) false hr
    rw [Text.ofInt]
    simp only [Int.ofNat_eq_natCast, Int.natAbs_natCast, h, List.cons_append] at hn ⊢
    rw [readScalar_of_isDigit hc, hn]
    rfl
  | negSucc n =>
    obtain ⟨c, cs, h, hc⟩ := hs (n + 1)
    have hn := readNumber_ofNat hl ('-' :: (Text.ofNat (n + 1) ++ rest)) true hr
    rw [Text.ofInt]
    simp only [Int.natAbs_negSucc, h, List.cons_append] at hn ⊢
    rw [readScalar_minus hc, hn]
    rfl

end SlideDeck.Record
