import Mathlib.Algebra.Group.Nat.Defs
import SlideDeck.Proofs.Text.Run
import SlideDeck.Proofs.Text.Split
import SlideDeck.Text.Numeral

/-!
# Decimal numerals

The numeral of a number is a nonempty run of ASCII digits (`Text.isDigit_of_mem_ofNat`), it tells
the number (`Text.ofNat_injective`), and reading it gives the number back (`Numeral.value_ofNat`).
It starts with a zero only if the number is zero (`Text.ofNat_eq_zero_cons`), and no run of digits
with the same value is shorter (`Numeral.length_ofNat_value_le`).
-/

namespace SlideDeck.Text

theorem isDigit_iff {c : Char} : c.isDigit = true ↔ 48 ≤ c.toNat ∧ c.toNat ≤ 57 := by
  show (decide (48 ≤ c.toNat) && decide (c.toNat ≤ 57)) = true ↔ _
  rw [Bool.and_eq_true, decide_eq_true_iff, decide_eq_true_iff]

theorem isDigit_of_mem_ofNat {n : Nat} {c : Char} (h : c ∈ ofNat n) : c.isDigit = true :=
  Nat.isDigit_of_mem_toDigits (by decide) (by decide) h

theorem ofNat_ne_nil (n : Nat) : ofNat n ≠ [] := Nat.toDigits_ne_nil

/-- Different numbers have different numerals. -/
theorem ofNat_injective {m n : Nat} (h : ofNat m = ofNat n) : m = n := by
  have := congrArg (fun digits => Nat.ofDigitChars 10 digits 0) h
  simpa only [ofNat, Nat.ofDigitChars_ten_toDigits] using this

theorem not_mem_ofNat {c : Char} (h : c.isDigit = false) (n : Nat) : c ∉ ofNat n := by
  intro hc
  rw [isDigit_of_mem_ofNat hc] at h
  cases h

/-- A character that is no digit of a base stands in no numeral of that base. -/
theorem not_mem_toDigits {base : Nat} (hb : 1 < base) {c : Char}
    (hc : ∀ k < base, Nat.digitChar k ≠ c) (n : Nat) :
    c ∉ Nat.toDigits base n := by
  induction n using Nat.strongRecOn with
  | ind n ih =>
    rw [Nat.toDigits_eq_if hb]
    split
    · next hn => exact fun h => hc n hn (List.mem_singleton.1 h).symm
    · intro h
      rcases List.mem_append.1 h with h | h
      · exact ih (n / base) (Nat.div_lt_self (by omega) hb) h
      · exact hc _ (Nat.mod_lt _ (by omega)) (List.mem_singleton.1 h).symm

/-- No visible character of ASCII is a blank. -/
theorem isBlank_of_visible {c : Char} (h : 33 ≤ c.toNat ∧ c.toNat < 127) : isBlank c = false := by
  have hranges : ∀ range ∈ blankRanges, range.2 < 33 ∨ 127 ≤ range.1 := by decide
  rw [isBlank, inRanges, List.any_eq_false]
  intro range hrange
  have hrange := hranges range hrange
  simp only [Bool.and_eq_true, decide_eq_true_eq]
  omega

theorem isBlank_of_isDigit {c : Char} (h : c.isDigit = true) : isBlank c = false := by
  rw [isDigit_iff] at h
  exact isBlank_of_visible (by omega)

/-- There are no blanks around a numeral. -/
theorem strip_ofNat (n : Nat) : strip (ofNat n) = ofNat n :=
  strip_eq_self fun _ hc => isBlank_of_isDigit (isDigit_of_mem_ofNat hc)

/-- A numeral and what follows it are told apart by a character that is no digit. -/
theorem ofNat_append_cons_inj {m n : Nat} {c : Char} {r s : Text} (hc : c.isDigit = false)
    (h : ofNat m ++ c :: r = ofNat n ++ c :: s) : m = n ∧ r = s := by
  have hd : ∀ n, ∀ d ∈ ofNat n, Char.isDigit d = true := fun _ _ hd => isDigit_of_mem_ofNat hd
  have hm := takeWhile_append_of_stops (hd m) (stops_cons hc r)
  have hn := takeWhile_append_of_stops (hd n) (stops_cons hc s)
  have e : ofNat m = ofNat n := by rw [← hm, ← hn, h]
  rw [e] at h
  exact ⟨ofNat_injective e, (List.cons.inj (List.append_cancel_left h)).2⟩

/-- The numeral of a positive number does not start with a zero. -/
theorem ofNat_eq_zero_cons {n : Nat} {r : Text} (h : ofNat n = '0' :: r) : n = 0 := by
  induction n using Nat.strongRecOn generalizing r with
  | ind n ih =>
    rw [ofNat, Nat.toDigits_eq_if (by decide)] at h
    split at h
    · exact Nat.digitChar_eq_zero.1 (List.cons.inj h).1
    · have hd : n / 10 < n := by omega
      obtain ⟨d, ds, he⟩ := List.exists_cons_of_ne_nil (ofNat_ne_nil (n / 10))
      rw [ofNat] at he
      rw [he, List.cons_append] at h
      have := ih _ hd (r := ds) (by rw [ofNat, he, (List.cons.inj h).1])
      omega

end SlideDeck.Text

namespace SlideDeck.Numeral

theorem isPlain_ofNat (n : Nat) : isPlain (Text.ofNat n) = true := by
  rw [isPlain, Bool.and_eq_true, Bool.not_eq_true', List.isEmpty_eq_false_iff]
  exact ⟨Text.ofNat_ne_nil n, List.all_eq_true.2 fun c hc => Text.isDigit_of_mem_ofNat hc⟩

theorem value_eq_ofDigitChars (s : Text) : value s = Nat.ofDigitChars 10 s 0 := by
  simp only [value, ofDigits, Nat.ofDigitChars, List.foldl_map]

/-- The numeral of a number has this number as its value. -/
theorem value_ofNat (n : Nat) : value (Text.ofNat n) = n := by
  rw [value_eq_ofDigitChars, Text.ofNat, Nat.ofDigitChars_ten_toDigits]

theorem value_lt {s : Text} (h : ∀ c ∈ s, c.isDigit = true) : value s < 10 ^ s.length := by
  induction s with
  | nil => decide
  | cons c s ih =>
    have ih := ih fun d hd => h d (List.mem_cons_of_mem _ hd)
    have hc := h c (List.mem_cons_self ..)
    rw [Text.isDigit_iff] at hc
    rw [value_eq_ofDigitChars] at ih ⊢
    rw [Nat.ofDigitChars_cons, Nat.ofDigitChars_eq_ofDigitChars_zero, List.length_cons,
      Nat.pow_succ]
    have hd : 10 * 0 + (c.toNat - '0'.toNat) ≤ 9 := by
      show 10 * 0 + (c.toNat - 48) ≤ 9
      omega
    have := Nat.mul_le_mul_left (10 ^ s.length) hd
    omega

/-- No run of digits is shorter than the numeral of its value. -/
theorem length_ofNat_value_le {s : Text} (hs : s ≠ []) (h : ∀ c ∈ s, c.isDigit = true) :
    (Text.ofNat (value s)).length ≤ s.length := by
  refine (Nat.length_toDigits_le_iff (by decide) ?_).2 (value_lt h)
  exact List.length_pos_iff.2 hs

end SlideDeck.Numeral
