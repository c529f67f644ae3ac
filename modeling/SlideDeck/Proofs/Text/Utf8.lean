import SlideDeck.Proofs.Outcome
import SlideDeck.Text.Utf8

/-!
# Written texts are read again

The bytes of a text are read as that text (`decode_encode`), also behind other bytes that are a text
(`decode_append`). A file is read with line feeds for all line ends. Reading takes a text apart at
any place but between a carriage return and the line feed that follows it (`lineFeeds_append`);
there the two make one line end (`lineFeeds_append_feed`).
-/

namespace SlideDeck.Utf8

/-- Bytes that are read to their end do not matter for what is read behind them. -/
theorem decodeFrom_append {a : List UInt8} {pos : Nat} {p : Option Pending} {s : Text}
    (h : decodeFrom pos p a = .ok s) (b : List UInt8) :
    decodeFrom pos p (a ++ b) = (decodeFrom (pos + a.length) none b).map (s ++ ·) := by
  have hmap (c : Char) (s : Text) (x : Except Error Text) :
      (x.map (s ++ ·)).map (c :: ·) = x.map (c :: s ++ ·) := by cases x <;> rfl
  induction a generalizing pos p s with
  | nil =>
    cases p with
    | none =>
      cases h
      cases hb : decodeFrom pos none b <;> simp [Except.map, hb]
    | some p => cases h
  | cons c r ih =>
    have hlen : pos + (c :: r).length = pos + 1 + r.length := by
      rw [List.length_cons]
      omega
    rw [hlen]
    cases p with
    | none =>
      rw [List.cons_append, decodeFrom]
      rw [decodeFrom] at h
      cases hp : lead c with
      | none => simp only [hp] at h; cases h
      | some p =>
        simp only [hp] at h ⊢
        split at h
        · next howed =>
          obtain ⟨s, hr, rfl⟩ := Outcome.map_eq_ok.1 h
          rw [if_pos howed, ih hr, hmap]
        · next howed => rw [if_neg howed, ih h]
    | some p =>
      rw [List.cons_append, decodeFrom]
      rw [decodeFrom] at h
      split at h
      · next hc =>
        simp only at h
        rw [if_pos hc]
        simp only
        split at h
        · next howed =>
          obtain ⟨s, hr, rfl⟩ := Outcome.map_eq_ok.1 h
          rw [if_pos howed, ih hr, hmap]
        · next howed => rw [if_neg howed, ih h]
      · cases h

/-! ## The bytes of a character -/

theorem toNat_ofNat {n : Nat} (h : n < 256) : (UInt8.ofNat n).toNat = n := by
  rw [UInt8.toNat_ofNat']
  omega

theorem decodeFrom_lead {pos n : Nat} {p : Pending} (h : lead (UInt8.ofNat n) = some p)
    (howed : p.owed ≠ 0) (r : List UInt8) :
    decodeFrom pos none (UInt8.ofNat n :: r) = decodeFrom (pos + 1) (some p) r := by
  simp only [decodeFrom, h, howed, if_false]

theorem decodeFrom_next {pos v : Nat} {p : Pending} (howed : p.owed ≠ 1) (hl : p.low ≤ v % 64 + 128)
    (hh : v % 64 + 128 ≤ p.high) (r : List UInt8) :
    decodeFrom pos (some p) (UInt8.ofNat (v % 64 + 128) :: r) =
      decodeFrom (pos + 1)
        (some ⟨p.first, p.taken + 1, p.owed - 1, 0x80, 0xbf, p.value * 64 + v % 64⟩) r := by
  simp only [decodeFrom, toNat_ofNat (show v % 64 + 128 < 256 by omega), hl, hh, and_self, if_true,
    howed, if_false, Nat.add_sub_cancel]

theorem decodeFrom_last {pos v : Nat} {p : Pending} (howed : p.owed = 1) (hl : p.low ≤ v % 64 + 128)
    (hh : v % 64 + 128 ≤ p.high) :
    decodeFrom pos (some p) [UInt8.ofNat (v % 64 + 128)] =
      .ok [Char.ofNat (p.value * 64 + v % 64)] := by
  simp only [decodeFrom, toNat_ofNat (show v % 64 + 128 < 256 by omega), hl, hh, and_self, if_true,
    howed, Nat.add_sub_cancel, Except.map]

/-- What the first byte of a character of several bytes announces. -/
theorem lead_of_two {v : Nat} (h₁ : 0x80 ≤ v) (h₂ : v < 0x800) :
    lead (UInt8.ofNat (v / 64 % 32 + 192)) =
      some ⟨UInt8.ofNat (v / 64 % 32 + 192), 1, 1, 0x80, 0xbf, v / 64⟩ := by
  have hv : v / 64 % 32 = v / 64 := by omega
  rw [lead, toNat_ofNat (by omega), hv, if_neg (by omega), if_neg (by omega), if_pos (by omega),
    Nat.add_sub_cancel]

theorem lead_of_three {v : Nat} (h : v < 0x10000) :
    lead (UInt8.ofNat (v / 4096 % 16 + 224)) =
      some ⟨UInt8.ofNat (v / 4096 % 16 + 224), 1, 2, if v / 4096 = 0 then 0xa0 else 0x80,
        if v / 4096 = 13 then 0x9f else 0xbf, v / 4096⟩ := by
  have hv : v / 4096 % 16 = v / 4096 := by omega
  rw [lead, toNat_ofNat (by omega), hv, if_neg (by omega), if_neg (by omega), if_neg (by omega),
    if_pos (by omega), Nat.add_sub_cancel]
  simp only [show v / 4096 + 224 = 224 ↔ v / 4096 = 0 by omega,
    show v / 4096 + 224 = 237 ↔ v / 4096 = 13 by omega]

theorem lead_of_four {v : Nat} (h : v < 0x110000) :
    lead (UInt8.ofNat (v / 262144 % 8 + 240)) =
      some ⟨UInt8.ofNat (v / 262144 % 8 + 240), 1, 3, if v / 262144 = 0 then 0x90 else 0x80,
        if v / 262144 = 4 then 0x8f else 0xbf, v / 262144⟩ := by
  have hv : v / 262144 % 8 = v / 262144 := by omega
  rw [lead, toNat_ofNat (by omega), hv, if_neg (by omega), if_neg (by omega), if_neg (by omega),
    if_neg (by omega), if_pos (by omega), Nat.add_sub_cancel]
  simp only [show v / 262144 + 240 = 240 ↔ v / 262144 = 0 by omega,
    show v / 262144 + 240 = 244 ↔ v / 262144 = 4 by omega]

/-- A character's bytes are read as that character. -/
theorem decodeFrom_encodeChar (pos : Nat) (c : Char) :
    decodeFrom pos none (String.utf8EncodeChar c) = .ok [c] := by
  -- Surrogates are no characters, which the bounds of the second of three bytes check.
  have hv : c.val.toNat < 0x110000 ∧ ¬(0xd800 ≤ c.val.toNat ∧ c.val.toNat ≤ 0xdfff) := by
    have := c.valid
    simp only [UInt32.isValidChar, Nat.isValidChar] at this
    omega
  have hc : Char.ofNat c.val.toNat = c := Char.ofNat_toNat c
  unfold String.utf8EncodeChar
  generalize c.val.toNat = v at hv hc ⊢
  simp only
  split
  · rw [decodeFrom, lead, toNat_ofNat (by omega), if_pos (by omega)]
    simp only [if_true, hc, decodeFrom, Except.map]
  split
  · rw [decodeFrom_lead (lead_of_two (by omega) (by omega)) (by simp),
      decodeFrom_last rfl (by simp) (by simp only; omega)]
    simp only
    rw [show v / 64 * 64 + v % 64 = v by omega, hc]
  split
  · rw [decodeFrom_lead (lead_of_three (by omega)) (by simp),
      decodeFrom_next (by simp) (by simp only; split <;> omega) (by simp only; split <;> omega),
      decodeFrom_last rfl (by simp) (by simp only; omega)]
    simp only
    rw [show (v / 4096 * 64 + v / 64 % 64) * 64 + v % 64 = v by omega, hc]
  · rw [decodeFrom_lead (lead_of_four (by omega)) (by simp),
      decodeFrom_next (by simp) (by simp only; split <;> omega) (by simp only; split <;> omega),
      decodeFrom_next (by simp) (by simp) (by simp only; omega),
      decodeFrom_last rfl (by simp) (by simp only; omega)]
    simp only
    rw [show ((v / 262144 * 64 + v / 4096 % 64) * 64 + v / 64 % 64) * 64 + v % 64 = v by omega, hc]

/-! ## The bytes of a text -/

theorem decodeFrom_encode (pos : Nat) (s : Text) : decodeFrom pos none (encode s) = .ok s := by
  induction s generalizing pos with
  | nil => rfl
  | cons c s ih =>
    rw [encode, List.flatMap_cons, decodeFrom_append (decodeFrom_encodeChar pos c)]
    show ((decodeFrom _ none (encode s)).map _) = _
    rw [ih]
    rfl

theorem decode_encode (s : Text) : decode (encode s) = .ok s := decodeFrom_encode 0 s

/-- What is written behind a text is read behind it. -/
theorem decode_append {bytes : List UInt8} {s : Text} (h : decode bytes = .ok s) (t : Text) :
    decode (bytes ++ encode t) = .ok (s ++ t) := by
  rw [decode, decodeFrom_append h, decodeFrom_encode]
  rfl

theorem encode_injective {s t : Text} (h : encode s = encode t) : s = t :=
  Except.ok.inj (by rw [← decode_encode s, h, decode_encode])

theorem encode_eq_nil_iff {s : Text} : encode s = [] ↔ s = [] :=
  ⟨fun h => encode_injective h, fun h => h ▸ rfl⟩

/-! ## Line ends -/

theorem lineFeeds_cons_of_ne {c : Char} (h : c ≠ '\r') (r : Text) :
    lineFeeds (c :: r) = c :: lineFeeds r := by
  rw [lineFeeds, if_neg h]
  rintro r rfl
  exact absurd rfl h

theorem lineFeeds_return {r : Text} (h : r.head? ≠ some '\n') :
    lineFeeds ('\r' :: r) = '\n' :: lineFeeds r := by
  rw [lineFeeds, if_pos rfl]
  rintro r - rfl
  exact h rfl

theorem not_mem_lineFeeds (s : Text) : '\r' ∉ lineFeeds s := by
  fun_induction lineFeeds s with
  | case1 => simp
  | case2 r ih => simp [ih]
  | case3 c r hr ih =>
    simp only [List.mem_cons, not_or]
    refine ⟨?_, ih⟩
    split
    · decide
    · next hc => exact fun h => hc h.symm

theorem lineFeeds_of_not_mem {s : Text} (h : '\r' ∉ s) : lineFeeds s = s := by
  induction s with
  | nil => rfl
  | cons c s ih =>
    simp only [List.mem_cons, not_or] at h
    rw [lineFeeds_cons_of_ne (fun hc => h.1 hc.symm), ih h.2]

theorem lineFeeds_append {a b : Text} (h : a.getLast? ≠ some '\r' ∨ b.head? ≠ some '\n') :
    lineFeeds (a ++ b) = lineFeeds a ++ lineFeeds b := by
  fun_induction lineFeeds a with
  | case1 => rfl
  | case2 r ih =>
    simp only [List.cons_append, lineFeeds]
    rw [ih]
    cases r with
    | nil => exact .inl (by simp)
    | cons d r => simpa only [List.getLast?_cons_cons] using h
  | case3 c r hc ih =>
    have hr : r.getLast? ≠ some '\r' ∨ b.head? ≠ some '\n' := by
      cases r with
      | nil => exact .inl (by simp)
      | cons d r => simpa only [List.getLast?_cons_cons] using h
    by_cases hcr : c = '\r'
    · subst hcr
      have hhead : (r ++ b).head? ≠ some '\n' := by
        cases r with
        | nil => exact h.resolve_left (by simp)
        | cons d r =>
          intro hd
          obtain rfl : d = '\n' := by simpa using hd
          exact hc r rfl rfl
      rw [List.cons_append, lineFeeds_return hhead, ih hr, if_pos rfl]
      rfl
    · rw [List.cons_append, lineFeeds_cons_of_ne hcr, ih hr, if_neg hcr]
      rfl

/-- A line feed behind a text ends a line of its own, or the one that a carriage return has ended
already. -/
theorem lineFeeds_append_feed (a b : Text) :
    ∃ u, (lineFeeds a = u ∨ lineFeeds a = u ++ ['\n']) ∧
      lineFeeds (a ++ '\n' :: b) = u ++ '\n' :: lineFeeds b := by
  by_cases h : a.getLast? = some '\r'
  · obtain ⟨s, rfl⟩ := List.getLast?_eq_some_iff.1 h
    refine ⟨lineFeeds s, .inr ?_, ?_⟩
    · rw [lineFeeds_append (.inr (by simp))]
      rfl
    · rw [List.append_assoc, List.singleton_append, lineFeeds_append (.inr (by simp))]
      rfl
  · refine ⟨lineFeeds a, .inl rfl, ?_⟩
    rw [lineFeeds_append (.inl h), lineFeeds_cons_of_ne (by simp)]

/-- What has been read stays as it is when something is written behind it. -/
theorem lineFeeds_isPrefix (a b : Text) : lineFeeds a <+: lineFeeds (a ++ b) := by
  by_cases h : b.head? = some '\n'
  · obtain ⟨b, rfl⟩ : ∃ r, b = '\n' :: r := List.head?_eq_some_iff.1 h
    obtain ⟨u, hu, heq⟩ := lineFeeds_append_feed a b
    rw [heq]
    rcases hu with hu | hu
    · exact ⟨'\n' :: lineFeeds b, by rw [hu]⟩
    · exact ⟨lineFeeds b, by rw [hu, List.append_assoc]; rfl⟩
  · rw [lineFeeds_append (.inr h)]
    exact List.prefix_append ..

/-- A text that starts and ends with a line feed is read alike wherever it stands. -/
theorem lineFeeds_isInfix {b : Text} (hhead : b.head? = some '\n') (hlast : b.getLast? = some '\n')
    (a c : Text) :
    lineFeeds b <:+: lineFeeds (a ++ b ++ c) := by
  have hends : (a ++ b).getLast? ≠ some '\r' := by
    rw [List.getLast?_append, hlast]
    simp
  obtain ⟨b, rfl⟩ : ∃ r, b = '\n' :: r := List.head?_eq_some_iff.1 hhead
  obtain ⟨u, -, heq⟩ := lineFeeds_append_feed a b
  rw [lineFeeds_append (.inl hends), heq, ← lineFeeds_cons_of_ne (by simp)]
  exact ⟨u, lineFeeds c, rfl⟩

/-! ## Reading files -/

theorem not_mem_of_readLines {bytes : List UInt8} {s : Text} (h : readLines bytes = .ok s) :
    '\r' ∉ s := by
  obtain ⟨raw, -, rfl⟩ := Outcome.map_eq_ok.1 h
  exact not_mem_lineFeeds raw

theorem readLines_encode (s : Text) : readLines (encode s) = .ok (lineFeeds s) := by
  rw [readLines, decode_encode]
  rfl

end SlideDeck.Utf8
