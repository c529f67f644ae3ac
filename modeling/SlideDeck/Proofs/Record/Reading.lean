import SlideDeck.Proofs.Outcome
import SlideDeck.Proofs.Record.Value
import SlideDeck.Proofs.Text.Numeral

/-!
# What readers return

A value that `readValue` returns at a depth fits this depth (`fits_of_readValue`): it is nested no
deeper, no key stands twice in an object, and its integers have numerals that are short enough.
-/

namespace SlideDeck.Record

variable {item : Reader Value} {P : Value → Prop}

/-! ## What is read -/

/-- Items are an item and what stands behind it: the closing bracket, or a comma and more items. -/
theorem readItems_cases {fuel : Nat} {s r : Text} {vs : List Value}
    (h : readItems item (fuel + 1) s = .ok (vs, r)) :
    ∃ v t, item s = .ok (v, t) ∧
      (skipSpace t = ']' :: r ∧ vs = [v] ∨
        ∃ u ws, skipSpace t = ',' :: u ∧ readItems item fuel (skipSpace u) = .ok (ws, r) ∧
          vs = v :: ws) := by
  rw [readItems] at h
  obtain ⟨⟨v, t⟩, hv, h⟩ := Outcome.bind_eq_ok.1 h
  refine ⟨v, t, hv, ?_⟩
  dsimp only at h
  split at h
  · next hend =>
    cases h
    exact .inl ⟨hend, rfl⟩
  · next u hcomma =>
    obtain ⟨⟨ws, r₁⟩, hws, h⟩ := Outcome.bind_eq_ok.1 h
    cases h
    exact .inr ⟨u, ws, hcomma, hws, rfl⟩
  · cases h

/-- Members are a key, its value and what stands behind it: the closing brace, or a comma and more
members. -/
theorem readMembers_cases {fuel : Nat} {s r : Text} {ms : List (Text × Value)}
    (h : readMembers item (fuel + 1) s = .ok (ms, r)) :
    ∃ name key behind rest v t, s = '"' :: name ∧ readString name = .ok (key, behind) ∧
      skipSpace behind = ':' :: rest ∧ item (skipSpace rest) = .ok (v, t) ∧
      (skipSpace t = '\x7d' :: r ∧ ms = [(key, v)] ∨
        ∃ u ns, skipSpace t = ',' :: u ∧ readMembers item fuel (skipSpace u) = .ok (ns, r) ∧
          ms = (key, v) :: ns) := by
  rw [readMembers.eq_def] at h
  dsimp only at h
  split at h
  · next name =>
    obtain ⟨⟨key, behind⟩, hkey, h⟩ := Outcome.bind_eq_ok.1 h
    dsimp only at h
    split at h
    · next rest hcolon =>
      obtain ⟨⟨v, t⟩, hv, h⟩ := Outcome.bind_eq_ok.1 h
      refine ⟨name, key, behind, rest, v, t, rfl, hkey, hcolon, hv, ?_⟩
      dsimp only at h
      split at h
      · next hend =>
        cases h
        exact .inl ⟨hend, rfl⟩
      · next u hcomma =>
        obtain ⟨⟨ns, r₁⟩, hns, h⟩ := Outcome.bind_eq_ok.1 h
        cases h
        exact .inr ⟨u, ns, hcomma, hns, rfl⟩
      · cases h
    · cases h
  · cases h

/-- With `depth` levels left, a value is read from `s` up to `r`: one case for each kind of text it
is read from. -/
inductive Reads : Nat → Text → Value → Text → Prop
  | string {depth : Nat} {s t r : Text} (h : readString s = .ok (t, r)) :
    Reads depth ('"' :: s) (.string t) r
  | noItems {depth : Nat} {s r : Text} (h : skipSpace s = ']' :: r) :
    Reads (depth + 1) ('[' :: s) (.array []) r
  | items {depth : Nat} {s r : Text} {vs : List Value}
    (h : readItems (readValue depth) ((skipSpace s).length + 1) (skipSpace s) = .ok (vs, r)) :
    Reads (depth + 1) ('[' :: s) (.array vs) r
  | noMembers {depth : Nat} {s r : Text} (h : skipSpace s = '\x7d' :: r) :
    Reads (depth + 1) ('\x7b' :: s) (.object []) r
  | members {depth : Nat} {s r : Text} {ms : List (Text × Value)}
    (h : readMembers (readValue depth) ((skipSpace s).length + 1) (skipSpace s) = .ok (ms, r)) :
    Reads (depth + 1) ('\x7b' :: s) (.object (Members.ofEntries ms)) r
  | scalar {depth : Nat} {s r : Text} {v : Value} (h : readScalar s = .ok (v, r)) :
    Reads depth s v r

theorem reads_of_readValue {depth : Nat} {s r : Text} {v : Value}
    (h : readValue depth s = .ok (v, r)) : Reads depth s v r := by
  rw [readValue.eq_def] at h
  dsimp only at h
  split at h
  · obtain ⟨⟨t, r₁⟩, ht, h⟩ := Outcome.bind_eq_ok.1 h
    cases h
    exact .string ht
  · split at h
    · cases h
    split at h
    · next hend =>
      cases h
      exact .noItems hend
    · obtain ⟨⟨vs, r₁⟩, hvs, h⟩ := Outcome.bind_eq_ok.1 h
      cases h
      exact .items hvs
  · split at h
    · cases h
    split at h
    · next hend =>
      cases h
      exact .noMembers hend
    · obtain ⟨⟨ms, r₁⟩, hms, h⟩ := Outcome.bind_eq_ok.1 h
      cases h
      exact .members hms
  · exact .scalar h

/-! ## What its values are -/

/-- All items are as the reader of one item returns them. -/
theorem forall_of_readItems (hP : ∀ {s v r}, item s = .ok (v, r) → P v) {fuel : Nat} {s r : Text}
    {vs : List Value} (h : readItems item fuel s = .ok (vs, r)) : ∀ v ∈ vs, P v := by
  induction fuel generalizing s vs r with
  | zero => cases h
  | succ fuel ih =>
    obtain ⟨v, t, hv, ⟨-, rfl⟩ | ⟨u, ws, -, hws, rfl⟩⟩ := readItems_cases h
    · exact fun w hw => List.mem_singleton.1 hw ▸ hP hv
    · exact List.forall_mem_cons.2 ⟨hP hv, ih hws⟩

/-- All members' values are as the reader of one value returns them. -/
theorem forall_of_readMembers (hP : ∀ {s v r}, item s = .ok (v, r) → P v) {fuel : Nat} {s r : Text}
    {ms : List (Text × Value)} (h : readMembers item fuel s = .ok (ms, r)) : ∀ m ∈ ms, P m.2 := by
  induction fuel generalizing s ms r with
  | zero => cases h
  | succ fuel ih =>
    obtain ⟨_, key, _, _, v, t, -, -, -, hv, ⟨-, rfl⟩ | ⟨u, ns, -, hns, rfl⟩⟩ := readMembers_cases h
    · exact fun m hm => List.mem_singleton.1 hm ▸ hP hv
    · exact List.forall_mem_cons.2 ⟨hP hv, ih hns⟩

/-- A number that is read from a run of digits has a numeral that is no longer. -/
theorem fits_of_readFraction {negative : Bool} {whole s r : Text} {v : Value} (hw : whole ≠ [])
    (hd : ∀ c ∈ whole, c.isDigit = true) (h : readFraction negative whole s = .ok (v, r))
    (depth : Nat) :
    v.Fits depth := by
  simp only [readFraction] at h
  split at h
  · cases h
    exact Value.fits_real depth _
  · split at h
    · cases h
      exact Value.fits_real depth _
    · rw [Numeral.read] at h
      split at h
      · next n hn =>
        split at hn
        · next hl =>
          cases hn
          cases h
          have := Numeral.length_ofNat_value_le hw hd
          refine Value.fits_integer_iff.2 ?_
          split
          · rw [Int.natAbs_neg, Int.natAbs_natCast]
            omega
          · rw [Int.natAbs_natCast]
            omega
        · cases hn
      · cases h

theorem fits_of_readNumber {start s r : Text} {negative : Bool} {v : Value}
    (h : readNumber start negative s = .ok (v, r)) (depth : Nat) : v.Fits depth := by
  rw [readNumber.eq_def] at h
  split at h
  · exact fits_of_readFraction (by decide) (fun c hc => List.mem_singleton.1 hc ▸ rfl) h depth
  · next c t _ =>
    split at h
    · next hc =>
      refine fits_of_readFraction (by simp) (fun d hd => ?_) h depth
      rcases List.mem_cons.1 hd with rfl | hd
      · exact hc
      · exact List.all_eq_true.1 List.all_takeWhile d hd
    · cases h
  · cases h

theorem fits_of_readScalar {s r : Text} {v : Value} (h : readScalar s = .ok (v, r)) (depth : Nat) :
    v.Fits depth := by
  rw [readScalar.eq_def] at h
  split at h
  iterate 6 · cases h; cases depth <;> trivial
  · exact fits_of_readNumber h depth
  · exact fits_of_readNumber h depth

/-- A value that is read fits the depth it was read at. -/
theorem fits_of_readValue {depth : Nat} {s r : Text} {v : Value}
    (h : readValue depth s = .ok (v, r)) :
    v.Fits depth := by
  induction depth using Nat.strong_induction_on generalizing s v r with
  | _ depth ih =>
    cases reads_of_readValue h with
    | string ht => cases depth <;> trivial
    | noItems => exact fun v hv => absurd hv List.not_mem_nil
    | items hvs => exact forall_of_readItems (ih _ (Nat.lt_succ_self _)) hvs
    | noMembers => exact ⟨List.nodup_nil, fun m hm => absurd hm List.not_mem_nil⟩
    | members hms =>
      refine ⟨Members.nodup_keys_ofEntries _, fun m hm => ?_⟩
      exact forall_of_readMembers (ih _ (Nat.lt_succ_self _)) hms m (Members.mem_ofEntries hm)
    | scalar hv => exact fits_of_readScalar hv depth

theorem fits_of_read [Nesting] {s : Text} {v : Value} (h : read s = .ok v) :
    v.Fits Nesting.limit := by
  rw [read] at h
  obtain ⟨⟨w, r⟩, hr, h⟩ := Outcome.bind_eq_ok.1 h
  dsimp only at h
  split at h
  · cases h
    exact fits_of_readValue hr
  · cases h

end SlideDeck.Record
