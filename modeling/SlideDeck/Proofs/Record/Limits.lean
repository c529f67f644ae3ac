import SlideDeck.Proofs.Record.Reading
import SlideDeck.Proofs.Record.Scalar

/-!
# The limits of reading

A reader stops for two kinds of reasons: the text lacks something, or a limit is exceeded, that of
nesting or that of the digits of a numeral. The second is told from the text alone
(`exceeds_read_iff`). Values are read from the left, and `Comes` says at which places a value is
expected behind those that are read already; the limits are exceeded if one of these places is
nested too deeply or starts with a numeral that is too long.

A round of a loop shortens the text (`Shortens`), so that the loops never end for want of fuel.
-/

namespace SlideDeck.Record

open Text (Stops)

variable {α β : Type} {item : Reader Value} {depth : Nat} {s t r : Text}

/-! ## Faults -/

/-- A fault of the reader's limits, not of the text. -/
def Fault.IsLimit : Fault → Prop
  | .lacks .. => False
  | .numeralTooLong _ => True
  | .nestedTooDeep => True

/-- Reading exceeded a limit. -/
def Exceeds (result : Except Fault α) : Prop := ∃ fault, result = .error fault ∧ fault.IsLimit

theorem not_exceeds_ok (a : α) : ¬Exceeds (.ok a) := fun ⟨_, h, _⟩ => by cases h

theorem not_exceeds_lacks (expected : Expected) (left : Nat) :
    ¬Exceeds (.error (.lacks expected left) : Except Fault α) := by
  rintro ⟨_, h, hl⟩
  cases h
  exact hl

/-- Two steps exceed a limit if the first one does, or the second one behind it. -/
theorem exceeds_bind_iff {x : Except Fault α} {f : α → Except Fault β} :
    Exceeds (x >>= f) ↔ Exceeds x ∨ ∃ a, x = .ok a ∧ Exceeds (f a) := by
  cases x with
  | error fault =>
    refine ⟨fun ⟨g, h, hl⟩ => .inl ⟨g, ?_, hl⟩, ?_⟩
    · exact congrArg Except.error (Except.error.inj h)
    · rintro (⟨g, h, hl⟩ | ⟨a, h, -⟩)
      · exact ⟨g, congrArg Except.error (Except.error.inj h), hl⟩
      · cases h
  | ok a =>
    refine ⟨fun h => .inr ⟨a, rfl, h⟩, ?_⟩
    rintro (h | ⟨b, h, hf⟩)
    · exact absurd h (not_exceeds_ok a)
    · cases h
      exact hf

/-- Naming what is returned exceeds no limit. -/
theorem exceeds_bind_pure_iff {x : Except Fault α} {f : α → β} :
    (Exceeds do return f (← x)) ↔ Exceeds x := by
  rw [exceeds_bind_iff]
  refine or_iff_left ?_
  rintro ⟨a, -, h⟩
  exact not_exceeds_ok _ h

theorem not_exceeds_bind {x : Except Fault α} {f : α → Except Fault β} (hx : ¬Exceeds x)
    (hf : ∀ a, ¬Exceeds (f a)) :
    ¬Exceeds (x >>= f) := fun h =>
  (exceeds_bind_iff.1 h).elim hx fun ⟨a, _, ha⟩ => hf a ha

/-! ## Strings have no limits -/

theorem not_exceeds_readUnicode (s : Text) : ¬Exceeds (readUnicode s) := by
  rw [readUnicode.eq_def]
  repeat' split
  all_goals first | exact not_exceeds_lacks _ _ | exact not_exceeds_ok _

theorem not_exceeds_readChar (opening : Nat) (s : Text) : ¬Exceeds (readChar opening s) := by
  rw [readChar.eq_def]
  split
  · exact not_exceeds_lacks _ _
  · exact not_exceeds_lacks _ _
  · exact not_exceeds_readUnicode _
  · split
    · exact not_exceeds_ok _
    · exact not_exceeds_lacks _ _
  · split
    · exact not_exceeds_lacks _ _
    · exact not_exceeds_ok _

theorem not_exceeds_readChars (opening fuel : Nat) (s : Text) :
    ¬Exceeds (readChars opening fuel s) := by
  induction fuel generalizing s with
  | zero => exact not_exceeds_lacks _ _
  | succ fuel ih =>
    rw [readChars.eq_def]
    dsimp only
    split
    · exact not_exceeds_ok _
    · exact not_exceeds_bind (not_exceeds_readChar _ _) fun a =>
        not_exceeds_bind (ih a.2) fun _ => not_exceeds_ok _

theorem not_exceeds_readString (s : Text) : ¬Exceeds (readString s) := not_exceeds_readChars _ _ _

/-! ## Readers shorten the text -/

/-- What a reader leaves is shorter than what it was given. -/
def Shortens (read : Reader α) : Prop := ∀ ⦃s a r⦄, read s = .ok (a, r) → r.length < s.length

theorem length_secondHalf? {ds : Char × Char × Char × Char} (h : secondHalf? s = some (ds, r)) :
    r.length < s.length := by
  rw [secondHalf?.eq_def] at h
  split at h
  · cases h
    simp only [List.length_cons]
    omega
  · cases h

theorem shortens_readUnicode : Shortens readUnicode := by
  intro s a r h
  rw [readUnicode.eq_def] at h
  split at h
  · split at h
    · cases h
    · split at h
      · split at h
        · cases h
          simp only [List.length_cons]
          omega
        · next hs =>
          have := length_secondHalf? hs
          split at h
          · cases h
          · split at h
            all_goals
              obtain ⟨-, rfl⟩ := Prod.mk.inj (Except.ok.inj h)
              simp only [List.length_cons] at this ⊢
              omega
      · cases h
        simp only [List.length_cons]
        omega
  · cases h

theorem shortens_readChar (opening : Nat) : Shortens (readChar opening) := by
  intro s a r h
  rw [readChar.eq_def] at h
  split at h
  · cases h
  · cases h
  · have := shortens_readUnicode h
    simp only [List.length_cons]
    omega
  · split at h
    · cases h
      simp only [List.length_cons]
      omega
    · cases h
  · split at h
    · cases h
    · cases h
      exact Nat.lt_succ_self _

theorem shortens_readChars (opening fuel : Nat) : Shortens (readChars opening fuel) := by
  induction fuel with
  | zero => exact nofun
  | succ fuel ih =>
    intro s a r h
    rw [readChars.eq_def] at h
    dsimp only at h
    split at h
    · cases h
      exact Nat.lt_succ_self _
    · obtain ⟨⟨c, r₁⟩, hc, h⟩ := Outcome.bind_eq_ok.1 h
      obtain ⟨⟨u, r₂⟩, hu, h⟩ := Outcome.bind_eq_ok.1 h
      cases h
      exact (ih hu).trans (shortens_readChar _ hc)

theorem shortens_readString : Shortens readString := fun _ _ _ h => shortens_readChars _ _ h

theorem length_skipSpace_le (s : Text) : (skipSpace s).length ≤ s.length :=
  (List.dropWhile_suffix _).length_le

theorem length_takeFraction_le (s : Text) : (takeFraction s).2.length ≤ s.length := by
  rw [takeFraction.eq_def]
  split
  · split
    · exact (List.dropWhile_suffix _).length_le.trans (by simp only [List.length_cons]; omega)
    · exact Nat.le_refl _
  · exact Nat.le_refl _

theorem length_takeExponentDigits_le {negative : Bool} {n : Int}
    (h : takeExponentDigits negative s = some (n, r)) :
    r.length ≤ s.length := by
  rw [takeExponentDigits] at h
  split at h
  · cases h
  · cases h
    exact (List.dropWhile_suffix _).length_le

theorem length_takeExponent?_le {n : Int} (h : takeExponent? s = some (n, r)) :
    r.length ≤ s.length := by
  rw [takeExponent?.eq_def] at h
  split at h
  · split at h
    · split at h <;> have :=
        length_takeExponentDigits_le h <;> simp only [List.length_cons] at this ⊢ <;> omega
    · cases h
  · cases h

theorem length_readFraction_le {negative : Bool} {whole : Text} {v : Value}
    (h : readFraction negative whole s = .ok (v, r)) : r.length ≤ s.length := by
  simp only [readFraction] at h
  have hf := length_takeFraction_le s
  split at h
  · next he =>
    cases h
    exact (length_takeExponent?_le he).trans hf
  · split at h
    · cases h
      exact hf
    · split at h
      · cases h
        exact hf
      · cases h

theorem shortens_readNumber (start : Text) (negative : Bool) :
    Shortens (readNumber start negative) := by
  intro s v r h
  rw [readNumber.eq_def] at h
  split at h
  · exact Nat.lt_succ_of_le (length_readFraction_le h)
  · split at h
    · exact Nat.lt_succ_of_le ((length_readFraction_le h).trans (List.dropWhile_suffix _).length_le)
    · cases h
  · cases h

theorem shortens_readScalar : Shortens readScalar := by
  intro s v r h
  rw [readScalar.eq_def] at h
  split at h
  iterate 6 · cases h; simp only [List.length_cons]; omega
  · exact (shortens_readNumber _ _ h).trans (Nat.lt_succ_self _)
  · exact shortens_readNumber _ _ h

theorem length_lt_of_skipSpace {c : Char} (h : skipSpace s = c :: r) : r.length < s.length := by
  have := length_skipSpace_le s
  rw [h, List.length_cons] at this
  omega

/-- Behind an item and a character there is less than before the item. -/
theorem length_behind_item (hi : Shortens item) {c : Char} {v : Value} (hv : item s = .ok (v, t))
    (hc : skipSpace t = c :: r) : r.length < s.length :=
  (length_lt_of_skipSpace hc).trans (hi hv)

/-- Behind a member and a character there is less than before the member's key. -/
theorem length_behind_member (hi : Shortens item) {key r₁ r₂ r₃ : Text} {c : Char} {v : Value}
    (hk : readString s = .ok (key, r₁)) (hcolon : skipSpace r₁ = ':' :: r₂)
    (hv : item (skipSpace r₂) = .ok (v, r₃)) (hc : skipSpace r₃ = c :: r) : r.length < s.length :=
  calc
    r.length < (skipSpace r₂).length := length_behind_item hi hv hc
    _ ≤ r₂.length := length_skipSpace_le r₂
    _ < r₁.length := length_lt_of_skipSpace hcolon
    _ < s.length := shortens_readString hk

theorem shortens_readItems (hi : Shortens item) (fuel : Nat) : Shortens (readItems item fuel) := by
  induction fuel with
  | zero => exact nofun
  | succ fuel ih =>
    intro s vs r h
    obtain ⟨v, t, hv, ⟨hend, -⟩ | ⟨u, ws, hcomma, hws, -⟩⟩ := readItems_cases h
    · exact length_behind_item hi hv hend
    · exact ((ih hws).trans_le (length_skipSpace_le u)).trans (length_behind_item hi hv hcomma)

theorem shortens_readMembers (hi : Shortens item) (fuel : Nat) :
    Shortens (readMembers item fuel) := by
  induction fuel with
  | zero => exact nofun
  | succ fuel ih =>
    intro s ms r h
    obtain ⟨name, key, behind, rest, v, t, rfl, hkey, hcolon, hv, hrest⟩ := readMembers_cases h
    rcases hrest with ⟨hend, -⟩ | ⟨u, ns, hcomma, hns, -⟩
    · exact Nat.lt_succ_of_lt (length_behind_member hi hkey hcolon hv hend)
    · have hmore := (ih hns).trans_le (length_skipSpace_le u)
      exact Nat.lt_succ_of_lt (hmore.trans (length_behind_member hi hkey hcolon hv hcomma))

theorem shortens_readValue (depth : Nat) : Shortens (readValue depth) := by
  induction depth using Nat.strong_induction_on with
  | _ depth ih =>
    intro s v r h
    cases reads_of_readValue h with
    | string ht => exact (shortens_readString ht).trans (Nat.lt_succ_self _)
    | noItems hend => exact Nat.lt_succ_of_lt (length_lt_of_skipSpace hend)
    | items hvs =>
      have hinner := shortens_readItems (ih _ (Nat.lt_succ_self _)) _ hvs
      exact Nat.lt_succ_of_lt (hinner.trans_le (length_skipSpace_le _))
    | noMembers hend => exact Nat.lt_succ_of_lt (length_lt_of_skipSpace hend)
    | members hms =>
      have hinner := shortens_readMembers (ih _ (Nat.lt_succ_self _)) _ hms
      exact Nat.lt_succ_of_lt (hinner.trans_le (length_skipSpace_le _))
    | scalar hv => exact shortens_readScalar hv

/-! ## Numerals that are too long -/

/-- A run of digits without a zero in front that is too long for an integer, and what stands behind
it: neither another digit nor a fraction nor an exponent. -/
structure IsTooLong (whole rest : Text) : Prop where
  digits : ∀ c ∈ whole, c.isDigit = true
  long : Numeral.maxDigits < whole.length
  noZero : whole.head? ≠ some '0'
  ends : Stops Char.isDigit rest
  noFraction : takeFraction rest = ([], rest)
  noExponent : takeExponent? rest = none

/-- A text that starts with an integer of too many digits, maybe behind a sign. -/
def StartsTooLong (s : Text) : Prop :=
  ∃ sign whole rest, s = sign ++ whole ++ rest ∧ (sign = [] ∨ sign = ['-']) ∧ IsTooLong whole rest

theorem IsTooLong.exists_cons {whole rest : Text} (h : IsTooLong whole rest) :
    ∃ c w, whole = c :: w ∧ c.isDigit = true ∧ c ≠ '0' := by
  cases whole with
  | nil => exact absurd h.long (Nat.not_lt_zero _)
  | cons c w => exact ⟨c, w, rfl, h.digits c (List.mem_cons_self ..), fun hc => h.noZero (hc ▸ rfl)⟩

theorem StartsTooLong.exists_cons (h : StartsTooLong s) :
    ∃ c r, (s = c :: r ∨ s = '-' :: c :: r) ∧ c.isDigit = true := by
  obtain ⟨sign, whole, rest, rfl, hsign, hw⟩ := h
  obtain ⟨c, w, rfl, hc, -⟩ := hw.exists_cons
  rcases hsign with rfl | rfl
  · exact ⟨c, w ++ rest, .inl rfl, hc⟩
  · exact ⟨c, w ++ rest, .inr rfl, hc⟩

theorem takeFraction_of_fst (h : (takeFraction s).1 = []) : takeFraction s = ([], s) := by
  rw [takeFraction.eq_def] at h ⊢
  split
  · next c r =>
    by_cases hc : c.isDigit = true
    · simp [hc] at h
    · rw [if_neg hc]
  · rfl

theorem exceeds_readFraction_iff {negative : Bool} {whole rest : Text} :
    Exceeds (readFraction negative whole rest) ↔
      Numeral.maxDigits < whole.length ∧ takeFraction rest = ([], rest) ∧
        takeExponent? rest = none := by
  simp only [readFraction]
  constructor
  · intro h
    split at h
    · exact absurd h (not_exceeds_ok _)
    · next he =>
      split at h
      · exact absurd h (not_exceeds_ok _)
      · next hf =>
        have hf := takeFraction_of_fst (not_not.1 hf)
        rw [hf] at he
        rw [Numeral.read] at h
        split at h
        · exact absurd h (not_exceeds_ok _)
        · next hn =>
          split at hn
          · cases hn
          · exact ⟨by omega, hf, he⟩
  · rintro ⟨hl, hf, he⟩
    rw [hf]
    simp only [he, ne_eq, not_true_eq_false, if_false, Numeral.read, if_neg (Nat.not_le_of_lt hl)]
    exact ⟨_, rfl, trivial⟩

theorem exceeds_readNumber_iff {start : Text} {negative : Bool} :
    Exceeds (readNumber start negative s) ↔ ∃ whole rest, s = whole ++ rest ∧
      IsTooLong whole rest := by
  constructor
  · intro h
    rw [readNumber.eq_def] at h
    split at h
    · exact absurd (exceeds_readFraction_iff.1 h).1 (by decide)
    · next c r hc =>
      split at h
      · next hd =>
        obtain ⟨hl, hf, he⟩ := exceeds_readFraction_iff.1 h
        have hstop : Stops Char.isDigit (r.dropWhile Char.isDigit) := fun d hm => by
          have := List.head?_dropWhile_not Char.isDigit r
          rw [Option.mem_def.1 hm] at this
          exact this
        have hdigits : ∀ d ∈ c :: r.takeWhile Char.isDigit, Char.isDigit d = true :=
          List.forall_mem_cons.2 ⟨hd, List.all_eq_true.1 List.all_takeWhile⟩
        refine ⟨c :: r.takeWhile Char.isDigit, r.dropWhile Char.isDigit, ?_, hdigits, hl,
          fun h0 => ?_, hstop, hf, he⟩
        · rw [List.cons_append, List.takeWhile_append_dropWhile]
        · exact hc (Option.some.inj h0)
      · exact absurd h (not_exceeds_lacks _ _)
    · exact absurd h (not_exceeds_lacks _ _)
  · rintro ⟨whole, rest, rfl, hw⟩
    obtain ⟨c, w, rfl, hc, h0⟩ := hw.exists_cons
    have hdigits : ∀ d ∈ w, d.isDigit = true := fun d hd => hw.digits d (List.mem_cons_of_mem _ hd)
    rw [List.cons_append, readNumber.eq_2 _ _ _ _ h0, if_pos hc,
      Text.takeWhile_append_of_stops hdigits hw.ends,
      Text.dropWhile_append_of_stops hdigits hw.ends]
    exact exceeds_readFraction_iff.2 ⟨hw.long, hw.noFraction, hw.noExponent⟩

theorem exceeds_readScalar_iff : Exceeds (readScalar s) ↔ StartsTooLong s := by
  constructor
  · intro h
    rw [readScalar.eq_def] at h
    split at h
    iterate 6 exact absurd h (not_exceeds_ok _)
    · obtain ⟨whole, rest, rfl, hw⟩ := exceeds_readNumber_iff.1 h
      exact ⟨['-'], whole, rest, rfl, .inr rfl, hw⟩
    · obtain ⟨whole, rest, rfl, hw⟩ := exceeds_readNumber_iff.1 h
      exact ⟨[], whole, rest, rfl, .inl rfl, hw⟩
  · rintro ⟨sign, whole, rest, rfl, hsign, hw⟩
    obtain ⟨c, w, rfl, hc, -⟩ := hw.exists_cons
    rcases hsign with rfl | rfl
    · exact readScalar_of_isDigit hc _ ▸ exceeds_readNumber_iff.2 ⟨_, _, rfl, hw⟩
    · exact readScalar_minus hc _ ▸ exceeds_readNumber_iff.2 ⟨_, _, rfl, hw⟩

/-! ## Where values are expected -/

/-- An item is expected at `t` if items are read from `s` on: the first one, or one behind a comma
behind an item that is read. -/
inductive ItemAt (item : Reader Value) : Text → Text → Prop
  | first (s : Text) : ItemAt item s s
  | next {s r r' t : Text} {v : Value} (hv : item s = .ok (v, r)) (hc : skipSpace r = ',' :: r')
    (ht : ItemAt item (skipSpace r') t) : ItemAt item s t

/-- The value of a member is expected at `t` if members are read from `s` on: that of the first one
behind its key and a colon, or one behind a comma behind a member that is read. -/
inductive MemberAt (item : Reader Value) : Text → Text → Prop
  | first {s r r' key : Text} (hk : readString s = .ok (key, r)) (hc : skipSpace r = ':' :: r') :
    MemberAt item ('"' :: s) (skipSpace r')
  | next {s r r' key r₁ r₂ t : Text} {v : Value} (hk : readString s = .ok (key, r))
      (hc : skipSpace r = ':' :: r')
    (hv : item (skipSpace r') = .ok (v, r₁)) (hm : skipSpace r₁ = ',' :: r₂)
    (ht : MemberAt item (skipSpace r₂) t) : MemberAt item ('"' :: s) t

/-- A value is expected at `t`, with so many levels left, if one is read from `s` on with so many
levels: this value itself, or one inside of an array or an object. -/
inductive Comes : Nat → Text → Nat → Text → Prop
  | here (depth : Nat) (s : Text) : Comes depth s depth s
  | item {depth left : Nat} {s t u : Text} (hs : (skipSpace s).head? ≠ some ']')
    (ht : ItemAt (readValue depth) (skipSpace s) t) (hu : Comes depth t left u) :
    Comes (depth + 1) ('[' :: s) left u
  | member {depth left : Nat} {s t u : Text} (ht : MemberAt (readValue depth) (skipSpace s) t)
    (hu : Comes depth t left u) : Comes (depth + 1) ('\x7b' :: s) left u

theorem exceeds_readItems_iff (hi : Shortens item) {fuel : Nat} (hf : s.length < fuel) :
    Exceeds (readItems item fuel s) ↔ ∃ t, ItemAt item s t ∧ Exceeds (item t) := by
  induction fuel generalizing s with
  | zero => exact absurd hf (Nat.not_lt_zero _)
  | succ fuel ih =>
    have hround {v : Value} {r r' : Text} (hv : item s = .ok (v, r))
        (hc : skipSpace r = ',' :: r') :
        (skipSpace r').length < fuel :=
      (length_skipSpace_le r').trans_lt
        ((length_behind_item hi hv hc).trans_le (Nat.le_of_lt_succ hf))
    rw [readItems, exceeds_bind_iff]
    constructor
    · rintro (h | ⟨⟨v, r⟩, hv, h⟩)
      · exact ⟨s, .first s, h⟩
      · dsimp only at h
        split at h
        · exact absurd h (not_exceeds_ok _)
        · next r' hc =>
          rcases exceeds_bind_iff.1 h with h | ⟨a, -, h⟩
          · obtain ⟨t, ht, h⟩ := (ih (hround hv hc)).1 h
            exact ⟨t, .next hv hc ht, h⟩
          · exact absurd h (not_exceeds_ok _)
        · exact absurd h (not_exceeds_lacks _ _)
    · rintro ⟨t, ht, h⟩
      cases ht with
      | first => exact .inl h
      | next hv hc ht =>
        refine .inr ⟨_, hv, ?_⟩
        simp only [hc]
        exact exceeds_bind_iff.2 (.inl ((ih (hround hv hc)).2 ⟨t, ht, h⟩))

theorem exceeds_readMembers_iff (hi : Shortens item) {fuel : Nat} (hf : s.length < fuel) :
    Exceeds (readMembers item fuel s) ↔ ∃ t, MemberAt item s t ∧ Exceeds (item t) := by
  induction fuel generalizing s with
  | zero => exact absurd hf (Nat.not_lt_zero _)
  | succ fuel ih =>
    have hround {u key r r' r₁ r₂ : Text} {v : Value} (hs : s = '"' :: u)
        (hk : readString u = .ok (key, r))
        (hc : skipSpace r = ':' :: r') (hv : item (skipSpace r') = .ok (v, r₁))
        (hm : skipSpace r₁ = ',' :: r₂) :
        (skipSpace r₂).length < fuel := by
      have hrest := length_behind_member hi hk hc hv hm
      have hskip := length_skipSpace_le r₂
      rw [hs, List.length_cons] at hf
      omega
    constructor
    · intro h
      rw [readMembers.eq_def] at h
      dsimp only at h
      split at h
      · rcases exceeds_bind_iff.1 h with h | ⟨⟨key, r⟩, hk, h⟩
        · exact absurd h (not_exceeds_readString _)
        dsimp only at h
        split at h
        · next r' hc =>
          rcases exceeds_bind_iff.1 h with h | ⟨⟨v, r₁⟩, hv, h⟩
          · exact ⟨_, .first hk hc, h⟩
          dsimp only at h
          split at h
          · exact absurd h (not_exceeds_ok _)
          · next r₂ hm =>
            rcases exceeds_bind_iff.1 h with h | ⟨a, -, h⟩
            · obtain ⟨t, ht, h⟩ := (ih (hround rfl hk hc hv hm)).1 h
              exact ⟨t, .next hk hc hv hm ht, h⟩
            · exact absurd h (not_exceeds_ok _)
          · exact absurd h (not_exceeds_lacks _ _)
        · exact absurd h (not_exceeds_lacks _ _)
      · exact absurd h (not_exceeds_lacks _ _)
    · rintro ⟨t, ht, h⟩
      cases ht with
      | first hk hc =>
        rw [readMembers]
        refine exceeds_bind_iff.2 (.inr ⟨_, hk, ?_⟩)
        simp only [hc]
        exact exceeds_bind_iff.2 (.inl h)
      | next hk hc hv hm ht =>
        rw [readMembers]
        refine exceeds_bind_iff.2 (.inr ⟨_, hk, ?_⟩)
        simp only [hc]
        refine exceeds_bind_iff.2 (.inr ⟨_, hv, ?_⟩)
        simp only [hm]
        exact exceeds_bind_iff.2 (.inl ((ih (hround rfl hk hc hv hm)).2 ⟨t, ht, h⟩))

theorem exceeds_readValue_array_iff : Exceeds (readValue (depth + 1) ('[' :: s)) ↔
    (skipSpace s).head? ≠ some ']' ∧ ∃ t, ItemAt (readValue depth) (skipSpace s) t ∧
      Exceeds (readValue depth t) := by
  rw [← exceeds_readItems_iff (shortens_readValue depth) (Nat.lt_succ_self _)]
  simp only [readValue]
  split
  · next r hs => exact ⟨fun h => absurd h (not_exceeds_ok _), fun h => absurd (by rw [hs]; rfl) h.1⟩
  · next hne =>
    rw [exceeds_bind_pure_iff]
    refine ⟨fun h => ⟨fun hs => ?_, h⟩, fun h => h.2⟩
    obtain ⟨r, hr⟩ := List.head?_eq_some_iff.1 hs
    exact hne r hr

theorem exceeds_readValue_object_iff : Exceeds (readValue (depth + 1) ('\x7b' :: s)) ↔
    ∃ t, MemberAt (readValue depth) (skipSpace s) t ∧ Exceeds (readValue depth t) := by
  rw [← exceeds_readMembers_iff (shortens_readValue depth) (Nat.lt_succ_self _)]
  simp only [readValue]
  split
  · next hs =>
    rw [hs]
    exact ⟨fun h => absurd h (not_exceeds_ok _), fun h => absurd h (not_exceeds_lacks _ _)⟩
  · exact exceeds_bind_pure_iff

/-- A text that starts with an array or an object. -/
def StartsNested (s : Text) : Prop := s.head? = some '[' ∨ s.head? = some '\x7b'

/-- A value is expected where an array or an object starts and no level is left, or where a numeral
starts that is too long. -/
def ComesTooFar (depth : Nat) (s : Text) : Prop :=
  ∃ left t, Comes depth s left t ∧ (left = 0 ∧ StartsNested t ∨ StartsTooLong t)

/-- A value that starts with a numeral is read as a scalar. -/
theorem exceeds_readValue_of_startsTooLong (h : StartsTooLong s) : Exceeds (readValue depth s) := by
  obtain ⟨c, r, hs, hc⟩ := h.exists_cons
  rw [readValue.eq_def]
  dsimp only
  split
  iterate 3 rcases hs with hs | hs <;> cases hs; exact absurd hc (by decide)
  exact exceeds_readScalar_iff.2 h

/-- Reading a value exceeds a limit if it comes too far. -/
theorem exceeds_readValue_iff : Exceeds (readValue depth s) ↔ ComesTooFar depth s := by
  induction depth generalizing s with
  | zero =>
    constructor
    · intro h
      rw [readValue.eq_def] at h
      dsimp only at h
      split at h
      · exact absurd h (not_exceeds_bind (not_exceeds_readString _) fun _ => not_exceeds_ok _)
      · exact ⟨0, _, .here 0 _, .inl ⟨rfl, .inl rfl⟩⟩
      · exact ⟨0, _, .here 0 _, .inl ⟨rfl, .inr rfl⟩⟩
      · exact ⟨0, s, .here 0 s, .inr (exceeds_readScalar_iff.1 h)⟩
    · rintro ⟨left, u, hu, h⟩
      cases hu
      rcases h with ⟨-, h⟩ | h
      · obtain ⟨r, rfl⟩ | ⟨r, rfl⟩ : (∃ r, s = '[' :: r) ∨ ∃ r, s = '\x7b' :: r :=
          h.imp List.head?_eq_some_iff.1 List.head?_eq_some_iff.1
        all_goals exact ⟨_, rfl, trivial⟩
      · exact exceeds_readValue_of_startsTooLong h
  | succ depth ih =>
    constructor
    · intro h
      rw [readValue.eq_def] at h
      dsimp only at h
      split at h
      · exact absurd h (not_exceeds_bind (not_exceeds_readString _) fun _ => not_exceeds_ok _)
      · obtain ⟨hs, t, ht, h⟩ := exceeds_readValue_array_iff.1 h
        obtain ⟨left, u, hu, h⟩ := ih.1 h
        exact ⟨left, u, .item hs ht hu, h⟩
      · obtain ⟨t, ht, h⟩ := exceeds_readValue_object_iff.1 h
        obtain ⟨left, u, hu, h⟩ := ih.1 h
        exact ⟨left, u, .member ht hu, h⟩
      · exact ⟨depth + 1, s, .here _ s, .inr (exceeds_readScalar_iff.1 h)⟩
    · rintro ⟨left, u, hu, h⟩
      cases hu with
      | here => exact exceeds_readValue_of_startsTooLong (h.resolve_left fun h =>
          Nat.succ_ne_zero depth h.1)
      | item hs ht hu => exact exceeds_readValue_array_iff.2 ⟨hs, _, ht, ih.2 ⟨left, u, hu, h⟩⟩
      | member ht hu => exact exceeds_readValue_object_iff.2 ⟨_, ht, ih.2 ⟨left, u, hu, h⟩⟩

/-- A text that cannot be read to its end: somewhere in it values are nested too deeply, or a
numeral is too long. -/
def Overruns [Nesting] (s : Text) : Prop := ComesTooFar Nesting.limit (skipSpace s)

theorem exceeds_read_iff [Nesting] : Exceeds (read s) ↔ Overruns s := by
  rw [read, exceeds_bind_iff, exceeds_readValue_iff]
  refine or_iff_left ?_
  rintro ⟨a, -, h⟩
  dsimp only at h
  split at h
  · exact not_exceeds_ok _ h
  · exact not_exceeds_lacks _ _ h

/-- The value of an object's only member is an integer of too many digits. -/
theorem overruns_of_isTooLong [Nesting] {whole rest : Text} (h : IsTooLong whole rest) :
    Overruns ("\x7b\"n\":".toList ++ (whole ++ rest)) := by
  have hk : readString ('n' :: '"' :: ':' :: (whole ++ rest)) =
      .ok (['n'], ':' :: (whole ++ rest)) :=
    readString_string ['n'] _
  obtain ⟨c, w, rfl, hc, -⟩ := h.exists_cons
  have hs : skipSpace (c :: w ++ rest) = c :: w ++ rest :=
    skipSpace_of_stops (Text.stops_cons (isSpace_of_isDigit hc) _)
  have ht (depth : Nat) :
      MemberAt (readValue depth) ("\"n\":".toList ++ (c :: w ++ rest)) (c :: w ++ rest) := by
    have hfirst : MemberAt (readValue depth) _ (skipSpace (c :: w ++ rest)) :=
      .first hk (skipSpace_of_stops (Text.stops_cons rfl _))
    rwa [hs] at hfirst
  show ComesTooFar Nesting.limit ('\x7b' :: ("\"n\":".toList ++ (c :: w ++ rest)))
  cases Nesting.limit with
  | zero => exact ⟨0, _, .here 0 _, .inl ⟨rfl, .inr rfl⟩⟩
  | succ depth =>
      exact ⟨depth, _, .member (ht depth) (.here depth _),
        .inr ⟨[], c :: w, rest, rfl, .inl rfl, h⟩⟩

end SlideDeck.Record
