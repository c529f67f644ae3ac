import SlideDeck.Proofs.Record.Scalar

/-!
# Reading what was written

A written value is read again (`readValue_renderAt`), whatever stands behind it, as long as that
does not go on with a number: any nesting that fits the depth, with all keys and items in order.

The lemmas on `readItems` and `readMembers` say what one round of these loops does behind a value,
so that they serve texts that are cut off as well.
-/

namespace SlideDeck.Record

open Text (Stops stops_cons)

variable {item : Reader Value} {fuel level : Nat} {k s t r : Text} {v : Value} {e : Fault}

/-! ## Rounds of the loops -/

theorem readItems_of_error (h : item s = .error e) : readItems item (fuel + 1) s = .error e := by
  rw [readItems, h]
  rfl

theorem readItems_last (h : item s = .ok (v, line level ++ ']' :: r)) :
    readItems item (fuel + 1) s = .ok ([v], r) := by
  rw [readItems, h]
  simp only [bind, Except.bind, skipSpace_line level (stops_cons (rfl : isSpace ']' = false) r)]
  rfl

theorem readItems_more (h : item s = .ok (v, ',' :: (line level ++ t))) (ht : Stops isSpace t) :
    readItems item (fuel + 1) s = (readItems item fuel t).map fun (vs, r) => (v :: vs, r) := by
  rw [readItems, h]
  simp only [bind, Except.bind, skipSpace_of_stops (stops_cons (rfl : isSpace ',' = false) _),
    skipSpace_line level ht]
  cases readItems item fuel t <;> rfl

/-- The text of a key and what stands behind it. -/
theorem string_append (k t : Text) : string k ++ t = '"' :: (k.flatMap escapeChar ++ '"' :: t) := by
  simp only [string, List.cons_append, List.append_assoc, List.nil_append]

theorem readMembers_of_key_error (h : readString s = .error e) :
    readMembers item (fuel + 1) ('"' :: s) = .error e := by
  simp only [readMembers, h, bind, Except.bind]

theorem readMembers_of_error (ht : Stops isSpace t) (h : item t = .error e) :
    readMembers item (fuel + 1) (string k ++ ':' :: ' ' :: t) = .error e := by
  have hs : skipSpace (' ' :: t) = t := skipSpace_of_stops ht
  rw [string_append]
  simp only [readMembers, readString_string, bind, Except.bind,
    skipSpace_of_stops (stops_cons (rfl : isSpace ':' = false) _), hs, h]

theorem readMembers_last (ht : Stops isSpace t) (h : item t = .ok (v, line level ++ '\x7d' :: r)) :
    readMembers item (fuel + 1) (string k ++ ':' :: ' ' :: t) = .ok ([(k, v)], r) := by
  have hs : skipSpace (' ' :: t) = t := skipSpace_of_stops ht
  rw [string_append]
  simp only [readMembers, readString_string, bind, Except.bind,
    skipSpace_of_stops (stops_cons (rfl : isSpace ':' = false) _), hs, h,
    skipSpace_line level (stops_cons (rfl : isSpace '\x7d' = false) r)]
  rfl

theorem readMembers_more (ht : Stops isSpace t) (h : item t = .ok (v, ',' :: (line level ++ s)))
    (hs : Stops isSpace s) :
    readMembers item (fuel + 1) (string k ++ ':' :: ' ' :: t) =
      (readMembers item fuel s).map fun (ms, r) => ((k, v) :: ms, r) := by
  have ht : skipSpace (' ' :: t) = t := skipSpace_of_stops ht
  rw [string_append]
  simp only [readMembers, readString_string, bind, Except.bind,
    skipSpace_of_stops (stops_cons (rfl : isSpace ':' = false) _), ht, h,
    skipSpace_of_stops (stops_cons (rfl : isSpace ',' = false) _), skipSpace_line level hs]
  cases readMembers item fuel s <;> rfl

/-! ## The shape of written values -/

theorem renderAt_array_append (level : Nat) (v : Value) (vs : List Value) (rest : Text) :
    renderAt level (.array (v :: vs)) ++ rest =
      '[' :: (line (level + 1) ++ (renderAt (level + 1) v ++ (renderItems (level + 1) vs ++
        (line level ++ ']' :: rest)))) := by
  simp only [renderAt_array, List.cons_append, List.append_assoc, List.nil_append]

theorem renderAt_object_append (level : Nat) (k : Text) (v : Value) (ms : Members) (rest : Text) :
    renderAt level (.object ((k, v) :: ms)) ++ rest =
      '\x7b' :: (line (level + 1) ++ (string k ++ ':' :: ' ' :: (renderAt (level + 1) v ++
        (renderMembers (level + 1) ms ++ (line level ++ '\x7d' :: rest))))) := by
  simp only [renderAt_object, List.cons_append, List.append_assoc, List.nil_append]

theorem renderItems_cons_append (level : Nat) (v : Value) (vs : List Value) (rest : Text) :
    renderItems level (v :: vs) ++ rest =
      ',' :: (line level ++ (renderAt level v ++ (renderItems level vs ++ rest))) := by
  simp only [renderItems_cons, List.cons_append, List.append_assoc]

theorem renderMembers_cons_append (level : Nat) (k : Text) (v : Value) (ms : Members)
    (rest : Text) :
    renderMembers level ((k, v) :: ms) ++ rest =
      ',' :: (line level ++ (string k ++ ':' :: ' ' :: (renderAt level v ++
        (renderMembers level ms ++ rest)))) := by
  simp only [renderMembers_cons, List.cons_append, List.append_assoc, List.nil_append]

/-- A written object stands between braces. -/
theorem exists_render_object (members : Members) :
    ∃ inside, render (.object members) = '\x7b' :: inside ++ ['\x7d'] := by
  rcases members with _ | ⟨⟨k, v⟩, ms⟩
  · exact ⟨[], rfl⟩
  · exact ⟨line 1 ++ string k ++ [':', ' '] ++ renderAt 1 v ++ renderMembers 1 ms ++ line 0, by
      simp only [render, renderAt_object, List.cons_append, List.append_assoc]⟩

/-- A written value starts with a character that is neither a blank nor the end of an array. -/
theorem exists_cons_renderAt (level : Nat) (h : v.Integral) :
    ∃ c t, renderAt level v = c :: t ∧ isSpace c = false ∧ c ≠ ']' := by
  cases v with
  | null => exact ⟨_, _, rfl, rfl, by decide⟩
  | bool b => cases b <;> exact ⟨_, _, rfl, rfl, by decide⟩
  | integer n =>
    cases n with
    | ofNat n =>
      obtain ⟨c, t, hn⟩ := List.exists_cons_of_ne_nil (Text.ofNat_ne_nil n)
      have hc : c.isDigit = true := Text.isDigit_of_mem_ofNat (hn ▸ List.mem_cons_self ..)
      refine ⟨c, t, by rw [← hn]; rfl, isSpace_of_isDigit hc, ?_⟩
      rintro rfl
      exact absurd hc (by simp)
    | negSucc n => exact ⟨_, _, rfl, rfl, by decide⟩
  | real x => exact absurd (h _ (List.mem_singleton.2 rfl)) (by simp [Value.isReal])
  | string s => exact ⟨_, _, rfl, rfl, by decide⟩
  | array items => cases items <;> exact ⟨_, _, rfl, rfl, by decide⟩
  | object members => rcases members with _ | ⟨⟨k, v⟩, ms⟩ <;> exact ⟨_, _, rfl, rfl, by decide⟩

theorem stops_isSpace_renderAt (level : Nat) (h : v.Integral) (rest : Text) :
    Stops isSpace (renderAt level v ++ rest) := by
  obtain ⟨c, t, ht, hc, -⟩ := exists_cons_renderAt level h
  rw [ht]
  exact stops_cons hc _

/-! ## Values -/

theorem readValue_string (depth : Nat) (s : Text) :
    readValue depth ('"' :: s) = (readString s).map fun (t, r) => (.string t, r) := by
  cases depth <;> simp only [readValue] <;> cases readString s <;> rfl

theorem readValue_array (depth level : Nat) {c : Char} (hs : isSpace c = false) (hc : c ≠ ']')
    (t : Text) :
    readValue (depth + 1) ('[' :: (line level ++ c :: t)) =
      (readItems (readValue depth) ((c :: t).length + 1) (c :: t)).map fun (vs, r) =>
        (.array vs, r) := by
  simp only [readValue, skipSpace_line level (stops_cons hs t)]
  split
  · next h => exact absurd (List.cons.inj h).1 hc
  · cases readItems (readValue depth) ((c :: t).length + 1) (c :: t) <;> rfl

theorem readValue_object (depth level : Nat) (t : Text) :
    readValue (depth + 1) ('\x7b' :: (line level ++ '"' :: t)) =
      (readMembers (readValue depth) (('"' :: t).length + 1) ('"' :: t)).map
        fun (entries, r) => (.object (Members.ofEntries entries), r) := by
  simp only [readValue, skipSpace_line level (stops_cons (rfl : isSpace '"' = false) t)]
  split
  · next h => exact absurd (List.cons.inj h).1 (by simp)
  cases readMembers (readValue depth) (('"' :: t).length + 1) ('"' :: t) <;> rfl

/-- Numbers are what is left when no other value starts. -/
theorem readValue_ofInt (depth : Nat) (n : Int) (rest : Text) :
    readValue depth (Text.ofInt n ++ rest) = readScalar (Text.ofInt n ++ rest) := by
  obtain ⟨c, t, hn, hc⟩ : ∃ c t, Text.ofInt n = c :: t ∧ (c = '-' ∨ c.isDigit = true) := by
    cases n with
    | ofNat n =>
      obtain ⟨c, t, hn⟩ := List.exists_cons_of_ne_nil (Text.ofNat_ne_nil n)
      exact ⟨c, t, hn, .inr (Text.isDigit_of_mem_ofNat (hn ▸ List.mem_cons_self ..))⟩
    | negSucc n => exact ⟨_, _, rfl, .inl rfl⟩
  rw [hn, List.cons_append, readValue.eq_def]
  dsimp only
  split
  iterate 3
    next e =>
      rw [(List.cons.inj e).1] at hc
      exact absurd hc (by simp)
  rfl

/-- Written items are read again up to the closing bracket. -/
theorem readItems_renderItems {level outer : Nat} {v : Value} {vs : List Value} {rest : Text}
    (h : ∀ w ∈ v :: vs, ∀ rest, Stops extendsNumber rest →
      item (renderAt level w ++ rest) = .ok (w, rest)) (hi : ∀ w ∈ vs, w.Integral)
    (hf : vs.length < fuel) :
    readItems item fuel
      (renderAt level v ++ (renderItems level vs ++ (line outer ++ ']' :: rest))) =
      .ok (v :: vs, rest) := by
  induction vs generalizing v fuel with
  | nil =>
    obtain ⟨fuel, rfl⟩ : ∃ n, fuel = n + 1 := ⟨fuel - 1, by rw [List.length_nil] at hf; omega⟩
    exact readItems_last
      (h v (List.mem_cons_self ..) _ (stops_cons (rfl : extendsNumber '\n' = false) _))
  | cons w ws ih =>
    obtain ⟨fuel, rfl⟩ : ∃ n, fuel = n + 1 := ⟨fuel - 1, by omega⟩
    rw [renderItems_cons_append,
      readItems_more
        (h v (List.mem_cons_self ..) _ (stops_cons (rfl : extendsNumber ',' = false) _))
        (stops_isSpace_renderAt level (hi w (List.mem_cons_self ..)) _),
      ih (fun w hw => h w (List.mem_cons_of_mem _ hw))
        (fun w hw => hi w (List.mem_cons_of_mem _ hw))
        (by rw [List.length_cons] at hf; omega)]
    rfl

/-- Written members are read again up to the closing brace. -/
theorem readMembers_renderMembers {level outer : Nat} {k : Text} {v : Value} {ms : Members}
    {rest : Text} (h : ∀ m ∈ (k, v) :: ms, ∀ rest, Stops extendsNumber rest →
      item (renderAt level m.2 ++ rest) = .ok (m.2, rest))
    (hi : ∀ m ∈ (k, v) :: ms, m.2.Integral) (hf : ms.length < fuel) :
    readMembers item fuel (string k ++ ':' :: ' ' :: (renderAt level v ++ (renderMembers level ms ++
      (line outer ++ '\x7d' :: rest)))) = .ok ((k, v) :: ms, rest) := by
  induction ms generalizing k v fuel with
  | nil =>
    obtain ⟨fuel, rfl⟩ : ∃ n, fuel = n + 1 := ⟨fuel - 1, by rw [List.length_nil] at hf; omega⟩
    exact readMembers_last (stops_isSpace_renderAt level (hi _ (List.mem_cons_self ..)) _)
      (h _ (List.mem_cons_self ..) _ (stops_cons (rfl : extendsNumber '\n' = false) _))
  | cons m ms ih =>
    obtain ⟨fuel, rfl⟩ : ∃ n, fuel = n + 1 := ⟨fuel - 1, by omega⟩
    obtain ⟨k', w⟩ := m
    have hs : Stops isSpace
        (string k' ++ ':' :: ' ' :: (renderAt level w ++ (renderMembers level ms ++
        (line outer ++ '\x7d' :: rest)))) := by
      rw [string_append]
      exact stops_cons rfl _
    rw [renderMembers_cons_append,
      readMembers_more (stops_isSpace_renderAt level (hi _ (List.mem_cons_self ..)) _)
        (h _ (List.mem_cons_self ..) _ (stops_cons (rfl : extendsNumber ',' = false) _)) hs,
      ih (fun m hm => h m (List.mem_cons_of_mem _ hm))
        (fun m hm => hi m (List.mem_cons_of_mem _ hm))
        (by rw [List.length_cons] at hf; omega)]
    rfl

theorem length_le_length_renderItems (level : Nat) (vs : List Value) :
    vs.length ≤ (renderItems level vs).length := by
  induction vs with
  | nil => exact Nat.zero_le _
  | cons v vs ih =>
    simp only [renderItems_cons, List.length_append, List.length_cons]
    omega

theorem length_le_length_renderMembers (level : Nat) (ms : Members) :
    ms.length ≤ (renderMembers level ms).length := by
  induction ms with
  | nil => exact Nat.zero_le _
  | cons m ms ih =>
    obtain ⟨k, v⟩ := m
    simp only [renderMembers_cons, List.length_append, List.length_cons]
    omega

/-- A written value is read again. -/
theorem readValue_renderAt {depth : Nat} {v : Value} (hf : v.Fits depth) (hi : v.Integral)
    (level : Nat) {rest : Text} (hr : Stops extendsNumber rest) :
    readValue depth (renderAt level v ++ rest) = .ok (v, rest) := by
  induction depth, v, hf using Value.fits_induction generalizing level rest with
  | null depth => cases depth <;> rfl
  | bool depth b => cases depth <;> cases b <;> rfl
  | integer depth n hf =>
      exact (readValue_ofInt depth n rest).trans (readScalar_ofInt (Value.fits_integer_iff.1 hf) hr)
  | real depth x => exact absurd (hi _ (List.mem_singleton.2 rfl)) (by simp [Value.isReal])
  | string depth s =>
    show readValue depth (string s ++ rest) = _
    rw [string_append, readValue_string, readString_string]
    rfl
  | array depth items hf ih =>
    cases items with
    | nil => rfl
    | cons v vs =>
      have hi := Value.integral_array.1 hi
      obtain ⟨c, t, hv, hc, hb⟩ := exists_cons_renderAt (level + 1) (hi v (List.mem_cons_self ..))
      have hl := length_le_length_renderItems (level + 1) vs
      rw [renderAt_array_append, hv, List.cons_append, readValue_array depth _ hc hb,
        ← List.cons_append, ← hv,
        readItems_renderItems (fun w hw _ hr => ih w hw (hi w hw) _ hr)
          (fun w hw => hi w (List.mem_cons_of_mem _ hw))
          (by simp only [List.length_append]; omega)]
      rfl
  | object depth members hf ih =>
    cases members with
    | nil => rfl
    | cons m ms =>
      obtain ⟨k, v⟩ := m
      have hi := Value.integral_object.1 hi
      have hl := length_le_length_renderMembers (level + 1) ms
      rw [renderAt_object_append, string_append, readValue_object, ← string_append,
        readMembers_renderMembers (fun m hm _ hr => ih m hm (hi m hm) _ hr) hi
          (by simp only [List.length_append, List.length_cons]; omega)]
      simp only [Except.map, Members.ofEntries_of_nodup hf.1]

/-- The text of a value denotes this value. -/
theorem read_render [Nesting] {v : Value} (hf : v.Fits Nesting.limit) (hi : v.Integral) :
    read (render v) = .ok v := by
  have hr := readValue_renderAt hf hi 0 (Text.stops_nil extendsNumber)
  have hs := stops_isSpace_renderAt 0 hi []
  rw [List.append_nil] at hr hs
  rw [read, render, skipSpace_of_stops hs, hr]
  rfl

end SlideDeck.Record
