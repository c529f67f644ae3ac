import SlideDeck.Config.Assignment
import SlideDeck.Proofs.Record.RoundTrip
import SlideDeck.Proofs.Text.Search

/-!
# Written values that are cut off

A closing brace with a semicolon behind it, the end of an assignment, stands in a written value only
inside a key or a string, and a written value that is cut off behind such a brace is never read,
because its last string does not end (`inText_of_renderAt`, `read_of_cut`). On the other hand every
key and string stands in the written value, so that the two characters occur in it exactly if a key
or a string holds them (`holds_renderAt_iff`).
-/

namespace SlideDeck.Record

open Text (Holds Stops stops_cons pair_of_append pair_of_append_of_not_mem exists_cons_of_append
  not_pair_of_append_singleton)

/-- Reading failed in a string that does not end. -/
def EndsInString {α : Type} (result : Except Fault α) : Prop :=
  ∃ left, result = .error (.lacks .stringEnd left)

variable {item : Reader Value} {fuel level depth : Nat} {k s x y : Text} {v : Value}

/-! ## Strings -/

/-- No escape holds a brace. -/
theorem brace_not_mem_escapeChar {c : Char} (h : escapeChar c ≠ [c]) : '\x7d' ∉ escapeChar c :=
  fun hb =>
  h (eq_of_mem_escapeChar hb (by decide)).1

theorem eq_semicolon_cons (h : s.flatMap escapeChar ++ ['"'] = ';' :: y) : ∃ t, s = ';' :: t := by
  cases s with
  | nil => exact absurd (List.cons.inj h).1 (by simp)
  | cons c s =>
    rw [List.flatMap_cons] at h
    rcases escapeChar_cases c with ⟨hc, -⟩ | ⟨t, hc, -⟩ <;> rw [hc] at h
    · exact ⟨s, by rw [(List.cons.inj h).1]⟩
    · exact absurd (List.cons.inj h).1 (by simp)

/-- Where a brace and a semicolon stand in a written string, they stand in the string. -/
theorem exists_of_flatMap (h : s.flatMap escapeChar ++ ['"'] = x ++ '\x7d' :: ';' :: y) :
    ∃ a b, s = a ++ '\x7d' :: ';' :: b ∧ x = a.flatMap escapeChar := by
  induction s generalizing x with
  | nil =>
    obtain ⟨t, ht⟩ := exists_cons_of_append h
    cases x with
    | nil => exact absurd (List.cons.inj ht).1 (by simp)
    | cons c x => exact absurd (List.cons.inj h).2 (by simp)
  | cons c s ih =>
    rw [List.flatMap_cons, List.append_assoc] at h
    by_cases hc : escapeChar c = [c]
    · rw [hc] at h
      cases x with
      | nil =>
        obtain ⟨hb, hs⟩ := List.cons.inj h
        obtain ⟨t, rfl⟩ := eq_semicolon_cons hs
        exact ⟨[], t, by rw [hb]; rfl, rfl⟩
      | cons d x =>
        obtain ⟨rfl, hs⟩ := List.cons.inj h
        obtain ⟨a, b, rfl, rfl⟩ := ih hs
        exact ⟨c :: a, b, rfl, by rw [List.flatMap_cons, hc]; rfl⟩
    · obtain ⟨z, rfl, hs⟩ := pair_of_append_of_not_mem (brace_not_mem_escapeChar hc) h
      obtain ⟨a, b, rfl, rfl⟩ := ih hs
      exact ⟨c :: a, b, rfl, rfl⟩

/-- A string that is cut off behind a brace does not end. -/
theorem endsInString_readString (s : Text) :
    EndsInString (readString (s.flatMap escapeChar ++ ['\x7d'])) := by
  have hl := length_le_length_flatMap_escapeChar s
  rw [readString]
  generalize hn : (s.flatMap escapeChar ++ ['\x7d']).length = n
  obtain ⟨k, hk⟩ : ∃ k, n + 1 = s.length + k := ⟨n + 1 - s.length, by
    rw [List.length_append] at hn
    omega⟩
  refine ⟨n + 1, ?_⟩
  rw [hk, readChars_flatMap _ _ _ (by simp)]
  cases k with
  | zero => rfl
  | succ k => cases k <;> rfl

theorem inText_of_string (h : string s = x ++ '\x7d' :: ';' :: y) :
    Holds Assignment.close s ∧ ∃ t, x ++ ['\x7d'] = '"' :: t ∧ EndsInString (readString t) := by
  rw [string, List.cons_append] at h
  obtain ⟨z, rfl, hs⟩ := pair_of_append_of_not_mem (p := ['"']) (by simp) h
  obtain ⟨a, b, rfl, rfl⟩ := exists_of_flatMap hs
  exact ⟨Text.holds_pair_iff.2 ⟨a, b, rfl⟩, _, rfl, endsInString_readString a⟩

/-! ## Values -/

theorem brace_not_mem_line (level : Nat) : '\x7d' ∉ line level := by
  simp [line, List.mem_replicate]

theorem not_mem_ofInt {c : Char} (hd : c.isDigit = false) (hm : c ≠ '-') (n : Int) :
    c ∉ Text.ofInt n := by
  cases n with
  | ofNat n => exact Text.not_mem_ofNat hd n
  | negSucc n => simp [Text.ofInt, hm, Text.not_mem_ofNat hd]

/-- Where a brace and a semicolon stand in written items, they stand in a text, and what is cut off
there is not read. -/
theorem inText_of_renderItems {v : Value} {vs : List Value}
    (hr : ∀ w ∈ v :: vs, ∀ rest, Stops extendsNumber rest →
      item (renderAt level w ++ rest) = .ok (w, rest))
    (hc : ∀ w ∈ v :: vs, ∀ x y, renderAt level w = x ++ '\x7d' :: ';' :: y →
      (∃ s ∈ w.texts, Holds Assignment.close s) ∧ EndsInString (item (x ++ ['\x7d'])))
    (hi : ∀ w ∈ v :: vs, w.Integral) (hf : x.length < fuel)
    (h : renderAt level v ++ renderItems level vs = x ++ '\x7d' :: ';' :: y) :
    (∃ w ∈ v :: vs, ∃ s ∈ w.texts, Holds Assignment.close s) ∧
      EndsInString (readItems item fuel (x ++ ['\x7d'])) := by
  induction vs generalizing v fuel x with
  | nil =>
    rw [renderItems_nil, List.append_nil] at h
    obtain ⟨fuel, rfl⟩ : ∃ n, fuel = n + 1 := ⟨fuel - 1, by omega⟩
    obtain ⟨ht, left, he⟩ := hc v (List.mem_cons_self ..) x y h
    exact ⟨⟨v, List.mem_cons_self .., ht⟩, left, readItems_of_error he⟩
  | cons w ws ih =>
    obtain ⟨fuel, rfl⟩ : ∃ n, fuel = n + 1 := ⟨fuel - 1, by omega⟩
    have hw := hi w (List.mem_cons_of_mem _ (List.mem_cons_self ..))
    rcases pair_of_append (by simp [renderItems_cons]) h with ⟨z, hz⟩ | ⟨z, rfl, hz⟩
    · obtain ⟨ht, left, he⟩ := hc v (List.mem_cons_self ..) x z hz
      exact ⟨⟨v, List.mem_cons_self .., ht⟩, left, readItems_of_error he⟩
    -- The first item is complete: the round reads it, and the rest is cut off.
    · rw [renderItems_cons, List.cons_append, List.cons_append, List.append_assoc] at hz
      obtain ⟨z, rfl, hl⟩ := pair_of_append_of_not_mem (p := [',']) (by simp) hz
      obtain ⟨z, rfl, hs⟩ := pair_of_append_of_not_mem (brace_not_mem_line level) hl
      have hf : z.length < fuel := by
        simp only [List.length_append, List.length_cons] at hf
        omega
      obtain ⟨⟨u, hu, ht⟩, left, he⟩ := ih (fun w hw => hr w (List.mem_cons_of_mem _ hw))
        (fun w hw => hc w (List.mem_cons_of_mem _ hw))
          (fun w hw => hi w (List.mem_cons_of_mem _ hw)) hf hs
      refine ⟨⟨u, List.mem_cons_of_mem _ hu, ht⟩, left, ?_⟩
      obtain ⟨c, t, hv, hc, -⟩ := exists_cons_renderAt level hw
      rw [hv] at hs
      obtain ⟨t, ht⟩ := exists_cons_of_append hs
      simp only [List.append_assoc, List.cons_append, List.nil_append] at ht he ⊢
      rw [readItems_more
        (hr v (List.mem_cons_self ..) _ (stops_cons (rfl : extendsNumber ',' = false) _))
        (ht ▸ stops_cons hc t), he]
      rfl

/-- A member with something behind it: the two characters stand in the member, and what is cut off
there is not read, or they stand behind it. -/
theorem inText_of_member {q : Text} (hi : v.Integral) (hq : q.head? ≠ some ';')
    (hc : ∀ x y, renderAt level v = x ++ '\x7d' :: ';' :: y →
      (∃ s ∈ v.texts, Holds Assignment.close s) ∧ EndsInString (item (x ++ ['\x7d'])))
    (h : string k ++ ':' :: ' ' :: (renderAt level v ++ q) = x ++ '\x7d' :: ';' :: y) :
    ((∃ s, (s = k ∨ s ∈ v.texts) ∧ Holds Assignment.close s) ∧
      EndsInString (readMembers item (fuel + 1) (x ++ ['\x7d']))) ∨
    ∃ z, x = string k ++ ':' :: ' ' :: (renderAt level v ++ z) ∧ q = z ++ '\x7d' :: ';' :: y := by
  rcases pair_of_append (by simp) h with ⟨z, hz⟩ | ⟨z, rfl, hz⟩
  · obtain ⟨ht, u, hu, left, he⟩ := inText_of_string hz
    exact .inl ⟨⟨k, .inl rfl, ht⟩, left, hu ▸ readMembers_of_key_error he⟩
  · obtain ⟨z, rfl, hs⟩ := pair_of_append_of_not_mem (p := [':', ' ']) (by simp) hz
    rcases pair_of_append hq hs with ⟨w, hw⟩ | ⟨w, rfl, hw⟩
    · obtain ⟨⟨u, hu, ht⟩, left, he⟩ := hc z w hw
      refine .inl ⟨⟨u, .inr hu, ht⟩, left, ?_⟩
      obtain ⟨c, t, hv, hc, -⟩ := exists_cons_renderAt level hi
      obtain ⟨t, ht⟩ := exists_cons_of_append (hv.symm.trans hw)
      simp only [List.append_assoc, List.cons_append, List.nil_append]
      exact readMembers_of_error (ht ▸ stops_cons hc t) he
    · exact .inr ⟨w, rfl, hw⟩

/-- Where a brace and a semicolon stand in written members, they stand in a text, and what is cut
off there is not read. -/
theorem inText_of_renderMembers {k : Text} {v : Value} {ms : Members}
    (hr : ∀ m ∈ (k, v) :: ms, ∀ rest, Stops extendsNumber rest →
      item (renderAt level m.2 ++ rest) = .ok (m.2, rest))
    (hc : ∀ m ∈ (k, v) :: ms, ∀ x y, renderAt level m.2 = x ++ '\x7d' :: ';' :: y →
      (∃ s ∈ m.2.texts, Holds Assignment.close s) ∧ EndsInString (item (x ++ ['\x7d'])))
    (hi : ∀ m ∈ (k, v) :: ms, m.2.Integral) (hf : x.length < fuel)
    (h : string k ++ ':' :: ' ' :: (renderAt level v ++ renderMembers level ms) =
      x ++ '\x7d' :: ';' :: y) :
    (∃ m ∈ (k, v) :: ms, ∃ s, (s = m.1 ∨ s ∈ m.2.texts) ∧ Holds Assignment.close s) ∧
      EndsInString (readMembers item fuel (x ++ ['\x7d'])) := by
  induction ms generalizing k v fuel x with
  | nil =>
    obtain ⟨fuel, rfl⟩ : ∃ n, fuel = n + 1 := ⟨fuel - 1, by omega⟩
    have hm := List.mem_cons_self (a := (k, v)) (l := [])
    rcases inText_of_member (hi _ hm) (by simp) (hc _ hm) h with ⟨⟨s, hs, ht⟩, he⟩ | ⟨z, -, hz⟩
    · exact ⟨⟨_, hm, s, hs, ht⟩, he⟩
    · exact absurd hz (by simp)
  | cons m ms ih =>
    obtain ⟨fuel, rfl⟩ : ∃ n, fuel = n + 1 := ⟨fuel - 1, by omega⟩
    obtain ⟨k', w⟩ := m
    have hm := List.mem_cons_self (a := (k, v)) (l := (k', w) :: ms)
    rcases inText_of_member (hi _ hm) (by simp [renderMembers_cons]) (hc _ hm) h with
      ⟨⟨s, hs, ht⟩, he⟩ | ⟨z, rfl, hz⟩
    · exact ⟨⟨_, hm, s, hs, ht⟩, he⟩
    -- The first member is complete: the round reads it, and the rest is cut off.
    · rw [← List.append_nil (renderMembers level ((k', w) :: ms)), renderMembers_cons_append,
        List.append_nil] at hz
      obtain ⟨z, rfl, hl⟩ := pair_of_append_of_not_mem (p := [',']) (by simp) hz
      obtain ⟨z, rfl, hs⟩ := pair_of_append_of_not_mem (brace_not_mem_line level) hl
      have hf : z.length < fuel := by
        simp only [List.length_append, List.length_cons] at hf
        omega
      obtain ⟨⟨u, hu, ht⟩, left, he⟩ := ih (fun m hm => hr m (List.mem_cons_of_mem _ hm))
        (fun m hm => hc m (List.mem_cons_of_mem _ hm))
          (fun m hm => hi m (List.mem_cons_of_mem _ hm)) hf hs
      refine ⟨⟨u, List.mem_cons_of_mem _ hu, ht⟩, left, ?_⟩
      rw [string_append] at hs
      obtain ⟨t, hz⟩ := exists_cons_of_append hs
      simp only [List.append_assoc, List.cons_append, List.nil_append] at hz he ⊢
      rw [readMembers_more (stops_isSpace_renderAt level (hi _ hm) _)
        (hr _ hm _ (stops_cons (rfl : extendsNumber ',' = false) _))
        (hz ▸ stops_cons (rfl : isSpace '"' = false) t), he]
      rfl

/-- Where a brace and a semicolon stand in a text between brackets on lines of their own, they stand
in what is between the lines. -/
theorem pair_of_bracketed {o c : Char} {body : Text} (ho : o ≠ '\x7d')
    (h : o :: (line (level + 1) ++ (body ++ (line level ++ [c]))) = x ++ '\x7d' :: ';' :: y) :
    ∃ z w, x = o :: (line (level + 1) ++ z) ∧ body = z ++ '\x7d' :: ';' :: w := by
  obtain ⟨x, rfl, hline⟩ := pair_of_append_of_not_mem (p := [o]) (by simpa using ho.symm) h
  obtain ⟨x, rfl, hbody⟩ := pair_of_append_of_not_mem (brace_not_mem_line _) hline
  rcases pair_of_append (by simp [line]) hbody with ⟨w, hw⟩ | ⟨w, -, hw⟩
  · exact ⟨x, w, rfl, hw⟩
  · exact (not_pair_of_append_singleton (brace_not_mem_line _) hw).elim

/-- Where a brace and a semicolon stand in a written array, they stand in a text, and what is cut
off there is not read. -/
theorem inText_of_array {vs : List Value}
    (hr : ∀ w ∈ v :: vs, ∀ rest, Stops extendsNumber rest →
      readValue depth (renderAt (level + 1) w ++ rest) = .ok (w, rest))
    (hc : ∀ w ∈ v :: vs, ∀ x y, renderAt (level + 1) w = x ++ '\x7d' :: ';' :: y →
      (∃ s ∈ w.texts, Holds Assignment.close s) ∧ EndsInString (readValue depth (x ++ ['\x7d'])))
    (hi : ∀ w ∈ v :: vs, w.Integral)
    (h : renderAt level (.array (v :: vs)) = x ++ '\x7d' :: ';' :: y) :
    (∃ s ∈ (Value.array (v :: vs)).texts, Holds Assignment.close s) ∧
      EndsInString (readValue (depth + 1) (x ++ ['\x7d'])) := by
  rw [← List.append_nil (renderAt _ _), renderAt_array_append, ← List.append_assoc (renderAt _ _)]
    at h
  obtain ⟨x, z, rfl, hz⟩ := pair_of_bracketed (by simp) h
  have hl : x.length < (x ++ ['\x7d']).length + 1 := by
    rw [List.length_append]
    omega
  obtain ⟨⟨w, hw, s, hs, ht⟩, left, he⟩ := inText_of_renderItems hr hc hi hl hz
  refine ⟨⟨s, Value.mem_texts_array.2 ⟨w, hw, hs⟩, ht⟩, left, ?_⟩
  obtain ⟨c, t, hv, hc, hb⟩ := exists_cons_renderAt (level + 1) (hi v (List.mem_cons_self ..))
  rw [hv] at hz
  obtain ⟨t, ht⟩ := exists_cons_of_append hz
  simp only [List.append_assoc, List.cons_append]
  rw [ht] at he ⊢
  rw [readValue_array depth _ hc hb, he]
  rfl

/-- Where a brace and a semicolon stand in a written object, they stand in a text, and what is cut
off there is not read. -/
theorem inText_of_object {ms : Members}
    (hr : ∀ m ∈ (k, v) :: ms, ∀ rest, Stops extendsNumber rest →
      readValue depth (renderAt (level + 1) m.2 ++ rest) = .ok (m.2, rest))
    (hc : ∀ m ∈ (k, v) :: ms, ∀ x y, renderAt (level + 1) m.2 = x ++ '\x7d' :: ';' :: y →
      (∃ s ∈ m.2.texts, Holds Assignment.close s) ∧ EndsInString (readValue depth (x ++ ['\x7d'])))
    (hi : ∀ m ∈ (k, v) :: ms, m.2.Integral)
    (h : renderAt level (.object ((k, v) :: ms)) = x ++ '\x7d' :: ';' :: y) :
    (∃ s ∈ (Value.object ((k, v) :: ms)).texts, Holds Assignment.close s) ∧
      EndsInString (readValue (depth + 1) (x ++ ['\x7d'])) := by
  have hbracketed :
      '\x7b' :: (line (level + 1) ++ ((string k ++ ':' :: ' ' :: (renderAt (level + 1) v ++
      renderMembers (level + 1) ms)) ++ (line level ++ ['\x7d']))) = x ++ '\x7d' :: ';' :: y := by
    rw [← List.append_nil (renderAt _ _), renderAt_object_append] at h
    simpa only [List.append_assoc, List.cons_append] using h
  obtain ⟨x, z, rfl, hz⟩ := pair_of_bracketed (by simp) hbracketed
  have hl : x.length < (x ++ ['\x7d']).length + 1 := by
    rw [List.length_append]
    omega
  obtain ⟨⟨m, hm, s, hs, ht⟩, left, he⟩ := inText_of_renderMembers hr hc hi hl hz
  refine ⟨⟨s, Value.mem_texts_object.2 ⟨m, hm, hs⟩, ht⟩, left, ?_⟩
  rw [string_append] at hz
  obtain ⟨t, ht⟩ := exists_cons_of_append hz
  simp only [List.append_assoc, List.cons_append]
  rw [ht] at he ⊢
  rw [readValue_object, he]
  rfl

/-- Where a brace and a semicolon stand in a written value, they stand in a key or a string, and
what is cut off there is not read. -/
theorem inText_of_renderAt (hf : v.Fits depth) (hi : v.Integral)
    (h : renderAt level v = x ++ '\x7d' :: ';' :: y) :
    (∃ s ∈ v.texts, Holds Assignment.close s) ∧ EndsInString (readValue depth (x ++ ['\x7d'])) := by
  have hnot {s : Text} (hs : '\x7d' ∉ s) {x y : Text} (h : s = x ++ '\x7d' :: ';' :: y) :
      False := hs (h ▸ by simp)
  induction depth, v, hf using Value.fits_induction generalizing level x y with
  | null depth => exact (hnot (s := "null".toList) (by simp) h).elim
  | bool depth b =>
    cases b with
    | false => exact (hnot (s := "false".toList) (by simp) h).elim
    | true => exact (hnot (s := "true".toList) (by simp) h).elim
  | integer depth n => exact (hnot (not_mem_ofInt rfl (by simp) n) h).elim
  | real depth x => exact absurd (hi _ (List.mem_singleton.2 rfl)) (by simp [Value.isReal])
  | string depth s =>
    obtain ⟨ht, t, hx, left, he⟩ := inText_of_string h
    refine ⟨⟨s, List.mem_cons_self .., ht⟩, left, ?_⟩
    rw [hx, readValue_string, he]
    rfl
  | array depth items hf ih =>
    cases items with
    | nil => exact (hnot (s := ['[', ']']) (by simp) h).elim
    | cons v vs =>
      have hi := Value.integral_array.1 hi
      exact inText_of_array (fun w hw _ hr => readValue_renderAt (hf w hw) (hi w hw) _ hr)
        (fun w hw _ _ h => ih w hw (hi w hw) h) hi h
  | object depth members hf ih =>
    rcases members with _ | ⟨⟨k, v⟩, ms⟩
    · exact (not_pair_of_append_singleton (p := ['\x7b']) (by simp) h).elim
    · have hi := Value.integral_object.1 hi
      exact inText_of_object (fun m hm _ hr => readValue_renderAt (hf.2 m hm) (hi m hm) _ hr)
        (fun m hm _ _ h => ih m hm (hi m hm) h) hi h

/-! ## Texts in written values -/

open List (infix_append infix_append_of_infix_left infix_append_of_infix_right)

theorem renderAt_isInfix_renderItems {vs : List Value} (h : v ∈ vs) :
    renderAt level v <:+: renderItems level vs := by
  induction vs with
  | nil => cases h
  | cons w ws ih =>
    rw [renderItems_cons]
    rcases List.mem_cons.1 h with rfl | h
    · exact infix_append _ _ _
    · exact infix_append_of_infix_right (ih h)

theorem isInfix_renderMembers {ms : Members} {m : Text × Value} (h : m ∈ ms) :
    string m.1 <:+: renderMembers level ms ∧ renderAt level m.2 <:+: renderMembers level ms := by
  induction ms with
  | nil => cases h
  | cons m' ms ih =>
    obtain ⟨k, v⟩ := m'
    rw [renderMembers_cons]
    rcases List.mem_cons.1 h with rfl | h
    · exact ⟨infix_append_of_infix_left (infix_append_of_infix_left (infix_append _ _ _)),
        infix_append _ _ _⟩
    · exact ⟨infix_append_of_infix_right (ih h).1, infix_append_of_infix_right (ih h).2⟩

theorem renderAt_isInfix_array {items : List Value} (h : v ∈ items) :
    renderAt (level + 1) v <:+: renderAt level (.array items) := by
  cases items with
  | nil => cases h
  | cons w ws =>
    rw [renderAt_array]
    refine infix_append_of_infix_left (infix_append_of_infix_left ?_)
    rcases List.mem_cons.1 h with rfl | h
    · exact infix_append _ _ _
    · exact infix_append_of_infix_right (renderAt_isInfix_renderItems h)

theorem isInfix_object {members : Members} {m : Text × Value} (h : m ∈ members) :
    string m.1 <:+: renderAt level (.object members) ∧
      renderAt (level + 1) m.2 <:+: renderAt level (.object members) := by
  rcases members with _ | ⟨⟨k, v⟩, ms⟩
  · cases h
  · rw [renderAt_object]
    suffices hs :
        string m.1 <:+: '\x7b' :: line (level + 1) ++ string k ++ [':', ' '] ++
          renderAt (level + 1) v
        ++ renderMembers (level + 1) ms ∧
          renderAt (level + 1) m.2 <:+: '\x7b' :: line (level + 1) ++ string k
        ++ [':', ' '] ++ renderAt (level + 1) v ++ renderMembers (level + 1) ms from
      ⟨infix_append_of_infix_left (infix_append_of_infix_left hs.1),
        infix_append_of_infix_left (infix_append_of_infix_left hs.2)⟩
    rcases List.mem_cons.1 h with rfl | h
    · exact ⟨infix_append_of_infix_left (infix_append_of_infix_left (infix_append _ _ _)),
        infix_append _ _ _⟩
    · obtain ⟨hk, hv⟩ := isInfix_renderMembers h
      exact ⟨infix_append_of_infix_right hk, infix_append_of_infix_right hv⟩

/-- Every key and every string stands in the written value. -/
theorem string_isInfix_renderAt (hf : v.Fits depth) (hs : s ∈ v.texts) :
    string s <:+: renderAt level v := by
  induction depth, v, hf using Value.fits_induction generalizing level with
  | null | bool | integer | real => cases hs
  | string depth t =>
    obtain rfl : s = t := by simpa [Value.texts, Value.parts, Value.ownTexts] using hs
    exact List.infix_rfl
  | array depth items hf ih =>
    obtain ⟨w, hw, hs⟩ := Value.mem_texts_array.1 hs
    exact (ih w hw hs).trans (renderAt_isInfix_array hw)
  | object depth members hf ih =>
    obtain ⟨m, hm, rfl | hs⟩ := Value.mem_texts_object.1 hs
    · exact (isInfix_object hm).1
    · exact (ih m hm hs).trans (isInfix_object hm).2

theorem holds_string (h : Holds Assignment.close s) : Holds Assignment.close (string s) := by
  obtain ⟨a, b, rfl⟩ := h
  refine ⟨'"' :: a.flatMap escapeChar, b.flatMap escapeChar ++ ['"'], ?_⟩
  simp only [string, List.flatMap_append, List.cons_append, List.append_assoc]
  rfl

/-- A brace and a semicolon stand in a written value exactly if they stand in a key or a string. -/
theorem holds_renderAt_iff (hf : v.Fits depth) (hi : v.Integral) (level : Nat) :
    Holds Assignment.close (renderAt level v) ↔ ∃ s ∈ v.texts, Holds Assignment.close s := by
  constructor
  · intro h
    obtain ⟨x, y, h⟩ := Text.holds_pair_iff.1 h
    exact (inText_of_renderAt hf hi h).1
  · rintro ⟨s, hs, ht⟩
    obtain ⟨a, b, h⟩ := holds_string ht
    obtain ⟨c, d, hr⟩ := string_isInfix_renderAt hf hs
    exact ⟨c ++ a, b ++ d, by rw [← hr, h]; simp only [List.append_assoc]⟩

/-- What is cut off from a written value at the end of an assignment in it is no value. -/
theorem read_of_cut [Nesting] (hf : v.Fits Nesting.limit) (hi : v.Integral)
    (h : render v = x ++ '\x7d' :: ';' :: y) :
    ∃ left, read (x ++ ['\x7d']) = .error (.lacks .stringEnd left) := by
  obtain ⟨-, left, he⟩ := inText_of_renderAt hf hi h
  obtain ⟨c, t, hv, hc, -⟩ := exists_cons_renderAt 0 hi
  obtain ⟨t, ht⟩ := exists_cons_of_append (hv.symm.trans h)
  refine ⟨left, ?_⟩
  rw [read, skipSpace_of_stops (ht ▸ stops_cons hc t), he]
  rfl

end SlideDeck.Record
