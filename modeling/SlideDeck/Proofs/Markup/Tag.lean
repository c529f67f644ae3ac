import SlideDeck.Markup.Span

/-!
# Tags in a text

The tags of a name that a scan finds in a text, each with its own text (`Tag.texts`). A stretch of
text that a scan reads on its own, whatever follows it, satisfies `Reads`: texts without a bracket
do (`Reads.of_not_mem`), tags of other names do (`Reads.cons`), a whole tag does (`Reads.tag`), and
so does one such stretch behind another (`Reads.append`). What a scan finds in a text is therefore
found piece by piece.

The names here are plain, so that they are looked for as they are.
-/

namespace SlideDeck.Markup

/-! ## Names -/

theorem sameLetter_self (c : Char) : Text.sameLetter c c = true := by simp [Text.sameLetter]

/-- A text starts with each of its own beginnings. -/
theorem startsWithLetters_append (a r : Text) : Text.startsWithLetters a (a ++ r) = true := by
  induction a with
  | nil => rfl
  | cons c a ih => simp [Text.startsWithLetters, sameLetter_self, ih]

theorem Tag.skipNamed_of_ne {p c : Char} (h : Text.sameLetter p c = false) (name r : Text) :
    Tag.skipNamed (p :: name) (c :: r) = none := by
  simp [skipNamed, Text.startsWithLetters, h]

/-! ## The rest of a tag -/

/-- Characters outside of quotes that neither end a tag nor open a quote are passed over. -/
theorem skipTagRest_append {a : Text} (ha : ∀ c ∈ a, c ≠ '>' ∧ c ≠ '"' ∧ c ≠ '\'') (r : Text) :
    skipTagRest none (a ++ r) = skipTagRest none r := by
  induction a with
  | nil => rfl
  | cons c a ih =>
    obtain ⟨h₁, h₂, h₃⟩ := ha c (List.mem_cons_self ..)
    simp only [List.cons_append, skipTagRest, h₁, h₂, h₃, or_self, ite_false]
    exact ih fun d hd => ha d (List.mem_cons_of_mem _ hd)

theorem skipTagRest_open {mark : Char} {v : Text} (hv : mark ∉ v) (r : Text) :
    skipTagRest (some mark) (v ++ mark :: r) = skipTagRest none r := by
  induction v with
  | nil => simp [skipTagRest]
  | cons c v ih =>
    rw [List.mem_cons, not_or] at hv
    simp only [List.cons_append, skipTagRest, Ne.symm hv.1, ite_false]
    exact ih hv.2

/-- A value in quotes is passed over. -/
theorem skipTagRest_quoted {v : Text} (hv : '"' ∉ v) (r : Text) :
    skipTagRest none ('"' :: v ++ '"' :: r) = skipTagRest none r := by
  simp only [List.cons_append, skipTagRest, Char.reduceEq, ite_false, true_or, ite_true]
  exact skipTagRest_open hv r

/-! ## Tags at the start of a text -/

namespace Tag

theorem at?_of_ne {c : Char} (hc : c ≠ '<') (n : Text) (r : Text) : at? n (c :: r) = none := by
  unfold at?
  split
  · next h => exact absurd (List.cons.inj h).1 hc
  · rfl

/-- Behind a bracket without a slash stands a start tag or none. -/
theorem at?_start {c : Char} (hc : c ≠ '/') (n : Text) (r : Text) :
    at? n ('<' :: c :: r) = (skipNamed n (c :: r)).bind fun rest =>
      let length := (c :: r).length + 1 - rest.length
      some (if ['/', '>'] <:+ ('<' :: c :: r).take length then .both else .opens, length) := by
  simp only [at?]
  split
  · next h =>
    split at h
    · next h' => exact absurd (List.cons.inj h').1 hc
    · cases h
  · rfl

/-- A start tag of the name whose text does not end in a slash and a bracket. -/
theorem at?_opens {n : Text} {c : Char} {a rest : Text} (hc : c ≠ '/')
    (hs : skipNamed n (c :: a ++ rest) = some rest) (hend : ¬['/', '>'] <:+ '<' :: c :: a) :
    at? n ('<' :: c :: a ++ rest) = some (.opens, a.length + 2) := by
  have hl : (c :: (a ++ rest)).length + 1 - rest.length = a.length + 2 := by
    simp only [List.length_cons, List.length_append]; omega
  have ht : ('<' :: c :: (a ++ rest)).take (a.length + 2) = '<' :: c :: a := by simp
  rw [List.cons_append] at hs
  rw [List.cons_append, List.cons_append, at?_start hc, hs]
  simp only [Option.bind_some, hl, ht, hend, ite_false]

/-- An end tag of the name. -/
theorem at?_closes {n : Text} {a rest : Text} (hs : skipNamed n (a ++ rest) = some rest) :
    at? n ('<' :: '/' :: a ++ rest) = some (.closes, a.length + 2) := by
  have hl : ('<' :: '/' :: (a ++ rest)).length - rest.length = a.length + 2 := by
    simp only [List.length_cons, List.length_append]; omega
  simp only [List.cons_append, at?, hs, hl]

/-- No tag of a name that starts with another letter. -/
theorem at?_other {p : Char} {name : Text} {c : Char} (hc : c ≠ '/')
    (hp : Text.sameLetter p c = false) (r : Text) :
    at? (p :: name) ('<' :: c :: r) = none := by
  rw [at?_start hc, skipNamed_of_ne hp]
  rfl

/-- No end tag of a name that starts with another letter. -/
theorem at?_other_end {p : Char} {name : Text} {c : Char} (hs : Text.sameLetter p '/' = false)
    (hp : Text.sameLetter p c = false) (r : Text) :
    at? (p :: name) ('<' :: '/' :: c :: r) = none := by
  simp [at?, skipNamed_of_ne hp, skipNamed_of_ne hs]

/-! ## Scanning -/

/-- A tag that stands so many characters further on. -/
def shift (n : Nat) (t : Tag) : Tag := { t with offset := n + t.offset }

/-- The text of a tag of `s`. -/
def text (s : Text) (t : Tag) : Text := (s.drop t.offset).take t.length

/-- The tags of a name in a text: what each of them does, and its text. -/
def texts (n : Text) (s : Text) : List (TagRole × Text) :=
  (all n s).map fun t => (t.role, t.text s)

theorem allFrom_skip (n : Text) (offset : Nat) (a rest : Text) :
    allFrom n offset a.length (a ++ rest) = allFrom n (offset + a.length) 0 rest := by
  induction a generalizing offset with
  | nil => rfl
  | cons c a ih =>
    simp only [List.length_cons, List.cons_append, allFrom, ih]
    congr 1; omega

theorem allFrom_cons_of_none {n : Text} {c : Char} {r : Text} (h : at? n (c :: r) = none)
    (offset : Nat) : allFrom n offset 0 (c :: r) = allFrom n (offset + 1) 0 r := by
  simp only [allFrom, h]

theorem allFrom_of_some {n : Text} {a rest : Text} {role : TagRole} (hne : a ≠ [])
    (h : at? n (a ++ rest) = some (role, a.length)) (offset : Nat) :
    allFrom n offset 0 (a ++ rest)
      = ⟨offset, a.length, role⟩ :: allFrom n (offset + a.length) 0 rest := by
  obtain ⟨c, a, rfl⟩ := List.exists_cons_of_ne_nil hne
  rw [List.cons_append] at h ⊢
  simp only [allFrom, h, List.length_cons, Nat.add_sub_cancel, allFrom_skip]
  congr 2; omega

@[simp] theorem shift_role (n : Nat) (t : Tag) : (t.shift n).role = t.role := rfl

@[simp] theorem shift_zero (t : Tag) : t.shift 0 = t := by simp [shift]

@[simp] theorem shift_shift (m n : Nat) (t : Tag) : (t.shift n).shift m = t.shift (m + n) := by
  simp [shift, Nat.add_assoc]

theorem text_shift (a b : Text) (t : Tag) : (t.shift a.length).text (a ++ b) = t.text b := by
  simp [text, shift, ← List.drop_drop]

theorem text_append {a : Text} {t : Tag} (h : t.offset + t.length ≤ a.length) (b : Text) :
    t.text (a ++ b) = t.text a := by
  rw [text, text, List.drop_append_of_le_length (by omega), List.take_append_of_le_length]
  rw [List.length_drop]; omega

end Tag

/-- Whatever follows `a`, a scan finds these tags in it and goes on behind it. -/
def Reads (n : Text) (a : Text) (tags : List (TagRole × Text)) : Prop :=
  ∃ found : List Tag, found.map (fun t => (t.role, t.text a)) = tags ∧
    (∀ t ∈ found, t.offset + t.length ≤ a.length) ∧
    ∀ offset rest, Tag.allFrom n offset 0 (a ++ rest)
      = found.map (·.shift offset) ++ Tag.allFrom n (offset + a.length) 0 rest

namespace Reads

variable {n : Text} {a b : Text} {tags more : List (TagRole × Text)}

/-- The tags of a text that is read on its own are those that are found in it. -/
theorem texts_eq (h : Reads n a tags) : Tag.texts n a = tags := by
  obtain ⟨found, rfl, -, hs⟩ := h
  have := hs 0 []
  rw [List.append_nil] at this
  simp only [Tag.texts, Tag.all, this, Tag.allFrom, List.append_nil, List.map_map]
  exact List.map_congr_left fun t _ => by simp

theorem nil : Reads n [] [] := ⟨[], rfl, by simp, fun offset rest => by simp⟩

theorem append (ha : Reads n a tags) (hb : Reads n b more) : Reads n (a ++ b) (tags ++ more) := by
  obtain ⟨found, rfl, hf, hs⟩ := ha
  obtain ⟨found', rfl, hf', hs'⟩ := hb
  refine ⟨found ++ found'.map (·.shift a.length), ?_, ?_, fun offset rest => ?_⟩
  · rw [List.map_append, List.map_map]
    congr 1
    · exact List.map_congr_left fun t ht => by rw [Tag.text_append (hf t ht)]
    · exact List.map_congr_left fun t _ => by simp [Tag.text_shift]
  · intro t ht
    rw [List.length_append]
    rcases List.mem_append.1 ht with ht | ht
    · have := hf t ht; omega
    · obtain ⟨u, hu, rfl⟩ := List.mem_map.1 ht
      have := hf' u hu
      simp only [Tag.shift]; omega
  · rw [List.append_assoc, hs, hs', List.map_append, List.map_map, List.append_assoc,
      List.length_append, Nat.add_assoc]
    exact congrArg (_ ++ ·) (congrArg (· ++ _) (List.map_congr_left fun t _ => by simp))

/-- A character at which no tag starts. -/
theorem cons {c : Char} (hc : ∀ rest, Tag.at? n (c :: a ++ rest) = none) (h : Reads n a tags) :
    Reads n (c :: a) tags := by
  obtain ⟨found, rfl, hf, hs⟩ := h
  refine ⟨found.map (·.shift 1), ?_, ?_, fun offset rest => ?_⟩
  · rw [List.map_map]
    exact List.map_congr_left fun t _ => by simpa using Tag.text_shift [c] a t
  · intro t ht
    obtain ⟨u, hu, rfl⟩ := List.mem_map.1 ht
    have := hf u hu
    simp only [Tag.shift, List.length_cons]; omega
  · have := hc rest
    rw [List.cons_append] at this ⊢
    rw [Tag.allFrom_cons_of_none this, hs, List.map_map, List.length_cons, Nat.add_right_comm,
      Nat.add_assoc]
    exact congrArg (· ++ _) (List.map_congr_left fun t _ => by simp)

/-- A text without an opening bracket has no tags. -/
theorem of_not_mem (h : '<' ∉ a) : Reads n a [] := by
  induction a with
  | nil => exact nil
  | cons c a ih =>
    rw [List.mem_cons, not_or] at h
    exact cons (fun rest => Tag.at?_of_ne (Ne.symm h.1) n _) (ih h.2)

/-- A whole tag. -/
theorem tag {role : TagRole} (hne : a ≠ [])
    (h : ∀ rest, Tag.at? n (a ++ rest) = some (role, a.length)) : Reads n a [(role, a)] := by
  refine ⟨[⟨0, a.length, role⟩], by simp [Tag.text], by simp, fun offset rest => ?_⟩
  rw [Tag.allFrom_of_some hne (h rest)]
  simp [Tag.shift]

end Reads

end SlideDeck.Markup
