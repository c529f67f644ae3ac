import SlideDeck.Markup.StartTag
import SlideDeck.Proofs.Markup.Name
import SlideDeck.Proofs.Text.Run

/-!
# Written start tags

A start tag whose attributes stand in double quotes, one blank before each (`StartTag.write`). Where
the names of attributes are made of small letters and hyphens, and values hold neither double quotes
nor ampersands (`IsPlain`), reading such a tag gives its name and its attributes back, whatever
follows it (`StartTag.read_write`, `StartTag.attributes_write`). A scan for tags of its name takes
it as a whole and a scan for another name does not take it (`Tag.at?_write`), and so it is with an
end tag (`Tag.at?_writeEnd`).
-/

namespace SlideDeck.Markup

/-- A character of a plain name. -/
def isPlainNameChar (c : Char) : Bool := c.isLower || c == '-'

/-- An attribute that is read as it is written. -/
structure IsPlain (a : Text × Text) : Prop where
  name_ne_nil : a.1 ≠ []
  name : a.1.all isPlainNameChar = true
  quote : '"' ∉ a.2
  ampersand : '&' ∉ a.2

/-- Attributes as they are written, in double quotes. -/
def writeAttributes : List (Text × Text) → Text
  | [] => []
  | (name, value) :: r => ' ' :: name ++ '=' :: '"' :: value ++ '"' :: writeAttributes r

theorem writeAttributes_append (a b : List (Text × Text)) :
    writeAttributes (a ++ b) = writeAttributes a ++ writeAttributes b := by
  induction a with
  | nil => rfl
  | cons x a ih => simp [writeAttributes, ih]

/-- A start tag as it is written. -/
def StartTag.write (name : Text) (attributes : List (Text × Text)) : Text :=
  '<' :: name ++ writeAttributes attributes ++ ['>']

/-! ## Plain names -/

theorem isPlainNameChar_toNat {c : Char} (h : isPlainNameChar c = true) :
    97 ≤ c.toNat ∧ c.toNat ≤ 122 ∨ c.toNat = 45 := by
  simp only [isPlainNameChar, Bool.or_eq_true, beq_iff_eq] at h
  rcases h with h | rfl
  · have hb : (decide (c.val ≥ 'a'.val) && decide (c.val ≤ 'z'.val)) = true := h
    exact .inl (by simpa [UInt32.le_iff_toNat_le, ← Char.toNat_val] using hb)
  · exact .inr rfl

/-- A plain name's character is none of the characters that mean something in a tag. -/
theorem ne_of_isPlainNameChar {c d : Char} (h : isPlainNameChar c = true)
    (hd : isPlainNameChar d = false) : c ≠ d := by
  rintro rfl
  rw [h] at hd
  cases hd

theorem isBlank_of_isPlainNameChar {c : Char} (h : isPlainNameChar c = true) :
    Text.isBlank c = false := by
  have := isPlainNameChar_toNat h
  exact Text.isBlank_of_visible (by omega)

/-- A name of ASCII characters without capitals is in lower case. -/
theorem lower_of_small {name : Text} (h : ∀ c ∈ name, c.toNat < 128 ∧ c.isUpper = false) :
    Text.lower name = name := by
  suffices ∀ before, Text.lowerAfter before name = name from this []
  induction name with
  | nil => intro _; rfl
  | cons c name ih =>
    intro before
    obtain ⟨hlt, hu⟩ := h c (List.mem_cons_self ..)
    have ih := ih fun d hd => h d (List.mem_cons_of_mem _ hd)
    simp only [Text.lowerAfter, show ¬c.toNat = 0x130 by omega, show ¬c.toNat = 0x3a3 by omega,
      ite_false, lowerChar_of_lt hlt hu, ih]
    rfl

theorem lower_of_plain {name : Text} (h : name.all isPlainNameChar = true) :
    Text.lower name = name := by
  refine lower_of_small fun c hc => ?_
  have hn := isPlainNameChar_toNat (List.all_eq_true.1 h c hc)
  exact ⟨by omega, isUpper_eq_false (by omega)⟩

theorem lower_of_isTagName {name : Text} (h : isTagName name = true) : Text.lower name = name := by
  refine lower_of_small fun c hc => ?_
  have hn := isTagNameChar_toNat (forall_of_isTagName h c hc)
  exact ⟨by omega, isUpper_eq_false (by omega)⟩

/-! ## Reading attributes -/

theorem skipGap_blank (r : Text) : skipGap (' ' :: r) = skipGap r := by
  simp [skipGap, show Text.isBlank ' ' = true by decide]

theorem skipGap_of_isPlainNameChar {c : Char} (h : isPlainNameChar c = true) (r : Text) :
    skipGap (c :: r) = c :: r := by
  have hs : c ≠ '/' := ne_of_isPlainNameChar h (by decide)
  simp [skipGap, hs, isBlank_of_isPlainNameChar h]

theorem upTo_append {mark : Char} {v : Text} (hv : mark ∉ v) (r : Text) :
    upTo mark (v ++ mark :: r) = some (v, r) := by
  induction v with
  | nil => simp [upTo]
  | cons c v ih =>
    rw [List.mem_cons, not_or] at hv
    simp [upTo, Ne.symm hv.1, ih hv.2]

/-- The value of an attribute in double quotes. -/
theorem takeValue?_quoted {value : Text} (hv : '"' ∉ value) (r : Text) :
    takeValue? ('=' :: '"' :: value ++ '"' :: r) = some (value, r) := by
  have h₁ : Text.stripLeft ('=' :: '"' :: value ++ '"' :: r) = '=' :: '"' :: value ++ '"' :: r :=
    rfl
  have h₂ : Text.stripLeft ('"' :: value ++ '"' :: r) = '"' :: value ++ '"' :: r := rfl
  simp only [List.cons_append] at h₁ h₂ ⊢
  simp only [takeValue?, h₁, List.dropWhile_cons, Char.reduceEq, decide_false, Bool.false_eq_true,
    ite_false, h₂, upTo_append hv, Option.some_or]

theorem takeAttribute?_write {name value : Text} (h : IsPlain (name, value)) (r : Text) :
    takeAttribute? (name ++ '=' :: '"' :: value ++ '"' :: r) = some ⟨name, value, skipGap r⟩ := by
  obtain ⟨hne, hn, hq, -⟩ := h
  obtain ⟨c, name, rfl⟩ := List.exists_cons_of_ne_nil hne
  simp only [List.all_cons, Bool.and_eq_true] at hn
  have hc : (Text.isBlank c || c == '/' || c == '>') = false := by
    simp [isBlank_of_isPlainNameChar hn.1, ne_of_isPlainNameChar hn.1 (d := '/') (by decide),
      ne_of_isPlainNameChar hn.1 (d := '>') (by decide)]
  have hi : ∀ d ∈ name, (!(Text.isBlank d || d == '/' || d == '=' || d == '>')) = true :=
    fun d hd => by
    have hp := List.all_eq_true.1 hn.2 d hd
    simp [isBlank_of_isPlainNameChar hp, ne_of_isPlainNameChar hp (d := '/') (by decide),
      ne_of_isPlainNameChar hp (d := '=') (by decide),
      ne_of_isPlainNameChar hp (d := '>') (by decide)]
  have hs : Text.Stops (fun d => !(Text.isBlank d || d == '/' || d == '=' || d == '>'))
      ('=' :: '"' :: (value ++ '"' :: r)) := Text.stops_cons (by decide) _
  have hv := takeValue?_quoted hq r
  simp only [List.cons_append, List.append_assoc] at hv ⊢
  simp only [takeAttribute?, hc, Bool.false_eq_true, ite_false,
    Text.takeWhile_append_of_stops hi hs, Text.dropWhile_append_of_stops hi hs, hv]

theorem takeAttribute?_end (rest : Text) : takeAttribute? ('>' :: rest) = none := rfl

/-- The character before a place in a text. -/
theorem getElem?_before (before s : Text) (c : Char) :
    (before ++ c :: s)[(before ++ c :: s).length - s.length - 1]? = some c := by
  have : (before ++ c :: s).length - s.length - 1 = before.length := by
    simp only [List.length_append, List.length_cons]; omega
  rw [this, List.getElem?_append_right (Nat.le_refl _), Nat.sub_self]
  rfl

/-- Attributes up to the bracket that ends their tag, in a text whose part before them is
`before`. -/
theorem takeAttributes_write {attributes : List (Text × Text)} (h : ∀ a ∈ attributes, IsPlain a)
    (before rest : Text) {fuel : Nat} (hf : attributes.length < fuel) :
    takeAttributes (before ++ writeAttributes attributes ++ '>' :: rest) fuel
      (skipGap (writeAttributes attributes ++ '>' :: rest)) = (attributes, '>' :: rest) := by
  induction attributes generalizing before fuel with
  | nil =>
    obtain ⟨n, rfl⟩ := Nat.exists_eq_succ_of_ne_zero (show fuel ≠ 0 by simp at hf; omega)
    show takeAttributes _ (n + 1) ('>' :: rest) = _
    simp only [takeAttributes, takeAttribute?_end, ite_self]
  | cons a r ih =>
    obtain ⟨name, value⟩ := a
    obtain ⟨n, rfl⟩ := Nat.exists_eq_succ_of_ne_zero (show fuel ≠ 0 by simp at hf; omega)
    have ha := h _ (List.mem_cons_self ..)
    obtain ⟨c, tail, hname⟩ := List.exists_cons_of_ne_nil ha.name_ne_nil
    have hc : isPlainNameChar c = true :=
      List.all_eq_true.1 ha.name c (hname ▸ List.mem_cons_self ..)
    have hgap : skipGap (writeAttributes ((name, value) :: r) ++ '>' :: rest)
        = name ++ '=' :: '"' :: value ++ '"' :: (writeAttributes r ++ '>' :: rest) := by
      simp only at hname
      simp only [writeAttributes, hname, List.cons_append, List.append_assoc, skipGap_blank,
        skipGap_of_isPlainNameChar hc]
    have hwhole : before ++ writeAttributes ((name, value) :: r) ++ '>' :: rest
        = before ++ ' ' ::
          (name ++ '=' :: '"' :: value ++ '"' :: (writeAttributes r ++ '>' :: rest)) := by
      simp [writeAttributes]
    have ih := @ih (fun a ha => h a (List.mem_cons_of_mem _ ha))
      (before ++ ' ' :: name ++ '=' :: '"' :: value ++ ['"']) n (by simp at hf; omega)
    simp only [hgap, hwhole, takeAttributes, getElem?_before, takeAttribute?_write ha]
    rw [show before ++ ' ' :: name ++ '=' :: '"' :: value ++ ['"'] ++ writeAttributes r ++
      '>' :: rest
        = before ++ ' ' ::
          (name ++ '=' :: '"' :: value ++ '"' :: (writeAttributes r ++ '>' :: rest)) by simp] at ih
    rw [ih]
    rfl

theorem length_le_writeAttributes (attributes : List (Text × Text)) :
    attributes.length ≤ (writeAttributes attributes).length := by
  induction attributes with
  | nil => exact Nat.le_refl _
  | cons a r ih => simp only [writeAttributes, List.length_cons, List.length_append]; omega

/-! ## Reading start tags -/

variable {name : Text} {attributes : List (Text × Text)}

theorem endsTagName_of_isTagNameChar {c : Char} (h : isTagNameChar c = true) :
    endsTagName c = false := by
  have hn := isTagNameChar_toNat h
  have hne : ∀ d : Char, d.toNat < 48 ∨ 57 < d.toNat ∧ d.toNat < 97 → c ≠ d := by
    rintro d hd rfl
    omega
  simp only [endsTagName, Bool.or_eq_false_iff, beq_eq_false_iff_ne]
  refine ⟨⟨⟨⟨⟨⟨⟨?_, ?_⟩, ?_⟩, ?_⟩, ?_⟩, ?_⟩, ?_⟩, ?_⟩ <;> exact hne _ (by decide)

/-- Reading a written start tag. -/
theorem StartTag.read_write (hn : isTagName name = true) (ha : ∀ a ∈ attributes, IsPlain a)
    (rest : Text) :
    StartTag.read (StartTag.write name attributes ++ rest) = ⟨name, attributes, .opened rest⟩ := by
  have hi : ∀ c ∈ name, (!endsTagName c) = true := fun c hc => by
    simp [endsTagName_of_isTagNameChar (forall_of_isTagName hn c hc)]
  have hs : Text.Stops (!endsTagName ·) (writeAttributes attributes ++ '>' :: rest) := by
    cases attributes with
    | nil => exact Text.stops_cons (by decide) _
    | cons a r => exact Text.stops_cons (by decide) _
  have hwrite : StartTag.write name attributes ++ rest
      = '<' :: name ++ writeAttributes attributes ++ '>' :: rest := by
    simp [write]
  have ht : ((StartTag.write name attributes ++ rest).drop 1).takeWhile (!endsTagName ·) =
      name := by
    simp only [hwrite, List.cons_append, List.drop_succ_cons, List.drop_zero, List.append_assoc,
      Text.takeWhile_append_of_stops hi hs]
  have hd : ((StartTag.write name attributes ++ rest).drop 1).dropWhile (!endsTagName ·)
      = writeAttributes attributes ++ '>' :: rest := by
    simp only [hwrite, List.cons_append, List.drop_succ_cons, List.drop_zero, List.append_assoc,
      Text.dropWhile_append_of_stops hi hs]
  have hf : attributes.length < (StartTag.write name attributes ++ rest).length := by
    have := length_le_writeAttributes attributes
    simp only [hwrite, List.length_append, List.length_cons]; omega
  have hw := takeAttributes_write ha ('<' :: name) rest hf
  simp only [read, ht, hd, lower_of_isTagName hn]
  rw [hwrite] at hw ⊢
  rw [hw]
  rfl

theorem unescape_of_not_mem {s : Text} (h : '&' ∉ s) : unescape s = .ok s := by
  suffices ∀ n, s.length ≤ n → unescapeFor n s = .ok s from this _ (Nat.le_refl _)
  induction s with
  | nil => intro n _; cases n <;> rfl
  | cons c r ih =>
    rintro (_ | n) hn
    · simp at hn
    · rw [List.mem_cons, not_or] at h
      simp only [unescapeFor, Ne.symm h.1, ite_false, ih h.2 n (by simpa using hn)]
      rfl

/-- The attributes of a written start tag are those it was written with. -/
theorem StartTag.attributes_write (hn : isTagName name = true) (ha : ∀ a ∈ attributes, IsPlain a)
    (rest : Text) :
    (StartTag.read (StartTag.write name attributes ++ rest)).attributes
      = .ok (attributes.foldl (fun attrs (n, v) => attrs.set n v) []) := by
  rw [read_write hn ha, StartTag.attributes]
  generalize ([] : Attributes) = start
  clear hn
  induction attributes generalizing start with
  | nil => rfl
  | cons a r ih =>
    have h := ha a (List.mem_cons_self ..)
    simp only [List.foldlM_cons, List.foldl_cons, lower_of_plain h.name,
      unescape_of_not_mem h.ampersand]
    exact ih (fun b hb => ha b (List.mem_cons_of_mem _ hb)) _

/-! ## The end of a start tag -/

theorem skipTagRest_writeAttributes (ha : ∀ a ∈ attributes, IsPlain a) (r : Text) :
    skipTagRest none (writeAttributes attributes ++ r) = skipTagRest none r := by
  induction attributes with
  | nil => rfl
  | cons a more ih =>
    obtain ⟨name, value⟩ := a
    have h := ha _ (List.mem_cons_self ..)
    have hn : ∀ c ∈ ' ' :: name ++ ['='], c ≠ '>' ∧ c ≠ '"' ∧ c ≠ '\'' := by
      intro c hc
      simp only [List.cons_append, List.mem_cons, List.mem_append, List.not_mem_nil, or_false] at hc
      rcases hc with rfl | hc | rfl
      · decide
      · have hp := List.all_eq_true.1 h.name c hc
        exact ⟨ne_of_isPlainNameChar hp (by decide), ne_of_isPlainNameChar hp (by decide),
          ne_of_isPlainNameChar hp (by decide)⟩
      · decide
    rw [show writeAttributes ((name, value) :: more) ++ r = (' ' :: name ++ ['='])
        ++ ('"' :: value ++ '"' :: (writeAttributes more ++ r)) by simp [writeAttributes],
      skipTagRest_append hn, skipTagRest_quoted h.quote]
    exact ih fun b hb => ha b (List.mem_cons_of_mem _ hb)

/-- A written start tag does not end in a slash and a bracket. -/
theorem StartTag.not_isSuffix_write (hn : isTagName name = true) (attributes : List (Text × Text)) :
    ¬['/', '>'] <:+ StartTag.write name attributes := by
  have hl : ∃ s c, '<' :: name ++ writeAttributes attributes = s ++ [c] ∧ c ≠ '/' := by
    rcases attributes.eq_nil_or_concat with rfl | ⟨more, a, rfl⟩
    · have hne := ne_nil_of_isTagName hn
      refine ⟨'<' :: name.dropLast, name.getLast hne, ?_, ?_⟩
      · simp [writeAttributes, List.dropLast_concat_getLast hne]
      · have hc := forall_of_isTagName hn _ (List.getLast_mem hne)
        rintro h
        rw [h] at hc
        cases hc
    · refine ⟨'<' :: name ++ writeAttributes more ++ ' ' :: a.1 ++ '=' :: '"' :: a.2, '"',
        ?_, by decide⟩
      simp [writeAttributes_append, writeAttributes]
  obtain ⟨s, c, hs, hc⟩ := hl
  rintro ⟨t, ht⟩
  rw [StartTag.write, hs, show t ++ ['/', '>'] = t ++ ['/'] ++ ['>'] by simp] at ht
  have := List.append_inj_left' ht rfl
  exact hc (List.cons.inj (List.append_inj_right' this rfl)).1.symm

/-! ## Scanning for written tags -/

section

variable {n : Text}

theorem Tag.skipNamed_write (hs : IsNamed n) (hn : isTagName name = true)
    (ha : ∀ a ∈ attributes, IsPlain a) (rest : Text) :
    Tag.skipNamed n (name ++ (writeAttributes attributes ++ '>' :: rest))
      = if sameName n name then some rest else none := by
  have hw : ∃ d r, writeAttributes attributes ++ '>' :: rest = d :: r ∧ (d = ' ' ∨ d = '>') := by
    cases attributes with
    | nil => exact ⟨'>', rest, rfl, .inr rfl⟩
    | cons a r => exact ⟨' ', _, rfl, .inl rfl⟩
  obtain ⟨d, r, hr, hd⟩ := hw
  have hrest := skipTagRest_writeAttributes ha ('>' :: rest)
  rw [hr] at hrest ⊢
  rw [skipNamed_tag hs.2 hs.1 (forall_of_isTagName hn) hd, hrest]
  rfl

/-- A start tag that is written at the start of a text counts if it has the name that is searched
for. -/
theorem Tag.at?_write (hs : IsNamed n) (hn : isTagName name = true)
    (ha : ∀ a ∈ attributes, IsPlain a) (rest : Text) :
    Tag.at? n (StartTag.write name attributes ++ rest)
      = if sameName n name then some (.opens, (StartTag.write name attributes).length)
        else none := by
  have hskip := Tag.skipNamed_write hs hn ha rest
  have hend := StartTag.not_isSuffix_write hn attributes
  obtain ⟨c, tail, rfl⟩ := List.exists_cons_of_ne_nil (ne_nil_of_isTagName hn)
  have hc : c ≠ '/' := by
    rintro rfl
    exact absurd (forall_of_isTagName hn _ (List.mem_cons_self ..)) (by decide)
  split at hskip
  · next h =>
    rw [if_pos h]
    simp only [StartTag.write, List.cons_append] at hend ⊢
    rw [List.length_cons, List.length_cons]
    exact at?_opens hc (by simpa using hskip) hend
  · next h =>
    rw [if_neg h]
    simp only [StartTag.write, List.cons_append, List.append_assoc, List.nil_append] at hskip ⊢
    rw [at?_start hc, hskip]
    rfl

/-- An end tag as it is written. -/
def writeEnd (name : Text) : Text := '<' :: '/' :: name ++ ['>']

/-- An end tag that is written at the start of a text counts if it has the name that is searched
for. -/
theorem Tag.at?_writeEnd (hs : IsNamed n) (hn : isTagName name = true) (rest : Text) :
    Tag.at? n (writeEnd name ++ rest)
      = if sameName n name then some (.closes, (writeEnd name).length) else none := by
  have hskip := Tag.skipNamed_write hs hn (List.forall_mem_nil IsPlain) rest
  split at hskip
  · next h =>
    rw [if_pos h]
    have := at?_closes (a := name ++ ['>']) (by simpa [writeAttributes] using hskip)
    simpa [writeEnd] using this
  · next h =>
    rw [if_neg h]
    have hslash : skipNamed n ('/' :: (name ++ '>' :: rest)) = none := by
      obtain ⟨p, tail, rfl⟩ := List.exists_cons_of_ne_nil hs.1
      exact skipNamed_of_ne (sameLetter_mark (hs.2 p (List.mem_cons_self ..)) (by decide)) _ _
    have hskip : skipNamed n (name ++ '>' :: rest) = none := by
      simpa [writeAttributes] using hskip
    simp [writeEnd, at?, hskip, hslash]

end

end SlideDeck.Markup
