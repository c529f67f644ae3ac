import SlideDeck.Proofs.Markup.StartTag

/-!
# Stretches that a scan passes over

The end of an element is found where the tags of its name are balanced. A stretch of text whose own
tags are balanced does not change where that is (`Tag.Passes`): a text without tags of the name
(`Passes.of_not_holdsTag`), a tag of another name, and an element of the name, whatever stands in
it, as long as that is passed over, too (`Passes.element`).

A text holds no tag of a name if no opening bracket in it is followed by the name, with or without a
slash between them (`holdsTag`).
-/

namespace SlideDeck.Markup

/-- Whether a bracket in a text is followed by a name, or by a slash and the name. -/
def holdsTag (n : Text) : Text → Bool
  | [] => false
  | c :: r => (c == '<' && (Text.startsWithLetters n r
      || (r.head? == some '/' && Text.startsWithLetters n (r.drop 1)))) || holdsTag n r

namespace Tag

/-- The scan for the end of an element of the name, with elements of the name open, goes on behind
`a` as if `a` were not there, where `rest` follows. -/
def Passes (n a rest : Text) : Prop :=
  ∀ offset depth, 1 ≤ depth →
    balance? depth (allFrom n offset 0 (a ++ rest))
      = balance? depth (allFrom n (offset + a.length) 0 rest)

namespace Passes

variable {n a b rest : Text}

theorem nil : Passes n [] rest := fun _ _ _ => rfl

theorem append (ha : Passes n a (b ++ rest)) (hb : Passes n b rest) : Passes n (a ++ b) rest := by
  intro offset depth hd
  rw [List.append_assoc, ha offset depth hd, hb _ depth hd, List.length_append, Nat.add_assoc]

/-- A character at which no tag starts. -/
theorem cons {c : Char} (hc : at? n (c :: a ++ rest) = none) (ha : Passes n a rest) :
    Passes n (c :: a) rest := by
  intro offset depth hd
  rw [List.cons_append] at hc ⊢
  rw [allFrom_cons_of_none hc, ha _ depth hd, List.length_cons, Nat.add_right_comm, Nat.add_assoc]

theorem of_not_mem (h : '<' ∉ a) : Passes n a rest := by
  induction a with
  | nil => exact nil
  | cons c a ih =>
    rw [List.mem_cons, not_or] at h
    exact cons (at?_of_ne (Ne.symm h.1) _ _) (ih h.2)

/-- No tag starts at a bracket that is followed neither by the name nor by a slash and the name. -/
theorem at?_eq_none {r : Text} (h : Text.startsWithLetters n r = false)
    (hs : ∀ q, r = '/' :: q → Text.startsWithLetters n q = false) :
    at? n ('<' :: r) = none := by
  have hskip : ∀ {s : Text}, Text.startsWithLetters n s = false → skipNamed n s = none := by
    intro s hs
    rw [skipNamed, hs]
    rfl
  cases r with
  | nil => simp [at?, hskip h]
  | cons c r =>
    by_cases hc : c = '/'
    · subst hc
      simp [at?, hskip h, hskip (hs r rfl)]
    · rw [at?_start hc, hskip h]
      rfl

/-- A text that holds no tag of the name, where a mark follows it that no name goes on with. -/
theorem of_not_holdsTag (hn : IsNamed n) {d : Char} (hd : d ∈ marks) (hsl : d ≠ '/')
    (h : holdsTag n a = false) :
    Passes n a (d :: rest) := by
  induction a with
  | nil => exact nil
  | cons c a ih =>
    simp only [holdsTag, Bool.or_eq_false_iff, Bool.and_eq_false_iff] at h
    obtain ⟨hc, ha⟩ := h
    refine cons ?_ (ih ha)
    by_cases hb : c = '<'
    · subst hb
      obtain ⟨h₁, h₂⟩ := hc.resolve_left (by decide)
      refine at?_eq_none ?_ fun q hq => ?_
      · rw [← h₁]
        exact startsWithLetters_append_mark hn.2 hd a rest
      · cases a with
        | nil => exact absurd (List.cons.inj hq).1 hsl
        | cons e a =>
          obtain ⟨rfl, rfl⟩ := List.cons.inj hq
          show Text.startsWithLetters n (a ++ d :: rest) = false
          rw [startsWithLetters_append_mark hn.2 hd]
          exact h₂.resolve_left (by simp)
    · exact at?_of_ne hb _ _

variable {m : Text} {attributes : List (Text × Text)}

theorem not_mem_writeAttributes {c : Char} (hc : isPlainNameChar c = false) (hb : c ≠ ' ')
    (hq : c ≠ '"') (he : c ≠ '=') (ha : ∀ x ∈ attributes, IsPlain x)
    (hv : ∀ x ∈ attributes, c ∉ x.2) : c ∉ writeAttributes attributes := by
  induction attributes with
  | nil => exact List.not_mem_nil
  | cons x r ih =>
    obtain ⟨name, value⟩ := x
    have hname : c ∉ name := fun h => by
      have := List.all_eq_true.1 (ha _ (List.mem_cons_self ..)).name c h
      rw [hc] at this
      cases this
    have hvalue : c ∉ value := hv _ (List.mem_cons_self ..)
    have ih := ih (fun y hy => ha y (List.mem_cons_of_mem _ hy)) fun y hy =>
      hv y (List.mem_cons_of_mem _ hy)
    simp [writeAttributes, hb, hq, he, hname, hvalue, ih]

theorem not_mem_of_isTagName {c : Char} (hc : isTagNameChar c = false) (hm : isTagName m = true) :
    c ∉ m := fun h => by
  rw [forall_of_isTagName hm c h] at hc
  cases hc

/-- A start tag of another name. -/
theorem write (hn : IsNamed n) (hm : isTagName m = true) (ha : ∀ x ∈ attributes, IsPlain x)
    (hv : ∀ x ∈ attributes, '<' ∉ x.2) (hs : sameName n m = false) :
    Passes n (StartTag.write m attributes) rest := by
  have hat := at?_write hn hm ha rest
  rw [hs, if_neg Bool.false_ne_true] at hat
  have hrest : '<' ∉ m ++ (writeAttributes attributes ++ ['>']) := by
    have h₁ := not_mem_of_isTagName (c := '<') (by decide) hm
    have h₂ := not_mem_writeAttributes (c := '<') (by decide) (by decide) (by decide)
        (by decide) ha hv
    simp [h₁, h₂]
  simp only [StartTag.write, List.cons_append, List.append_assoc] at hat ⊢
  exact cons (by simpa using hat) (of_not_mem hrest)

theorem writeEnd_of_ne (hn : IsNamed n) (hm : isTagName m = true) (hs : sameName n m = false) :
    Passes n (writeEnd m) rest := by
  have hat := at?_writeEnd hn hm rest
  rw [hs, if_neg Bool.false_ne_true] at hat
  have hrest : '<' ∉ '/' :: (m ++ ['>']) := by
    have h₁ := not_mem_of_isTagName (c := '<') (by decide) hm
    simp [h₁]
  rw [writeEnd, List.cons_append, List.cons_append] at hat ⊢
  exact cons hat (of_not_mem hrest)

/-- An element is passed over if its content is, be it of the name or of another one. -/
theorem element (hn : IsNamed n) (hm : isTagName m = true) (ha : ∀ x ∈ attributes, IsPlain x)
    (hv : ∀ x ∈ attributes, '<' ∉ x.2) (hc : Passes n a (writeEnd m ++ rest)) :
    Passes n (StartTag.write m attributes ++ a ++ writeEnd m) rest := by
  cases hs : sameName n m with
  | false => exact ((write hn hm ha hv hs).append hc).append (writeEnd_of_ne hn hm hs)
  | true =>
    intro offset depth hd
    have hstart := at?_write hn hm ha (a ++ (writeEnd m ++ rest))
    have hend := at?_writeEnd hn hm rest
    rw [hs, if_pos rfl] at hstart hend
    have hne₁ : StartTag.write m attributes ≠ [] := by simp [StartTag.write]
    have hne₂ : writeEnd m ≠ [] := by simp [writeEnd]
    have hdepth : ¬depth + 1 ≤ 1 := by omega
    simp only [List.append_assoc]
    rw [allFrom_of_some hne₁ hstart, balance?, hc _ _ (by omega), allFrom_of_some hne₂ hend,
      balance?]
    simp only [hdepth, ite_false, Nat.add_sub_cancel, List.length_append, Nat.add_assoc]

end Passes

/-- The end tag that balances an element is the one behind its content. -/
theorem balance?_eq_some {n a : Text} (hn : IsNamed n) (hm : isTagName n = true) {rest : Text}
    (ha : Passes n a (writeEnd n ++ rest)) :
    balance? 1 (all n (a ++ (writeEnd n ++ rest)))
      = some ⟨a.length, (writeEnd n).length, .closes⟩ := by
  have hend := at?_writeEnd hn hm rest
  rw [sameName_self, if_pos rfl] at hend
  have hne : writeEnd n ≠ [] := by simp [writeEnd]
  rw [all, ha 0 1 (Nat.le_refl _), allFrom_of_some hne hend, balance?]
  simp

end Tag

end SlideDeck.Markup
