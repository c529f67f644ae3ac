import SlideDeck.Config.Assignment
import SlideDeck.Proofs.Text.Search

/-!
# The first assignment

`Assignment.find?` cuts a script around its first assignment (`isFirst_of_find?`): no assignment
starts further left, and of those that start there none is shorter. It is found whenever the script
holds an assignment (`isSome_find?_iff`). Where it starts does not depend on its payload, so that
another payload is found at the same place (`find?_of_find?`), up to the first end in what stands
behind its opening brace.
-/

namespace SlideDeck.Assignment

variable {marker script : Text} {a : Assignment}

/-- A text that assigns an object to a variable, from the first character of the assignment to the
last. -/
def Assigns (marker text : Text) : Prop := ∃ inside, text = lead marker ++ '\x7b' :: inside ++ close

/-- `text` is the first assignment in `script`: the leftmost one, and the shortest of those that
start there. -/
structure IsFirst (marker script before text after : Text) : Prop where
  parts : script = before ++ text ++ after
  assigns : Assigns marker text
  leftmost {before' text' after'} (h : script = before' ++ text' ++ after')
  (ha : Assigns marker text') :
    before.length ≤ before'.length
  shortest {text' after'} (h : script = before ++ text' ++ after') (ha : Assigns marker text') :
    text.length ≤ text'.length

theorem find?_eq_some_iff : find? marker script = some a ↔
    ∃ rest inside, Text.cut (lead marker ++ ['\x7b']) script = some (a.before, rest) ∧
      Text.cut close rest = some (inside, a.after) ∧ a.payload = '\x7b' :: inside ++ ['\x7d'] := by
  obtain ⟨before, payload, after⟩ := a
  simp only [find?, Option.bind_eq_bind, Option.bind_eq_some_iff, Option.pure_def,
    Option.some.injEq, Prod.exists, Assignment.mk.injEq]
  constructor
  · rintro ⟨_, rest, h₁, inside, _, h₂, rfl, rfl, rfl⟩
    exact ⟨rest, inside, h₁, h₂, rfl⟩
  · rintro ⟨rest, inside, h₁, h₂, rfl⟩
    exact ⟨before, rest, h₁, inside, after, h₂, rfl, rfl, rfl⟩

/-- What is found is the first assignment. -/
theorem isFirst_of_find? (h : find? marker script = some a) :
    IsFirst marker script a.before (lead marker ++ a.payload ++ [';']) a.after := by
  obtain ⟨rest, inside, h₁, h₂, hp⟩ := find?_eq_some_iff.1 h
  constructor
  · rw [find?_eq_some h, render]
    simp only [List.append_assoc]
  · exact ⟨inside, by rw [hp]; simp [close]⟩
  · rintro before' text' after' hs ⟨inside', rfl⟩
    have hs : script = before' ++ (lead marker ++ ['\x7b']) ++ (inside' ++ close ++ after') := by
      rw [hs]
      simp only [List.append_assoc, List.cons_append, List.nil_append]
    exact Text.length_le_of_cut h₁ hs
  · rintro text' after' hs ⟨inside', rfl⟩
    have hr : rest = inside' ++ close ++ after' := by
      rw [Text.cut_eq_some h₁] at hs
      simpa only [List.append_assoc, List.cons_append, List.nil_append, List.append_cancel_left_eq,
        List.cons.injEq, true_and] using hs
    have := Text.length_le_of_cut h₂ hr
    rw [hp]
    simp only [List.length_append, List.length_cons, List.length_nil, close] at this ⊢
    omega

/-- A script that holds an assignment of an object to a variable. -/
def IsAssigned (marker script : Text) : Prop := ∃ text, Assigns marker text ∧ Text.Holds text script

/-- An assignment is found if there is one. -/
theorem isSome_find?_iff : (find? marker script).isSome ↔ IsAssigned marker script := by
  constructor
  · intro h
    obtain ⟨a, ha⟩ := Option.isSome_iff_exists.1 h
    have hfirst := isFirst_of_find? ha
    exact ⟨_, hfirst.assigns, a.before, a.after, hfirst.parts⟩
  · rintro ⟨_, ⟨inside, rfl⟩, before, after, hs⟩
    have hs : script = before ++ (lead marker ++ ['\x7b']) ++ (inside ++ close ++ after) := by
      simpa only [List.append_assoc, List.cons_append, List.nil_append] using hs
    obtain ⟨⟨b, rest⟩, hc⟩ := Option.isSome_iff_exists.1 (Text.cut_isSome_iff.2 ⟨before, _, hs⟩)
    -- The brace that is found stands no further right than the one that is there.
    have hle := Text.length_le_of_cut hc hs
    have hinside : inside ++ close ++ after <:+ script := ⟨_, hs.symm⟩
    have hrest : inside ++ close ++ after <:+ rest := by
      refine List.suffix_of_suffix_length_le hinside ⟨_, (Text.cut_eq_some hc).symm⟩ ?_
      have hl := congrArg List.length ((Text.cut_eq_some hc).symm.trans hs)
      simp only [List.length_append] at hl ⊢
      omega
    obtain ⟨between, rfl⟩ := hrest
    have hclose : (Text.cut close (between ++ (inside ++ close ++ after))).isSome :=
      Text.cut_isSome_iff.2 ⟨between ++ inside, after, by simp only [List.append_assoc]⟩
    obtain ⟨⟨i, r⟩, hi⟩ := Option.isSome_iff_exists.1 hclose
    exact Option.isSome_iff_exists.2
      ⟨⟨b, '\x7b' :: i ++ ['\x7d'], r⟩, find?_eq_some_iff.2 ⟨_, i, hc, hi, rfl⟩⟩

/-- A script with an assignment mentions the variable, and is not of blanks only. -/
theorem holds_render (a : Assignment) : Text.holds marker (a.render marker) = true ∧
    'v' ∈ a.render marker := by
  refine ⟨Text.holds_iff.2
    ⟨a.before ++ "var ".toList, " = ".toList ++ a.payload ++ [';'] ++ a.after, ?_⟩, ?_⟩
  · simp only [render, lead, List.append_assoc]
  · simp [render, lead]

theorem holds_of_find? (h : find? marker script = some a) : Text.holds marker script = true ∧
    'v' ∈ script :=
  find?_eq_some h ▸ holds_render a

/-- What is assigned is mentioned. -/
theorem IsAssigned.holds (h : IsAssigned marker script) : Text.Holds marker script := by
  obtain ⟨a, ha⟩ := Option.isSome_iff_exists.1 (isSome_find?_iff.2 h)
  exact Text.holds_iff.1 (holds_of_find? ha).1

/-- With another payload, the assignment is found at the same place. -/
theorem find?_of_find? (h : find? marker script = some a) {rest inside after : Text}
    (hc : Text.cut close rest = some (inside, after)) :
    find? marker (a.before ++ lead marker ++ '\x7b' :: rest) =
      some ⟨a.before, '\x7b' :: inside ++ ['\x7d'], after⟩ := by
  obtain ⟨_, _, h₁, -, -⟩ := find?_eq_some_iff.1 h
  refine find?_eq_some_iff.2 ⟨rest, inside, ?_, hc, rfl⟩
  have := Text.cut_append_of_cut h₁ rest
  simpa only [List.append_assoc, List.cons_append, List.nil_append] using this

end SlideDeck.Assignment
