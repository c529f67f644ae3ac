import Mathlib.Data.List.Forall2
import SlideDeck.Log

/-!
# Outcomes

What the success of a computation that may fail says about its steps: two steps in a row succeed if
both do (`Outcome.bind_eq_ok`), a result that is passed on was there before (`Outcome.map_eq_ok`),
and a list is gone through with success if each of its members is (`Outcome.mapM_eq_ok`). If it is
not, the first member that fails tells why (`Outcome.mapM_eq_error`, and `Outcome.filterM_cases` for
a test of the members). Two steps fail if one of them does (`Outcome.bind_eq_error`).
-/

namespace SlideDeck

/-- Two steps fail when the first does, or when the second does after it. -/
theorem Attempt.result_bind_eq_error {ε α β : Type} {m : Attempt ε α} {f : α → Attempt ε β}
    {e : ε} :
    (m >>= f).result = .error e ↔ m.result = .error e ∨ ∃ a, m.result = .ok a ∧
      (f a).result = .error e := by
  obtain ⟨log, result⟩ := m
  cases result <;> simp

namespace Outcome

variable {ε α β : Type} {x : Except ε α}

/-- Two steps succeed when both do. -/
theorem bind_eq_ok {f : α → Except ε β} {b : β} : (x >>= f) = .ok b ↔ ∃ a, x = .ok a ∧
    f a = .ok b := by
  cases x with
  | error e => exact ⟨nofun, fun ⟨_, h, _⟩ => nomatch h⟩
  | ok a => exact ⟨fun h => ⟨a, rfl, h⟩, fun ⟨_, rfl, h⟩ => h⟩

/-- Two steps fail when the first does, or when the second does after it. -/
theorem bind_eq_error {f : α → Except ε β} {e : ε} :
    (x >>= f) = .error e ↔ x = .error e ∨ ∃ a, x = .ok a ∧ f a = .error e := by
  cases x <;> simp [bind, Except.bind]

theorem map_eq_ok {f : α → β} {b : β} : x.map f = .ok b ↔ ∃ a, x = .ok a ∧ f a = b := by
  cases x with
  | error e => exact ⟨nofun, fun ⟨_, h, _⟩ => nomatch h⟩
  | ok a => exact ⟨fun h => ⟨a, rfl, Except.ok.inj h⟩, fun ⟨_, rfl, h⟩ => congrArg Except.ok h⟩

theorem mapM_eq_ok {f : α → Except ε β} {as : List α} {bs : List β} :
    as.mapM f = .ok bs ↔ List.Forall₂ (fun a b => f a = .ok b) as bs := by
  induction as generalizing bs with
  | nil => exact ⟨fun h => by cases h; exact .nil, fun h => by cases h; rfl⟩
  | cons a as ih =>
    rw [List.mapM_cons, bind_eq_ok, List.forall₂_cons_left_iff]
    refine exists_congr fun b => ?_
    rw [bind_eq_ok]
    constructor
    · rintro ⟨hb, rest, hrest, hbs⟩
      exact ⟨rest, hb, ih.1 hrest, (Except.ok.inj hbs).symm⟩
    · rintro ⟨rest, hb, hrest, rfl⟩
      exact ⟨hb, rest, ih.2 hrest, rfl⟩

/-- A list fails as its first failing member does. -/
theorem mapM_eq_error {f : α → Except ε β} {as : List α} {e : ε} :
    as.mapM f = .error e
      ↔ ∃ before a after, as = before ++ a :: after ∧ (∀ b ∈ before, ∃ y, f b = .ok y) ∧
        f a = .error e := by
  induction as with
  | nil => exact ⟨nofun, fun ⟨before, a, after, h, _⟩ => by simp at h⟩
  | cons a as ih =>
    rw [List.mapM_cons]
    cases ha : f a with
    | error e' =>
      constructor
      · intro h
        cases h
        exact ⟨[], a, as, rfl, nofun, ha⟩
      · rintro ⟨before, b, after, h, hbefore, hb⟩
        rcases List.cons_eq_append_iff.1 h with ⟨-, hcons⟩ | ⟨rest, rfl, -⟩
        · cases hcons
          exact ha.symm.trans hb ▸ rfl
        · obtain ⟨y, hy⟩ := hbefore a (List.mem_cons_self ..)
          cases ha.symm.trans hy
    | ok y =>
      have hrest : (as.mapM f >>= fun ys => pure (y :: ys)) = .error e ↔ as.mapM f = .error e := by
        cases as.mapM f with
        | error e' => exact ⟨fun h => by cases h; rfl, fun h => by cases h; rfl⟩
        | ok ys => exact ⟨nofun, nofun⟩
      refine hrest.trans (ih.trans ?_)
      constructor
      · rintro ⟨before, b, after, rfl, hbefore, hb⟩
        exact ⟨a :: before, b, after, rfl, List.forall_mem_cons.2 ⟨⟨y, ha⟩, hbefore⟩, hb⟩
      · rintro ⟨before, b, after, h, hbefore, hb⟩
        rcases List.cons_eq_append_iff.1 h with ⟨-, hcons⟩ | ⟨rest, rfl, hrest⟩
        · cases hcons
          cases ha.symm.trans hb
        · exact ⟨rest, b, after, hrest, fun c hc => hbefore c (List.mem_cons_of_mem _ hc), hb⟩

/-- A test that some members of a list do not stand keeps the members that pass it, or fails as the
first of those does. -/
theorem filterM_cases {f : α → Except ε Bool} {g bad : α → Bool} {fault : α → ε}
    (hok : ∀ a, bad a = false → f a = .ok (g a)) (hbad : ∀ a, bad a = true → f a = .error (fault a))
    (as : List α) :
    (as.filter bad = [] ∧ as.filterM f = .ok (as.filter g)) ∨
      ∃ a rest, as.filter bad = a :: rest ∧ as.filterM f = .error (fault a) := by
  suffices hloop :
      ∀ kept, (as.filter bad = [] ∧
        List.filterAuxM f as kept = .ok ((as.filter g).reverse ++ kept)) ∨
      ∃ a rest, as.filter bad = a :: rest ∧ List.filterAuxM f as kept = .error (fault a) by
    rcases hloop [] with ⟨hnone, h⟩ | ⟨a, rest, hfirst, h⟩
    · refine .inl ⟨hnone, ?_⟩
      rw [List.filterM, h, List.append_nil]
      exact congrArg Except.ok (List.reverse_reverse _)
    · refine .inr ⟨a, rest, hfirst, ?_⟩
      rw [List.filterM, h]
      rfl
  induction as with
  | nil => exact fun kept => .inl ⟨rfl, rfl⟩
  | cons a as ih =>
    intro kept
    rw [List.filterAuxM]
    cases ha : bad a with
    | true =>
      rw [hbad a ha]
      exact .inr ⟨a, as.filter bad, List.filter_cons_of_pos ha, rfl⟩
    | false =>
      rw [hok a ha, List.filter_cons_of_neg (by simp [ha])]
      show (_ ∧ List.filterAuxM f as (cond (g a) (a :: kept) kept) = _) ∨
        ∃ b rest, _ ∧ List.filterAuxM f as (cond (g a) (a :: kept) kept) = _
      cases hg : g a with
      | false =>
        rw [List.filter_cons_of_neg (by simp [hg])]
        exact ih kept
      | true =>
        rw [List.filter_cons_of_pos hg, List.reverse_cons, List.append_assoc]
        exact ih (a :: kept)

/-- If a test stands for all members of a list, those that pass it are kept. -/
theorem mem_of_filterM {f : α → Except ε Bool} {as bs : List α} (h : as.filterM f = .ok bs) :
    ∀ a ∈ as, ∃ passes, f a = .ok passes ∧ (passes = true → a ∈ bs) := by
  suffices hloop : ∀ kept all, List.filterAuxM f as kept = .ok all →
      (∀ a ∈ kept, a ∈ all) ∧ ∀ a ∈ as, ∃ passes, f a = .ok passes ∧ (passes = true → a ∈ all) by
    obtain ⟨all, hall, hbs⟩ := bind_eq_ok.1 h
    obtain rfl := Except.ok.inj hbs
    simpa only [List.mem_reverse] using (hloop [] all hall).2
  clear h
  induction as with
  | nil =>
    intro kept all h
    obtain rfl := Except.ok.inj h
    exact ⟨fun _ => id, nofun⟩
  | cons a as ih =>
    intro kept all h
    obtain ⟨passes, ha, hrest⟩ := bind_eq_ok.1 h
    obtain ⟨hkept, has⟩ := ih _ all hrest
    cases passes with
    | false => exact ⟨hkept, List.forall_mem_cons.2 ⟨⟨false, ha, nofun⟩, has⟩⟩
    | true =>
      have hmem := hkept a (List.mem_cons_self ..)
      exact ⟨fun b hb => hkept b (List.mem_cons_of_mem _ hb),
        List.forall_mem_cons.2 ⟨⟨true, ha, fun _ => hmem⟩, has⟩⟩

theorem eq_ok_of_toOption {a : α} (h : x.toOption = some a) : x = .ok a := by
  cases x with
  | error e => cases h
  | ok b => rw [Option.some.inj h]

theorem exists_of_any {p : α → Bool} (h : x.toOption.any p = true) :
    ∃ a, x = .ok a ∧ p a = true := by
  cases x with
  | error e => cases h
  | ok a => exact ⟨a, rfl, h⟩

theorem of_all {p : α → Bool} (h : x.toOption.all p = true) {a : α} (hx : x = .ok a) :
    p a = true := by
  rwa [hx] at h

theorem exists_error_of_toOption (h : x.toOption = none) : ∃ e, x = .error e := by
  cases x with
  | error e => exact ⟨e, rfl⟩
  | ok a => cases h

end Outcome

end SlideDeck
