/-!
# Text

Text is a list of characters; offsets, lines and columns count characters. The searches here are the
plain ones: `Text.cut` splits a text at the first occurrence of a pattern, `Text.search` at the
first place where a recognizer succeeds, `Text.Holds` is occurrence as a proposition, and
`Text.split` cuts at every occurrence of one character. `Text.sort` orders texts by code points.

`cut_eq_some` says that the two parts and the pattern make up the text again, and `cut_isSome_iff`
that a cut is found exactly when the pattern occurs.
-/

namespace SlideDeck

/-- Text, character by character. -/
abbrev Text := List Char

namespace Text

/-- `pat` occurs in `s`. -/
def Holds (pat s : Text) : Prop := ∃ before after, s = before ++ pat ++ after

/-- What stands before and after the first occurrence of `pat` in `s`. -/
def cut (pat : Text) : Text → Option (Text × Text)
  | [] => if pat = [] then some ([], []) else none
  | c :: r =>
    if pat <+: c :: r then some ([], (c :: r).drop pat.length)
    else (cut pat r).map fun (before, after) => (c :: before, after)

/-- What stands before and behind the first place where `recognize` takes something from the
text. -/
def search (recognize : Text → Option Text) : Text → Option (Text × Text)
  | [] => (recognize []).map fun rest => ([], rest)
  | c :: r =>
    match recognize (c :: r) with
    | some rest => some ([], rest)
    | none => (search recognize r).map fun (before, after) => (c :: before, after)

/-- The number of bytes of a text in UTF-8. -/
def size : Text → Nat
  | [] => 0
  | c :: s => c.utf8Size + size s

/-- Whether `pat` occurs in `s`. -/
def holds (pat s : Text) : Bool := (cut pat s).isSome

/-- The pieces of a text between the characters that `isSep` tells; there is always at least one. -/
def splitWhere (isSep : Char → Bool) : Text → List Text
  | [] => [[]]
  | c :: r =>
    if isSep c then [] :: splitWhere isSep r
    else match splitWhere isSep r with
      | [] => [[c]]
      | piece :: pieces => (c :: piece) :: pieces

/-- The pieces of a text between the occurrences of `sep`. -/
def split (sep : Char) (s : Text) : List Text := splitWhere (· == sep) s

/-- The pieces put together again with `sep` between them. -/
def join (sep : Text) : List Text → Text
  | [] => []
  | [piece] => piece
  | piece :: pieces => piece ++ sep ++ join sep pieces

/-- Whether `a` comes before `b` or is `b`: at the first place where they differ, the smaller code
point decides. -/
def upTo : Text → Text → Bool
  | [], _ => true
  | _ :: _, [] => false
  | a :: as, b :: bs => a.toNat < b.toNat || (a == b && upTo as bs)

/-- Puts a text among texts in order. -/
def insertSorted (s : Text) : List Text → List Text
  | [] => [s]
  | t :: ts => if upTo s t then s :: t :: ts else t :: insertSorted s ts

/-- Texts in the order of their code points. -/
def sort (texts : List Text) : List Text := texts.foldr insertSorted []

/-- The decimal numeral of a number. -/
def ofNat (n : Nat) : Text := Nat.toDigits 10 n

/-- The decimal numeral of an integer, with a minus sign if it is negative. -/
def ofInt : Int → Text
  | .ofNat n => ofNat n
  | .negSucc n => '-' :: ofNat (n + 1)

theorem cut_eq_some {pat s before after : Text} (h : cut pat s = some (before, after)) :
    s = before ++ pat ++ after := by
  induction s generalizing before with
  | nil =>
    simp only [cut] at h
    split at h
    · simp_all
    · simp at h
  | cons c r ih =>
    simp only [cut] at h
    split at h
    · next hp =>
      obtain ⟨t, ht⟩ := hp
      simp only [Option.some.injEq, Prod.mk.injEq] at h
      obtain ⟨rfl, rfl⟩ := h
      simp [← ht]
    · obtain ⟨⟨b, a⟩, hr, hb⟩ := Option.map_eq_some_iff.1 h
      simp only [Prod.mk.injEq] at hb
      obtain ⟨rfl, rfl⟩ := hb
      simp [ih hr]

theorem cut_isSome_iff {pat s : Text} : (cut pat s).isSome ↔ Holds pat s := by
  constructor
  · intro h
    obtain ⟨⟨before, after⟩, hc⟩ := Option.isSome_iff_exists.1 h
    exact ⟨before, after, cut_eq_some hc⟩
  · rintro ⟨before, after, rfl⟩
    induction before with
    | nil =>
      cases pat with
      | nil => cases after <;> simp [cut]
      | cons p ps => simp [cut, List.prefix_append]
    | cons c before ih =>
      simp only [List.cons_append, cut]
      split
      · rfl
      · simpa using ih

instance (pat s : Text) : Decidable (Holds pat s) :=
  decidable_of_iff _ cut_isSome_iff

theorem holds_iff {pat s : Text} : holds pat s = true ↔ Holds pat s := cut_isSome_iff

theorem splitWhere_ne_nil (isSep : Char → Bool) (s : Text) : splitWhere isSep s ≠ [] := by
  cases s with
  | nil => simp [splitWhere]
  | cons c r =>
    simp only [splitWhere]
    split
    · simp
    · split <;> simp

end Text

end SlideDeck
