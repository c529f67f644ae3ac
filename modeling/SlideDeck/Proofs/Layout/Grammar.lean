import SlideDeck.Layout.Reader
import SlideDeck.Proofs.Outcome
import SlideDeck.Proofs.Text.Split

/-!
# The grammar of structure texts

A piece between two commas is a token if without its blanks it is the marker of dividers or the
numeral of a positive number that is not too long (`Group.IsToken`). It tells a group
(`Group.Reads`), and nothing else does: `Group.ofToken` reads tokens as they tell
(`Group.ofToken_eq_ok_iff`) and refuses every other piece (`Group.ofToken_eq_error`).

A structure text is read piece by piece, and the first piece that is no token is the one that is
refused (`Layout.ofStructure_grammar`).
-/

namespace SlideDeck

namespace Numeral

/-- The numeral of a positive number that can be read. -/
structure IsCount (s : Text) : Prop where
  plain : isPlain s = true
  length_le : s.length ≤ maxDigits
  pos : 0 < value s

end Numeral

namespace Group

/-- The groups that a piece of a structure text tells. -/
inductive Reads (marker piece : Text) : Group → Prop
  | divider (hmarker : Text.strip piece = marker) : Reads marker piece .divider
  | single (hmarker : Text.strip piece ≠ marker) (hcount : Numeral.IsCount (Text.strip piece))
      (hone : Numeral.value (Text.strip piece) = 1) : Reads marker piece .single
  | stack (hmarker : Text.strip piece ≠ marker) (hcount : Numeral.IsCount (Text.strip piece))
      (hmore : Numeral.value (Text.strip piece) ≠ 1) :
      Reads marker piece (.stack (Numeral.value (Text.strip piece)) hcount.pos)

/-- A piece of a structure text that tells a group. -/
def IsToken (marker piece : Text) : Prop :=
  Text.strip piece = marker ∨ Numeral.IsCount (Text.strip piece)

variable {marker piece : Text} {g : Group}

theorem exists_reads_iff : (∃ g, Reads marker piece g) ↔ IsToken marker piece := by
  constructor
  · rintro ⟨g, hmarker | ⟨-, hcount, -⟩ | ⟨-, hcount, -⟩⟩
    · exact .inl hmarker
    · exact .inr hcount
    · exact .inr hcount
  · intro h
    by_cases hmarker : Text.strip piece = marker
    · exact ⟨_, .divider hmarker⟩
    · have hcount := h.resolve_left hmarker
      by_cases hone : Numeral.value (Text.strip piece) = 1
      · exact ⟨_, .single hmarker hcount hone⟩
      · exact ⟨_, .stack hmarker hcount hone⟩

/-- How a piece that tells no group is refused: a numeral for its length, and everything else for
what it is. -/
def refusal (marker piece : Text) : Failure :=
  if Numeral.isPlain (Text.strip piece) ∧ Numeral.maxDigits < (Text.strip piece).length
  then .numeralTooLong (Text.strip piece).length
  else .badToken marker piece

theorem ofToken_of_reads (h : Reads marker piece g) : ofToken marker piece = .ok g := by
  cases h with
  | divider hmarker => exact if_pos hmarker
  | single hmarker hcount hone =>
    have hread : Numeral.read (Text.strip piece) = .ok 1 := by
      rw [Numeral.read, if_pos hcount.length_le, hone]
    rw [ofToken, if_neg hmarker, if_pos hcount.plain, hread]
    rfl
  | stack hmarker hcount hmore =>
    have hread : Numeral.read (Text.strip piece) = .ok (Numeral.value (Text.strip piece)) :=
      if_pos hcount.length_le
    rw [ofToken, if_neg hmarker, if_pos hcount.plain, hread]
    refine (dif_pos hcount.pos).trans ?_
    rw [ofCount, if_neg hmore]

theorem ofToken_eq_error (h : ¬IsToken marker piece) :
    ofToken marker piece = .error (refusal marker piece) := by
  obtain ⟨hmarker, hcount⟩ := not_or.1 h
  rw [ofToken, if_neg hmarker]
  by_cases hplain : Numeral.isPlain (Text.strip piece) = true
  · rw [if_pos hplain, Numeral.read]
    by_cases hlength : (Text.strip piece).length ≤ Numeral.maxDigits
    · have hzero : ¬0 < Numeral.value (Text.strip piece) := fun pos => hcount ⟨hplain, hlength, pos⟩
      rw [if_pos hlength, refusal, if_neg fun hlong => absurd hlong.2 (Nat.not_lt.2 hlength)]
      exact dif_neg hzero
    · rw [if_neg hlength, refusal, if_pos ⟨hplain, Nat.not_le.1 hlength⟩]
  · rw [if_neg hplain, refusal, if_neg fun hlong => hplain hlong.1]

theorem ofToken_eq_ok_iff : ofToken marker piece = .ok g ↔ Reads marker piece g := by
  refine ⟨fun h => ?_, ofToken_of_reads⟩
  by_cases htoken : IsToken marker piece
  · obtain ⟨g', hg'⟩ := exists_reads_iff.2 htoken
    cases h.symm.trans (ofToken_of_reads hg')
    exact hg'
  · cases h.symm.trans (ofToken_eq_error htoken)

/-- A numeral is refused for its length by a failure of its own. Every other refusal quotes the
piece, blanks included. -/
theorem refusal_cases (marker piece : Text) :
    if Numeral.isPlain (Text.strip piece) ∧ Numeral.maxDigits < (Text.strip piece).length
    then (refusal marker piece).kind = .value
    else (refusal marker piece).kind = .configuration ∧
      ∃ words, (refusal marker piece).message = words ++ "'".toList ++ piece ++ "'".toList := by
  have hquote :
      "\" for dividers: invalid token '".toList = "\" for dividers: invalid token ".toList ++
        "'".toList := by
    decide
  have hmessage (start : Text) :
      start ++ "\" for dividers: invalid token '".toList ++ piece ++ "'".toList
      = start ++ "\" for dividers: invalid token ".toList ++ "'".toList ++ piece ++ "'".toList := by
    rw [hquote, ← List.append_assoc]
  rw [refusal]
  split
  · rfl
  · exact ⟨rfl, _, hmessage _⟩

end Group

namespace Layout

variable {marker structureText : Text}

theorem ofStructure_eq_ok_iff {layout : Layout} : ofStructure marker structureText = .ok layout
    ↔ List.Forall₂ (Group.Reads marker) (Text.split ',' structureText) layout := by
  simp only [ofStructure, Outcome.mapM_eq_ok, Group.ofToken_eq_ok_iff]

/-- A structure text is refused for the first of its pieces that is no token. -/
theorem ofStructure_eq_error_iff {failure : Failure} :
    ofStructure marker structureText = .error failure
    ↔ ∃ before piece after, Text.split ',' structureText = before ++ piece :: after ∧
      (∀ token ∈ before, Group.IsToken marker token) ∧ ¬Group.IsToken marker piece ∧
      failure = Group.refusal marker piece := by
  rw [ofStructure, Outcome.mapM_eq_error]
  refine exists₃_congr fun before piece after => and_congr_right fun _ => and_congr ?_ ?_
  · simp only [Group.ofToken_eq_ok_iff, Group.exists_reads_iff]
  · constructor
    · intro h
      have htoken : ¬Group.IsToken marker piece := by
        rw [← Group.exists_reads_iff]
        rintro ⟨g, hg⟩
        cases h.symm.trans (Group.ofToken_of_reads hg)
      exact ⟨htoken, Except.error.inj (h.symm.trans (Group.ofToken_eq_error htoken))⟩
    · rintro ⟨htoken, rfl⟩
      exact Group.ofToken_eq_error htoken

/-- A structure text is accepted exactly if all of its pieces are tokens. -/
theorem exists_ofStructure_iff : (∃ layout, ofStructure marker structureText = .ok layout)
    ↔ ∀ piece ∈ Text.split ',' structureText, Group.IsToken marker piece := by
  cases h : ofStructure marker structureText with
  | ok layout =>
    refine iff_of_true ⟨layout, rfl⟩ fun piece hpiece => ?_
    have hgroups := ofStructure_eq_ok_iff.1 h
    obtain ⟨i, hi, rfl⟩ := List.getElem_of_mem hpiece
    exact Group.exists_reads_iff.1 ⟨_, hgroups.get hi (hgroups.length_eq ▸ hi)⟩
  | error failure =>
    obtain ⟨before, piece, after, hpieces, -, htoken, -⟩ := ofStructure_eq_error_iff.1 h
    refine iff_of_false nofun fun hall => htoken (hall piece ?_)
    rw [hpieces]
    exact List.mem_append_right _ (List.mem_cons_self ..)

/-- The grammar of structure texts. A structure text is cut at its commas. It is accepted if all of
its pieces are tokens, and then each piece tells the group in its place. Otherwise it is refused for
the first piece that is no token: for the length of a numeral, or for anything else by quoting the
piece as it stands in the text. -/
theorem ofStructure_grammar (marker structureText : Text) :
    let pieces := Text.split ',' structureText
    (Text.join [','] pieces = structureText ∧ (∀ piece ∈ pieces, ',' ∉ piece) ∧
      pieces.length = structureText.count ',' + 1) ∧
    ((∃ layout, ofStructure marker structureText = .ok layout) ↔
      ∀ piece ∈ pieces, Group.IsToken marker piece) ∧
    (∀ layout, ofStructure marker structureText = .ok layout ↔
      List.Forall₂ (Group.Reads marker) pieces layout) ∧
    ((∃ layout, ofStructure marker structureText = .ok layout) ∨
      ∃ before piece after, pieces = before ++ piece :: after ∧
        (∀ token ∈ before, Group.IsToken marker token) ∧
        ¬Group.IsToken marker piece ∧ ∃ failure, ofStructure marker structureText = .error failure ∧
        if Numeral.isPlain (Text.strip piece) ∧ Numeral.maxDigits < (Text.strip piece).length
        then failure.kind = .value
        else failure.kind = .configuration ∧
          ∃ words, failure.message = words ++ "'".toList ++ piece ++ "'".toList) := by
  refine ⟨⟨Text.join_split ',' structureText, fun _ => Text.not_mem_of_mem_split,
    Text.length_split ',' structureText⟩,
    exists_ofStructure_iff, fun _ => ofStructure_eq_ok_iff, ?_⟩
  cases h : ofStructure marker structureText with
  | ok layout => exact .inl ⟨layout, rfl⟩
  | error failure =>
    obtain ⟨before, piece, after, hpieces, hbefore, htoken, rfl⟩ := ofStructure_eq_error_iff.1 h
    exact .inr ⟨before, piece, after, hpieces, hbefore, htoken, _, rfl,
      Group.refusal_cases marker piece⟩

end Layout

end SlideDeck
