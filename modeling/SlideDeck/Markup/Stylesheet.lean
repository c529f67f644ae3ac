import SlideDeck.Text.Basic
import SlideDeck.Text.Lowercase

/-!
# Stylesheet links

A link tag refers to a stylesheet if it has, before its first bracket, a reference whose value runs
to the next quote and ends in `.css`; of several such references the last one counts, and the tag
ends at the first bracket behind it. Letters are compared without regard to case.

`Stylesheet.pieces` cuts a text into its links and the characters between them, which make up the
text again (`flatMap_text_pieces`), and `Stylesheet.strip` leaves out the links unless they mention
one stylesheet.
-/

namespace SlideDeck.Markup.Stylesheet

/-- How a link tag starts. -/
def opening : Text := "<link".toList

/-- How a reference starts, before the quote. -/
def reference : Text := "href=".toList

/-- How the name of a stylesheet ends. -/
def suffix : Text := ".css".toList

/-- Whether a character is a quote. -/
def isQuote (c : Char) : Bool := c == '"' || c == '\''

/-- Whether a text ends in some letters. -/
def endsWithLetters (pat s : Text) : Bool := Text.startsWithLetters pat.reverse s.reverse

/-- What follows the first bracket. -/
def behindBracket : Text → Option Text
  | [] => none
  | c :: r => if c = '>' then some r else behindBracket r

/-- What follows the tag, if the text starts with a reference to a stylesheet. -/
def behindReference (s : Text) : Option Text :=
  if Text.startsWithLetters reference s then
    match s.drop reference.length with
    | mark :: value =>
      if isQuote mark ∧ endsWithLetters suffix (value.takeWhile (!isQuote ·)) then
        match value.dropWhile (!isQuote ·) with
        | _ :: rest => behindBracket rest
        | [] => none
      else none
    | [] => none
  else none

/-- What follows the tag, if there is a reference to a stylesheet before the first bracket. -/
def behindAttributes : Text → Option Text
  | [] => none
  | c :: r => if c = '>' then none else (behindAttributes r).or (behindReference (c :: r))

/-- What follows the link to a stylesheet that the text starts with. -/
def behindLink (s : Text) : Option Text :=
  if Text.startsWithLetters opening s then behindAttributes (s.drop opening.length) else none

/-- What follows a bracket comes behind at least one character. -/
theorem behindBracket_eq_some {s rest : Text} (h : behindBracket s = some rest) :
    ∃ c before, s = c :: before ++ rest := by
  induction s with
  | nil => simp [behindBracket] at h
  | cons c r ih =>
    simp only [behindBracket] at h
    split at h
    · cases h
      exact ⟨c, [], rfl⟩
    · obtain ⟨d, before, rfl⟩ := ih h
      exact ⟨c, d :: before, rfl⟩

theorem behindReference_eq_some {s rest : Text} (h : behindReference s = some rest) :
    ∃ c before, s = c :: before ++ rest := by
  simp only [behindReference] at h
  split at h
  · split at h
    · next mark value hs =>
      split at h
      · split at h
        · next quote tail hv =>
          obtain ⟨c, before, rfl⟩ := behindBracket_eq_some h
          have hvalue : value = value.takeWhile (!isQuote ·) ++ quote :: (c :: before ++ rest) := by
            rw [← hv, List.takeWhile_append_dropWhile]
          have hall : s = s.take reference.length ++ mark :: value := by
            rw [← hs, List.take_append_drop]
          rw [hvalue] at hall
          cases htake : s.take reference.length with
          | nil =>
            rw [htake] at hall
            exact ⟨mark, value.takeWhile (!isQuote ·) ++ quote :: c :: before, by simpa using hall⟩
          | cons d ds =>
            rw [htake] at hall
            exact ⟨d, ds ++ mark :: value.takeWhile (!isQuote ·) ++ quote :: c :: before,
              by simpa using hall⟩
        · simp at h
      · simp at h
    · simp at h
  · simp at h

theorem behindAttributes_eq_some {s rest : Text} (h : behindAttributes s = some rest) :
    ∃ c before, s = c :: before ++ rest := by
  induction s with
  | nil => simp [behindAttributes] at h
  | cons c r ih =>
    simp only [behindAttributes] at h
    split at h
    · simp at h
    · cases hr : behindAttributes r with
      | some found =>
        rw [hr] at h
        cases h
        obtain ⟨d, before, rfl⟩ := ih hr
        exact ⟨c, d :: before, rfl⟩
      | none =>
        rw [hr] at h
        exact behindReference_eq_some h

/-- A link takes at least one character, and what follows it is the rest of the text. -/
theorem behindLink_eq_some {s rest : Text} (h : behindLink s = some rest) :
    ∃ c before, s = c :: before ++ rest := by
  simp only [behindLink] at h
  split at h
  · obtain ⟨c, before, hs⟩ := behindAttributes_eq_some h
    have hall := List.take_append_drop opening.length s
    rw [hs] at hall
    cases htake : s.take opening.length with
    | nil =>
      rw [htake] at hall
      exact ⟨c, before, hall.symm⟩
    | cons d ds =>
      rw [htake] at hall
      exact ⟨d, ds ++ c :: before, by rw [← hall]; simp⟩
  · simp at h

/-- A piece of a text: a link to a stylesheet, or a character outside of all links. -/
inductive Piece where
  | char (c : Char)
  | link (tag : Text)
  deriving DecidableEq, Repr

/-- The text of a piece. -/
def Piece.text : Piece → Text
  | .char c => [c]
  | .link tag => tag

/-- The pieces of a text behind its first `skip` characters. -/
def piecesFrom : Nat → Text → List Piece
  | _, [] => []
  | skip + 1, _ :: r => piecesFrom skip r
  | 0, c :: r =>
    match behindLink (c :: r) with
    | some rest =>
      let length := r.length - rest.length
      .link (c :: r.take length) :: piecesFrom length r
    | none => .char c :: piecesFrom 0 r

/-- The pieces of a text. -/
def pieces (s : Text) : List Piece := piecesFrom 0 s

theorem flatMap_text_piecesFrom (skip : Nat) (s : Text) :
    (piecesFrom skip s).flatMap Piece.text = s.drop skip := by
  induction s generalizing skip with
  | nil => simp [piecesFrom]
  | cons c r ih =>
    cases skip with
    | succ n => simp [piecesFrom, ih]
    | zero =>
      simp only [piecesFrom]
      split
      · simp [Piece.text, ih]
      · simp [Piece.text, ih]

/-- The pieces make up the text. -/
theorem flatMap_text_pieces (s : Text) : (pieces s).flatMap Piece.text = s :=
  flatMap_text_piecesFrom 0 s

/-- A text without its links to stylesheets, but for those that mention `keep`. -/
def strip (keep s : Text) : Text :=
  ((pieces s).filter fun
    | .char _ => true
    | .link tag => Text.holds keep tag).flatMap Piece.text

end SlideDeck.Markup.Stylesheet
