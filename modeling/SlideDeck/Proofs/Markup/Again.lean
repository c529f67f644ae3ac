import Mathlib.Data.List.Flatten
import SlideDeck.Proofs.Markup.Stylesheet

/-!
# Stripping a text again

A stripped text is left alone by `strip` exactly if no link in it has to go (`strip_eq_self_iff`).
That is not always so: where a link is taken out, the text before it and the text behind it meet,
and what one of them starts the other may complete to a link that was not there before. This is the
only way for a link to be left over (`strip_strip_eq`).

The reason is that references and links are told by the text they take (`behindLink_of_append`) and
that more text behind a link never makes it none (`behindLink_append_ne_none`). So the pieces
between two links that go are the pieces of their own text (`IsCut`), and a text without links that
run over a place where one is missing is stripped part by part.
-/

namespace SlideDeck.Markup.Stylesheet

variable {keep s a b y r rest tag : Text} {c : Char} {ps qs : List Piece}

/-! ## Links by the text they take -/

theorem exists_of_behindBracket (h : behindBracket s = some rest) :
    ∃ t, s = t ++ rest ∧ ∀ b, behindBracket (t ++ b) = some b := by
  induction s with
  | nil => cases h
  | cons c s ih =>
    rw [behindBracket] at h
    by_cases hc : c = '>'
    · rw [if_pos hc] at h
      cases h
      exact ⟨[c], rfl, fun b => if_pos hc⟩
    · rw [if_neg hc] at h
      obtain ⟨t, rfl, ht⟩ := ih h
      exact ⟨c :: t, rfl, fun b => (if_neg hc).trans (ht b)⟩

/-- A reference with the rest of its tag is one whatever follows. -/
theorem exists_of_behindReference (h : behindReference s = some rest) :
    ∃ t, s = t ++ rest ∧ ∀ b, behindReference (t ++ b) = some b := by
  rw [behindReference] at h
  split at h
  · next hstarts =>
    obtain ⟨letters, r, rfl, hlength, -, hletters⟩ := exists_of_startsWithLetters hstarts
    rw [← hlength, List.drop_left] at h
    split at h
    · next mark value =>
      split at h
      · next hmark =>
        split at h
        · next quote more hmore =>
          obtain ⟨inner, rfl, hinner⟩ := exists_of_behindBracket h
          obtain ⟨run, rfl, hrun⟩ := Text.exists_run_of_dropWhile hmore
          rw [(hrun _).1] at hmark
          refine ⟨letters ++ mark :: (run ++ quote :: inner), by simp, fun b => ?_⟩
          rw [behindReference, List.append_assoc, if_pos (hletters _), ← hlength, List.drop_left,
            List.cons_append, List.append_assoc, List.cons_append]
          simp only [hrun, hinner, hmark, and_self, if_true]
        · cases h
      · cases h
    · cases h
  · cases h

theorem behindReference_append_of_some (h : behindReference y = some r) (b : Text) :
    behindReference (y ++ b) = some (r ++ b) := by
  obtain ⟨t, rfl, ht⟩ := exists_of_behindReference h
  rw [List.append_assoc]
  exact ht _

theorem behindReference_of_append (h : behindReference (y ++ b) = some (r ++ b)) :
    behindReference y = some r := by
  obtain ⟨t, hy, ht⟩ := exists_of_behindReference h
  rw [← List.append_assoc, List.append_cancel_right_eq] at hy
  rw [hy]
  exact ht r

/-- Text that follows may hold a later reference, but it never takes one away. -/
theorem behindAttributes_append_ne_none (h : behindAttributes y = some r) (b : Text) :
    behindAttributes (y ++ b) ≠ none := by
  induction y generalizing r with
  | nil => cases h
  | cons c y ih =>
    rw [behindAttributes] at h
    by_cases hc : c = '>'
    · rw [if_pos hc] at h
      cases h
    · rw [if_neg hc] at h
      rw [List.cons_append, behindAttributes, if_neg hc, Ne, Option.or_eq_none_iff]
      rintro ⟨hlater, hhere⟩
      cases hy : behindAttributes y with
      | some r' => exact ih hy hlater
      | none =>
        rw [hy, Option.none_or] at h
        cases (behindReference_append_of_some h b).symm.trans hhere

theorem behindAttributes_of_append (h : behindAttributes (y ++ b) = some (r ++ b)) :
    behindAttributes y = some r := by
  induction y with
  | nil =>
    obtain ⟨d, before, hb⟩ := behindAttributes_eq_some h
    have := congrArg List.length hb
    simp at this
    omega
  | cons c y ih =>
    rw [List.cons_append, behindAttributes] at h
    by_cases hc : c = '>'
    · rw [if_pos hc] at h
      cases h
    · rw [if_neg hc] at h
      rw [behindAttributes, if_neg hc]
      cases hlater : behindAttributes (y ++ b) with
      | some r' =>
        rw [hlater] at h
        cases h
        rw [ih hlater, Option.some_or]
      | none =>
        -- A later reference in `y` would be one with `b` behind it too.
        have hy : behindAttributes y = none := by
          cases hy : behindAttributes y with
          | none => rfl
          | some r' => exact absurd hlater (behindAttributes_append_ne_none hy b)
        rw [hlater, Option.none_or] at h
        rw [hy, Option.none_or]
        exact behindReference_of_append h

theorem behindLink_append_ne_none (h : behindLink y = some r) (b : Text) :
    behindLink (y ++ b) ≠ none := by
  rw [behindLink] at h
  split at h
  · next hstarts =>
    obtain ⟨letters, z, rfl, hlength, -, hletters⟩ := exists_of_startsWithLetters hstarts
    rw [← hlength, List.drop_left] at h
    rw [behindLink, List.append_assoc, if_pos (hletters _), ← hlength, List.drop_left]
    exact behindAttributes_append_ne_none h b
  · cases h

/-- A link that ends before some text is a link without this text. -/
theorem behindLink_of_append (h : behindLink (y ++ b) = some (r ++ b)) : behindLink y = some r := by
  rw [behindLink] at h
  split at h
  · next hstarts =>
    obtain ⟨letters, z, hz, hlength, -, hletters⟩ := exists_of_startsWithLetters hstarts
    rw [hz, ← hlength, List.drop_left] at h
    obtain ⟨d, before, rfl⟩ := behindAttributes_eq_some h
    rw [← List.append_assoc, ← List.append_assoc, List.append_cancel_right_eq] at hz
    rw [← List.append_assoc] at h
    rw [hz, behindLink, List.append_assoc, if_pos (hletters _), ← hlength, List.drop_left]
    exact behindAttributes_of_append h
  · cases h

/-! ## Pieces -/

/-- Pieces that their own text is cut into. -/
def IsCut (ps : List Piece) : Prop := pieces (ps.flatMap Piece.text) = ps

theorem isCut_pieces (s : Text) : IsCut (pieces s) := by rw [IsCut, flatMap_text_pieces]

theorem piecesFrom_eq (skip : Nat) (s : Text) : piecesFrom skip s = pieces (s.drop skip) := by
  induction s generalizing skip with
  | nil => rw [List.drop_nil]; cases skip <;> rfl
  | cons c s ih =>
    cases skip with
    | zero => rfl
    | succ skip => exact ih skip

theorem pieces_of_link (h : behindLink (tag ++ rest) = some rest) :
    pieces (tag ++ rest) = .link tag :: pieces rest := by
  obtain ⟨c, before, hs⟩ := behindLink_eq_some h
  rw [List.append_cancel_right_eq] at hs
  subst hs
  rw [pieces, List.cons_append, piecesFrom, ← List.cons_append, h]
  simp [piecesFrom_eq]

theorem pieces_of_char (h : behindLink (c :: r) = none) :
    pieces (c :: r) = .char c :: pieces r := by
  rw [pieces, piecesFrom, h]
  rfl

theorem isCut_char : IsCut (.char c :: ps) ↔ behindLink (c :: ps.flatMap Piece.text) = none ∧
    IsCut ps := by
  constructor
  · intro h
    rw [IsCut, List.flatMap_cons, Piece.text, List.singleton_append] at h
    cases hl : behindLink (c :: ps.flatMap Piece.text) with
    | none =>
      rw [pieces_of_char hl] at h
      exact ⟨rfl, (List.cons.inj h).2⟩
    | some rest =>
      obtain ⟨d, before, hs⟩ := behindLink_eq_some hl
      rw [hs] at h hl
      rw [pieces_of_link hl] at h
      cases h
  · rintro ⟨hl, h⟩
    exact (pieces_of_char hl).trans (congrArg (Piece.char c :: ·) h)

theorem isCut_link : IsCut (.link tag :: ps)
    ↔ behindLink (tag ++ ps.flatMap Piece.text) = some (ps.flatMap Piece.text) ∧ IsCut ps := by
  constructor
  · intro h
    rw [IsCut, List.flatMap_cons, Piece.text] at h
    cases hl : behindLink (tag ++ ps.flatMap Piece.text) with
    | none =>
      generalize tag ++ ps.flatMap Piece.text = s at h hl
      cases s with
      | nil => cases h
      | cons c s =>
        rw [pieces_of_char hl] at h
        cases h
    | some rest =>
      obtain ⟨d, before, hs⟩ := behindLink_eq_some hl
      rw [hs] at h hl
      rw [pieces_of_link hl] at h
      obtain ⟨-, rfl⟩ := List.cons.inj h
      exact ⟨by rw [flatMap_text_pieces], isCut_pieces rest⟩
  · rintro ⟨hl, h⟩
    exact (pieces_of_link hl).trans (congrArg (Piece.link tag :: ·) h)

/-- The first pieces of a text are the pieces of their own text. -/
theorem IsCut.left (h : IsCut (ps ++ qs)) : IsCut ps := by
  induction ps with
  | nil => rfl
  | cons p ps ih =>
    cases p with
    | char c =>
      rw [List.cons_append, isCut_char, List.flatMap_append, ← List.cons_append] at h
      obtain ⟨hl, h⟩ := h
      refine isCut_char.2 ⟨?_, ih h⟩
      -- A link here would be a link with the other pieces behind it too.
      cases hr : behindLink (c :: ps.flatMap Piece.text) with
      | none => rfl
      | some r => exact absurd hl (behindLink_append_ne_none hr _)
    | link tag =>
      rw [List.cons_append, isCut_link, List.flatMap_append, ← List.append_assoc] at h
      obtain ⟨hl, h⟩ := h
      exact isCut_link.2 ⟨behindLink_of_append hl, ih h⟩

theorem IsCut.right (h : IsCut (ps ++ qs)) : IsCut qs := by
  induction ps with
  | nil => exact h
  | cons p ps ih =>
    cases p with
    | char c => exact ih (isCut_char.1 h).2
    | link tag => exact ih (isCut_link.1 h).2

/-! ## Texts that are left alone -/

/-- Whether a piece stays when links that do not mention `keep` are taken out. -/
def Piece.stays (keep : Text) : Piece → Bool
  | .char _ => true
  | .link tag => Text.holds keep tag

/-- What is left of some pieces. -/
def remains (keep : Text) (ps : List Piece) : Text :=
  (ps.filter (Piece.stays keep)).flatMap Piece.text

theorem strip_eq_remains (keep s : Text) : strip keep s = remains keep (pieces s) := rfl

theorem remains_append : remains keep (ps ++ qs) = remains keep ps ++ remains keep qs := by
  rw [remains, List.filter_append, List.flatMap_append]
  rfl

theorem remains_of_stays (h : ∀ p ∈ ps, p.stays keep = true) :
    remains keep ps = ps.flatMap Piece.text := by
  rw [remains, List.filter_eq_self.2 h]

theorem remains_of_gone (htag : Text.holds keep tag = false) :
    remains keep (.link tag :: ps) = remains keep ps := by
  rw [remains, List.filter_cons_of_neg (by simp [Piece.stays, htag])]
  rfl

theorem strip_flatMap_text (hcut : IsCut ps) (h : ∀ p ∈ ps, p.stays keep = true) :
    strip keep (ps.flatMap Piece.text) = ps.flatMap Piece.text := by
  rw [strip_eq_remains, hcut, remains_of_stays h]

/-- Without a link that does not stay, a text is shorter. -/
theorem length_remains_lt (hcut : IsCut ps) (hmem : .link tag ∈ ps)
    (htag : Text.holds keep tag = false) :
    (remains keep ps).length < (ps.flatMap Piece.text).length := by
  obtain ⟨before, after, rfl⟩ := List.append_of_mem hmem
  obtain ⟨d, inner, htext⟩ := behindLink_eq_some (isCut_link.1 hcut.right).1
  rw [List.append_cancel_right_eq] at htext
  have hle (ps : List Piece) : (remains keep ps).length ≤ (ps.flatMap Piece.text).length :=
    (List.filter_sublist.flatMap _).length_le
  have hbefore := hle before
  have hafter := hle after
  rw [remains_append, remains_of_gone htag, List.flatMap_append, List.flatMap_cons, Piece.text,
    htext]
  simp only [List.length_append, List.length_cons]
  omega

/-- A text is left alone exactly if all of its links mention what they have to. -/
theorem strip_eq_self_iff : strip keep s = s ↔ ∀ tag, .link tag ∈ pieces s →
    Text.Holds keep tag := by
  rw [strip_eq_remains]
  constructor
  · intro h tag hmem
    cases htag : Text.holds keep tag with
    | true => exact Text.holds_iff.1 htag
    | false =>
      have hlt := length_remains_lt (isCut_pieces s) hmem htag
      rw [flatMap_text_pieces, h] at hlt
      exact absurd hlt (Nat.lt_irrefl _)
  · intro h
    rw [remains_of_stays, flatMap_text_pieces]
    intro p hp
    cases p with
    | char c => rfl
    | link tag => exact Text.holds_iff.2 (h tag hp)

/-! ## Links over a gap -/

/-- A link starts in `a` and ends in `b`, behind at least one of its characters. -/
def Spans (a b : Text) : Prop :=
  ∃ x y rest, a = x ++ y ∧ y ≠ [] ∧ behindLink (y ++ b) = some rest ∧ rest.length < b.length

theorem Spans.append_left (h : Spans a b) (r : Text) : Spans (r ++ a) b := by
  obtain ⟨x, y, rest, rfl, hy⟩ := h
  exact ⟨r ++ x, y, rest, (List.append_assoc r x y).symm, hy⟩

theorem apart_of_not_spans (h : ¬Spans a b) : Apart a b := by
  intro x y hxy hy
  cases hl : behindLink (y ++ b) with
  | none =>
    cases hr : behindLink y with
    | none => rfl
    | some r => exact absurd hl (behindLink_append_ne_none hr b)
  | some rest =>
    have hlength : b.length ≤ rest.length :=
      Nat.le_of_not_lt fun hlt => h ⟨x, y, rest, hxy, hy, hl, hlt⟩
    obtain ⟨d, before, hs⟩ := behindLink_eq_some hl
    have hsuffix : b <:+ rest :=
      List.suffix_of_suffix_length_le (List.suffix_append y b)
        (hs ▸ List.suffix_append (d :: before) rest) hlength
    obtain ⟨r, rfl⟩ := hsuffix
    rw [behindLink_of_append hl]
    rfl

/-- Pieces between two links that go are left alone, and so is what remains of all pieces if no link
runs over the place of one that went. The induction is on the pieces from left to right; `run` holds
those since the last link that went. -/
theorem strip_remains (run qs : List Piece) (hcut : IsCut (run ++ qs))
    (hrun : ∀ p ∈ run, p.stays keep = true)
    (h : ∀ before tag after, run ++ qs = before ++ .link tag :: after →
      Text.holds keep tag = false →
      ¬Spans (remains keep before) (remains keep after)) :
    strip keep (remains keep (run ++ qs)) = remains keep (run ++ qs) := by
  induction qs generalizing run with
  | nil =>
    rw [List.append_nil] at hcut ⊢
    rw [remains_of_stays hrun, strip_flatMap_text hcut hrun]
  | cons p qs ih =>
    cases hp : p.stays keep with
    | true =>
      rw [List.append_cons] at hcut h ⊢
      refine ih (run ++ [p]) hcut (fun q hq => ?_) h
      rcases List.mem_append.1 hq with hq | hq
      · exact hrun q hq
      · rwa [List.mem_singleton.1 hq]
    | false =>
      cases p with
      | char c => cases hp
      | link tag =>
        -- No link runs over the place of this one, so the texts on its two sides are stripped on
        -- their own.
        have hapart := apart_of_not_spans (h run tag qs rfl hp)
        have hleft : strip keep (remains keep run) = remains keep run := by
          rw [remains_of_stays hrun, strip_flatMap_text hcut.left hrun]
        have hright : strip keep (remains keep qs) = remains keep qs := by
          refine ih [] (isCut_link.1 hcut.right).2 (List.forall_mem_nil _)
            fun before t after hqs ht hspans => ?_
          obtain rfl : qs = before ++ .link t :: after := hqs
          refine h (run ++ .link tag :: before) t after (by rw [List.append_assoc]; rfl) ht ?_
          rw [remains_append, remains_of_gone hp]
          exact hspans.append_left _
        rw [remains_append, remains_of_gone hp, strip_append hapart, hleft, hright]

/-- To strip a text again changes nothing exactly if every link that is left mentions what it has
to. It changes something only where a link was taken out of the text and one is left that starts
before its place and ends behind it. -/
theorem strip_strip_eq (keep s : Text) :
    (strip keep (strip keep s) = strip keep s ↔ ∀ tag, .link tag ∈ pieces (strip keep s) →
      Text.Holds keep tag) ∧
    (strip keep (strip keep s) = strip keep s ∨
      ∃ before tag after, pieces s = before ++ .link tag :: after ∧
      ¬Text.Holds keep tag ∧ Spans (remains keep before) (remains keep after)) := by
  refine ⟨strip_eq_self_iff, ?_⟩
  by_cases h : ∃ before tag after, pieces s = before ++ .link tag :: after ∧ ¬Text.Holds keep tag ∧
      Spans (remains keep before) (remains keep after)
  · exact .inr h
  · refine .inl (strip_remains [] (pieces s) (isCut_pieces s) (List.forall_mem_nil _) ?_)
    intro before tag after hs htag hspans
    refine h ⟨before, tag, after, hs, ?_, hspans⟩
    rw [← Text.holds_iff, htag]
    exact Bool.false_ne_true

/-- The two parts of a link around another link: both go, but the first time only the inner one
does. -/
theorem strip_strip_nested :
    let html := "<li<link href='x.css'>nk href='y.css'>".toList
    strip "lib/offline-v2.css".toList html = "<link href='y.css'>".toList ∧
      strip "lib/offline-v2.css".toList (strip "lib/offline-v2.css".toList html) = [] := by
  decide

end SlideDeck.Markup.Stylesheet
