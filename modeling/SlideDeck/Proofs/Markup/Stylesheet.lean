import SlideDeck.Markup.Stylesheet
import SlideDeck.Proofs.Markup.EndTag
import SlideDeck.Proofs.Text.Run

/-!
# Stripping a text part by part

A link that starts in a text may end behind it. Where none does (`Apart`), the text is stripped on
its own (`strip_append`). `settles` tells by the text alone that this is so, if it ends with a
bracket or if a tag follows it that no reference stands in (`apart_of_settles`).

A text in which no link tag starts (`IsLinkless`) stays as it is (`strip_of_isLinkless`).
-/

namespace SlideDeck.Markup.Stylesheet

variable {keep s a b t : Text} {d : Char}

/-! ## Texts apart -/

/-- A link that starts in `a` ends in `a`, also when `b` follows. -/
def Apart (a b : Text) : Prop :=
  ∀ x y, a = x ++ y → y ≠ [] → behindLink (y ++ b) = (behindLink y).map (· ++ b)

theorem piecesFrom_append (h : Apart a b) {skip : Nat} (hs : skip ≤ a.length) :
    piecesFrom skip (a ++ b) = piecesFrom skip a ++ piecesFrom 0 b := by
  induction a generalizing skip with
  | nil =>
    obtain rfl := Nat.le_zero.1 hs
    rfl
  | cons c r ih =>
    have ih {skip : Nat} (hs : skip ≤ r.length) :=
      ih (fun x y hxy hy => h (c :: x) y (by rw [hxy]; rfl) hy) hs
    cases skip with
    | succ skip => exact ih (Nat.le_of_succ_le_succ hs)
    | zero =>
      have hlink : behindLink (c :: (r ++ b)) = (behindLink (c :: r)).map (· ++ b) :=
        h [] (c :: r) rfl (by simp)
      rw [List.cons_append, piecesFrom, piecesFrom, hlink]
      cases hl : behindLink (c :: r) with
      | none => exact congrArg (Piece.char c :: ·) (ih (Nat.zero_le _))
      | some rest =>
        obtain ⟨d, before, hr⟩ := behindLink_eq_some hl
        have hlength := congrArg List.length hr
        simp only [List.cons_append, List.length_cons, List.length_append] at hlength
        have hsame : (r ++ b).length - (rest ++ b).length = r.length - rest.length := by
          simp only [List.length_append]
          omega
        simp only [Option.map_some, hsame, List.cons_append,
          List.take_append_of_le_length (Nat.sub_le r.length rest.length),
          ih (Nat.sub_le r.length rest.length)]

theorem strip_append (h : Apart a b) (keep : Text) :
    strip keep (a ++ b) = strip keep a ++ strip keep b := by
  simp only [strip, pieces, piecesFrom_append h (Nat.zero_le _), List.filter_append,
    List.flatMap_append]

/-! ## Texts without links -/

theorem piecesFrom_of_none (h : ∀ x y, t = x ++ y → behindLink y = none) :
    piecesFrom 0 t = t.map Piece.char := by
  induction t with
  | nil => rfl
  | cons c r ih =>
    rw [piecesFrom, h [] (c :: r) rfl, ih fun x y hxy => h (c :: x) y (by rw [hxy]; rfl)]
    rfl

/-- A text in which no link starts stays as it is. -/
theorem strip_of_none (h : ∀ x y, t = x ++ y → behindLink y = none) (keep : Text) :
    strip keep t = t := by
  rw [strip, pieces, piecesFrom_of_none h, List.filter_eq_self.2 fun p hp => ?_,
    ← piecesFrom_of_none h]
  · exact flatMap_text_pieces t
  · obtain ⟨c, -, rfl⟩ := List.mem_map.1 hp
    rfl

/-- What follows the start of a link tag. -/
def skipOpening (s : Text) : Option Text :=
  if Text.startsWithLetters opening s then some (s.drop opening.length) else none

/-- No link tag starts in the text. -/
def IsLinkless (t : Text) : Prop := Text.search skipOpening t = none

instance (t : Text) : Decidable (IsLinkless t) := inferInstanceAs (Decidable (_ = _))

theorem isLinkless_iff : IsLinkless t ↔ ∀ x y, t = x ++ y →
    Text.startsWithLetters opening y = false := by
  rw [IsLinkless, Text.search_eq_none_iff]
  refine forall_congr' fun x => forall_congr' fun y => imp_congr_right fun _ => ?_
  rw [skipOpening]
  cases Text.startsWithLetters opening y <;> simp

theorem behindLink_of_not_opens (h : Text.startsWithLetters opening s = false) :
    behindLink s = none := by
  rw [behindLink, if_neg (by simp [h])]

theorem strip_of_isLinkless (h : IsLinkless t) (keep : Text) : strip keep t = t :=
  strip_of_none (fun x y hxy => behindLink_of_not_opens (isLinkless_iff.1 h x y hxy)) keep

theorem sameLetter_of_all {n : Text} (h : n.all (fun c => !Text.sameLetter c d) = true) :
    ∀ c ∈ n, Text.sameLetter c d = false := fun c hc => by simpa using List.all_eq_true.1 h c hc

/-- No link tag goes on over a character that is no letter of its start. -/
theorem startsWithLetters_opening_append (hd : ∀ c ∈ "link".toList, Text.sameLetter c d = false)
    (hs : s ≠ []) (r : Text) :
    Text.startsWithLetters opening (s ++ d :: r) = Text.startsWithLetters opening s := by
  obtain ⟨c, s, rfl⟩ := List.exists_cons_of_ne_nil hs
  show (_ && Text.startsWithLetters "link".toList (s ++ d :: r)) =
      (_ && Text.startsWithLetters "link".toList s)
  rw [startsWithLetters_append_of_ne hd]

theorem not_opens_of_ne {c : Char} (hc : Text.sameLetter '<' c = false) (r : Text) :
    Text.startsWithLetters opening (c :: r) = false := by
  show (Text.sameLetter '<' c && _) = false
  rw [hc, Bool.false_and]

theorem not_opens_of_not_mem (h : '<' ∉ t) {x y : Text} (hxy : t = x ++ y) (hy : y ≠ [])
    (r : Text) :
    Text.startsWithLetters opening (y ++ r) = false := by
  obtain ⟨c, y, rfl⟩ := List.exists_cons_of_ne_nil hy
  refine not_opens_of_ne (Bool.eq_false_iff.2 fun hc => h ?_) _
  rw [hxy, eq_of_sameLetter (by decide) hc]
  simp

/-- A text without brackets is stripped on its own. -/
theorem apart_of_not_mem (h : '<' ∉ a) (b : Text) : Apart a b := by
  intro x y hxy hy
  have ho := not_opens_of_not_mem h hxy hy []
  rw [List.append_nil] at ho
  rw [behindLink_of_not_opens ho, behindLink_of_not_opens (not_opens_of_not_mem h hxy hy b)]
  rfl

theorem isLinkless_of_not_mem (h : '<' ∉ t) : IsLinkless t := by
  refine isLinkless_iff.2 fun x y hxy => ?_
  cases y with
  | nil => rfl
  | cons c y =>
    have := not_opens_of_not_mem h hxy (by simp) []
    rwa [List.append_nil] at this

/-- A tag that does not start like that of a link. -/
theorem isLinkless_cons (h : '<' ∉ t) (ho : Text.startsWithLetters "link".toList t = false) :
    IsLinkless ('<' :: t) := by
  refine isLinkless_iff.2 fun x y hxy => ?_
  cases x with
  | nil =>
    obtain rfl : '<' :: t = y := hxy
    show (_ && Text.startsWithLetters "link".toList t) = false
    rw [ho, Bool.and_false]
  | cons c x => exact isLinkless_iff.1 (isLinkless_of_not_mem h) x y (List.cons.inj hxy).2

/-! ## Links that end in a text -/

/-- If the text starts with a reference, then the link with this reference ends in the text, or it
is known that it is none. -/
def settlesReference (s : Text) : Bool :=
  !Text.startsWithLetters reference s ||
    match s.drop reference.length with
    | [] => true
    | mark :: value => !isQuote mark ||
      match value.dropWhile (!isQuote ·) with
      | [] => false
      | _ :: rest => !endsWithLetters suffix (value.takeWhile (!isQuote ·)) || rest.contains '>'

/-- All references before the first bracket are settled. -/
def settlesAttributes : Text → Bool
  | [] => true
  | c :: r => c == '>' || settlesReference (c :: r) && settlesAttributes r

/-- All link tags that start in the text are settled. -/
def settles : Text → Bool
  | [] => true
  | c :: r => (!Text.startsWithLetters opening (c :: r) ||
      settlesAttributes ((c :: r).drop opening.length)) && settles r

/-- A tag without a reference follows. -/
def IsBlunt (b : Text) : Prop := ∃ r, b = '<' :: r ∧ behindAttributes b = none

theorem startsWithLetters_append_of_mem {p : Text} (hp : ∀ c ∈ p, Text.sameLetter c '>' = false)
    (hs : '>' ∈ s) (b : Text) :
    Text.startsWithLetters p (s ++ b) = Text.startsWithLetters p s := by
  obtain ⟨y, z, rfl⟩ := List.append_of_mem hs
  rw [List.append_assoc, List.cons_append, startsWithLetters_append_of_ne hp,
    startsWithLetters_append_of_ne hp]

theorem behindBracket_append (h : '>' ∈ s) (b : Text) :
    behindBracket (s ++ b) = (behindBracket s).map (· ++ b) := by
  induction s with
  | nil => cases h
  | cons c r ih =>
    rw [List.cons_append, behindBracket, behindBracket]
    by_cases hc : c = '>'
    · rw [if_pos hc, if_pos hc]
      rfl
    · rw [if_neg hc, if_neg hc, ih ((List.mem_cons.1 h).resolve_left (Ne.symm hc))]

theorem behindReference_append (h : settlesReference s = true) (hb : '>' ∈ s ∨ IsBlunt b) :
    behindReference (s ++ b) = (behindReference s).map (· ++ b) := by
  have hstarts :
      Text.startsWithLetters reference (s ++ b) = Text.startsWithLetters reference s := by
    rcases hb with hb | ⟨r, rfl, -⟩
    · exact startsWithLetters_append_of_mem (sameLetter_of_all (by decide)) hb b
    · exact startsWithLetters_append_of_ne (sameLetter_of_all (by decide)) s r
  rw [behindReference, behindReference, hstarts]
  cases hr : Text.startsWithLetters reference s with
  | false => rfl
  | true =>
    obtain ⟨letters, r, rfl, hlength, hmark, -⟩ := exists_of_startsWithLetters hr
    rw [settlesReference, hr, ← hlength, List.drop_left] at h
    rw [if_pos rfl, if_pos rfl, ← hlength, List.drop_left, List.append_assoc, List.drop_left]
    cases r with
    | nil =>
      rcases hb with hb | ⟨z, rfl, -⟩
      · rw [List.append_nil] at hb
        exact absurd hb (hmark '>' (sameLetter_of_all (by decide)))
      · rfl
    | cons mark value =>
      by_cases hq : isQuote mark
      · simp only [Bool.not_true, Bool.false_or, hq] at h
        split at h
        · cases h
        · next quote rest hrest =>
          obtain ⟨run, rfl, hrun⟩ := Text.exists_run_of_dropWhile hrest
          simp only [List.cons_append, List.append_assoc, hrun, hq, true_and]
          rw [(hrun rest).1] at h
          by_cases he : endsWithLetters suffix run = true
          · rw [he, Bool.not_true, Bool.false_or, List.contains_iff_mem] at h
            rw [if_pos he, if_pos he, behindBracket_append h]
          · rw [if_neg he, if_neg he]
            rfl
      · simp [hq]

theorem behindAttributes_append (h : settlesAttributes s = true) (hb : '>' ∈ s ∨ IsBlunt b) :
    behindAttributes (s ++ b) = (behindAttributes s).map (· ++ b) := by
  induction s with
  | nil =>
    rcases hb with hb | ⟨-, -, hb⟩
    · cases hb
    · exact hb
  | cons c r ih =>
    rw [List.cons_append, behindAttributes, behindAttributes]
    by_cases hc : c = '>'
    · rw [if_pos hc, if_pos hc]
      rfl
    · simp only [settlesAttributes, beq_eq_false_iff_ne.2 hc, Bool.false_or, Bool.and_eq_true] at h
      have hb' : '>' ∈ r ∨ IsBlunt b :=
        hb.imp_left fun h => (List.mem_cons.1 h).resolve_left (Ne.symm hc)
      have hreference := behindReference_append h.1 hb
      rw [if_neg hc, if_neg hc, ih h.2 hb', ← List.cons_append, hreference]
      cases behindAttributes r <;> rfl

theorem behindLink_append (hs : s ≠ [])
    (h : Text.startsWithLetters opening s = true → settlesAttributes (s.drop opening.length) = true)
    (hb : '>' ∈ s ∨ IsBlunt b) : behindLink (s ++ b) = (behindLink s).map (· ++ b) := by
  have hopens : Text.startsWithLetters opening (s ++ b) = Text.startsWithLetters opening s := by
    rcases hb with hb | ⟨r, rfl, -⟩
    · exact startsWithLetters_append_of_mem (sameLetter_of_all (by decide)) hb b
    · exact startsWithLetters_opening_append (sameLetter_of_all (by decide)) hs r
  rw [behindLink, behindLink, hopens]
  split
  · next ho =>
    obtain ⟨letters, r, rfl, hlength, hmark, -⟩ := exists_of_startsWithLetters ho
    have h := h ho
    rw [← hlength, List.drop_left] at h
    rw [← hlength, List.append_assoc, List.drop_left, List.drop_left]
    refine behindAttributes_append h (hb.imp_left fun hb => (List.mem_append.1 hb).resolve_left ?_)
    exact hmark '>' (sameLetter_of_all (by decide))
  · rfl

theorem settles_of_append {x y : Text} (h : settles (x ++ y) = true) : settles y = true := by
  induction x with
  | nil => exact h
  | cons c x ih =>
    rw [List.cons_append, settles, Bool.and_eq_true] at h
    exact ih h.2

/-- A text that ends with a bracket, or that is followed by a tag without a reference, is stripped
on its own if the links in it are settled. -/
theorem apart_of_settles (h : settles a = true) (hb : (∃ z, a = z ++ ['>']) ∨ IsBlunt b) :
    Apart a b := by
  intro x y hxy hy
  have hsettles : settles y = true := settles_of_append (hxy ▸ h)
  have hb' : '>' ∈ y ∨ IsBlunt b := by
    refine hb.imp_left ?_
    rintro ⟨z, rfl⟩
    have hlast := congrArg List.getLast? hxy
    rw [List.getLast?_concat, List.getLast?_append_of_ne_nil x hy] at hlast
    exact List.mem_of_getLast? hlast.symm
  refine behindLink_append hy (fun ho => ?_) hb'
  obtain ⟨c, y, rfl⟩ := List.exists_cons_of_ne_nil hy
  rw [settles, Bool.and_eq_true, ho] at hsettles
  exact hsettles.1

/-- A text in which no link tag starts is stripped on its own if no letter of a link tag follows. -/
theorem apart_of_isLinkless (h : IsLinkless a)
    (hd : ∀ c ∈ "link".toList, Text.sameLetter c d = false) (r : Text) :
    Apart a (d :: r) := by
  intro x y hxy hy
  have ho := isLinkless_iff.1 h x y hxy
  rw [behindLink_of_not_opens ho,
    behindLink_of_not_opens (by rw [startsWithLetters_opening_append hd hy, ho])]
  rfl

theorem settles_of_isLinkless (h : IsLinkless t) : settles t = true := by
  induction t with
  | nil => rfl
  | cons c t ih =>
    rw [isLinkless_iff] at h
    rw [settles, h [] (c :: t) rfl, Bool.not_false, Bool.true_or, Bool.true_and]
    exact ih (isLinkless_iff.2 fun x y hxy => h (c :: x) y (by rw [hxy]; rfl))

/-- A character in front of the letters stands in what starts like a text that it stands in. -/
theorem mem_of_startsWithLetters {n : Text} (hd : 0 < d.toNat ∧ d.toNat < 65) (hn : d ∈ n)
    (h : Text.startsWithLetters n s = true) : d ∈ s := by
  induction n generalizing s with
  | nil => cases hn
  | cons c n ih =>
    cases s with
    | nil => cases h
    | cons e s =>
      simp only [Text.startsWithLetters, Bool.and_eq_true] at h
      rcases List.mem_cons.1 hn with rfl | hn
      · rw [eq_of_sameLetter hd h.1]
        exact List.mem_cons_self ..
      · exact List.mem_cons_of_mem _ (ih hn h.2)

/-- A tag in which there is no equals sign is one without a reference. -/
theorem isBlunt_of_not_mem {x : Text} (h : '=' ∉ x) (rest : Text) :
    IsBlunt ('<' :: x ++ '>' :: rest) := by
  refine ⟨x ++ '>' :: rest, rfl, ?_⟩
  have hall : '=' ∉ '<' :: x := by simpa using h
  generalize '<' :: x = y at hall
  induction y with
  | nil => rfl
  | cons c y ih =>
    have hstarts : Text.startsWithLetters reference (c :: y) = false :=
      Bool.eq_false_iff.2 fun hr => hall (mem_of_startsWithLetters (by decide) (by decide) hr)
    have hnone : behindReference (c :: y ++ '>' :: rest) = none := by
      rw [behindReference, startsWithLetters_append_of_ne (sameLetter_of_all (by decide)), hstarts,
        if_neg (by simp)]
    rw [List.cons_append, behindAttributes, ← List.cons_append, hnone,
      ih fun hm => hall (List.mem_cons_of_mem _ hm)]
    split <;> rfl

end SlideDeck.Markup.Stylesheet
