import SlideDeck.Proofs.Expression.Plain
import SlideDeck.Proofs.Markup.Located
import SlideDeck.Proofs.Markup.Name
import SlideDeck.Proofs.Markup.Span
import SlideDeck.Proofs.Markup.Tag

/-!
# The tags of a plain name

What the expression for a plain name is met by is what `Tag.all` lists, so that the tags of any name
are those that its expression is met by (`Markup.tagsIn_eq`).
-/

namespace SlideDeck.Expression

open Markup (isPlainName skipTagRest upTo)

variable (whole : Text) {p : Place} {next : Next} {c d : Char} {name r s : Text}

/-! ## Places -/

/-- The place where a rest starts. -/
def Place.to (p : Place) (rest : Text) : Place :=
  { p with position := p.position + (p.rest.length - rest.length), rest }

theorem Place.to_to (hr : r.length ≤ p.rest.length) (hs : s.length ≤ r.length) :
    (p.to r).to s = p.to s := by
  rw [Place.to, Place.to, Place.to, Place.mk.injEq]
  exact ⟨by dsimp only; omega, rfl, rfl, rfl⟩

theorem Place.to_rest (p : Place) : p.to p.rest = p := by
  rw [Place.to, Nat.sub_self, Nat.add_zero]

theorem Place.next?_cons (test : Char → Bool) (h : p.rest = d :: r) :
    p.next? test = if test d then some (p.to r) else none := by
  rw [Place.next?, Place.to, h, List.length_cons, Nat.add_sub_cancel_left]

theorem Place.next?_nil (test : Char → Bool) (h : p.rest = []) : p.next? test = none := by
  rw [Place.next?, h]

/-! ## Characters -/

theorem isChar_fresh (c d : Char) : Mode.fresh.isChar c.toNat d = Text.sameLetter c d := by
  show (c.toNat.isValidChar && Text.sameLetter (Char.ofNat c.toNat) d) = _
  rw [Char.ofNat_toNat, decide_eq_true (show c.toNat.isValidChar from c.valid), Bool.true_and]

theorem run_one (c : Char) (p : Place) (next : Next) :
    run whole (one c) p next = (p.next? (Text.sameLetter c)).bind next := by
  have htest : (fun d => [Member.char c.toNat].any (·.isMet .fresh d) != false) =
      Text.sameLetter c := by
    funext d
    rw [List.any_cons, List.any_nil, Bool.or_false, Bool.bne_false]
    exact isChar_fresh c d
  rw [one, run_char, htest]

/-- A sign is like no other character. -/
theorem sameLetter_sign (hc : 0 < c.toNat ∧ c.toNat < 65) (d : Char) :
    Text.sameLetter c d = decide (d = c) := by
  rw [Bool.eq_iff_iff, decide_eq_true_eq]
  exact ⟨Markup.eq_of_sameLetter hc, fun h => h ▸ Markup.sameLetter_self c⟩

theorem run_sign (hc : 0 < c.toNat ∧ c.toNat < 65) (p : Place) (next : Next) :
    run whole (one c) p next = (p.next? fun d => decide (d = c)).bind next := by
  rw [run_one, show Text.sameLetter c = fun d => decide (d = c) from funext (sameLetter_sign hc)]

/-- The letters of a name are met one by one. -/
theorem run_name (name : Text) (e : Expression) (p : Place) :
    run whole (name.foldr (fun c e => .seq (one c) e) e) p next =
      if Text.startsWithLetters name p.rest then
        run whole e (p.to (p.rest.drop name.length)) next else none := by
  induction name generalizing p with
  | nil => rw [List.foldr_nil, Text.startsWithLetters, if_pos rfl, List.length_nil, List.drop_zero,
      Place.to_rest]
  | cons c name ih =>
    rw [List.foldr_cons, run_seq, run_one]
    cases h : p.rest with
    | nil => rw [Place.next?_nil _ h]; rfl
    | cons d r =>
      rw [Place.next?_cons _ h, Text.startsWithLetters]
      cases hc : Text.sameLetter c d with
      | false => rfl
      | true =>
        rw [if_pos rfl, Option.bind_some, ih, Bool.true_and]
        have hrest : (p.to r).rest = r := rfl
        rw [hrest, List.length_cons, List.drop_succ_cons,
          Place.to_to (by rw [h]; exact Nat.le_succ _)
            (by rw [List.length_drop]; exact Nat.sub_le ..)]

/-! ## The rest of a tag -/

theorem asOften_eq (part : Place → Next → Option Place) (next : Next) (most : Option Nat)
    (p : Place) :
    asOften part next most p =
      if most = some 0 then next p
      else (part p fun q =>
        if q.rest.length < p.rest.length then asOften part next (most.map (· - 1)) q
          else next q) <|> next p := by
  rw [asOften]

/-- A part that is met as often as possible takes a character more, or what comes next is tried. -/
theorem asOften_cons {part : Place → Next → Option Place} (h : p.rest = d :: r)
    (hpart : ∀ next, part p next = next (p.to s)) (hs : s.length ≤ r.length)
    (hnext : next p = none) :
    asOften part next none p = asOften part next none (p.to s) := by
  have hlt : (p.to s).rest.length < p.rest.length := by
    rw [h]
    exact Nat.lt_succ_of_le hs
  rw [asOften_eq, if_neg (by simp), hpart, if_pos hlt, hnext]
  show (asOften part next none (p.to s) <|> none) = _
  cases asOften part next none (p.to s) <;> rfl

theorem asOften_of_none {part : Place → Next → Option Place} (hpart : ∀ next, part p next = none) :
    asOften part next none p = next p := by
  rw [asOften_eq, if_neg (by simp), hpart]
  rfl

/-- A character that is none of some signs. -/
theorem next?_others {signs : List Char} (hsigns : ∀ c ∈ signs, 0 < c.toNat ∧ c.toNat < 65)
    (p : Place) (next : Next) :
    run whole (.char .fresh true (signs.map fun c => .char c.toNat)) p next =
      (p.next? fun d => decide (d ∉ signs)).bind next := by
  rw [run_char]
  congr 2
  funext d
  rw [List.any_map, Bool.bne_true, decide_not, Bool.not_inj_iff, Bool.eq_iff_iff, List.any_eq_true,
    decide_eq_true_eq]
  constructor
  · rintro ⟨c, hc, h⟩
    have h : Text.sameLetter c d = true := (isChar_fresh c d).symm.trans h
    rw [sameLetter_sign (hsigns c hc), decide_eq_true_eq] at h
    exact h ▸ hc
  · intro h
    exact ⟨d, h, (isChar_fresh d d).trans (Markup.sameLetter_self d)⟩

/-- The value between two marks goes up to the second. -/
theorem run_value {mark : Char} (hmark : 0 < mark.toNat ∧ mark.toNat < 65) (p : Place)
    (next : Next) :
    asOften (run whole (.char .fresh true [.char mark.toNat]))
      (fun q => run whole (.seq (one mark) .nothing) q next) none p =
      (upTo mark p.rest).bind fun x => next (p.to x.2) := by
  have hnext (q : Place) :
      run whole (.seq (one mark) .nothing) q next =
        (q.next? fun d => decide (d = mark)).bind next := by
    show run whole (one mark) q next = _
    exact run_sign whole hmark q next
  have hpart (q : Place) (next : Next) : run whole (.char .fresh true [.char mark.toNat]) q next =
      (q.next? fun d => decide (d ∉ [mark])).bind next := by
    have hsigns : ∀ c ∈ [mark], 0 < c.toNat ∧ c.toNat < 65 := by simpa using hmark
    exact next?_others whole hsigns q next
  generalize hs : p.rest = s
  induction s generalizing p with
  | nil =>
    rw [asOften_of_none fun next => by rw [hpart, Place.next?_nil _ hs]; rfl, hnext,
      Place.next?_nil _ hs]
    rfl
  | cons d r ih =>
    by_cases hd : d = mark
    · rw [asOften_of_none fun next => by rw [hpart, Place.next?_cons _ hs]; simp [hd], hnext,
        Place.next?_cons _ hs, upTo, if_pos hd, if_pos (decide_eq_true hd)]
      rfl
    · rw [asOften_cons hs (s := r) (fun next => by rw [hpart, Place.next?_cons _ hs]; simp [hd])
        (Nat.le_refl _)
        (by rw [hnext, Place.next?_cons _ hs]; simp [hd]), ih (p.to r) rfl, upTo, if_neg hd]
      cases h : upTo mark r with
      | none => rfl
      | some x =>
        rw [Option.bind_some, Option.map_some, Option.bind_some,
          Place.to_to (by rw [hs]; exact Nat.le_succ _) (Markup.suffix_of_upTo h).length_le]

theorem run_quoted {mark : Char} (hmark : 0 < mark.toNat ∧ mark.toNat < 65) (h : p.rest = d :: r)
    (next : Next) :
    run whole (quoted mark) p next =
      if d = mark then (upTo mark r).bind fun x => next (p.to x.2) else none := by
  rw [quoted, run_seq, run_sign whole hmark, Place.next?_cons _ h]
  by_cases hd : d = mark
  · rw [if_pos (decide_eq_true hd), if_pos hd, Option.bind_some]
    refine (run_value whole hmark (p.to r) next).trans ?_
    cases hup : upTo mark r with
    | none => show (upTo mark r).bind _ = _; rw [hup]; rfl
    | some x =>
      show (upTo mark r).bind _ = _
      rw [hup, Option.bind_some, Option.bind_some,
        Place.to_to (by rw [h]; exact Nat.le_succ _) (Markup.suffix_of_upTo hup).length_le]
  · rw [if_neg (by simpa using hd), if_neg hd]
    rfl

theorem run_quoted_nil {mark : Char} (hmark : 0 < mark.toNat ∧ mark.toNat < 65) (h : p.rest = [])
    (next : Next) :
    run whole (quoted mark) p next = none := by
  rw [quoted, run_seq, run_sign whole hmark, Place.next?_nil _ h]
  rfl

/-- Behind a mark, the rest of a tag goes on where the mark stands again. -/
theorem skipTagRest_some (mark : Char) (s : Text) :
    skipTagRest (some mark) s = (upTo mark s).bind fun x => skipTagRest none x.2 := by
  induction s with
  | nil => rfl
  | cons c s ih =>
    rw [skipTagRest, upTo]
    by_cases hc : c = mark
    · rw [if_pos hc, if_pos hc]
      rfl
    · rw [if_neg hc, if_neg hc, ih]
      cases upTo mark s <;> rfl

section Pieces

theorem run_tagPiece (p : Place) (next : Next) : run whole tagPiece p next =
    (run whole (quoted '"') p next <|> run whole (quoted '\'') p next <|>
      (p.next? fun d => decide (d ∉ ['\'', '"', '>'])).bind next) := by
  have hsigns : ∀ c ∈ ['\'', '"', '>'], 0 < c.toNat ∧ c.toNat < 65 := by simp
  have houtside : run whole (.seq outside .nothing) p next = _ := next?_others whole hsigns p next
  rw [tagPiece, run_either, run_either, houtside]

theorem run_tagPiece_nil (h : p.rest = []) : run whole tagPiece p next = none := by
  rw [run_tagPiece, run_quoted_nil whole (by simp) h, run_quoted_nil whole (by simp) h,
    Place.next?_nil _ h]
  rfl

theorem run_tagPiece_cons (h : p.rest = d :: r) : run whole tagPiece p next =
    ((if d = '"' then (upTo '"' r).bind fun x => next (p.to x.2) else none) <|>
      (if d = '\'' then (upTo '\'' r).bind fun x => next (p.to x.2) else none) <|>
        if d ∈ ['\'', '"', '>'] then none else next (p.to r)) := by
  rw [run_tagPiece, run_quoted whole (by simp) h, run_quoted whole (by simp) h,
    Place.next?_cons _ h]
  by_cases hd : d ∈ ['\'', '"', '>']
  · rw [if_pos hd, decide_eq_false (not_not_intro hd)]
    rfl
  · rw [if_neg hd, decide_eq_true hd]
    rfl

/-- The bracket is no piece of what stands in front of it. -/
theorem run_tagPiece_end (h : p.rest = '>' :: r) : run whole tagPiece p next = none := by
  rw [run_tagPiece_cons whole h]
  simp

theorem run_tagPiece_mark (hd : d = '"' ∨ d = '\'') (h : p.rest = d :: r) :
    run whole tagPiece p next = (upTo d r).bind fun x => next (p.to x.2) := by
  rw [run_tagPiece_cons whole h]
  rcases hd with rfl | rfl
  · cases upTo '"' r <;> simp
  · cases upTo '\'' r <;> simp

theorem run_tagPiece_other (hd : d ∉ ['\'', '"', '>']) (h : p.rest = d :: r) :
    run whole tagPiece p next = next (p.to r) := by
  simp only [List.mem_cons, List.not_mem_nil, or_false, not_or] at hd
  rw [run_tagPiece_cons whole h]
  simp [hd]

/-- The pieces at a place, the bracket behind them, and what comes next. -/
def pieces (next : Next) : Place → Option Place :=
  asOften (run whole tagPiece) (fun q => run whole (.seq (one '>') .nothing) q next) none

theorem run_bracket_cons (h : p.rest = d :: r) : run whole (.seq (one '>') .nothing) p next =
    if d = '>' then next (p.to r) else none := by
  show run whole (one '>') p next = _
  rw [run_sign whole (by simp), Place.next?_cons _ h]
  by_cases hd : d = '>' <;> simp [hd]

theorem pieces_nil (h : p.rest = []) : pieces whole next p = none := by
  rw [pieces, asOften_of_none fun _ => run_tagPiece_nil whole h]
  show run whole (one '>') p next = _
  rw [run_sign whole (by simp), Place.next?_nil _ h]
  rfl

theorem pieces_end (h : p.rest = '>' :: r) : pieces whole next p = next (p.to r) := by
  rw [pieces, asOften_of_none fun _ => run_tagPiece_end whole h, run_bracket_cons whole h,
    if_pos rfl]

theorem pieces_of_none (h : p.rest = d :: r) (hd : d ≠ '>')
    (hpiece : ∀ next, run whole tagPiece p next = none) : pieces whole next p = none := by
  rw [pieces, asOften_of_none hpiece, run_bracket_cons whole h, if_neg hd]

theorem pieces_more (h : p.rest = d :: r) (hd : d ≠ '>')
    (hpiece : ∀ next, run whole tagPiece p next = next (p.to s)) (hs : s.length ≤ r.length) :
    pieces whole next p = pieces whole next (p.to s) :=
  asOften_cons h hpiece hs (by rw [run_bracket_cons whole h, if_neg hd])

/-- The pieces go up to the bracket that ends the tag. The induction is on the length of the rest,
since a quoted value is taken as a whole. -/
theorem pieces_eq (next : Next) (p : Place) :
    pieces whole next p = (skipTagRest none p.rest).bind fun rest => next (p.to rest) := by
  induction hn : p.rest.length using Nat.strong_induction_on generalizing p with
  | _ n ih =>
    subst hn
    cases hrest : p.rest with
    | nil =>
      rw [pieces_nil whole hrest]
      rfl
    | cons d r =>
      have later {s : Text} (hle : s.length ≤ r.length) : pieces whole next (p.to s) =
          (skipTagRest none s).bind fun rest => next (p.to rest) := by
        refine (ih s.length (by rw [hrest]; exact Nat.lt_succ_of_le hle) (p.to s) rfl).trans ?_
        show (skipTagRest none s).bind _ = _
        cases hs : skipTagRest none s with
        | none => rfl
        | some rest =>
          rw [Option.bind_some, Option.bind_some,
            Place.to_to (by rw [hrest]; exact Nat.le_succ_of_le hle)
              (Markup.length_le_of_skipTagRest hs)]
      rw [skipTagRest]
      by_cases hgt : d = '>'
      · subst hgt
        rw [if_pos rfl, pieces_end whole hrest]
        rfl
      rw [if_neg hgt]
      by_cases hmark : d = '"' ∨ d = '\''
      · rw [if_pos hmark, skipTagRest_some]
        have hpiece (next : Next) : run whole tagPiece p next = _ :=
          run_tagPiece_mark whole hmark hrest
        cases hup : upTo d r with
        | none => exact pieces_of_none whole hrest hgt fun next => by rw [hpiece, hup]; rfl
        | some x =>
          have hle := (Markup.suffix_of_upTo hup).length_le
          rw [pieces_more whole hrest hgt (fun next => by rw [hpiece, hup]; rfl) hle, later hle]
          rfl
      · have hother : d ∉ ['\'', '"', '>'] := by simpa [hgt, or_comm] using hmark
        rw [if_neg hmark, pieces_more whole hrest hgt
          (fun _ => run_tagPiece_other whole hother hrest) (Nat.le_refl _), later (Nat.le_refl _)]

/-- What stands in a tag is taken up to the bracket that ends it. -/
theorem run_inTag (p : Place) (next : Next) :
    run whole (.seq inTag (.seq (one '>') .nothing)) p next =
      (skipTagRest none p.rest).bind fun rest => next (p.to rest) := pieces_eq whole next p

end Pieces

/-! ## Tags -/

/-- The character before a place in a text, if a part of the text stands behind another place. -/
theorem getLast?_take_add {position n : Nat} (h : s = whole.drop position) :
    (whole.take (position + n)).getLast? =
      (s.take n).getLast?.or (whole.take position).getLast? := by
  rw [List.take_add, List.getLast?_append, h]

theorem boundary_isAt (hle : p.position ≤ whole.length) :
    Anchor.isAt whole .fresh p .boundary =
      Text.boundary (whole.take p.position).getLast? p.rest.head? := by
  have hleft : (if p.position = 0 then none else whole[p.position - 1]?) =
      (whole.take p.position).getLast? := by
    rw [List.getLast?_take]
    split
    · rfl
    · rw [List.getElem?_eq_getElem (by omega)]
      rfl
  rw [← hleft]
  rfl

/-- The name of a tag and its rest are met where they stand behind a sign. -/
theorem run_named (hin : p.rest = whole.drop p.position) (hle : p.position ≤ whole.length)
    (hsign : (whole.take p.position).getLast?.any Text.isWord = false) :
    run whole (name.foldr (fun c e => .seq (one c) e) tagRest) p next =
      (Markup.Tag.skipNamed name p.rest).bind fun rest => next (p.to rest) := by
  rw [run_name, Markup.Tag.skipNamed]
  cases hs : Text.startsWithLetters name p.rest with
  | false => rfl
  | true =>
    have hn := Markup.length_le_of_startsWithLetters hs
    have hposition : (p.to (p.rest.drop name.length)).position = p.position + name.length := by
      rw [Place.to, List.length_drop]
      dsimp only
      omega
    have hlength : p.position + name.length ≤ whole.length := by
      have := congrArg List.length hin
      rw [List.length_drop] at this
      omega
    have hboundary : Anchor.isAt whole .fresh (p.to (p.rest.drop name.length)) .boundary =
        Text.boundary (p.rest.take name.length).getLast? (p.rest.drop name.length).head? := by
      rw [boundary_isAt whole (hposition ▸ hlength), hposition, getLast?_take_add whole hin,
        Text.boundary, Text.boundary]
      congr 1
      cases (p.rest.take name.length).getLast? with
      | none => exact hsign
      | some c => rfl
    rw [if_pos rfl, Bool.true_and, tagRest, run_seq, run_anchor, hboundary]
    split
    · rw [run_inTag]
      show (skipTagRest none (p.rest.drop name.length)).bind _ = _
      cases hrest : skipTagRest none (p.rest.drop name.length) with
      | none => rfl
      | some rest =>
        rw [Option.bind_some, Option.bind_some,
          Place.to_to (by rw [List.length_drop]; exact Nat.sub_le ..)
            (Markup.length_le_of_skipTagRest hrest)]
    · rfl

/-- The place behind a slash that is taken as the first group. -/
def Place.behindSlash (p : Place) (r : Text) : Place := ((p.openGroup 1).to r).closeGroup 1

/-- The place behind a first group that takes nothing. -/
def Place.withoutSlash (p : Place) : Place := (p.openGroup 1).closeGroup 1

/-- A slash is taken if there is one, and then none if what comes next fails behind it. -/
theorem run_slash_cons (h : p.rest = '/' :: r) :
    run whole slash p next = (next (p.behindSlash r) <|> next p.withoutSlash) := by
  have hsome : ((p.openGroup 1).next? fun d => decide (d = '/')) = some ((p.openGroup 1).to r) := by
    rw [Place.next?_cons (p := p.openGroup 1) _ h]
    rfl
  show asOften (run whole (one '/')) (fun q => next (q.closeGroup 1)) (some 1) (p.openGroup 1) = _
  rw [asOften_eq, if_neg (by simp), run_sign whole (by simp), hsome, Option.bind_some]
  have honce (q : Place) :
      asOften (run whole (one '/')) (fun q => next (q.closeGroup 1)) (some 0) q =
        next (q.closeGroup 1) := by
    rw [asOften_eq, if_pos rfl]
  rw [show Option.map (· - 1) (some 1) = some 0 from rfl, honce, ite_self]
  rfl

theorem run_slash_of_ne (h : p.rest.head? ≠ some '/') :
    run whole slash p next = next p.withoutSlash := by
  have hnone : ((p.openGroup 1).next? fun d => decide (d = '/')) = none := by
    cases hr : p.rest with
    | nil => exact Place.next?_nil _ hr
    | cons d r =>
      rw [Place.next?_cons (p := p.openGroup 1) _ hr, if_neg]
      rw [hr] at h
      simpa using h
  show asOften (run whole (one '/')) (fun q => next (q.closeGroup 1)) (some 1) (p.openGroup 1) = _
  rw [asOften_eq, if_neg (by simp), run_sign whole (by simp), hnone]
  rfl

section At

variable {pos : Nat} {further : Bool}

/-- Where the name stands behind a sign, a tag is met up to its bracket. -/
theorem run_named_end (name before : Text) (further : Bool)
    (hdrop : whole.drop pos = before ++ c :: s) (hc : Text.isWord c = false)
    (hposition : p.position = pos + (before.length + 1)) (hrest : p.rest = s) :
    (run whole (name.foldr (fun c e => .seq (one c) e) tagRest) p fun q =>
        if further && q.position == pos then none else some q) =
      (Markup.Tag.skipNamed name s).map p.to := by
  have hlength := congrArg List.length hdrop
  rw [List.length_drop, List.length_append, List.length_cons] at hlength
  have hin : p.rest = whole.drop p.position := by
    rw [hrest, hposition, ← List.drop_drop, hdrop, List.append_cons, List.drop_left' (by simp)]
  have hsign : (whole.take p.position).getLast?.any Text.isWord = false := by
    rw [hposition, getLast?_take_add whole rfl, hdrop, List.append_cons, List.take_left' (by simp),
      List.getLast?_concat]
    exact hc
  rw [run_named whole hin (by omega) hsign, hrest]
  cases Markup.Tag.skipNamed name s with
  | none => rfl
  | some rest =>
    have hne : (p.to rest).position ≠ pos := by
      rw [Place.to, hposition]
      dsimp only
      omega
    rw [Option.bind_some, Option.map_some, beq_eq_false_iff_ne.2 hne, Bool.and_false]
    rfl

theorem group?_behindSlash (p : Place) (h : p.rest = '/' :: r) (rest : Text) :
    ((p.behindSlash r).to rest).group? 1 = some ['/'] := by
  have hstop : p.position + (p.rest.length - r.length) = p.position + 1 := by
    rw [h, List.length_cons, Nat.add_sub_cancel_left]
  show (if p.position + (p.rest.length - r.length) < p.position then none
    else some (p.rest.take (p.position + (p.rest.length - r.length) - p.position))) = _
  rw [hstop, if_neg (by omega), Nat.add_sub_cancel_left, h]
  rfl

theorem group?_withoutSlash (p : Place) (rest : Text) :
    (p.withoutSlash.to rest).group? 1 = some [] := by
  show (if p.position < p.position then none else some (p.rest.take (p.position - p.position))) = _
  rw [if_neg (Nat.lt_irrefl _), Nat.sub_self, List.take_zero]

theorem skipNamed_length {rest : Text} (h : Markup.Tag.skipNamed name s = some rest) :
    rest.length ≤ s.length := by
  rw [Markup.Tag.skipNamed, Option.ite_none_right_eq_some] at h
  have := Markup.length_le_of_skipTagRest h.2
  rw [List.length_drop] at this
  omega

/-- The place behind the bracket that a tag starts with. -/
def Place.inside (pos : Nat) (r : Text) : Place := (⟨pos, '<' :: r, [], []⟩ : Place).to r

theorem Place.position_inside (pos : Nat) (r : Text) : (inside pos r).position = pos + 1 := by
  show pos + (('<' :: r).length - r.length) = pos + 1
  rw [List.length_cons, Nat.add_sub_cancel_left]

theorem Place.position_behindSlash (pos : Nat) (q : Text) :
    ((inside pos ('/' :: q)).behindSlash q).position = pos + 2 := by
  show (inside pos ('/' :: q)).position + (('/' :: q).length - q.length) = pos + 2
  rw [position_inside, List.length_cons, Nat.add_sub_cancel_left]

/-- What is met without a slash is found as a start tag. -/
theorem ofFound_start {rest : Text} (hs : whole.drop pos = '<' :: r)
    (h : Markup.Tag.skipNamed name r = some rest) :
    Markup.Tag.ofFound whole pos (pos, (Place.inside pos r).withoutSlash.to rest) =
      ⟨0, ('<' :: r).length - rest.length,
        if ['/', '>'] <:+ ('<' :: r).take (('<' :: r).length - rest.length) then .both
        else .opens⟩ := by
  have hlength : ((Place.inside pos r).withoutSlash.to rest).position - pos =
      ('<' :: r).length - rest.length := by
    show (Place.inside pos r).position + (r.length - rest.length) - pos = _
    have := skipNamed_length h
    rw [Place.position_inside, List.length_cons]
    omega
  rw [Markup.Tag.ofFound, hlength, group?_withoutSlash, hs, Nat.sub_self]
  rfl

/-- What is met behind a slash is found as an end tag. -/
theorem ofFound_end {q rest : Text} (h : Markup.Tag.skipNamed name q = some rest) :
    Markup.Tag.ofFound whole pos (pos, ((Place.inside pos ('/' :: q)).behindSlash q).to rest) =
      ⟨0, ('<' :: '/' :: q).length - rest.length, .closes⟩ := by
  have hlength : (((Place.inside pos ('/' :: q)).behindSlash q).to rest).position - pos =
      ('<' :: '/' :: q).length - rest.length := by
    show ((Place.inside pos ('/' :: q)).behindSlash q).position + (q.length - rest.length) - pos = _
    have := skipNamed_length h
    rw [Place.position_behindSlash, List.length_cons, List.length_cons]
    omega
  rw [Markup.Tag.ofFound, hlength, group?_behindSlash _ rfl, Nat.sub_self]
  rfl

/-- What is met at a place is the tag there. -/
theorem endAt?_tagExpression (hs : whole.drop pos = s) :
    ((tagExpression name).endAt? whole further pos s).map
      (fun q => Markup.Tag.ofFound whole pos (pos, q)) =
      (Markup.Tag.at? name s).map fun x => ⟨0, x.2, x.1⟩ := by
  rw [endAt?, tagExpression, run_seq, run_sign whole (by simp)]
  cases s with
  | nil => rfl
  | cons c r =>
    by_cases hc : c = '<'
    · subst hc
      let p := Place.inside pos r
      have hstart := run_named_end whole (p := p.withoutSlash) name [] further hs rfl
        (Place.position_inside pos r) rfl
      have hnext : (⟨pos, '<' :: r, [], []⟩ : Place).next? (fun d => decide (d = '<')) = some p :=
        (Place.next?_cons _ rfl).trans (if_pos (decide_eq_true rfl))
      rw [hnext, Option.bind_some, run_seq]
      by_cases hslash : ∃ q, r = '/' :: q
      · obtain ⟨q, rfl⟩ := hslash
        rw [run_slash_cons whole rfl, hstart, run_named_end whole name ['<'] further hs rfl
          (Place.position_behindSlash pos q) rfl, Markup.Tag.at?]
        cases hend : Markup.Tag.skipNamed name q with
        | some rest => exact congrArg some (ofFound_end whole hend)
        | none =>
          show ((Markup.Tag.skipNamed name ('/' :: q)).map p.withoutSlash.to).map _ = _
          cases hskip : Markup.Tag.skipNamed name ('/' :: q) with
          | none => rfl
          | some rest => exact congrArg some (ofFound_start whole hs hskip)
      · have hhead : p.rest.head? ≠ some '/' := fun h => hslash (List.head?_eq_some_iff.1 h)
        rw [run_slash_of_ne whole hhead, hstart, Markup.Tag.at?]
        · cases hskip : Markup.Tag.skipNamed name r with
          | none => rfl
          | some rest => exact congrArg some (ofFound_start whole hs hskip)
        · exact fun q hq => hslash ⟨q, hq⟩
    · rw [Markup.Tag.at?_of_ne hc, Place.next?_cons _ rfl, if_neg (by simpa using hc)]
      rfl

end At

theorem length_pos_of_at? {role : Markup.TagRole} {length : Nat}
    (h : Markup.Tag.at? name s = some (role, length)) :
    0 < length := by
  unfold Markup.Tag.at? at h
  split at h
  · next r =>
    dsimp only at h
    split at h
    · next rest hend =>
      cases h
      split at hend
      · have := skipNamed_length hend
        simp only [List.length_cons]
        omega
      · cases hend
    · obtain ⟨rest, hskip, h⟩ := Option.bind_eq_some_iff.1 h
      cases h
      have := skipNamed_length hskip
      simp only [List.length_cons]
      omega
  · cases h

/-- Where there is no tag, nothing is met. -/
theorem endsAt_of_none {pos : Nat} (hs : whole.drop pos = s) (h : Markup.Tag.at? name s = none) :
    (tagExpression name).endsAt whole pos s = [] := by
  have hend : ((tagExpression name).endAt? whole false pos s).map _ = _ :=
    endAt?_tagExpression whole hs
  rw [h, Option.map_none, Option.map_eq_none_iff] at hend
  rw [endsAt, hend]

/-- Where there is a tag, it is met, and nothing else. -/
theorem endsAt_of_some {pos length : Nat} {role : Markup.TagRole} (hs : whole.drop pos = s)
    (h : Markup.Tag.at? name s = some (role, length)) :
    ∃ q, (tagExpression name).endsAt whole pos s = [q] ∧ q.position = pos + length ∧
      Markup.Tag.ofFound whole pos (pos, q) = ⟨0, length, role⟩ := by
  have hend : ((tagExpression name).endAt? whole false pos s).map _ = _ :=
    endAt?_tagExpression whole hs
  rw [h, Option.map_some, Option.map_eq_some_iff] at hend
  obtain ⟨q, hq, hfound⟩ := hend
  have hpos := length_pos_of_at? h
  have hlength : q.position - pos = length := congrArg Markup.Tag.length hfound
  rw [endsAt, hq]
  exact ⟨q, if_neg (by omega), by omega, hfound⟩

/-- What is met from a place on are the tags from there on. -/
theorem map_foundFrom (name : Text) (start : Nat) {position skip : Nat}
    (hs : whole.drop position = s) (hle : start ≤ position) :
    ((tagExpression name).foundFrom whole position skip s).map (Markup.Tag.ofFound whole start) =
      Markup.Tag.allFrom name (position - start) skip s := by
  induction s generalizing position skip with
  | nil =>
    cases skip with
    | succ skip => rfl
    | zero =>
      rw [foundFrom, endsAt_of_none whole hs rfl]
      rfl
  | cons c r ih =>
    have hr : whole.drop (position + 1) = r := by
      rw [← List.drop_drop, hs, List.drop_one, List.tail_cons]
    have ih {skip' : Nat} :
        ((tagExpression name).foundFrom whole (position + 1) skip' r).map
          (Markup.Tag.ofFound whole start) =
        Markup.Tag.allFrom name (position - start + 1) skip' r := by
      rw [ih hr (Nat.le_succ_of_le hle)]
      congr 1
      omega
    cases skip with
    | succ skip => rw [foundFrom, ih, Markup.Tag.allFrom]
    | zero =>
      rw [foundFrom, Markup.Tag.allFrom]
      cases hat : Markup.Tag.at? name (c :: r) with
      | none =>
        rw [endsAt_of_none whole hs hat]
        exact ih
      | some x =>
        obtain ⟨q, hq, hposition, hfound⟩ := endsAt_of_some whole hs hat
        have hlength : q.position - position = x.2 := by omega
        have htag : Markup.Tag.ofFound whole start (position, q) = ⟨position - start, x.2, x.1⟩ :=
          congrArg (fun t : Markup.Tag => { t with offset := position - start }) hfound
        rw [hq, List.map_append, ih]
        simp only [List.map_cons, List.map_nil, List.getLast?_singleton, Option.map_some,
          Option.getD_some, hlength, htag]
        rfl

end SlideDeck.Expression

namespace SlideDeck.Markup

/-- The tags of a name are those that the expression for the name is met by. -/
theorem tagsIn_eq {name html inside : Text} {e : Expression}
    (he : Expression.read (tagPattern name) = .ok e) (h : inside <:+ html) :
    tagsIn name html inside =
      .ok ((e.found html (html.length - inside.length)).map
        (Tag.ofFound html (html.length - inside.length))) := by
  rw [tagsIn]
  split
  · next hplain =>
    have hdrop : html.drop (html.length - inside.length) = inside :=
      (List.suffix_iff_eq_drop.1 h).symm
    obtain rfl : Expression.tagExpression name = e :=
      Except.ok.inj ((Expression.read_tagPattern hplain).symm.trans he)
    show _ = Except.ok (((Expression.tagExpression name).foundFrom html _ 0 (html.drop _)).map _)
    rw [hdrop, Expression.map_foundFrom html name _ hdrop (Nat.le_refl _), Nat.sub_self]
    rfl
  · rw [he]

end SlideDeck.Markup
