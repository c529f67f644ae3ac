import SlideDeck.Expression.Reader
import SlideDeck.Markup.Span

/-!
# The expression for a plain name

The expression for the tags of a plain name is always read (`read_tagPattern`): it is the one for
the letters of the name, one behind another, between the opening of a tag and its rest
(`tagExpression`).
-/

namespace SlideDeck.Expression

open Markup (isPlainName tagPattern)

variable {name s : Text} {c : Char} {r : Reader} {stop p : Nat}

/-- A character that stands for itself. -/
def one (c : Char) : Expression := .char .fresh false [.char c.toNat]

/-- A value between two marks. -/
def quoted (mark : Char) : Expression :=
  .seq (one mark)
    (.seq (.times .most 0 none (.char .fresh true [.char mark.toNat])) (.seq (one mark) .nothing))

/-- A character outside of quotes that does not end a tag. -/
def outside : Expression := .char .fresh true [.char '\''.toNat, .char '"'.toNat, .char '>'.toNat]

/-- A piece of what stands between the name of a tag and the bracket: a quoted value, or a character
outside of quotes. -/
def tagPiece : Expression := .either (quoted '"') (.either (quoted '\'') (.seq outside .nothing))

/-- What stands between the name of a tag and the bracket. -/
def inTag : Expression := .times .most 0 none tagPiece

/-- The slash of an end tag, if there is one. -/
def slash : Expression := .group 1 (.seq (.times .most 0 (some 1) (one '/')) .nothing)

/-- What stands behind the name of a tag. -/
def tagRest : Expression := .seq (.anchor .fresh .boundary) (.seq inTag (.seq (one '>') .nothing))

/-- The expression for the tags of a name whose characters stand for themselves. -/
def tagExpression (name : Text) : Expression :=
  .seq (one '<') (.seq slash (name.foldr (fun c e => .seq (one c) e) tagRest))

theorem tokens_cons (h : c ≠ '\\') (p : Nat) (s : Text) :
    tokens p (c :: s) = ⟨p, false, c⟩ :: tokens (p + 1) s := by
  rw [tokens.eq_def]
  split
  · next hnil => cases hnil
  · next hcons => exact absurd (List.cons.inj hcons).1 h
  · next hcons =>
    cases hcons
    rfl

namespace Reader

/-- A character that stands for itself is read as such. -/
theorem step_plain (hc : c ∉ signs) (hr : r.level.mode = .fresh) (rest : List Token) :
    r.step stop ⟨p, false, c⟩ rest = .ok (r.add (one c), 0) := by
  have his {d : Char} (hd : d ∈ signs) : Token.is d ⟨p, false, c⟩ = false := by
    rw [Token.is, Bool.not_false, Bool.true_and, beq_eq_false_iff_ne]
    rintro rfl
    exact hc hd
  have hspaced : r.level.mode.spaced = false := by rw [hr]; rfl
  rw [step]
  simp only [his (d := '|') (by decide), his (d := ')') (by decide), hspaced, Bool.false_and,
    Bool.false_eq_true, ite_false]
  split
  -- Each of the ten signs is one that stands for something else.
  iterate 10
    · exact absurd (by decide) hc
  · rw [hr]
    rfl

/-- The characters of a plain name are read one by one. -/
theorem readFrom_plain (hname : isPlainName name = true) (hr : r.level.mode = .fresh) :
    readFrom stop r 0 (tokens p (name ++ s)) =
      readFrom stop (name.foldl (fun r c => r.add (one c)) r) 0 (tokens (p + name.length) s) := by
  induction name generalizing r p with
  | nil => rfl
  | cons c name ih =>
    rw [isPlainName, List.all_cons, Bool.and_eq_true, decide_eq_true_eq] at hname
    have hc : c ≠ '\\' := fun h => hname.1 (h ▸ by decide)
    rw [List.cons_append, tokens_cons hc, readFrom, step_plain hname.1 hr, List.foldl_cons,
      List.length_cons, Nat.add_comm name.length, ← Nat.add_assoc]
    exact ih hname.2 hr

theorem foldl_add (name : Text) (r : Reader) : name.foldl (fun r c => r.add (one c)) r =
    { r with level :=
      { r.level with items := name.foldl (fun items c => ⟨one c, .free⟩ :: items) r.level.items }
        } := by
  induction name generalizing r with
  | nil => rfl
  | cons c name ih => exact ih _

/-- The opening of a tag is read. -/
theorem readFrom_opening (s : Text) :
    readFrom stop fresh 0 (tokens 0 ("<(/?)".toList ++ s)) =
      readFrom stop ⟨⟨.fresh, [], [⟨slash, .free⟩, ⟨one '<', .free⟩]⟩, [], [some (0, some 1)], [],
        none⟩ 0 (tokens 5 s) := rfl

/-- The rest of a tag is read. -/
theorem readFrom_rest (items : List Item) (widths : List (Option Width)) :
    readFrom stop ⟨⟨.fresh, [], items⟩, [], widths, [], none⟩ 0
        (tokens p "\\b(?:\"[^\"]*\"|'[^']*'|[^'\">])*>".toList) =
      .ok ⟨⟨.fresh, [], ⟨one '>', .free⟩ :: ⟨inTag, .repeated⟩ ::
        ⟨.anchor .fresh .boundary, .anchor⟩ :: items⟩, [], widths, [], none⟩ := rfl

end Reader

/-- The characters of a name come before what is read behind them. -/
theorem foldl_items (name : Text) (items : List Item) (e : Expression) :
    (name.foldl (fun items c => (⟨one c, .free⟩ : Item) :: items) items).foldl
      (fun e i => .seq i.part e) e =
      items.foldl (fun e i => .seq i.part e) (name.foldr (fun c e => .seq (one c) e) e) := by
  induction name generalizing items with
  | nil => rfl
  | cons c name ih => exact ih (⟨one c, .free⟩ :: items)

theorem lookFault?_foldr (name : Text) {e : Expression} (h : lookFault? e = none) :
    lookFault? (name.foldr (fun c e => .seq (one c) e) e) = none := by
  induction name with
  | nil => exact h
  | cons c name ih => exact ih

/-- The expression for the tags of a plain name is read. -/
theorem read_tagPattern (h : isPlainName name = true) :
    read (tagPattern name) = .ok (tagExpression name) := by
  let level : Level :=
    ⟨.fresh, [], ⟨one '>', .free⟩ :: ⟨inTag, .repeated⟩ :: ⟨.anchor .fresh .boundary, .anchor⟩ ::
    name.foldl (fun items c => ⟨one c, .free⟩ :: items) [⟨slash, .free⟩, ⟨one '<', .free⟩]⟩
  have hfrom : Reader.readFrom (tagPattern name).length .fresh 0 (tokens 0 (tagPattern name)) =
      .ok ⟨level, [], [some (0, some 1)], [], none⟩ := by
    have hpattern : tagPattern name =
        "<(/?)".toList ++ (name ++ "\\b(?:\"[^\"]*\"|'[^']*'|[^'\">])*>".toList) :=
      List.append_assoc ..
    rw [hpattern, Reader.readFrom_opening, Reader.readFrom_plain h rfl, Reader.foldl_add,
      Reader.readFrom_rest]
  have hlevel : level.expression = tagExpression name := foldl_items name _ tagRest
  have hlook : lookFault? (tagExpression name) = none := lookFault?_foldr name (e := tagRest) rfl
  rw [read, hfrom]
  simp only [bind, Except.bind, pure, Except.pure, List.reverse_nil, List.find?_nil, hlevel, hlook]

end SlideDeck.Expression

namespace SlideDeck.Markup

/-- The tags of a name cannot be listed exactly if its expression is not read. -/
theorem tagsIn_eq_error_iff {name html inside : Text} {f : Failure} :
    tagsIn name html inside = .error f ↔
      ∃ fault, Expression.read (tagPattern name) = .error fault ∧ f = .unsearchableName fault := by
  rw [tagsIn]
  split
  · next hplain => simp [Expression.read_tagPattern hplain]
  · cases Expression.read (tagPattern name) with
    | ok e => simp
    | error fault => simp [eq_comm]

end SlideDeck.Markup
