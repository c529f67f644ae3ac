import SlideDeck.Expression.Syntax

/-!
# Searching for expressions

`run` tries an expression at a place of a text, and goes on at the places where it may end, the
preferred first, until what is to come succeeds. A repetition that takes nothing is not tried again.

`found` lists the places where an expression is met in a text, from a place on, that do not overlap.
-/

namespace SlideDeck.Expression

/-- A place in a text, with the groups on the way to it: where a group starts and what stands from
there on, and where it ends; the latest first. -/
structure Place where
  position : Nat
  rest : Text
  opened : List (Nat × Nat × Text)
  closed : List (Nat × Nat)
  deriving DecidableEq, Repr

namespace Place

/-- The text of a group, if there is one. -/
def group? (p : Place) (number : Nat) : Option Text := do
  let (start, rest) ← p.opened.lookup number
  let stop ← p.closed.lookup number
  if stop < start then none else some (rest.take (stop - start))

/-- The place behind a character that passes a test. -/
def next? (p : Place) (test : Char → Bool) : Option Place :=
  match p.rest with
  | c :: r => if test c then some { p with position := p.position + 1, rest := r } else none
  | [] => none

/-- A place with a group that starts there. -/
def openGroup (p : Place) (number : Nat) : Place :=
  { p with opened := (number, p.position, p.rest) :: p.opened }

/-- A place with a group that ends there. -/
def closeGroup (p : Place) (number : Nat) : Place :=
  { p with closed := (number, p.position) :: p.closed }

end Place

/-- Whether a place of the text `whole` is such an anchor. -/
def Anchor.isAt (whole : Text) (m : Mode) (p : Place) : Anchor → Bool
  | .boundary =>
    let left := if p.position = 0 then none else whole[p.position - 1]?
    left.any (CharKind.word.has m.ascii) != p.rest.head?.any (CharKind.word.has m.ascii)
  | .start => p.position = 0 || m.lines && whole[p.position - 1]? == some '\n'
  | .stop => p.rest = [] || p.rest = ['\n'] || m.lines && p.rest.head? == some '\n'

/-- Whether two characters are the same where a text is to stand once more. -/
def Mode.isSame (m : Mode) (c d : Char) : Bool :=
  if !m.anyCase then c == d
  else if m.ascii then asciiLower c.toNat == asciiLower d.toNat
  else Text.lowerChar c == Text.lowerChar d

/-- The place behind a text. -/
def Place.behind? (p : Place) (m : Mode) : Text → Option Place
  | [] => some p
  | c :: s => (p.next? (m.isSame c)).bind fun q => q.behind? m s

/-- What comes next at a place. -/
abbrev Next : Type := Place → Option Place

/-- Tries a part so many times. -/
def exactly (part : Place → Next → Option Place) : Nat → Place → Next → Option Place
  | 0, p, next => next p
  | n + 1, p, next => part p fun q => exactly part n q next

/-- Tries a part as often as possible. -/
def asOften (part : Place → Next → Option Place) (next : Next) (most : Option Nat) (p : Place) :
    Option Place :=
  if most = some 0 then next p
  else
    (part p fun q =>
      if q.rest.length < p.rest.length then asOften part next (most.map (· - 1)) q else next q) <|>
        next p
termination_by p.rest.length

/-- Tries a part as rarely as possible. -/
def asRarely (part : Place → Next → Option Place) (next : Next) (most : Option Nat) (p : Place) :
    Option Place :=
  next p <|>
    if most = some 0 then none
    else part p fun q =>
      if q.rest.length < p.rest.length then asRarely part next (most.map (· - 1)) q else next q
termination_by p.rest.length

/-- The place behind a part that is taken as often as possible, each time as it is preferred. -/
def firmly (part : Place → Next → Option Place) (most : Option Nat) (p : Place) : Place :=
  if most = some 0 then p
  else match part p some with
    | none => p
    | some q => if q.rest.length < p.rest.length then firmly part (most.map (· - 1)) q else q
termination_by p.rest.length

/-- Tries an expression at a place of the text `whole`, and then what comes next. -/
def run (whole : Text) : Expression → Place → Next → Option Place
  | nothing, p, next => next p
  | char m negated members, p, next =>
      (p.next? fun c => members.any (·.isMet m c) != negated).bind next
  | any m, p, next => (p.next? fun c => m.dotAll || c != '\n').bind next
  | anchor m a, p, next => if a.isAt whole m p then next p else none
  | seq e f, p, next => run whole e p fun q => run whole f q next
  | either e f, p, next => run whole e p next <|> run whole f p next
  | group n e, p, next => run whole e (p.openGroup n) fun q => next (q.closeGroup n)
  | times greed least most e, p, next =>
    let more := most.map (· - least)
    match greed with
    | .most => exactly (run whole e) least p fun q => asOften (run whole e) next more q
    | .least => exactly (run whole e) least p fun q => asRarely (run whole e) next more q
    | .firm =>
      (exactly (fun p next => (run whole e p some).bind next) least p some).bind fun q =>
        next (firmly (run whole e) more q)
  | look behind negated e, p, next =>
    let width := if behind then e.width.1 else 0
    let seen : Option Place :=
      if p.position < width then none
      else run whole e
        { p with position := p.position - width, rest := whole.drop (p.position - width) } some
    match seen, negated with
    | some q, false => next { p with opened := q.opened, closed := q.closed }
    | none, true => next p
    | _, _ => none
  | again m n _, p, next => ((p.group? n).bind fun s => p.behind? m s).bind next
  | given n yes no, p, next =>
      if (p.group? n).isSome then run whole yes p next else run whole no p next

section

variable (whole : Text) (p : Place) (next : Next) (e f : Expression)

theorem run_char (m : Mode) (negated : Bool) (members : List Member) :
    run whole (.char m negated members) p next =
      (p.next? fun c => members.any (·.isMet m c) != negated).bind next := rfl

theorem run_anchor (m : Mode) (a : Anchor) :
    run whole (.anchor m a) p next = if a.isAt whole m p then next p else none := rfl

theorem run_seq : run whole (.seq e f) p next = run whole e p fun q => run whole f q next := rfl

theorem run_either : run whole (.either e f) p next = (run whole e p next <|> run whole f p next) :=
  rfl

end

/-- Where an expression that is met at a place ends; `further` if it may not end where it starts. -/
def endAt? (e : Expression) (whole : Text) (further : Bool) (position : Nat) (rest : Text) :
    Option Place :=
  e.run whole ⟨position, rest, [], []⟩ fun q => if further && q.position == position then none
    else some q

/-- The ends of what is met at a place: where nothing is taken, something may be taken after
that. -/
def endsAt (e : Expression) (whole : Text) (position : Nat) (rest : Text) : List Place :=
  match e.endAt? whole false position rest with
  | none => []
  | some q => if q.position = position then q :: (e.endAt? whole true position rest).toList else [q]

/-- What is met in a text from a place on: where it starts, and the place where it ends. The next
`skip` characters have been taken. -/
def foundFrom (e : Expression) (whole : Text) : Nat → Nat → Text → List (Nat × Place)
  | position, 0, [] => (e.endsAt whole position []).map (position, ·)
  | _, _ + 1, [] => []
  | position, skip + 1, _ :: r => foundFrom e whole (position + 1) skip r
  | position, 0, c :: r =>
    let ends := e.endsAt whole position (c :: r)
    let length := (ends.getLast?.map (·.position - position)).getD 0
    ends.map (position, ·) ++ foundFrom e whole (position + 1) (length - 1) r

/-- What is met in a text from a place on. -/
def found (e : Expression) (whole : Text) (start : Nat) : List (Nat × Place) :=
  e.foundFrom whole start 0 (whole.drop start)

end SlideDeck.Expression
