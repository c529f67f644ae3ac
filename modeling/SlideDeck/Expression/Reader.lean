import SlideDeck.Expression.Syntax
import SlideDeck.Text.Quoted

/-!
# Reading expressions

An expression is written as a text. Most characters stand for themselves, a backslash starts an
escape, and the rest of the signs are those of `Reader.step`. `read` makes an expression of a text,
or says what is wrong with it and where.

The reader goes through the text once. What it has read at a level of parentheses is kept in front,
the levels around it in a stack of frames; a closing parenthesis makes one item of a level and goes
back to the level around it. A step that reads more than one token says how many.

What is searched for here has no capitals of its own and no closing bracket in its parentheses, so
that names of groups, parts that are not given back, and the escapes that are capitals are not among
what is read.
-/

namespace SlideDeck.Expression

/-- What is wrong with the text of an expression. -/
inductive Fault where
  /-- It does not mean anything; the wording, and the place if there is one. -/
  | malformed (wording : Text) (position : Option Nat)
  /-- A number of times is too large. -/
  | tooManyTimes
  /-- A number of times has too many digits. -/
  | numeral (digits : Nat)
  deriving DecidableEq, Repr

/-- The fault of a text at a place. -/
def Fault.at (position : Nat) (wording : Text) : Fault := .malformed wording (some position)

/-- The signs that do not stand for themselves. -/
def signs : Text := "\\.^$*+?{}[]|()".toList

/-! ## Tokens -/

/-- A character of the text, with the backslash before it if there is one. -/
structure Token where
  position : Nat
  escaped : Bool
  char : Char
  deriving DecidableEq, Repr

/-- The tokens of a text that starts at a place. -/
def tokens : Nat → Text → List Token
  | _, [] => []
  | p, '\\' :: c :: r => ⟨p, true, c⟩ :: tokens (p + 2) r
  | p, c :: r => ⟨p, false, c⟩ :: tokens (p + 1) r

namespace Token

/-- Whether a token is a character without a backslash. -/
def is (c : Char) (t : Token) : Bool := !t.escaped && t.char == c

/-- Whether a token is a character of some sort, without a backslash. -/
def isIn (p : Char → Bool) (t : Token) : Bool := !t.escaped && p t.char

/-- The text of a token. -/
def text (t : Token) : Text := if t.escaped then ['\\', t.char] else [t.char]

end Token

/-- Where the next token starts, in a text that ends at `stop`. -/
def place (stop : Nat) (rest : List Token) : Nat := (rest.head?.map (·.position)).getD stop

/-- The text of some tokens. -/
def textOf (ts : List Token) : Text := ts.flatMap Token.text

/-- The characters of at most `n` tokens of some sort. -/
def charsOf (p : Char → Bool) (n : Nat) (ts : List Token) : Text :=
  ((ts.take n).takeWhile (·.isIn p)).map (·.char)

/-! ## Escapes -/

/-- The number of a run of digits to a base of at most sixteen. -/
def numberIn (base : Nat) (digits : Text) : Nat :=
  digits.foldl (fun n c => base * n + if c.isDigit then c.toNat - '0'.toNat
    else c.toLower.toNat - 'a'.toNat + 10) 0

def isOctal (c : Char) : Bool := '0' ≤ c && c ≤ '7'

def isHex (c : Char) : Bool := c.isDigit || ('a' ≤ c && c ≤ 'f') || ('A' ≤ c && c ≤ 'F')

/-- The code point of the control that a letter behind a backslash stands for. -/
def control? : Char → Option Nat
  | 'a' => some 7
  | 'f' => some 12
  | 'n' => some 10
  | 'r' => some 13
  | 't' => some 9
  | 'v' => some 11
  | '\\' => some 0x5c
  | _ => none

/-- The kind that a letter behind a backslash stands for. -/
def kind? : Char → Option CharKind
  | 'd' => some .digit
  | 's' => some .blank
  | 'w' => some .word
  | _ => none

def badEscape (t : Token) (digits : Text) : Fault :=
  .at t.position ("bad escape ".toList ++ t.text ++ digits)

/-- The code point of `count` hexadecimal digits behind an escape. -/
def hexEscape (t : Token) (count : Nat) (rest : List Token) : Except Fault (Member × Nat) :=
  let digits := charsOf isHex count rest
  if digits.length = count then .ok (.char (numberIn 16 digits), count)
  else .error (.at t.position ("incomplete escape ".toList ++ t.text ++ digits))

/-- The code point of octal digits. -/
def octal (t : Token) (digits : Text) : Except Fault Member :=
  if numberIn 8 digits ≤ 0o377 then .ok (.char (numberIn 8 digits))
  else .error (.at t.position
    ("octal escape value \\".toList ++ digits ++ " outside of range 0-0o377".toList))

/-- What a character of a class is, and how many tokens are read behind it. -/
def classMember (t : Token) (rest : List Token) : Except Fault (Member × Nat) :=
  let c := t.char
  if !t.escaped then .ok (.char c.toNat, 0)
  else if c = 'b' then .ok (.char 8, 0)
  else if let some code := control? c then .ok (.char code, 0)
  else if let some k := kind? c then .ok (.kind k, 0)
  else if c = 'x' then hexEscape t 2 rest
  else if c = 'u' then hexEscape t 4 rest
  else if isOctal c then
    let more := charsOf isOctal 2 rest
    (octal t (c :: more)).map fun m => (m, more.length)
  else if c.isAlphanum then .error (badEscape t [])
  else .ok (.char c.toNat, 0)

/-- The members of a class up to the bracket that closes it, and how many tokens have been read;
`start` is the place of the bracket that opens it. The next `skip` tokens have been read already. -/
def readClass (stop start : Nat) : Nat → List Member → Nat → List Token →
    Except Fault (List Member × Nat)
  | _, _, _, [] => .error (.at start "unterminated character set".toList)
  | skip + 1, members, count, _ :: rest => readClass stop start skip members (count + 1) rest
  | 0, members, count, t :: rest =>
    if t.is ']' && members ≠ [] then .ok (members.reverse, count + 1)
    else
      match classMember t rest with
      | .error f => .error f
      | .ok (first, used) =>
        match rest.drop used with
        | dash :: behind =>
          if dash.is '-' then
            match behind with
            | [] => .error (.at start "unterminated character set".toList)
            | u :: more =>
              if u.is ']' then .ok ((.char '-'.toNat :: first :: members).reverse, count + used + 3)
              else
                match classMember u more with
                | .error f => .error f
                | .ok (last, used') =>
                  let bad : Fault :=
                    .at (place stop (more.drop used') - (t.text ++ '-' :: u.text).length)
                    ("bad character range ".toList ++ t.text ++ '-' :: u.text)
                  match first, last with
                  | .char low, .char high =>
                    if high < low then .error bad
                    else readClass stop start (used + used' + 2) (.range low high :: members)
                      (count + 1) rest
                  | _, _ => .error bad
          else readClass stop start used (first :: members) (count + 1) rest
        | [] => readClass stop start used (first :: members) (count + 1) rest

/-! ## The reader -/

/-- How an item may be repeated. -/
inductive ItemKind where
  | free
  /-- An anchor cannot be repeated. -/
  | anchor
  /-- A repetition cannot be repeated once more. -/
  | repeated
  deriving DecidableEq, Repr

structure Item where
  part : Expression
  kind : ItemKind
  deriving DecidableEq, Repr

/-- What a parenthesis opens. -/
inductive Opening where
  | plain
  | group (number : Nat)
  /-- A look; `outermost` if it is a look behind that is not in another one. -/
  | look (behind negated outermost : Bool)
  | given (number : Nat)
  deriving DecidableEq, Repr

/-- What has been read of a level: the alternatives before the last one, and the items of the last,
the latest first. -/
structure Level where
  mode : Mode
  alternatives : List Expression
  items : List Item
  deriving DecidableEq, Repr

/-- An open parenthesis, and the level around it. -/
structure Frame where
  opening : Opening
  position : Nat
  level : Level
  deriving DecidableEq, Repr

structure Reader where
  level : Level
  frames : List Frame
  /-- The widths of the groups from the first on, of those that are closed. -/
  widths : List (Option Width)
  /-- The groups that are asked for, with the places, the latest first. -/
  asked : List (Nat × Nat)
  /-- In a look behind, how many groups there were before it. -/
  before : Option Nat
  deriving DecidableEq, Repr

/-- Items in a row, the latest first. -/
def rowOf (items : List Item) : Expression := items.foldl (fun e i => .seq i.part e) .nothing

/-- The expression of a level. -/
def Level.expression (l : Level) : Expression :=
  l.alternatives.foldl (fun e a => .either a e) (rowOf l.items)

/-- What a parenthesis and what it holds come to. -/
def Opening.expression (l : Level) : Opening → Expression
  | .plain => l.expression
  | .group n => .group n l.expression
  | .look behind negated _ => .look behind negated l.expression
  | .given n =>
    match l.alternatives with
    | yes :: _ => .given n yes (rowOf l.items)
    | [] => .given n (rowOf l.items) .nothing

namespace Reader

variable (r : Reader)

/-- An item more. -/
def addItem (i : Item) : Reader := { r with level := { r.level with items := i :: r.level.items } }

/-- A part more. -/
def add (part : Expression) : Reader := r.addItem ⟨part, .free⟩

/-- The width of a group that is closed. -/
def width? (number : Nat) : Option Width := (r.widths[number - 1]?).join

/-- Checks that a look behind asks for a group that has been closed before it. -/
def checkBefore (place number : Nat) : Except Fault Unit :=
  match r.before with
  | none => .ok ()
  | some groups =>
    if (r.width? number).isNone then .error (.at place "cannot refer to an open group".toList)
    else if groups < number then
      .error (.at place "cannot refer to group defined in the same lookbehind subpattern".toList)
    else .ok ()

/-- Asks for the text of a group; `behind` is the place behind its number. -/
def askAgain (t : Token) (behind number : Nat) : Except Fault Reader :=
  if r.widths.length < number then
    .error (.at (t.position + 1) ("invalid group reference ".toList ++ Text.ofNat number))
  else match r.width? number with
    | none => .error (.at t.position "cannot refer to an open group".toList)
    | some width =>
        (r.checkBefore behind number).map fun _ => r.add (.again r.level.mode number width)

/-- Reads an escape; how many tokens are read behind it. -/
def escape (stop : Nat) (t : Token) (rest : List Token) : Except Fault (Reader × Nat) :=
  let mode := r.level.mode
  let one (m : Member) : Reader := r.add (.char mode false [m])
  let c := t.char
  if c = 'b' then .ok (r.addItem ⟨.anchor mode .boundary, .anchor⟩, 0)
  else if let some k := kind? c then .ok (one (.kind k), 0)
  else if let some code := control? c then .ok (one (.char code), 0)
  else if c = 'x' then (hexEscape t 2 rest).map fun (m, used) => (one m, used)
  else if c = 'u' then (hexEscape t 4 rest).map fun (m, used) => (one m, used)
  else if c = '0' then
    let more := charsOf isOctal 2 rest
    .ok (one (.char (numberIn 8 more)), more.length)
  else if c.isDigit then
    let more := charsOf Char.isDigit 1 rest
    let third := charsOf isOctal 1 (rest.drop 1)
    if more ≠ [] ∧ third ≠ [] ∧ (c :: more).all isOctal then
      (octal t (c :: more ++ third)).map fun m => (one m, 2)
    else (r.askAgain t (place stop (rest.drop more.length)) (numberIn 10 (c :: more))).map
      (·, more.length)
  else if c.isAlpha then .error (badEscape t [])
  else .ok (one (.char c.toNat), 0)

/-- Repeats the last item; how many tokens are read behind. -/
def times (t : Token) (least : Nat) (most : Option Nat) (rest : List Token) :
    Except Fault (Reader × Nat) :=
  let (greed, used) : Greed × Nat :=
    if rest.head?.any (·.is '?') then (.least, 1)
    else if rest.head?.any (·.is '+') then (.firm, 1)
    else (.most, 0)
  match r.level.items with
  | ⟨part, .free⟩ :: before =>
    .ok ({ r with level :=
      { r.level with items := ⟨.times greed least most part, .repeated⟩ :: before } }, used)
  | ⟨_, .repeated⟩ :: _ => .error (.at t.position "multiple repeat".toList)
  | ⟨_, .anchor⟩ :: _ | [] => .error (.at t.position "nothing to repeat".toList)

/-- The texts of the bounds between braces, and how many tokens they and the last brace are. -/
def bounds? (rest : List Token) : Option (Text × Text × Nat) :=
  let run (ts : List Token) : Text := charsOf Char.isDigit ts.length ts
  let low := run rest
  let behind := rest.drop low.length
  if rest.head?.any (·.is '}') then none
  else if behind.head?.any (·.is ',') then
    let high := run (behind.drop 1)
    if ((behind.drop 1).drop high.length).head?.any (·.is '}') then
      some (low, high, low.length + high.length + 2)
    else none
  else if behind.head?.any (·.is '}') then some (low, low, low.length + 1)
  else none

/-- The largest number of times that is not read. -/
def endless : Nat := 4294967295

/-- The number of times that some digits mean, if there are any. -/
def readTimes (digits : Text) : Except Fault (Option Nat) :=
  if digits = [] then .ok none
  else match Numeral.read digits with
    | .error length => .error (.numeral length)
    | .ok n => if endless ≤ n then .error .tooManyTimes else .ok (some n)

/-- Repeats the last item within bounds, or reads a brace that is no more than that. -/
def timesWithin (t : Token) (rest : List Token) : Except Fault (Reader × Nat) :=
  match bounds? rest with
  | none => .ok (r.add (.char r.level.mode false [.char '{'.toNat]), 0)
  | some (low, high, used) => do
    let least ← readTimes low
    let most ← readTimes high
    if most.any (· < least.getD 0) then
      throw (.at (t.position + 1) "min repeat greater than max repeat".toList)
    let (r, more) ← r.times t (least.getD 0) most (rest.drop used)
    return (r, used + more)

/-! ## Parentheses -/

/-- Opens a level. -/
def openLevel (opening : Opening) (position : Nat) (mode : Mode) : Reader :=
  { r with level := ⟨mode, [], []⟩, frames := ⟨opening, position, r.level⟩ :: r.frames }

/-- Opens the next group. -/
def openGroup (position : Nat) : Reader :=
  { r.openLevel (.group (r.widths.length + 1)) position r.level.mode with widths :=
    r.widths ++ [none] }

/-- Opens a look. -/
def openLook (behind negated : Bool) (position : Nat) : Reader :=
  { r.openLevel (.look behind negated (behind && r.before.isNone)) position r.level.mode with
    before := if behind then r.before.or (some r.widths.length) else r.before }

/-- Whether a letter is a flag. -/
def isFlag (c : Char) : Bool := c ∈ "aimstux".toList

/-- Whether a flag says which characters letters are. -/
def isTypeFlag (c : Char) : Bool := c = 'a' || c = 'u'

/-- A mode with some flags added and some taken away. -/
def modeWith (mode : Mode) (added dropped : Text) : Mode where
  anyCase := (mode.anyCase || 'i' ∈ added) && 'i' ∉ dropped
  ascii := if 'u' ∈ added then false else mode.ascii || 'a' ∈ added
  lines := (mode.lines || 'm' ∈ added) && 'm' ∉ dropped
  dotAll := (mode.dotAll || 's' ∈ added) && 's' ∉ dropped
  spaced := (mode.spaced || 'x' ∈ added) && 'x' ∉ dropped

/-- The fault of a token where a flag or another sign is missing. -/
def noFlag (missing : Text) (t : Token) : Fault :=
  .at t.position (if !t.escaped && Text.isWord t.char && t.char ≠ '_' &&
    (Numeral.digit? t.char).isNone then
    "unknown flag".toList else missing)

/-- Reads the flags to be taken away; the flags, the rest behind the colon, and how many tokens have
been read. -/
def readDropped (stop : Nat) (dropped : Text) (count : Nat) :
    List Token → Except Fault (Text × List Token × Nat)
  | [] => .error (.at stop (if dropped = [] then "missing flag" else "missing :").toList)
  | t :: rest =>
    if dropped ≠ [] ∧ t.is ':' then .ok (dropped, rest, count + 1)
    else if !t.isIn isFlag then
      .error (noFlag (if dropped = [] then "missing flag" else "missing :").toList t)
    else if isTypeFlag t.char then
      .error (.at (place stop rest)
        "bad inline flags: cannot turn off flags 'a', 'u' and 'L'".toList)
    else readDropped stop (t.char :: dropped) (count + 1) rest

/-- Opens a level with flags of its own, which are read from the token behind the question mark
on. -/
def openFlags (stop position : Nat) (added : Text) (count : Nat) :
    List Token → Except Fault (Reader × Nat)
  | [] => .error (.at stop "missing -, : or )".toList)
  | t :: rest =>
    let opened (dropped : Text) (count : Nat) : Reader × Nat :=
      (r.openLevel .plain position (modeWith r.level.mode added dropped), count)
    if added ≠ [] ∧ t.is ')' then
      .error (.at position "global flags not at the start of the expression".toList)
    else if (t.is '-' || added ≠ [] && t.is ':') && 't' ∈ added then
      .error (.at (place stop rest - 1) "bad inline flags: cannot turn on global flag".toList)
    else if added ≠ [] ∧ t.is ':' then .ok (opened [] (count + 1))
    else if t.is '-' then do
      let (dropped, behind, count) ← readDropped stop [] (count + 1) rest
      if 't' ∈ dropped then
        throw (.at (place stop behind - 1) "bad inline flags: cannot turn off global flag".toList)
      if added.any (· ∈ dropped) then
        throw (.at (place stop behind - 1) "bad inline flags: flag turned on and off".toList)
      return opened dropped count
    else if !t.isIn isFlag then .error (noFlag "missing -, : or )".toList t)
    else if isTypeFlag t.char ∧ added.any (fun c => isTypeFlag c && c ≠ t.char) then
      .error (.at (place stop rest)
        "bad inline flags: flags 'a', 'u' and 'L' are incompatible".toList)
    else openFlags stop position (t.char :: added) (count + 1) rest

/-- Whether a text is a name: it starts with a letter or an underscore, and letters, digits and
underscores follow. -/
def isName : Text → Bool
  | [] => false
  | c :: r => Text.isWord c && (Numeral.digit? c).isNone && r.all Text.isWord

/-- The largest number of a group that cannot be asked for. -/
def tooManyGroups : Nat := 1073741823

/-- Opens a level for a part that depends on a group, whose number stands from here on up to a
parenthesis. -/
def openGiven (stop position : Nat) (rest : List Token) : Except Fault (Reader × Nat) := do
  let name := rest.takeWhile (!·.is ')')
  let text := textOf name
  let start := place stop rest
  match rest.drop name.length with
  | [] =>
    throw (if text = [] then .at stop "missing group name".toList
      else .at (stop - text.length) "missing ), unterminated name".toList)
  | _ :: behind =>
    if text = [] then throw (.at start "missing group name".toList)
    if isName text then throw (.at start ("unknown group name ".toList ++ Text.quote text))
    match Numeral.readInt? text with
    | some (.ofNat 0) => throw (.at start "bad group number".toList)
    | some (.ofNat number) =>
      if tooManyGroups ≤ number then
        throw (.at start ("invalid group reference ".toList ++ Text.ofNat number))
      r.checkBefore (place stop behind) number
      let r := { r with asked := if r.asked.any (·.1 = number) then r.asked
          else (number, start) :: r.asked }
      return (r.openLevel (.given number) position r.level.mode, name.length + 1)
    | _ => throw (.at start ("bad character in group name ".toList ++ Text.quote text))

/-- Reads what stands behind an opening parenthesis and a question mark. -/
def openSpecial (stop position : Nat) (rest : List Token) : Except Fault (Reader × Nat) :=
  match rest with
  | [] => .error (.at stop "unexpected end of pattern".toList)
  | t :: behind =>
    if t.is ':' then .ok (r.openLevel .plain position r.level.mode, 1)
    else if t.is '#' then
      let remark := behind.takeWhile (!·.is ')')
      if remark.length < behind.length then .ok (r, remark.length + 2)
      else .error (.at position "missing ), unterminated comment".toList)
    else if t.is '=' then .ok (r.openLook false false position, 1)
    else if t.is '!' then .ok (r.openLook false true position, 1)
    else if t.is '<' then
      match behind with
      | [] => .error (.at stop "unexpected end of pattern".toList)
      | u :: _ =>
        if u.is '=' then .ok (r.openLook true false position, 2)
        else if u.is '!' then .ok (r.openLook true true position, 2)
        else .error (.at (position + 1) ("unknown extension ?<".toList ++ u.text))
    else if t.is '(' then (r.openGiven stop position behind).map fun (r, used) => (r, used + 1)
    else if t.isIn isFlag || t.is '-' then r.openFlags stop position [] 0 rest
    else .error (.at (position + 1) ("unknown extension ?".toList ++ t.text))

/-- Goes on behind a bar. -/
def alternate (t : Token) : Except Fault Reader :=
  let next : Reader :=
    { r with level :=
      { r.level with alternatives := rowOf r.level.items :: r.level.alternatives, items := [] } }
  match r.frames with
  | ⟨.given _, _, _⟩ :: _ =>
    if r.level.alternatives = [] then .ok next
    else .error (.at t.position "conditional backref with more than two branches".toList)
  | _ => .ok next

/-- Closes the innermost level. -/
def close (t : Token) : Except Fault Reader :=
  match r.frames with
  | [] => .error (.at t.position "unbalanced parenthesis".toList)
  | f :: frames =>
    let part := f.opening.expression r.level
    let outer := add { r with level := f.level, frames } part
    match f.opening with
    | .group n => .ok { outer with widths := r.widths.set (n - 1) (some part.width) }
    | .look _ _ true => .ok { outer with before := none }
    | _ => .ok outer

/-- Reads a token; how many tokens are read behind it. -/
def step (stop : Nat) (t : Token) (rest : List Token) : Except Fault (Reader × Nat) :=
  let mode := r.level.mode
  if t.is '|' then (r.alternate t).map (·, 0)
  else if t.is ')' then (r.close t).map (·, 0)
  else if mode.spaced && t.isIn (fun c => c == ' ' || (9 ≤ c.toNat && c.toNat ≤ 13)) then .ok (r, 0)
  else if mode.spaced && t.is '#' then
    .ok (r, min rest.length ((rest.takeWhile (!·.is '\n')).length + 1))
  else if t.escaped then r.escape stop t rest
  else match t.char with
    | '\\' => .error (.at t.position "bad escape (end of pattern)".toList)
    | '[' =>
      let negated := rest.head?.any (·.is '^')
      let skip := if negated then 1 else 0
      (readClass stop t.position skip [] 0 rest).map fun (members, used) =>
        (r.add (.char mode negated members), used)
    | '?' => r.times t 0 (some 1) rest
    | '*' => r.times t 0 none rest
    | '+' => r.times t 1 none rest
    | '{' => r.timesWithin t rest
    | '.' => .ok (r.add (.any mode), 0)
    | '^' => .ok (r.addItem ⟨.anchor mode .start, .anchor⟩, 0)
    | '$' => .ok (r.addItem ⟨.anchor mode .stop, .anchor⟩, 0)
    | '(' =>
      if rest.head?.any (·.is '?') then
        (r.openSpecial stop t.position (rest.drop 1)).map fun (r, used) => (r, used + 1)
      else .ok (r.openGroup t.position, 0)
    | c => .ok (r.add (.char mode false [.char c.toNat]), 0)

/-- Reads tokens; the next `skip` of them have been read already. -/
def readFrom (stop : Nat) : Reader → Nat → List Token → Except Fault Reader
  | r, _, [] => .ok r
  | r, skip + 1, _ :: rest => readFrom stop r skip rest
  | r, 0, t :: rest => do
    let (r, skip) ← r.step stop t rest
    readFrom stop r skip rest

/-- A reader that has read nothing. -/
def fresh : Reader := ⟨⟨.fresh, [], []⟩, [], [], [], none⟩

end Reader

/-- The first look behind in an expression that cannot be taken, since it is not clear how far back
it starts. -/
def lookFault? : Expression → Option Fault
  | nothing | char .. | any .. | anchor .. | again .. => none
  | seq a b | either a b | given _ a b => (lookFault? a).or (lookFault? b)
  | group _ e | times _ _ _ e => lookFault? e
  | look behind _ e =>
    let own : Option Fault :=
      if !behind then none
      else if Reader.endless < e.width.1 then some (.malformed "looks too much behind".toList none)
      else if e.width.2 ≠ some e.width.1 then
        some (.malformed "look-behind requires fixed-width pattern".toList none)
      else none
    own.or (lookFault? e)

/-- Reads an expression in which letters are met in either case. -/
def read (s : Text) : Except Fault Expression := do
  let r ← Reader.fresh.readFrom s.length 0 (tokens 0 s)
  match r.frames with
  | f :: _ => throw (.at f.position "missing ), unterminated subpattern".toList)
  | [] =>
    if let some (number, position) := r.asked.reverse.find? (r.widths.length < ·.1) then
      throw (.at position ("invalid group reference ".toList ++ Text.ofNat number))
    if let some f := lookFault? r.level.expression then throw f
    return r.level.expression

end SlideDeck.Expression
