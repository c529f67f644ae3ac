import SlideDeck.Failure
import SlideDeck.Layout.Basic
import SlideDeck.Text.Numeral

/-!
# Reading layouts

A layout is given as a plain number of single slides, or as a structure text: tokens between commas,
each the divider marker or a positive number, with blanks around it. A token of one is a single
slide, a greater one a stack.

A token with too many digits is a failure of its own; in a plain count it is just one more wrong
value.
-/

namespace SlideDeck

/-- The group of a positive number of slides. -/
def Group.ofCount (count : Nat) (pos : 0 < count) : Group :=
  if count = 1 then .single else .stack count pos

/-- The group that a token denotes. -/
def Group.ofToken (marker token : Text) : Except Failure Group :=
  let text := Text.strip token
  if text = marker then .ok .divider
  else if Numeral.isPlain text then
    match Numeral.read text with
    | .error digits => .error (.numeralTooLong digits)
    | .ok count => if pos :
        0 < count then .ok (.ofCount count pos) else .error (.badToken marker token)
  else .error (.badToken marker token)

namespace Layout

/-- The layout that a structure text denotes. -/
def ofStructure (marker structureText : Text) : Except Failure Layout :=
  (Text.split ',' structureText).mapM (Group.ofToken marker)

/-- A slide count as it is given: a number, or text typed by someone. -/
inductive Count where
  | number (n : Int)
  | text (s : Text)
  deriving DecidableEq, Repr

/-- A count as it was typed. -/
def Count.shown : Count → Text
  | .number n => Text.ofInt n
  | .text s => s

/-- The integer that a count denotes, if it is one. -/
def Count.toInt? : Count → Option Int
  | .number n => some n
  | .text s => if Numeral.isPlain (Text.strip s) then Numeral.readInt? s else none

/-- The positive number that a count denotes. -/
def Count.validate (count : Count) : Except Failure Nat :=
  match count.toInt? with
  | some n => if 1 ≤ n then .ok n.toNat else .error (.badCount count.shown)
  | none => .error (.badCount count.shown)

/-- How a layout is asked for. -/
structure Request where
  /-- A plain number of single slides. -/
  slides : Option Count := none
  /-- A structure text. -/
  tokens : Option Text := none
  deriving DecidableEq, Repr

/-- The layout that is asked for; without a count and a structure text it is `defaultCount` single
slides. -/
def read (marker : Text) (defaultCount : Int) (request : Request) : Except Failure Layout :=
  match request.slides, request.tokens with
  | some _, some _ => .error .bothForms
  | none, some tokens => ofStructure marker tokens
  | some count, none => do return List.replicate (← count.validate) .single
  | none, none => .ok (List.replicate defaultCount.toNat .single)

/-- An entry of a layout that is given group by group. -/
inductive Item where
  | single
  | divider
  | stack (size : Int)
  /-- Something else, as it is shown. -/
  | unknown (shown : Text)
  deriving DecidableEq, Repr

/-- Whether an item can be made: a stack needs a slide. -/
def Item.check : Item → Except Failure Unit
  | .stack size => if size < 1 then .error (.emptyStack size) else .ok ()
  | _ => .ok ()

/-- The group of an item. -/
def Item.toGroup : Item → Except Failure Group
  | .single => .ok .single
  | .divider => .ok .divider
  | .stack size =>
    if pos : 0 < size.toNat then .ok (.stack size.toNat pos) else .error (.emptyStack size)
  | .unknown shown => .error (.unknownGroup shown)

/-- The layout of some items: first every stack has to hold a slide, then every item has to be a
group. -/
def ofItems (items : List Item) : Except Failure Layout := do
  items.forM Item.check
  items.mapM Item.toGroup

end Layout

end SlideDeck
