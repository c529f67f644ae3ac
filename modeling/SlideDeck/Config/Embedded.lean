import SlideDeck.Config.Assignment
import SlideDeck.Failure
import SlideDeck.Log
import SlideDeck.Record.Printer
import SlideDeck.Record.Reader
import SlideDeck.Settings.Basic
import SlideDeck.Text.Blank

/-!
# Embedded configurations

A deck's page carries a record of the deck in an assignment of one of its scripts. `Embedded.read`
finds it: structured if it is an object with an object under `deck`, raw if it is anything else.
`Embedded.update` writes a deck's slug, title and slide count into it. A structured record is
written anew; in a raw one the first slug and the first title that look like members are replaced
where they stand, and the slide count is left as it is.

Both take the variable to look for. `Settings.readConfig` and `Settings.updateConfig` take a
variable that need not be given: the configured one stands in for a variable without a name.
-/

namespace SlideDeck

/-- What a deck says about itself. -/
structure DeckFields where
  /-- The name of the deck's directory. -/
  slug : Text
  title : Text
  slideCount : Int
  deriving DecidableEq, Repr

/-- A configuration as it was found. -/
inductive Embedded where
  /-- An object with an object under `deck`. -/
  | structured (record : Record.Members)
  /-- A script whose assignment cannot be used as a record. -/
  | raw (script : Text)
  deriving Repr

namespace Embedded

open Record (Members Value)

/-- The key of the deck's own record. -/
def deckKey : Text := "deck".toList

/-- The deck's own record, if there is one. -/
def deck? (record : Members) : Option Members :=
  match record.get? deckKey with
  | some (.object deck) => some deck
  | _ => none

/-- Reads the configuration that a script assigns to a variable. -/
def read [Record.Nesting] (marker script : Text) : Attempt Failure (Option Embedded) :=
  match Assignment.find? marker script with
  | none => pure none
  | some a =>
    match Record.read a.payload with
    | .error (.lacks expected left) => do
      Attempt.note 2 ("Embedded config is not valid JSON: ".toList
        ++ Record.lackMessage a.payload expected left)
      return some (.raw script)
    | .error (.numeralTooLong digits) => throw (.numeralTooLong digits)
    | .error .nestedTooDeep => throw .nestedTooDeep
    | .ok (.object record) =>
      if (deck? record).isSome then return some (.structured record)
      else do
        Attempt.note 2 "Embedded config has no \"deck\" record".toList
        return some (.raw script)
    | .ok _ => do
      Attempt.note 2 "Embedded config has no \"deck\" record".toList
      return some (.raw script)

/-- A deck's record with new fields. -/
def setFields (f : DeckFields) (deck : Members) : Members :=
  ((deck.set "slug".toList (.string f.slug)).set "title".toList (.string f.title)).set
    "slide_count".toList (.integer f.slideCount)

/-- A record with new fields of its deck. -/
def updateRecord (f : DeckFields) (record : Members) : Members :=
  match deck? record with
  | some deck => record.set deckKey (.object (setFields f deck))
  | none => record

/-- The rest behind a string that ends at the first quote. -/
def skipPlain : Text → Option Text
  | [] => none
  | '"' :: r => some r
  | _ :: r => skipPlain r

/-- The rest behind a string in which a backslash takes the next character with it, unless that is a
line feed. -/
def skipEscaped : Text → Option Text
  | [] => none
  | '"' :: r => some r
  | '\\' :: c :: r => if c = '\n' then none else skipEscaped r
  | ['\\'] => none
  | _ :: r => skipEscaped r

/-- The rest behind a member at the start of a text: a quoted key, a colon with blanks around it,
and a string of which `skip` finds the end. -/
def skipMember (key : Text) (skip : Text → Option Text) (s : Text) : Option Text :=
  let name := '"' :: key ++ ['"']
  if name <+: s then
    match Text.stripLeft (s.drop name.length) with
    | ':' :: r =>
      match Text.stripLeft r with
      | '"' :: r => skip r
      | _ => none
    | _ => none
  else none

/-- A text with its first member of a key replaced. -/
def replaceMember (key : Text) (skip : Text → Option Text) (new s : Text) : Text :=
  match Text.search (skipMember key skip) s with
  | some (before, after) => before ++ new ++ after
  | none => s

/-- A script with its first slug and its first title replaced. -/
def updateRaw (f : DeckFields) (script : Text) : Text :=
  let script := replaceMember "slug".toList skipPlain
    ("\"slug\":".toList ++ Record.asciiString f.slug) script
  replaceMember "title".toList skipEscaped ("\"title\":".toList ++ Record.string f.title) script

/-- A script with a deck's fields written into its configuration; the first assignment of a
structured one is replaced, if there is any. A slide count that no reader would take is not
written. -/
def update (marker : Text) (f : DeckFields) (script : Text) (e : Embedded) : Attempt Failure Text :=
  match e with
  | .structured record =>
    if (Text.ofNat f.slideCount.natAbs).length ≤ Numeral.maxDigits then
      let payload := Record.render (.object (updateRecord f record))
      match Assignment.find? marker script with
      | some a => return { a with payload }.render marker
      | none => return script
    else throw .numberTooLong
  | .raw own => do
    Attempt.warn ("Embedded ".toList ++ marker
      ++ " could not be parsed; updating slug and title only".toList)
    return updateRaw f own

/-- The name of a configuration's form in messages. -/
def form : Embedded → Text
  | .structured _ => "Structured".toList
  | .raw _ => "RawText".toList

end Embedded

namespace Settings

/-- Reads a script's configuration, which the given variable holds or else the configured one. -/
def readConfig [Record.Nesting] (s : Settings) (given : Option Text) (script : Text) :
    Attempt Failure (Option Embedded) :=
  Embedded.read (s.markerOr given) script

/-- A script with the slug, the title and the slide count of a deck written into its configuration,
which the given variable holds or else the configured one. -/
def updateConfig (s : Settings) (given : Option Text) (slug title : Text) (slideCount : Int)
    (script : Text) (e : Embedded) : Attempt Failure Text :=
  e.update (s.markerOr given) ⟨s.deckDirname slug, title, slideCount⟩ script

end Settings

end SlideDeck
