import SlideDeck.Deck.Report
import SlideDeck.Deck.Template
import SlideDeck.Layout.Reader
import SlideDeck.Settings.Basic
import SlideDeck.Tree.Action

/-!
# The state of a run

A run makes a deck or finalizes one. It starts from a request and goes through stages, each of which
adds to the state what the next ones need. A run halts with a message for the user, or with a
failure that nobody has a word for.
-/

namespace SlideDeck.Run

/-- What a run is asked for. -/
structure Request where
  /-- The directory in which a template archive of the user's is looked for. -/
  input : Path
  /-- The directory of the decks. -/
  output : Path
  verbosity : Int := 1
  layout : Layout.Request := {}
  title : Text := "Presentation".toList
  slug : Option Text := none
  templateFile : Option Text := none
  /-- Whether a deck is to be finalized, not made. -/
  finalize : Bool := false
  deriving DecidableEq, Repr

/-- A deck that has been made. -/
structure Creation where
  deck : Path
  page : Path
  slideCount : Nat
  /-- The structure text of its layout. -/
  tokens : Text
  deriving DecidableEq, Repr

/-- The root of the tree, which stands for a path that is not known yet. -/
def unknownPath : Path := ⟨['/'], []⟩

/-- A request and what has been found out and made so far. -/
structure State extends Request where
  /-- Whether the request fits what is there. -/
  ready : Bool := false
  archive : Path := unknownPath
  deck : Path := unknownPath
  groups : Option Layout := none
  creation : Option Creation := none
  report : Option Report := none
  deriving DecidableEq, Repr

/-- Why a run does not go on. -/
inductive Halt where
  /-- The user is told a message. -/
  | message (text : Text)
  /-- A failure that the run does not report. -/
  | failure (cause : Failure)
  deriving DecidableEq, Repr

/-- What the stages of a run do. -/
abbrev RunAction (α : Type) : Type := Action Halt Tree α

/-- What stays the same in all runs: the settings, a source of random bytes, and random suffixes for
scratch directories. -/
structure Context where
  settings : Settings
  random : Nat → List UInt8
  suffixes : List Template.Suffix

/-- An action of whose failures some are messages for the user. -/
def reporting {α : Type} (isReported : Failure → Bool) (m : TreeAction α) : RunAction α :=
  m.explain fun e => if isReported e then .message e.message else .failure e

/-- The text, if there is one and it is not empty. -/
def nonempty? : Option Text → Option Text
  | some (c :: r) => some (c :: r)
  | _ => none

end SlideDeck.Run
