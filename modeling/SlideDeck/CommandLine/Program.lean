import SlideDeck.CommandLine.Reader
import SlideDeck.Run.Stage

/-!
# The program

What a command line does: it is answered at once, or the output directory is made, both directories
are looked at, and then the run goes through its stages. From that moment on the run's verbosity is
what messages are shown for.
-/

namespace SlideDeck.CommandLine

open Run (Context Exit Stage State)

/-- A tree and the verbosity of whoever listens to messages. -/
structure Console where
  tree : Tree
  listener : Option Int := none
  deriving DecidableEq, Repr

/-- What is done at a console. -/
abbrev ConsoleAction (α : Type) : Type := Action Failure Console α

namespace Console

/-- Does something to the tree. -/
def onTree {ε α : Type} (m : Action ε Tree α) : Action ε Console α := fun c =>
  ((m c.tree).1, { c with tree := (m c.tree).2 })

/-- Listens with a verbosity from now on. -/
def connect (verbosity : Int) : ConsoleAction Unit :=
  Action.change fun c => .ok { c with listener := some verbosity }

/-- Goes through stages, listening with the verbosity of the state. The state in which the run ends,
or how it halts. -/
def runStages [Record.Nesting] (c : Context) (stages : List Stage) (s : State) :
    ConsoleAction (Except Exit State) := do
  connect s.verbosity
  let run : Run.RunAction State := Stage.runAll c stages s
  fun console =>
    let (attempt, tree) := run console.tree
    let result : Except Failure (Except Exit State) := match attempt.result with
      | .ok s => .ok (.ok s)
      | .error halt => halt.exit.map .error
    (⟨attempt.log, result⟩, { console with tree := tree })

end Console

/-- The name and the version of the program. -/
def programName : Text := "decksmith".toList

/-- The version of the program. -/
def programVersion : Text := "1.0.0".toList

/-- How the program ends that has only a reply. -/
def Reply.exit : Reply → Exit
  | .help => {}
  | .version => { output := programName ++ [' '] ++ programVersion ++ ['\n'] }
  | .misuse message =>
      { code := 2, errors := programName ++ ": error: ".toList ++ message ++ ['\n'] }

/-- How the program ends if a path is no directory. -/
def notDirectory (p : Path) : Exit :=
  { code := 1, errors := "Not a directory: ".toList ++ p.toText ++ ['\n'] }

/-- The stages that a request asks for. -/
def stagesOf (request : Run.Request) : List Stage :=
  if request.finalize then Stage.finalizing else Stage.making

/-- Does what a request asks for. -/
def runRequest [Record.Nesting] (c : Context) (request : Run.Request) : ConsoleAction Exit := do
  let ask question p : ConsoleAction Bool := Console.onTree (TreeAction.ask question p)
  if !(← ask Tree.contains request.output) then
    Console.onTree (TreeAction.makeDirectories false request.output)
  if !(← ask Tree.isDirectory request.output) then return notDirectory request.output
  if !(← ask Tree.isDirectory request.input) then return notDirectory request.input
  match ← Console.runStages c (stagesOf request) { request with } with
  | .ok _ => return {}
  | .error exit => return exit

/-- Does what a command line says. -/
def run [Record.Nesting] (c : Context) (args : List Text) : ConsoleAction Exit :=
  match read args with
  | .error reply => return reply.exit
  | .ok request => runRequest c request

end SlideDeck.CommandLine
