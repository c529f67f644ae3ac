import SlideDeck.CommandLine.Program
import SlideDeck.Record.Printer
import SlideDeck.Record.Reader
import SlideDeck.Settings.Reader
import SlideDeck.Tree.Snapshot

/-!
# The command

The command works on a snapshot of the directory in which it runs: it reads the snapshot from its
standard input, and prints the snapshot of what a run has made of it. Messages and errors go to the
standard error. Settings come from the environment and from the snapshot's file `.env`.
-/

namespace SlideDeck.Command

/-- All that a stream still holds. -/
partial def readAll (stream : IO.FS.Stream) (before : ByteArray) : IO ByteArray := do
  let bytes ← stream.read 65536
  if bytes.isEmpty then return before else readAll stream (before ++ bytes)

/-- The variables of the environment that hold settings. -/
def environment : IO Variables := do
  let mut found : Variables := []
  for field in Settings.Field.all do
    let name := (String.ofList field.variable).toUpper
    if let some value ← IO.getEnv name then found := found ++ [(name.toList, value.toList)]
  return found

/-- Random suffixes to be tried for the scratch directory. -/
def suffixes : IO (List Template.Suffix) := do
  let bytes ← IO.getRandomBytes 800
  return (List.range 100).map fun n i => .ofNat 37 (bytes.get! (8 * n + i)).toNat

/-- Prints what a run has come to; its exit code. -/
def finish (exit : Run.Exit) : IO UInt32 := do
  (← IO.getStdout).putStr (String.ofList exit.output)
  (← IO.getStderr).putStr (String.ofList exit.errors)
  return exit.code.toUInt32

/-- Says why nothing could be done; an exit code. -/
def giveUp (reason : Text) : IO UInt32 :=
  finish { code := 1, errors := "Error: ".toList ++ reason ++ ['\n'] }

/-- Runs a request on the snapshot that the standard input holds. -/
def runOnSnapshot (request : Run.Request) : IO UInt32 := do
  let input ← readAll (← IO.getStdin) .empty
  let snapshot := (Utf8.decode input.toList).toOption.bind fun text => (Record.read text).toOption
  match snapshot.bind (Tree.ofSnapshot? []) with
  | none => giveUp "the standard input holds no snapshot".toList
  | some tree =>
    let file := ((tree.readText (.ofText ".env".toList)).toOption).getD []
    let packaged : Settings := .defaults (.ofText "assets/template.zip".toList)
    match packaged.read (← environment) file with
    | .error _ => giveUp "the settings are not valid".toList
    | .ok settings =>
      let random ← IO.getRandomBytes settings.slugBytes.toNat.toUSize
      let context : Run.Context := ⟨settings, fun _ => random.toList, ← suffixes⟩
      let (attempt, console) := CommandLine.runRequest context request ⟨tree, none⟩
      for message in attempt.log.shownAt console.listener do
        (← IO.getStderr).putStrLn (String.ofList message.text)
      (← IO.getStdout).putStrLn (String.ofList (Record.render console.tree.snapshot))
      match attempt.result with
      | .ok exit => finish exit
      | .error cause => giveUp cause.message

/-- Does what the command line says. -/
def run (args : List String) : IO UInt32 :=
  match CommandLine.read (args.map String.toList) with
  | .error reply => finish reply.exit
  | .ok request => runOnSnapshot request

end SlideDeck.Command

/-- The command. -/
def main (args : List String) : IO UInt32 := SlideDeck.Command.run args
