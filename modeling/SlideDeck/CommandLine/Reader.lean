import SlideDeck.CommandLine.Flag
import SlideDeck.Run.State
import SlideDeck.Text.Numeral
import SlideDeck.Text.Quoted

/-!
# Reading a command line

Arguments are sorted into words first: flags, with a value behind an equals sign or letters of
further flags, plain words, and the separator behind which all words are plain. A word that starts
with a dash is plain if it is a single dash, a negative number or holds a space.

Then the words are read in order. A flag that takes a value takes the next plain word; the other
plain words are the input and the output directory, and those left over are unrecognized, as are
unknown flags. The first error ends the reading.
-/

namespace SlideDeck.CommandLine

open Run (Request)

/-- What is answered to a command line that asks for no run. -/
inductive Reply where
  | help
  | version
  /-- The command line is wrong. -/
  | misuse (message : Text)
  deriving DecidableEq, Repr

/-- An argument that is sorted. -/
inductive Word where
  | plain (text : Text)
  /-- Everything behind it is plain. -/
  | separator
  /-- A flag called by a name, with the value that is part of the argument. -/
  | flag (flag : Flag) (name : Text) (value : Option Text)
  /-- What looks like a flag. -/
  | unknown (text : Text)
  deriving DecidableEq, Repr

namespace Word

/-- What stands before the first equals sign and what behind it, if there is one. -/
def splitValue (arg : Text) : Text × Option Text :=
  match Text.cut ['='] arg with
  | some (name, value) => (name, some value)
  | none => (arg, none)

/-- Whether a text is a nonempty run of digits of any script; a line feed may follow. -/
def isDigits (s : Text) : Bool :=
  let s := if s.getLast? = some '\n' then s.dropLast else s
  !s.isEmpty && s.all fun c => (Numeral.digit? c).isSome

/-- Whether a text is a negative number, with digits before its point or not. -/
def isNegativeNumber : Text → Bool
  | '-' :: r =>
    isDigits r ||
      match Text.cut ['.'] r with
      | some (whole, fraction) =>
        (whole.all fun c => (Numeral.digit? c).isSome) && isDigits fraction
      | none => false
  | _ => false

/-- The flags that an argument behind a dash may mean: those whose long names it begins, or the one
of its first letter, which the rest of the argument follows. -/
def candidates (arg : Text) : List (Text × Flag × Option Text) :=
  match arg with
  | '-' :: '-' :: _ =>
    let (name, value) := splitValue arg
    (Flag.named.filter fun (n, _) => name.isPrefixOf n).map fun (n, f) => (n, f, value)
  | _ =>
    (Flag.named.filter fun (n, _) => n = arg.take 2).map fun (n, f) => (n, f, some (arg.drop 2))

/-- Sorts an argument before the separator. -/
def ofArgument (arg : Text) : Except Reply Word :=
  match arg with
  | '-' :: _ =>
    match Flag.find? arg with
    | some f => .ok (.flag f arg none)
    | none =>
      if arg = ['-'] then .ok (.plain arg)
      else
        let (name, value) := splitValue arg
        match (if value.isSome then Flag.find? name else none) with
        | some f => .ok (.flag f name value)
        | none =>
          match candidates arg with
          | [(name, f, value)] => .ok (.flag f name value)
          | [] => .ok (if isNegativeNumber arg ∨ ' ' ∈ arg then .plain arg else .unknown arg)
          | several =>
            .error (.misuse ("ambiguous option: ".toList ++ arg ++ " could match ".toList
              ++ Text.join ", ".toList (several.map (·.1))))
  | _ => .ok (.plain arg)

/-- Sorts arguments. -/
def ofArguments : List Text → Except Reply (List Word)
  | [] => .ok []
  | arg :: args =>
    if arg = ['-', '-'] then .ok (.separator :: args.map .plain)
    else do
      let word ← ofArgument arg
      return word :: (← ofArguments args)

end Word

/-- What has been read so far. -/
structure Reading where
  /-- The request; its directories count only when both are given. -/
  request : Request
  directories : List Text := []
  unrecognized : List Text := []
  deriving DecidableEq, Repr

namespace Reading

/-- Nothing has been read. -/
def start : Reading := { request := { input := .here, output := .here } }

/-- The names of the directories that have to be given. -/
def required : List Text := ["inputdir".toList, "outputdir".toList]

/-- An error about a flag. -/
def misuse (f : Flag) (message : Text) : Reply :=
  .misuse ("argument ".toList ++ f.shown ++ ": ".toList ++ message)

/-- An error about a value that a flag does not take. -/
def ignored (f : Flag) (value : Text) : Reply :=
  misuse f ("ignored explicit argument ".toList ++ Text.quote value)

/-- Takes a flag without a value. -/
def takeFlag (r : Reading) : Flag → Except Reply Reading
  | .help => .error .help
  | .version => .error .version
  | .finalize => .ok { r with request.finalize := true }
  | .verbosity => .ok { r with request.verbosity := r.request.verbosity + 1 }
  | _ => .ok r

/-- Takes a flag with its value. -/
def takeValue (r : Reading) (value : Text) : Flag → Except Reply Reading
  | .slides =>
    match Numeral.readInt? value with
    | some n => .ok { r with request.layout.slides := some (.number n) }
    | none => .error (misuse .slides ("invalid int value: ".toList ++ Text.quote value))
  | .structureText => .ok { r with request.layout.tokens := some value }
  | .title => .ok { r with request.title := value }
  | .slug => .ok { r with request.slug := some value }
  | .templateFile => .ok { r with request.templateFile := some value }
  | _ => .ok r

/-- The flags of a cluster: the flag `f` and those whose letters follow it. -/
def cluster (f : Flag) : Text → Except Reply (List Flag)
  | [] => .ok [f]
  | c :: rest =>
    match Flag.find? ['-', c] with
    | some g => (cluster g rest).map (f :: ·)
    | none => .error (ignored f (c :: rest))

/-- Takes a flag that takes no value but is followed by something in its argument: further flags, if
it has a short name. -/
def takeCluster (r : Reading) (f : Flag) (name value : Text) : Except Reply Reading :=
  match name with
  | '-' :: '-' :: _ => .error (ignored f value)
  | _ => if value = [] then .error (ignored f value) else do (← cluster f value).foldlM takeFlag r

/-- Takes a plain word, as a directory if one is still to be given. -/
def takePlain (r : Reading) (text : Text) : Reading :=
  if r.directories.length < required.length then { r with directories := r.directories ++ [text] }
  else { r with unrecognized := r.unrecognized ++ [text] }

/-- Reads words; `joined` says that the word before was taken as a directory. A separator counts for
nothing beside such a word, and is unrecognized elsewhere. -/
def readWords : Bool → Reading → List Word → Except Reply Reading
  | _, r, [] => .ok r
  | _, r, .plain text :: words =>
    readWords (r.directories.length < required.length) (r.takePlain text) words
  | joined, r, .separator :: words =>
    if joined ∨ (r.directories.length < required.length ∧ words ≠ []) then readWords false r words
    else readWords false { r with unrecognized := r.unrecognized ++ [['-', '-']] } words
  | _, r, .unknown text :: words =>
      readWords false { r with unrecognized := r.unrecognized ++ [text] } words
  | _, r, .flag f name value :: words =>
    if f.takesValue then
      match value, words with
      | some value, words => do readWords false (← r.takeValue value f) words
      | none, .plain value :: words => do readWords false (← r.takeValue value f) words
      | none, _ => .error (misuse f "expected one argument".toList)
    else match value with
      | none => do readWords false (← r.takeFlag f) words
      | some value => do readWords false (← r.takeCluster f name value) words

/-- The request, if both directories are given and nothing is unrecognized. -/
def finish (r : Reading) : Except Reply Request :=
  match r.directories, r.unrecognized with
  | [input, output], [] => .ok { r.request with input := .ofText input, output := .ofText output }
  | [_, _], words => .error (.misuse ("unrecognized arguments: ".toList ++ Text.join [' '] words))
  | given, _ =>
    .error (.misuse ("the following arguments are required: ".toList
      ++ Text.join ", ".toList (required.drop given.length)))

end Reading

/-- The request that a command line makes. -/
def read (args : List Text) : Except Reply Request := do
  (← Reading.readWords false .start (← Word.ofArguments args)).finish

end SlideDeck.CommandLine
