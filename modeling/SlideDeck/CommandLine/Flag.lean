import SlideDeck.Text.Basic

/-!
# Flags

The flags of the command line and their names. A flag may be called by any beginning of a long name
that no other flag shares; `Flag.named` lists the names in the order in which they are offered if
several fit.
-/

namespace SlideDeck.CommandLine

/-- The flags of the command line. -/
inductive Flag where
  | help
  | slides
  | structureText
  | title
  | slug
  | templateFile
  | finalize
  | verbosity
  | version
  | saveInputMeta
  | saveOutputMeta
  deriving DecidableEq, Repr

namespace Flag

/-- All flags in order. -/
def all : List Flag :=
  [help, slides, structureText, title, slug, templateFile, finalize, verbosity, version,
    saveInputMeta, saveOutputMeta]

/-- The names of a flag, a short one first. -/
def names : Flag → List Text
  | help => ["-h".toList, "--help".toList]
  | slides => ["--slides".toList]
  | structureText => ["--structure".toList]
  | title => ["--title".toList]
  | slug => ["--slug".toList]
  | templateFile => ["--templateFile".toList]
  | finalize => ["--finalize".toList]
  | verbosity => ["-v".toList, "--verbosity".toList]
  | version => ["-V".toList, "--version".toList]
  | saveInputMeta => ["--saveinputmeta".toList]
  | saveOutputMeta => ["--saveoutputmeta".toList]

/-- Whether a flag is given with a value. -/
def takesValue : Flag → Bool
  | slides | structureText | title | slug | templateFile => true
  | _ => false

/-- The names of a flag as errors show them. -/
def shown (f : Flag) : Text := Text.join ['/'] f.names

/-- All names with their flags, in order. -/
def named : List (Text × Flag) := all.flatMap fun f => f.names.map fun name => (name, f)

/-- The flag of a name. -/
def find? (name : Text) : Option Flag := named.lookup name

end Flag

end SlideDeck.CommandLine
