import SlideDeck.Expression.Reader
import SlideDeck.Text.Utf8
import SlideDeck.Tree.Path

/-!
# Failures

Every way in which an operation can fail, with what its message needs to name. `Failure.kind` sorts
the causes by how the operations above treat them, and `Failure.message` is the only place where
they are worded.
-/

namespace SlideDeck

/-- Why the file tree refused an operation. -/
inductive TreeError where
  | notFound
  | exists
  | notDirectory
  | isDirectory
  | nameTooLong
  | tooManyLinks
  deriving DecidableEq, Repr

/-- The number under which a refusal is known. -/
def TreeError.code : TreeError → Nat
  | .notFound => 2
  | .exists => 17
  | .notDirectory => 20
  | .isDirectory => 21
  | .nameTooLong => 36
  | .tooManyLinks => 40

/-- The wording of a refusal. -/
def TreeError.message : TreeError → Text
  | .notFound => "No such file or directory".toList
  | .exists => "File exists".toList
  | .notDirectory => "Not a directory".toList
  | .isDirectory => "Is a directory".toList
  | .nameTooLong => "File name too long".toList
  | .tooManyLinks => "Too many levels of symbolic links".toList

/-- What is wrong with an archive or with one of its members. -/
inductive Damage where
  /-- The structure or a checksum is not as it should be. -/
  | broken
  /-- A password is needed. -/
  | encrypted
  /-- A version or a method of compression is not known. -/
  | unsupported
  /-- Compressed bytes cannot be expanded. -/
  | corrupt
  /-- The bytes end too early. -/
  | truncated
  deriving DecidableEq, Repr

/-- The ways in which an operation can fail. -/
inductive Failure where
  /-- A token of a structure text is neither the divider marker nor a positive number. -/
  | badToken (marker token : Text)
  /-- A plain slide count is no positive number. -/
  | badCount (shown : Text)
  /-- Both a plain count and a structure text are given. -/
  | bothForms
  /-- A numeral has too many digits. -/
  | numeralTooLong (digits : Nat)
  /-- A number has too many digits to be written. -/
  | numberTooLong
  /-- A stack without slides. -/
  | emptyStack (size : Int)
  /-- Something that is no slide group. -/
  | unknownGroup (shown : Text)
  /-- A line that a text does not have. -/
  | noSuchLine
  /-- The text of a page cannot be parsed. -/
  | rejectedMarkup
  /-- A tag that does not end. -/
  | malformedTag (name : Text)
  /-- An element that does not end. -/
  | unclosedElement (name : Text)
  /-- An element's name cannot be searched for. -/
  | unsearchableName (fault : Expression.Fault)
  /-- A page has nowhere to put slides. -/
  | noContainer
  /-- A record is nested too deeply. -/
  | nestedTooDeep
  /-- The template archive is missing. -/
  | archiveMissing (archive : Path)
  /-- The template archive is some other file. -/
  | archiveUnreadable (archive : Path)
  /-- The template archive lacks entries. -/
  | archiveIncomplete (archive : Path) (missing : List Text)
  /-- The template archive, or a member of it, cannot be unpacked; the reader of archives words
  this. -/
  | archiveDamaged (damage : Damage) (wording : Text)
  /-- The deck directory is there already. -/
  | deckExists (deck : Path)
  /-- The deck directory is missing. -/
  | deckMissing (deck : Path)
  /-- A deck lacks its page. -/
  | pageMissing (entry deck : Text)
  /-- A run has come to a page without having read a layout. -/
  | layoutMissing
  /-- A run has come to its last words without a report. -/
  | reportMissing
  /-- A report has no outcome of a step. -/
  | noSuchStep (step : Text)
  /-- A random slug of fewer than no bytes. -/
  | negativeCount
  /-- A file is no text. -/
  | undecodable (error : Utf8.Error)
  /-- The file tree refused an operation on a path. -/
  | refused (error : TreeError) (path : Text)
  /-- All names that were tried for a scratch directory are taken. -/
  | scratchNamesTaken
  /-- A directory cannot be moved into itself. -/
  | intoItself (source target : Text)
  /-- A directory is moved onto itself by names that only stand for it. -/
  | unmovable (source target : Text)
  /-- The target of a move is taken. -/
  | targetTaken (target : Text)
  /-- A directory cannot be removed at the moment. -/
  | busy
  /-- A file cannot be removed at the moment. -/
  | locked
  /-- A setting has a value of the wrong form. -/
  | badSetting
  /-- A setting that holds a list is not written as one. -/
  | unreadableSetting
  deriving DecidableEq, Repr

namespace Failure

/-- What sort of failure a cause is. -/
inductive Kind where
  /-- Wrong or missing inputs. -/
  | configuration
  /-- The target exists already. -/
  | conflict
  /-- A value outside the domain of an operation. -/
  | value
  /-- A thing of another type. -/
  | type
  /-- A thing that is not there. -/
  | absence
  /-- A missing key. -/
  | lookup
  /-- Bytes that are no text. -/
  | decoding
  /-- A refusal by the file tree. -/
  | system
  /-- Text that the markup parser rejects. -/
  | rejection
  /-- An expression that cannot be searched for. -/
  | pattern
  /-- A number that is too large to count with. -/
  | overflow
  /-- Nesting beyond the limit. -/
  | nesting
  /-- An archive that cannot be unpacked. -/
  | damage
  /-- Settings that are not valid. -/
  | validation
  /-- Settings that cannot be read. -/
  | settings
  deriving DecidableEq, Repr

/-- The sort of a cause. -/
def kind : Failure → Kind
  | badToken .. | badCount .. | bothForms | malformedTag .. | unclosedElement .. | noContainer
  | archiveMissing .. | archiveUnreadable .. | archiveIncomplete .. | deckMissing
      .. | pageMissing .. =>
    .configuration
  | deckExists .. => .conflict
  | numeralTooLong .. | unsearchableName (.numeral _) | numberTooLong | emptyStack
      .. | noSuchLine | negativeCount => .value
  | unknownGroup .. | layoutMissing => .type
  | reportMissing => .absence
  | noSuchStep .. => .lookup
  | undecodable .. => .decoding
  | refused .. | scratchNamesTaken | intoItself .. | unmovable .. | targetTaken
      .. | busy | locked => .system
  | rejectedMarkup => .rejection
  | unsearchableName (.malformed ..) => .pattern
  | unsearchableName .tooManyTimes => .overflow
  | nestedTooDeep => .nesting
  | archiveDamaged .. => .damage
  | badSetting => .validation
  | unreadableSetting => .settings

/-- Whether a run reports a failure as its own: wrong inputs, or a conflict with what is there. -/
def isReported (f : Failure) : Bool := f.kind = .configuration || f.kind = .conflict

/-- Whether the file tree is at fault. -/
def isSystem (f : Failure) : Bool := f.kind = .system

/-- Whether a value is at fault; a text that cannot be decoded is one. -/
def isValue (f : Failure) : Bool := f.kind = .value || f.kind = .decoding

/-- The wording of a cause. -/
def message : Failure → Text
  | badToken marker token =>
    "Structure values must be positive integers or \"".toList ++ marker
      ++ "\" for dividers: invalid token '".toList ++ token ++ "'".toList
  | badCount shown =>
    "Slide count must be at least 1: invalid value '".toList ++ shown ++ "'".toList
  | bothForms => "Cannot use both --slides and --structure. Choose one.".toList
  | numeralTooLong digits | unsearchableName (.numeral digits) =>
    "Exceeds the limit (4300 digits) for integer string conversion: value has ".toList
      ++ Text.ofNat digits
      ++ " digits; use sys.set_int_max_str_digits() to increase the limit".toList
  | numberTooLong =>
    "Exceeds the limit (4300 digits) for integer string conversion; use sys.set_int_max_str_digits() to increase the limit".toList
  | emptyStack size => "Stack size must be a positive integer, got ".toList ++ Text.ofInt size
  | unknownGroup shown => "Unknown slide group: ".toList ++ shown
  | noSuchLine => "substring not found".toList
  | rejectedMarkup => []
  | malformedTag name => "Malformed <".toList ++ name ++ "> tag in template markup".toList
  | unclosedElement name => "Unclosed <".toList ++ name ++ "> in template markup".toList
  | unsearchableName (.malformed wording position) =>
    wording ++ match position with
      | some p => " at position ".toList ++ Text.ofNat p
      | none => []
  | unsearchableName .tooManyTimes => "the repetition number is too large".toList
  | noContainer => "Template markup has no .slides container".toList
  | nestedTooDeep => []
  | archiveMissing archive => "Template zip not found at ".toList ++ archive.toText
  | archiveUnreadable archive =>
    "Template archive is not a zip file: ".toList ++ archive.toText
  | archiveIncomplete archive missing =>
    "Template archive ".toList ++ archive.toText ++ " is missing: ".toList
      ++ Text.join ", ".toList missing
  | archiveDamaged _ wording => wording
  | deckExists deck => "Deck folder already exists: ".toList ++ deck.toText
  | deckMissing deck => "Deck path does not exist: ".toList ++ deck.toText
  | pageMissing entry deck => entry ++ " not found in ".toList ++ deck
  | layoutMissing => "'NoneType' object is not iterable".toList
  | reportMissing => []
  | noSuchStep step => Text.quote step
  | negativeCount => "negative argument not allowed".toList
  | undecodable error => error.message
  | refused error path =>
    "[Errno ".toList ++ Text.ofNat error.code ++ "] ".toList ++ error.message ++ ": ".toList
      ++ Text.quote path
  | scratchNamesTaken => "[Errno 17] No usable temporary directory name found".toList
  | intoItself source target =>
    "Cannot move a directory '".toList ++ source ++ "' into itself '".toList ++ target ++
      "'.".toList
  | unmovable source target =>
    "[Errno 16] Device or resource busy: ".toList ++ Text.quote source ++ " -> ".toList
      ++ Text.quote target
  | targetTaken target => "Destination path '".toList ++ target ++ "' already exists".toList
  | busy => "busy".toList
  | locked => "locked".toList
  | badSetting => []
  | unreadableSetting => []

end Failure

end SlideDeck
