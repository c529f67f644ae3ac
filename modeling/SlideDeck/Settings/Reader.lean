import SlideDeck.Failure
import SlideDeck.Record.Reader
import SlideDeck.Settings.Basic
import SlideDeck.Text.Lowercase

/-!
# Reading settings

Settings come from variables, first those of the environment and then those of a file of
assignments. A variable is named for its field, in any case, behind `variablePrefix`. The
environment may hold other variables; the file may not, unless they are empty.

Numbers are decimal integers with blanks around them, single underscores between digits and a
fraction of zeros; the list of artifacts is a record of strings. A list that is no record at all is
refused before anything else.
-/

namespace SlideDeck

/-- Variables with their values. -/
abbrev Variables := List (Text × Text)

namespace Variables

/-- Variables with their names in lower case. -/
def fold (vars : Variables) : Variables := vars.map fun (name, value) => (Text.lower name, value)

/-- The value that a variable is last given. -/
def last? (name : Text) (vars : Variables) : Option Text :=
  (vars.reverse.find? (·.1 = name)).map (·.2)

/-- What stands between two quotes, a backslash before the quote keeping it inside, and the rest. -/
def quotedValue? (mark : Char) : Text → Option (Text × Text)
  | [] => none
  | '\\' :: c :: r =>
    if c = mark then (quotedValue? mark r).map fun (v, rest) => (c :: v, rest)
    else (quotedValue? mark (c :: r)).map fun (v, rest) => ('\\' :: v, rest)
  | c :: r =>
    if c = mark then some ([], r) else (quotedValue? mark r).map fun (v, rest) => (c :: v, rest)

/-- A value without quotes, cut where a blank and a number sign start a comment. -/
def plainValue : Text → Text
  | [] => []
  | c :: r =>
    if Text.isBlank c && (r.dropWhile Text.isBlank).head? == some '#' then []
    else c :: plainValue r

/-- The variable that a line assigns, if it does. -/
def ofLine? (line : Text) : Option (Text × Text) :=
  let line := Text.stripLeft line
  let line := match line with
    | 'e' :: 'x' :: 'p' :: 'o' :: 'r' :: 't' :: c :: r =>
      if Text.isBlank c then Text.stripLeft r else line
    | _ => line
  let (name, rest) : Text × Text := match line with
    | '\'' :: r => (r.takeWhile (· ≠ '\''), (r.dropWhile (· ≠ '\'')).drop 1)
    | _ =>
      let stops (c : Char) : Bool := c = '=' || c = '#' || Text.isBlank c
      (line.takeWhile (!stops ·), line.dropWhile (!stops ·))
  if name = [] then none
  else match Text.stripLeft rest with
    | '=' :: r =>
      match Text.stripLeft r with
      | '\'' :: q => (quotedValue? '\'' q).map fun (v, _) => (name, v)
      | '"' :: q => (quotedValue? '"' q).map fun (v, _) => (name, v)
      | v => some (name, Text.stripRight (plainValue v))
    | _ => none

/-- The variables that a file of assignments sets, one a line. -/
def ofFile (s : Text) : Variables :=
  (Text.split '\n' (s.map fun c => if c = '\r' then '\n' else c)).filterMap ofLine?

end Variables

namespace Settings

/-- What the names of variables start with. -/
def variablePrefix : Text := "decksmith_".toList

/-- A setting. -/
inductive Field where
  | templateArchive
  | deckPrefix
  | markupEntry
  | assetLibrary
  | canonicalStylesheet
  | assetsDirname
  | ephemeralArtifacts
  | configMarker
  | dividerToken
  | defaultSlideCount
  | slugBytes
  deriving DecidableEq, Repr

/-- All settings. -/
def Field.all : List Field :=
  [.templateArchive, .deckPrefix, .markupEntry, .assetLibrary, .canonicalStylesheet, .assetsDirname,
    .ephemeralArtifacts, .configMarker, .dividerToken, .defaultSlideCount, .slugBytes]

/-- The name of a setting. -/
def Field.name : Field → Text
  | .templateArchive => "template_archive".toList
  | .deckPrefix => "deck_prefix".toList
  | .markupEntry => "markup_entry".toList
  | .assetLibrary => "asset_library".toList
  | .canonicalStylesheet => "canonical_stylesheet".toList
  | .assetsDirname => "assets_dirname".toList
  | .ephemeralArtifacts => "ephemeral_artifacts".toList
  | .configMarker => "config_marker".toList
  | .dividerToken => "divider_token".toList
  | .defaultSlideCount => "default_slide_count".toList
  | .slugBytes => "slug_bytes".toList

/-- The variable of a setting. -/
def Field.variable (f : Field) : Text := variablePrefix ++ f.name

/-- A run of ASCII digits with single underscores between them. -/
def groupedDigits? : Text → Option Text
  | [] => none
  | [c] => if c.isDigit then some [c] else none
  | c :: '_' :: r => if c.isDigit then (groupedDigits? r).map (c :: ·) else none
  | c :: r => if c.isDigit then (groupedDigits? r).map (c :: ·) else none

/-- A text without a point and zeros at its end. -/
def dropZeroFraction (s : Text) : Text :=
  match s.dropWhile (· ≠ '.') with
  | '.' :: r => if r.all (· = '0') then s.takeWhile (· ≠ '.') else s
  | _ => s

/-- The integer of a setting's value. -/
def integer? (s : Text) : Option Int :=
  let magnitude (r : Text) : Option Nat := do
    let ds ← groupedDigits? (dropZeroFraction r)
    (Numeral.read ds).toOption
  match Numeral.unpad s with
  | '-' :: r => (magnitude r).map fun n => -(n : Int)
  | '+' :: r => (magnitude r).map fun n => (n : Int)
  | r => (magnitude r).map fun n => (n : Int)

/-- The strings of a list, if it holds nothing else. -/
def strings? : Record.Value → Option (List Text)
  | .array items => items.mapM fun
    | .string s => some s
    | _ => none
  | _ => none

/-- The settings with a field set to what its variable holds. -/
def assign [Record.Nesting] (s : Settings) (f : Field) (value : Text) : Except Failure Settings :=
  let number (set : Int → Settings) : Except Failure Settings :=
    match integer? value with
    | some n => .ok (set n)
    | none => .error .badSetting
  match f with
  | .templateArchive => .ok { s with templateArchive := .ofText value }
  | .deckPrefix => .ok { s with deckPrefix := value }
  | .markupEntry => .ok { s with markupEntry := value }
  | .assetLibrary => .ok { s with assetLibrary := value }
  | .canonicalStylesheet => .ok { s with canonicalStylesheet := value }
  | .assetsDirname => .ok { s with assetsDirname := value }
  | .ephemeralArtifacts =>
    match Record.read value with
    | .error _ => .error .unreadableSetting
    | .ok v =>
      match strings? v with
      | some artifacts => .ok { s with ephemeralArtifacts := artifacts }
      | none => .error .badSetting
  | .configMarker => .ok { s with configMarker := value }
  | .dividerToken => .ok { s with dividerToken := value }
  | .defaultSlideCount => number fun n => { s with defaultSlideCount := n }
  | .slugBytes => number fun n => { s with slugBytes := n }

/-- The value of a field among some variables; a list written as null counts as not given. -/
def valueOf [Record.Nesting] (vars : Variables) (f : Field) : Except Failure (Option Text) :=
  match vars.last? f.variable with
  | none => .ok none
  | some value =>
    if f = .ephemeralArtifacts then
      match Record.read value with
      | .error _ => .error .unreadableSetting
      | .ok .null => .ok none
      | .ok _ => .ok (some value)
    else .ok (some value)

/-- Whether a variable of a file belongs to no field and has a value. -/
def isStray (v : Text × Text) : Bool :=
  v.2 != [] && !Field.all.any (fun f => f.variable = v.1 || f.name = v.1)

/-- The settings that the environment and a file of assignments make of the defaults. -/
def read [Record.Nesting] (base : Settings) (environment : Variables) (file : Text) :
    Except Failure Settings := do
  let environment := environment.fold
  let file := (Variables.ofFile file).fold
  let first ← Field.all.mapM (valueOf environment)
  let second ← Field.all.mapM (valueOf file)
  if file.any isStray then .error .badSetting
  (Field.all.zip (first.zip second)).foldlM
    (fun s (f, a, b) => match a.or b with
      | some value => s.assign f value
      | none => .ok s) base

end Settings

end SlideDeck
