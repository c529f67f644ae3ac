import SlideDeck.Markup.StartTag
import SlideDeck.Text.Position

/-!
# Markup events

Markup is read as a sequence of events, each with the position where its text starts: tags, pieces
of text, and remarks (comments, declarations, instructions), which are texts of their own.

The text is read in two rounds. The first stops where something might go on behind the end of the
text. The closing round goes on from there and takes as text what is not finished. A script or a
style sheet holds raw text up to its end tag; if that never comes, the rest of the text is lost.

One step of a round is `Step`: it takes some text, or the round stops. Every step that goes on takes
at least one character, so that the length of the text bounds the round.
-/

namespace SlideDeck.Markup

/-- What is found in markup. -/
inductive Event where
  /-- A start tag; a closed one ends its element, too. -/
  | startTag (name : Text) (attributes : Attributes) (closed : Bool)
  | endTag (name : Text)
  /-- A piece of text; neighbouring pieces belong together. -/
  | text (t : Text)
  /-- A text that stands for itself. -/
  | remark (t : Text)
  deriving Repr

/-- An event and where its text starts. -/
structure Located where
  position : Position
  event : Event
  deriving Repr

/-- Elements whose content is raw text. -/
def isRawElement (name : Text) : Bool := name = "script".toList || name = "style".toList

/-- What a step makes of the start of a text. -/
inductive Step where
  /-- An event, the element whose raw text begins, if one does, and the rest. -/
  | event (e : Event) (raw : Option Text) (rest : Text)
  /-- Nothing but a shorter rest. -/
  | skip (rest : Text)
  /-- The end of the round, possibly behind a piece of text. -/
  | stop (t : Text) (rest : Text)
  /-- Something that is not finished. -/
  | unfinished

/-- The rest behind an end tag of a name, its letters in either case, at the start of a text. -/
def skipEndTag (name : Text) (s : Text) : Option Text :=
  match s with
  | '<' :: '/' :: r =>
    let r := Text.stripLeft r
    if Text.startsWithLetters name r then
      match Text.stripLeft (r.drop name.length) with
      | '>' :: rest => some rest
      | _ => none
    else none
  | _ => none

/-- Whether a character may follow the first letter of the name of a plain end tag. -/
def isEndNameChar (c : Char) : Bool :=
  c.isAlphanum || c == '-' || c == '.' || c == ':' || c == '_'

/-- The name of an end tag that holds nothing else, and the rest. -/
def plainEndTag? (s : Text) : Option (Text × Text) :=
  match s with
  | '<' :: '/' :: r =>
    match Text.stripLeft r with
    | c :: r =>
      if c.isAlpha then
        match Text.stripLeft (r.dropWhile isEndNameChar) with
        | '>' :: rest => some (Text.lower (c :: r.takeWhile isEndNameChar), rest)
        | _ => none
      else none
    | [] => none
  | _ => none

/-- A remark up to a bracket, the text starting `skipped` characters in. -/
def remarkTo (s : Text) (skipped : Nat) : Step :=
  match upTo '>' (s.drop skipped) with
  | some (t, rest) => .event (.remark t) none rest
  | none => .unfinished

/-- Reads an end tag. -/
def endTagStep (s : Text) : Step :=
  match upTo '>' s with
  | none => .unfinished
  | some _ =>
    match plainEndTag? s with
    | some (name, rest) => .event (.endTag name) none rest
    | none =>
      match s.drop 2 with
      | c :: r =>
        if c.isAlpha then
          match upTo '>' (c :: r) with
          | some (_, rest) =>
            .event (.endTag (Text.lower ((c :: r).takeWhile (!endsTagName ·)))) none rest
          | none => .unfinished
        else if c = '>' then .skip r
        else remarkTo s 2
      | [] => .unfinished

/-- The rest behind two dashes, blanks and a bracket. -/
def skipCommentEnd : Text → Option Text
  | '-' :: '-' :: r =>
    match Text.stripLeft r with
    | '>' :: rest => some rest
    | _ => none
  | _ => none

/-- The rest behind a square bracket, blanks and a bracket. -/
def skipShortSectionEnd : Text → Option Text
  | ']' :: r =>
    match Text.stripLeft r with
    | '>' :: rest => some rest
    | _ => none
  | _ => none

/-- The rest behind two square brackets and a bracket with blanks between them. -/
def skipLongSectionEnd : Text → Option Text
  | ']' :: r => skipShortSectionEnd (Text.stripLeft r)
  | _ => none

/-- The remark up to an end that `skip` recognizes. -/
def remarkUntil (skip : Text → Option Text) (s : Text) (strip : Text → Text) : Step :=
  match Text.search skip s with
  | some (t, rest) => .event (.remark (strip t)) none rest
  | none => .unfinished

/-- The names of sections that end at two square brackets. -/
def longSections : List Text :=
  ["temp".toList, "cdata".toList, "ignore".toList, "include".toList, "rcdata".toList]

/-- The names of sections that end at one square bracket. -/
def shortSections : List Text := ["if".toList, "else".toList, "endif".toList]

/-- Whether a character may follow the first letter of a section's name. -/
def isSectionNameChar (c : Char) : Bool := c.isAlphanum || c == '-' || c == '_' || c == '.'

/-- A section's text without the mark of character data. -/
def stripCharacterData (t : Text) : Text :=
  if (t.take 6).map Char.toUpper = "CDATA[".toList then t.drop 6 else t

/-- Reads a section whose text is `s`, from its name on; other names than the known ones are
rejected. -/
def sectionStep (s : Text) : Except Failure Step :=
  match s with
  | [] => .ok .unfinished
  | c :: r =>
    if c.isAlpha then
      let name := (c :: r.takeWhile isSectionNameChar).map Char.toLower
      match Text.stripLeft (r.dropWhile isSectionNameChar) with
      | [] => .ok .unfinished
      | _ =>
        if longSections.contains name then .ok (remarkUntil skipLongSectionEnd s stripCharacterData)
        else if shortSections.contains name then
          .ok (remarkUntil skipShortSectionEnd s stripCharacterData)
        else .error .rejectedMarkup
    else .error .rejectedMarkup

/-- Reads a declaration. -/
def declarationStep (s : Text) : Except Failure Step :=
  if "<![".toList <+: s then sectionStep (s.drop 3)
  else if (s.take 9).map Char.toLower = "<!doctype".toList then
    match upTo '>' (s.drop 9) with
    | some (_, rest) =>
      match upTo '>' (s.drop 2) with
      | some (t, _) => .ok (.event (.remark (t.drop 8)) none rest)
      | none => .ok .unfinished
    | none => .ok .unfinished
  else .ok (remarkTo s 2)

/-- Reads a start tag. -/
def startTagStep (s : Text) : Except Failure Step := do
  let tag := StartTag.read s
  match tag.tagEnd with
  | .opened rest =>
    let raw := if isRawElement tag.name then some tag.name else none
    return .event (.startTag tag.name (← tag.attributes) false) raw rest
  | .closed rest => return .event (.startTag tag.name (← tag.attributes) true) none rest
  | .unfinished => return .unfinished
  | .broken rest => return .event (.text (s.take (s.length - rest.length))) none rest

/-- What an unfinished construct at the end of everything is: text up to the next closing bracket
and with it, else up to the next opening bracket, else one character. -/
def leftover (s : Text) : Step :=
  match s with
  | [] => .stop [] []
  | c :: r =>
    match upTo '>' r with
    | some (t, rest) => .event (.text (c :: t ++ ['>'])) none rest
    | none =>
      match r.dropWhile (· ≠ '<') with
      | [] => .event (.text [c]) none r
      | rest => .event (.text (c :: r.takeWhile (· ≠ '<'))) none rest

/-- What an opening bracket starts, finished or not. -/
def openedStep (s : Text) : Except Failure Step :=
  match s with
  | '<' :: c :: r =>
    if c.isAlpha then startTagStep s
    else if c = '/' then .ok (endTagStep s)
    else if "<!--".toList <+: s then .ok (remarkUntil skipCommentEnd (s.drop 4) id)
    else if c = '?' then .ok (remarkTo s 2)
    else if c = '!' then declarationStep s
    else .ok (.event (.text ['<']) none (c :: r))
  | _ => .ok (.stop [] s)

/-- A step that is not finished stops at what it has read, or passes it where no text is to come. -/
def Step.finish (closing : Bool) (s : Text) : Step → Step
  | .unfinished => if closing then leftover s else .stop [] s
  | step => step

/-- Reads what an opening bracket starts. -/
def bracketStep (closing : Bool) (s : Text) : Except Failure Step :=
  (openedStep s).map (Step.finish closing s)

/-- Reads what an ampersand starts. -/
def ampersandStep (closing : Bool) (s : Text) : Except Failure Step :=
  match s with
  | '&' :: '#' :: r =>
    match textNumber? r with
    | some (hex, digits, rest) => do
      return .event (.text [numbered (← readNumber hex digits)]) none rest
    | none => .ok (if ';' ∈ r then .stop ['&', '#'] r else .stop [] s)
  | '&' :: c :: r =>
    match textName? (c :: r) with
    | some (name, rest) => .ok (.event (.text (textNamed name)) none rest)
    | none =>
      if c.isAlpha then .ok (if closing ∧ r = [] then .stop [] [c] else .stop [] s)
      else .ok (.event (.text ['&']) none (c :: r))
  | _ => .ok (.stop [] s)

/-- Reads the raw text of an element up to the next thing that looks like its end tag. -/
def rawStep (name s : Text) : Step :=
  match Text.search (skipEndTag name) s with
  | none => .stop [] s
  | some ([], rest) =>
    match plainEndTag? s with
    | some (n, rest) => .event (.endTag n) none rest
    | none => .event (.text (s.take (s.length - rest.length))) (some name) rest
  | some (t, _) => .event (.text t) (some name) (s.drop t.length)

/-- Reads the start of a text, which is not empty; `raw` is the element whose raw text it is. -/
def step (closing : Bool) (raw : Option Text) (s : Text) : Except Failure Step :=
  match raw with
  | some name => .ok (rawStep name s)
  | none =>
    match s with
    | '<' :: _ => bracketStep closing s
    | '&' :: _ => ampersandStep closing s
    | _ =>
      let inside (c : Char) : Bool := c ≠ '<' && c ≠ '&'
      .ok (.event (.text (s.takeWhile inside)) none (s.dropWhile inside))

/-- What a round leaves: the position, the element whose raw text goes on, and the rest of the
text. -/
structure Pause where
  position : Position
  raw : Option Text
  rest : Text

/-- The events of a round from a position on, and what it leaves; at most `fuel` steps. -/
def round (closing : Bool) : Nat → Position → Option Text → Text →
    Except Failure (List Located × Pause)
  | 0, p, raw, s => .ok ([], ⟨p, raw, s⟩)
  | _, p, raw, [] => .ok ([], ⟨p, raw, []⟩)
  | fuel + 1, p, raw, s => do
    let behind (rest : Text) : Position := p.after (s.take (s.length - rest.length))
    match ← step closing raw s with
    | .event e raw rest =>
      let (events, pause) ← round closing fuel (behind rest) raw rest
      return (⟨p, e⟩ :: events, pause)
    | .skip rest => round closing fuel (behind rest) raw rest
    | .stop t rest =>
      return (if t = [] then [] else [⟨p, .text t⟩], ⟨behind rest, raw, rest⟩)
    | .unfinished => return ([], ⟨p, raw, s⟩)

/-- The events of a text. What the closing round leaves is text, unless it is the raw text of an
element. -/
def events (s : Text) : Except Failure (List Located) := do
  let (first, pause) ← round false (s.length + 1) .start none s
  let (second, pause) ← round true (s.length + 1) pause.position pause.raw pause.rest
  let last := if pause.raw.isSome ∨ pause.rest = [] then []
      else [⟨pause.position, .text pause.rest⟩]
  return first ++ second ++ last

end SlideDeck.Markup
