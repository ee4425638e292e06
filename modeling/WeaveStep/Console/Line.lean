import WeaveStep.Diagnostic
import WeaveStep.Text.Digit
import WeaveStep.Text.Split
import WeaveStep.Text.Word

/-! # Lines of the weaver's console

What a single line of console text is.

* `tagged?`: a line with a bracketed tag, `[error] text` or `file:line [error] text`. A location is
  looked for first, and the shortest one that a tag follows is taken.
* `isWeaveInfo`: a sentence that tells what was woven.
* `isSummary`: a count of errors and warnings.

All three work on characters; blanks, digits and words are those of every script. -/

namespace WeaveStep.Console

open Text

/-- A line with a tag, taken apart. -/
structure Tagged where
  location : Option String
  tag : String
  text : String
  deriving DecidableEq, Repr

/-- Whether a character is the small ASCII letter `letter` in some form: both cases, and for the i
also the dotless small and the dotted capital one. -/
def isForm (letter c : Char) : Bool :=
  c = letter || c = letter.toUpper || (letter = 'i' && (c = 'ı' || c = 'İ'))

/-- The front of the text that spells `word`, and what follows it. -/
def spelled? : List Char → List Char → Option (List Char × List Char)
  | [], s => some ([], s)
  | _ :: _, [] => none
  | letter :: word, c :: s =>
    if isForm letter c then (spelled? word s).map fun (front, after) => (c :: front, after) else none

/-- The text of a message after its tag: one blank after the tag does not count, and a message has
one line. -/
def message? (s : List Char) : Option (List Char) :=
  let text :=
    match s with
    | c :: rest => if isBlank c then rest else c :: rest
    | [] => []
  if text.contains '\n' then none else some text

/-- A tag in brackets with its message. -/
def tagAndText? : List Char → Option (List Char × List Char)
  | '[' :: s => do
    let (tag, after) ← spelled? "error".toList s <|> spelled? "warning".toList s
    match after with
    | ']' :: rest => return (tag, ← message? rest)
    | _ => none
  | _ => none

/-- A colon with digits after it, and what follows them. -/
def number? : List Char → Option (List Char × List Char)
  | ':' :: s =>
    if (s.takeWhile isDigit).isEmpty then none
    else some (':' :: s.takeWhile isDigit, s.dropWhile isDigit)
  | _ => none

/-- A line number, perhaps with a column, and what follows. -/
def lineNumber? (s : List Char) : Option (List Char × List Char) := do
  let (line, after) ← number? s
  match number? after with
  | some (column, after) => return (line ++ column, after)
  | none => return (line, after)

/-- A line number, blanks, and a tag with its message. -/
def numberAndTag? (s : List Char) : Option (List Char × List Char × List Char) := do
  let (number, after) ← lineNumber? s
  match after with
  | c :: _ => if isBlank c then pure () else none
  | [] => none
  let (tag, text) ← tagAndText? (after.dropWhile isBlank)
  return (number, tag, text)

/-- The shortest file name in front of a line number and a tag; a file name has one line. -/
def located? : List Char → Option (List Char × List Char × List Char)
  | [] => none
  | c :: rest =>
    match numberAndTag? (c :: rest) with
    | some found => some found
    | none =>
      if c = '\n' then none
      else (located? rest).map fun (location, tag, text) => (c :: location, tag, text)

/-- The location in front of a tag, the tag and its message; a location does not begin with a
blank. -/
def locatedTag? : List Char → Option (List Char × List Char × List Char)
  | [] => none
  | c :: rest =>
    if isBlank c then none
    else (located? rest).map fun (location, tag, text) => (c :: location, tag, text)

/-- A trimmed line with a tag. -/
def tagged? (line : List Char) : Option Tagged :=
  match locatedTag? line with
  | some (location, tag, text) =>
    some ⟨some (String.ofList location), String.ofList tag, String.ofList text⟩
  | none =>
    (tagAndText? line).map fun (tag, text) => ⟨none, String.ofList tag, String.ofList text⟩

/-! ## Weave information -/

/-- What a sentence of weave information begins with. -/
def weaveInfoOpenings : List String :=
  ["Join point ", "Extending interface ", "Type '", "Mixing interface "]

/-- Whether a line, blanks at its start included, is weave information. -/
def isWeaveInfo (line : List Char) : Bool := weaveInfoOpenings.any fun s => startsWith s.toList line

/-! ## Summaries -/

/-- A number and a blank space, and what follows. -/
def count? (s : List Char) : Option (List Char) :=
  if (s.takeWhile isDigit).isEmpty then none else after? [' '] (s.dropWhile isDigit)

/-- Whether a list of further counts, each after a comma, makes up the text. -/
def isFurtherCounts (s : List Char) : Bool :=
  match s with
  | [] => true
  | c :: rest =>
    match after? [',', ' '] (c :: rest) with
    | none => false
    | some counted =>
      match count? counted with
      | none => false
      | some named =>
        !(named.takeWhile isWord).isEmpty &&
          (if (named.dropWhile isWord).length < (c :: rest).length then
            isFurtherCounts (named.dropWhile isWord)
          else false)
termination_by s.length
decreasing_by assumption

/-- Whether a trimmed line counts errors or warnings, and perhaps more. -/
def isSummary (line : List Char) : Bool :=
  match count? line with
  | none => false
  | some rest =>
    match after? "error".toList rest <|> after? "warning".toList rest with
    | none => false
    | some rest => isFurtherCounts ((after? ['s'] rest).getD rest)

end WeaveStep.Console
