import WeaveStep.Text.Blank
import WeaveStep.Text.LetterCase
import WeaveStep.Text.Quoted
import WeaveStep.Files.Failure

/-! # INI documents

What a settings file says: sections of keys, a key with a value or alone. The keys of the default
section are seen from every section.

* `Document.value?`: the value a section gives a key, before references are replaced.
* `readLines`: the document that some lines spell, or the first reason why they spell none. The
  reader goes through the lines once; `Reading` is what it knows between two lines. -/

namespace WeaveStep.Ini

open Text

/-- The section whose keys every section has. -/
def defaultSection : String := "DEFAULT"

/-- The keys of a section in order; a key alone has no value. -/
abbrev Entries := List (String × Option String)

/-- Sections by name, in order of their first appearance. -/
structure Document where
  sections : List (String × Entries)

namespace Document

/-- The section's own keys. -/
def entries (d : Document) (name : String) : Entries := (d.sections.lookup name).getD []

/-- Whether there is such a section; the default section always is. -/
def hasSection (d : Document) (name : String) : Bool :=
  name = defaultSection || (d.sections.lookup name).isSome

/-- What a section says of a key: its own word, else that of the default section. -/
def value? (d : Document) (name key : String) : Option (Option String) :=
  (d.entries name).lookup key <|> (d.entries defaultSection).lookup key

end Document

/-! ## Why lines spell no document -/

/-- Why lines spell no document. -/
inductive ReadFailure
  /-- A line that belongs to no section. -/
  | noSectionHeader (number : Nat) (line : String)
  | duplicateSection (number : Nat) (name : String)
  | duplicateKey (number : Nat) (name key : String)
  /-- Lines without a key before the delimiter. -/
  | malformed (lines : List (Nat × String))
  deriving DecidableEq, Repr

/-- A number at least two places wide. -/
def padded (n : Nat) : String := (if n < 10 then " " else "") ++ toString n

/-- The text of a failure in the file `path`. -/
def ReadFailure.message (path : String) : ReadFailure → String
  | noSectionHeader number line =>
    "File contains no section headers.\nfile: " ++ shownPath path ++ ", line: " ++
      toString number ++ "\n" ++ quoted line
  | duplicateSection number name =>
    "While reading from " ++ shownPath path ++ " [line " ++ padded number ++ "]: section " ++
      quoted name ++ " already exists"
  | duplicateKey number name key =>
    "While reading from " ++ shownPath path ++ " [line " ++ padded number ++ "]: option " ++
      quoted key ++ " in section " ++ quoted name ++ " already exists"
  | malformed lines =>
    "Source contains parsing errors: " ++ shownPath path ++
      String.join (lines.map fun (number, line) =>
        "\n\t[line " ++ padded number ++ "]: " ++ quoted line)

/-- The name of the kind of failure. -/
def ReadFailure.kind : ReadFailure → String
  | noSectionHeader _ _ => "MissingSectionHeaderError"
  | duplicateSection _ _ => "DuplicateSectionError"
  | duplicateKey _ _ _ => "DuplicateOptionError"
  | malformed _ => "ParsingError"

/-- Why reading stopped: a failure, or an indented line below a key that has no value to go on. -/
inductive Stop
  | failure (why : ReadFailure)
  | nothingToContinue
  deriving DecidableEq, Repr

/-! ## Lines -/

/-- The name in a section header: what stands between a bracket at the start of the line and the
last closing bracket, which must not be nothing. -/
def headerName? : List Char → Option (List Char)
  | '[' :: rest =>
    let name := (rest.reverse.dropWhile (· ≠ ']')).drop 1
    if name.isEmpty then none else some name.reverse
  | _ => none

/-- A character between a key and its value. -/
def isDelimiter (c : Char) : Bool := c = '=' || c = ':'

/-- The key of an option line and its value, if there is a delimiter. -/
def keyAndValue (line : List Char) : List Char × Option (List Char) :=
  let key := trimRightChars (line.takeWhile (!isDelimiter ·))
  match line.dropWhile (!isDelimiter ·) with
  | [] => (key, none)
  | _ :: value => (key, some (trimChars value))

/-- Whether a trimmed line is a comment. -/
def isComment : List Char → Bool
  | '#' :: _ => true
  | ';' :: _ => true
  | _ => false

/-- The number of blanks a line begins with. -/
def indentation (line : List Char) : Nat := (line.takeWhile isBlank).length

/-! ## Reading -/

/-- A key with the lines of its value so far. -/
structure Draft where
  key : String
  lines : Option (List (List Char))

/-- What the reader knows between two lines. -/
structure Reading where
  sections : List (String × List Draft) := []
  /-- The section that keys belong to. -/
  open? : Option String := none
  /-- The key that indented lines belong to. -/
  key? : Option String := none
  /-- The indentation of the last line that was no continuation. -/
  indent : Nat := 0
  malformed : List (Nat × String) := []

namespace Reading

/-- Changes the section of that name. -/
def onSection (r : Reading) (name : String) (f : List Draft → List Draft) : Reading :=
  { r with sections := r.sections.map fun s => if s.1 = name then (s.1, f s.2) else s }

/-- The drafts of the section of that name. -/
def drafts (r : Reading) (name : String) : List Draft := (r.sections.lookup name).getD []

/-- The draft that an indented line goes on, unless the last key is the empty one. -/
def continued? (r : Reading) : Option (String × Draft) :=
  match r.open?, r.key? with
  | some name, some key =>
    if key = "" then none
    else ((r.drafts name).find? (·.key = key)).map fun draft => (name, draft)
  | _, _ => none

/-- Adds a line to the value of a key. -/
def extend (r : Reading) (name key : String) (line : List Char) : Reading :=
  r.onSection name fun drafts =>
    drafts.map fun d => if d.key = key then { d with lines := d.lines.map (· ++ [line]) } else d

/-- Takes in a blank line, which is part of the value it follows. -/
def blank (r : Reading) : Reading :=
  match r.continued? with
  | some (name, draft) => r.extend name draft.key []
  | none => r

/-- Takes in a section header. -/
def header (r : Reading) (number : Nat) (name : String) : Except ReadFailure Reading :=
  let r := { r with open? := some name, key? := none }
  if (r.sections.lookup name).isNone then .ok { r with sections := r.sections ++ [(name, [])] }
  else if name = defaultSection then .ok r
  else .error (.duplicateSection number name)

/-- Takes in a line with a key. -/
def option (r : Reading) (number : Nat) (name : String) (line text : List Char) :
    Except ReadFailure Reading :=
  let (raw, value) := keyAndValue text
  let key := smallLetters (String.ofList raw)
  let r :=
    if raw.isEmpty then { r with malformed := r.malformed ++ [(number, String.ofList line)] } else r
  if (r.drafts name).any (·.key = key) then .error (.duplicateKey number name key)
  else
    .ok { r.onSection name (· ++ [⟨key, value.map fun v => [v]⟩]) with key? := some key }

/-- Takes in one line, with its line end. -/
def line (r : Reading) (number : Nat) (line : List Char) : Except Stop Reading :=
  let text := trimChars line
  if text.isEmpty then .ok r.blank
  else if isComment text then .ok r
  else
    let depth := indentation line
    match if r.indent < depth then r.continued? else none with
    | some (_, ⟨_, none⟩) => .error .nothingToContinue
    | some (name, ⟨key, some _⟩) => .ok (r.extend name key text)
    | none =>
      let r := { r with indent := depth }
      match headerName? text, r.open? with
      | some name, _ => (r.header number (String.ofList name)).mapError .failure
      | none, none => .error (.failure (.noSectionHeader number (String.ofList line)))
      | none, some name => (r.option number name line text).mapError .failure

/-- The lines of a value as one text. -/
def joined (lines : List (List Char)) : String :=
  String.ofList (trimRightChars (['\n'].intercalate lines))

/-- The document read so far. -/
def document (r : Reading) : Document :=
  ⟨r.sections.map fun (name, drafts) =>
    (name, drafts.map fun d => (d.key, d.lines.map joined))⟩

/-- Takes in lines, the first of which has the number `number`. -/
def lines (r : Reading) (number : Nat) : List (List Char) → Except Stop Reading
  | [] => .ok r
  | l :: rest => do (← r.line number l).lines (number + 1) rest

end Reading

/-- The document that lines spell, each line with its line end. -/
def readLines (lines : List (List Char)) : Except Stop Document := do
  let r ← ({} : Reading).lines 1 lines
  if r.malformed.isEmpty then return r.document else throw (.failure (.malformed r.malformed))

end WeaveStep.Ini
