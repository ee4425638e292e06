import WeaveStep.CommandLine.Grammar

/-! # Usage and help

How a command's usage and its help page are laid out, given the number of columns of the terminal.

* `fill`: sets pieces of text into lines, none of which is ever broken; the usage is set by it.
* `wrap`: sets a text into lines of some width; a word longer than a line is broken.
* `Grammar.usage`: how the command is called. `Grammar.help`: the whole page. -/

namespace WeaveStep.CommandLine

open Text

/-! ## Lines of pieces -/

/-- Lines being set: those that are full, the line at hand, and the column at its end. -/
structure Setting where
  full : List String := []
  line : String := ""
  column : Nat

/-- Sets a piece, on a new line if it does not fit; lines after the first begin at column
`indent`. -/
def Setting.add (limit indent : Nat) (s : Setting) (piece : String) : Setting :=
  let gap := if s.line = "" then "" else " "
  let column := s.column + gap.length + piece.length
  if s.line ≠ "" ∧ limit < column then ⟨s.full ++ [s.line], piece, indent + piece.length⟩
  else ⟨s.full, s.line ++ gap ++ piece, column⟩

/-- The lines of pieces; the first line begins at column `first`. -/
def fill (limit first indent : Nat) (pieces : List String) : List String :=
  let s := pieces.foldl (Setting.add limit indent) { column := first }
  if s.line = "" then s.full else s.full ++ [s.line]

/-! ## Lines of a text -/

/-- The parts of a word, which may be parted after a hyphen between letters. -/
def wordParts : List Char → List Char → List (List Char)
  | begun, [] => [begun.reverse]
  | begun, c :: rest =>
    if c = '-' && begun.head?.any Char.isAlpha && rest.head?.any Char.isAlpha then
      (c :: begun).reverse :: wordParts [] rest
    else wordParts (c :: begun) rest

/-- The chunks of a text: the parts of its words, and the blanks between the words. -/
def chunksOf (text : String) : List (List Char) :=
  [[' ']].intercalate ((splitAt ' ' text).map fun word => wordParts [] word.toList)

/-- Whether nothing is to be seen of a chunk. -/
def isBlankChunk (chunk : List Char) : Bool := chunk.all (· = ' ')

/-- The chunks that fit into so many columns, and the others. -/
def fitting (room : Nat) : List (List Char) → List (List Char) × List (List Char)
  | [] => ([], [])
  | chunk :: rest =>
    if chunk.length ≤ room then
      let (line, rest) := fitting (room - chunk.length) rest
      (chunk :: line, rest)
    else ([], chunk :: rest)

/-- The chunks of a line and those after it. A chunk that fits no line fills up this one. -/
def takeLine (width : Nat) (chunks : List (List Char)) : List (List Char) × List (List Char) :=
  match fitting width chunks with
  | (line, chunk :: rest) =>
    if width < chunk.length then
      let space := width - line.flatten.length
      (line ++ [chunk.take space], chunk.drop space :: rest)
    else (line, chunk :: rest)
  | (line, []) => (line, [])

/-- The lines of chunks, at most `most` of them. A blank does not begin a line, the first one apart,
and the last chunk of a line is left out if it is blank. -/
def linesOfChunks (width : Nat) (isFirst : Bool) (most : Nat) (chunks : List (List Char)) :
    List String :=
  match most, chunks with
  | 0, _ | _, [] => []
  | most + 1, chunk :: rest =>
    let (line, rest) := takeLine width (if !isFirst && isBlankChunk chunk then rest else chunk :: rest)
    match if line.getLast?.any isBlankChunk then line.dropLast else line with
    | [] => linesOfChunks width isFirst most rest
    | line => String.ofList line.flatten :: linesOfChunks width false most rest

/-- The lines of a text of some width. -/
def wrap (width : Nat) (text : String) : List String :=
  linesOfChunks width true (2 * text.length + 1) (chunksOf text)

/-- So many blanks. -/
def blanks (n : Nat) : String := String.ofList (List.replicate n ' ')

/-! ## Usage -/

/-- The room for text in a terminal of so many columns. -/
def room (columns : Nat) : Nat := columns - 2

/-- The least width of a text. -/
def leastWidth : Nat := 11

/-- A text set into lines. -/
def paragraph (columns : Nat) (text : String) : String :=
  "\n".intercalate (wrap (max (room columns) leastWidth) text)

/-- What stands in front of the usage. -/
def usageLabel : String := "usage: "

variable {α : Type}

/-- The placeholder for an option's value, with the blank in front of it. -/
def CommandOption.placeholder (o : CommandOption α) : List String :=
  match o.effect with
  | .value placeholder _ => [placeholder]
  | _ => []

/-- How an option is shown in the usage. -/
def CommandOption.usageParts (o : CommandOption α) : List String :=
  let parts := o.names.take 1 ++ o.placeholder
  if o.required then parts else ["[" ++ " ".intercalate parts ++ "]"]

namespace Grammar

variable (g : Grammar α)

/-- The commands to choose from. -/
def choice : String := "\x7b" ++ ",".intercalate (g.commands.map (·.1)) ++ "\x7d"

/-- How the options are shown in the usage. -/
def optionParts : List String := g.options.flatMap (·.usageParts)

/-- How the commands are shown in the usage. -/
def commandParts : List String := if g.commands.isEmpty then [] else [g.choice, "..."]

/-- Lines of the usage that are too long for one line; options and commands are set apart. -/
def usageLines (width : Nat) : List String :=
  let label := usageLabel.length
  let set := fill width
  if 4 * (label + g.program.length) ≤ 3 * width then
    let indent := label + g.program.length + 1
    match set label indent (g.program :: g.optionParts) ++ set indent indent g.commandParts with
    | [] => []
    | first :: rest => first :: rest.map (blanks indent ++ ·)
  else
    let together := set label label (g.optionParts ++ g.commandParts)
    let lines :=
      if together.length ≤ 1 then together
      else set label label g.optionParts ++ set label label g.commandParts
    g.program :: lines.map (blanks label ++ ·)

/-- How the command is called. -/
def usage (columns : Nat) : String :=
  let width := max (room columns) leastWidth
  let line := " ".intercalate (g.program :: g.optionParts ++ g.commandParts)
  usageLabel ++
    (if usageLabel.length + line.length ≤ width then line
    else "\n".intercalate (g.usageLines width))

end Grammar

/-! ## Help -/

/-- An entry of the page: what it is called, how far that is indented, and what it is about. -/
structure Entry where
  indent : Nat := 2
  head : String
  about : String

/-- The lines of an entry whose text begins at column `position`. -/
def Entry.lines (width position : Nat) (e : Entry) : List String :=
  let about := wrap (max (width - position) leastWidth) e.about
  let headWidth := position - e.indent - 2
  let further := about.map (blanks position ++ ·)
  if e.head.length ≤ headWidth then
    (blanks e.indent ++ e.head ++ blanks (headWidth - e.head.length + 2) ++ about.headD "") ::
      further.drop 1
  else (blanks e.indent ++ e.head) :: further

namespace Grammar

variable (g : Grammar α)

/-- The entries of the commands. -/
def commandEntries : List Entry :=
  if g.commands.isEmpty then []
  else ⟨2, g.choice, "Command to run"⟩ :: g.commands.map fun c => ⟨4, c.1, c.2⟩

/-- The entries of the options. -/
def optionEntries : List Entry :=
  g.options.map fun o =>
    ⟨2, ", ".intercalate (o.names.map fun n => " ".intercalate (n :: o.placeholder)), o.about⟩

/-- The page that explains the command. -/
def help (columns : Nat) : String :=
  let width := room columns
  let longest := ((g.commandEntries ++ g.optionEntries).map (·.head.length)).foldl max 0
  let position := min (longest + 4) (min 24 (max (width - 20) 4))
  let block (title : String) (entries : List Entry) :=
    if entries.isEmpty then []
    else ["\n".intercalate ((title ++ ":") :: entries.flatMap (·.lines width position))]
  let description :=
    if g.description = "" then [] else [paragraph columns g.description]
  "\n\n".intercalate ([g.usage columns] ++ description ++
    block "positional arguments" g.commandEntries ++ block "options" g.optionEntries) ++ "\n"

end Grammar

end WeaveStep.CommandLine
