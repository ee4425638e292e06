import WeaveStep.CommandLine.Page
import WeaveStep.Files.Path

/-! # The commands

What can be commanded: to weave, or to fetch the weaver.

* `WeaveOptions`, `FetchOptions`: what the options of either command say.
* `Call.read`: the command that arguments give, or the reason for which there is none. -/

namespace WeaveStep.CommandLine

open Text

/-- The version of the program. -/
def programVersion : String := "0.1.0"

/-- What the program is called. -/
def programName : String := "aspectweave"

/-! ## Options -/

/-- The path that an option gives, or nothing where it is used without a value. -/
abbrev GivenPath := Option Path

/-- The path that a value writes. -/
def writtenPath (v : Option String) : GivenPath := v.map .ofString

/-- What a weave is to do. -/
structure WeaveOptions where
  inputs : List GivenPath := []
  referenced : List GivenPath := []
  output : GivenPath := none
  /-- The file of the settings, if the option is used. -/
  settings : Option GivenPath := none
  project : GivenPath
  javaClasspath : Option String := none
  log : Option Path := none
  verbose : Bool := false
  quiet : Bool := false

/-- What a fetch is to do. -/
structure FetchOptions where
  /-- The file of the settings, if the option is used. -/
  settings : Option GivenPath := none
  project : GivenPath
  verbose : Bool := false

/-- The option that explains a command. -/
def helpOption {α : Type} : CommandOption α where
  names := ["-h", "--help"]
  effect := .help
  about := "show this help message and exit"

/-- What is said about the project's option. -/
def aboutProject : String := "Project directory (default: current directory)"

/-- What is said about the option that asks for more output. -/
def aboutVerbose : String := "Show verbose output"

/-- How a weave is commanded. -/
def weaveGrammar : Grammar WeaveOptions where
  program := programName ++ " weave"
  options := [
    helpOption,
    { names := ["-i", "--input"]
      effect := .value "INPUTS" fun v o => { o with inputs := o.inputs ++ [writtenPath v] }
      about := "Primary input: class directory or jar (repeatable)" },
    { names := ["-r", "--referenced"]
      effect := .value "REFERENCED" fun v o => { o with referenced := o.referenced ++ [writtenPath v] }
      about := "Referenced-only input used as classpath (repeatable)" },
    { names := ["-o", "--output"]
      effect := .value "OUTPUT" fun v o => { o with output := writtenPath v }
      required := true
      about := "Output root directory" },
    { names := ["-c", "--config"]
      effect := .value "CONFIG" fun v o => { o with settings := some (writtenPath v) }
      about := "Path to aspectj.ini (default: <project-dir>/aspectj.ini if present)" },
    { names := ["--project-dir"]
      effect := .value "PROJECT_DIR" fun v o => { o with project := writtenPath v }
      about := aboutProject },
    { names := ["--java-classpath"]
      effect := .value "JAVA_CLASSPATH" fun v o => { o with javaClasspath := v }
      about := "Java compile classpath searched for rt.jar" },
    { names := ["--log-file"]
      effect := .value "LOG_FILE" fun v o => { o with log := writtenPath v }
      about := "Also write a detailed log to this file" },
    { names := ["-v", "--verbose"]
      effect := .flag fun o => { o with verbose := true }
      about := aboutVerbose },
    { names := ["-q", "--quiet"]
      effect := .flag fun o => { o with quiet := true }
      about := "Only show quiet-level messages and errors" }]

/-- How a fetch is commanded. -/
def fetchGrammar : Grammar FetchOptions where
  program := programName ++ " fetch"
  options := [
    helpOption,
    { names := ["-c", "--config"]
      effect := .value "CONFIG" fun v o => { o with settings := some (writtenPath v) }
      about := "Path to aspectj.ini" },
    { names := ["--project-dir"]
      effect := .value "PROJECT_DIR" fun v o => { o with project := writtenPath v }
      about := aboutProject },
    { names := ["-v", "--verbose"]
      effect := .flag fun o => { o with verbose := true }
      about := aboutVerbose }]

/-- How the program is called: the options in front of a command. -/
def programGrammar : Grammar Unit where
  program := programName
  description := "aspectweave - AspectJ binary weaving for Android builds"
  options := [
    helpOption,
    { names := ["--version"]
      effect := .version
      about := "show program's version number and exit" }]
  commands := [
    ("weave", "Weave aspects into compiled classes"),
    ("fetch", "Download the AspectJ weaver jar into the cache")]

/-! ## Calls -/

/-- A command with its options. -/
inductive Call
  | weave (options : WeaveOptions)
  | fetch (options : FetchOptions)

/-- What the program says instead of doing something. -/
inductive Answer
  | page (text : String)
  | misuse (usage program message : String)

/-- The answer where reading by a grammar stops. -/
def Grammar.answer {α : Type} (g : Grammar α) (columns : Nat) : Stop → Answer
  | .help => .page (g.help columns)
  | .version => .page (paragraph columns (programName ++ " " ++ programVersion) ++ "\n")
  | .misuse message => .misuse (g.usage columns) g.program message

/-- The arguments in front of a command and the command with its own; two dashes count as a command
where anything follows them. -/
def splitCommand : List (String × Token Unit) → List (String × Token Unit) × List String
  | [] => ([], [])
  | (s, .plain) :: rest => ([], s :: rest.map (·.1))
  | (s, .separator) :: next :: rest => ([], s :: next.1 :: rest.map (·.1))
  | t :: rest => ((t :: (splitCommand rest).1), (splitCommand rest).2)

/-- The complaint about arguments that nothing takes. -/
def unrecognized (arguments : List String) : Stop :=
  .misuse ("unrecognized arguments: " ++ " ".intercalate arguments)

/-- The complaint about a command that there is not. -/
def invalidChoice (command : String) : Stop :=
  .misuse ("argument command: invalid choice: " ++ quoted command ++ " (choose from " ++
    ", ".intercalate (programGrammar.commands.map (quoted ·.1)) ++ ")")

/-- Reads the options of a command; nothing may be left over, here or in front of the command. -/
def readOptions {α : Type} (g : Grammar α) (columns : Nat) (start : α)
    (leftOver arguments : List String) : Except Answer α := do
  let a ← (g.read start arguments).mapError (g.answer columns)
  if leftOver ++ a.leftOver ≠ [] then
    throw (programGrammar.answer columns (unrecognized (leftOver ++ a.leftOver)))
  return a.value

/-- The call that arguments write, for a terminal of so many columns. Without a command there is
only the program's help. -/
def Call.read (columns : Nat) (workingDirectory : Path) (arguments : List String) :
    Except Answer Call := do
  let own := programGrammar.answer columns
  let (front, command) := splitCommand (← (tokens programGrammar arguments).mapError own)
  let before ← (programGrammar.gather ⟨(), [], []⟩ front).mapError own
  match command with
  | "weave" :: rest =>
    .weave <$> readOptions weaveGrammar columns { project := some workingDirectory } before.leftOver rest
  | "fetch" :: rest =>
    .fetch <$> readOptions fetchGrammar columns { project := some workingDirectory } before.leftOver rest
  | other :: _ => throw (own (invalidChoice other))
  | [] =>
    if before.leftOver ≠ [] then throw (own (unrecognized before.leftOver))
    throw (own .help)

end WeaveStep.CommandLine
