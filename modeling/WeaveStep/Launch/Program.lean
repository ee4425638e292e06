import WeaveStep.Files.Walk
import WeaveStep.Launch.Field
import WeaveStep.Launch.Finder
import WeaveStep.Launch.Switch
import WeaveStep.Text.Blank
import WeaveStep.World

/-! # Programs

Which program a command names, and what running it comes to. Every program is a script in the end,
since scripts are all that the system knows to run besides the shell and the finder.

* `FileTree.findProgram?`: the program of a name, looked for in the directories of the search path.
* `firstLine`: what the first line of a script says of the program that runs it.
* `programOf`: what a command comes to.

Only `FileTree.findProgram?` is a part of the weave step. What follows a launch is the system's. -/

namespace WeaveStep

open Text

/-! ## Finding programs -/

/-- Whether a command names a place, as opposed to a program on the search path. -/
def namesPlace (command : String) : Bool := command.toList.contains '/'

/-- The directory that a path text without a slash at its end names, put in front of a name. -/
def underDirectory (directory name : String) : String :=
  if directory = "" ∨ directory.toList.getLast? = some '/' then directory ++ name
  else directory ++ "/" ++ name

/-- The directories programs are looked for in unless the environment names others. -/
def defaultSearchPath : String := "/bin:/usr/bin"

/-- Whether a path leads to a file that may be run. -/
def FileTree.isProgram (t : FileTree) (text : String) : Bool :=
  match t.statText text with
  | .ok (_, node) => node.isExecutable
  | .error _ => false

/-- The program that a command names; on an empty search path there is none. -/
def FileTree.findProgram? (t : FileTree) (searchPath : Option String) (command : String) :
    Option String :=
  if namesPlace command then if t.isProgram command then some command else none
  else
    let searchPath := searchPath.getD defaultSearchPath
    if searchPath = "" then none
    else ((splitAt ':' searchPath).map (underDirectory · command)).find? t.isProgram

namespace Launch

/-! ## First lines -/

/-- How many bytes of a file are looked at to see how it is to be run. -/
def firstBytes : Nat := 256

/-- A blank between the words of a first line. -/
def isSpace (b : UInt8) : Bool := b = 32 || b = 9

/-- Without the blanks at the end. -/
def trimSpaces (s : List UInt8) : List UInt8 := (s.reverse.dropWhile isSpace).reverse

/-- Bytes of a first line as text. -/
def lineText (s : List UInt8) : String := String.ofList (decodeLeniently s)

/-- The name of a program and perhaps one argument. -/
def nameAndArgument (s : List UInt8) : String × List String :=
  let name := s.takeWhile (!isSpace ·)
  let rest := s.drop name.length
  (lineText name, if rest.isEmpty then [] else [lineText (rest.dropWhile isSpace)])

/-- The program that a script says to run it, and the argument for that program. The line has to end
within the first bytes, or its program at least; where the file ends first, blanks at its end count. -/
def firstLine (content : List UInt8) : Option (String × List String) :=
  match content.take firstBytes with
  | 35 :: 33 :: head =>
    let line := head.takeWhile fun b => b ≠ 10 && b ≠ 0
    let body := line.dropWhile isSpace
    if head[line.length]? = some 10 then
      let body := trimSpaces body
      if body.isEmpty then none else some (nameAndArgument body)
    else if line.length = head.length ∧ head.length + 2 = firstBytes then
      if body.any isSpace then some (nameAndArgument (trimSpaces body.dropLast)) else none
    else some (nameAndArgument body)
  | _ => none

/-! ## What running a program comes to -/

/-- Where the text of a script comes from. -/
inductive ScriptText
  | given (text : String)
  | file (text : String)
  /-- It is what there is to read. -/
  | input

/-- A script with what it is run with. All its text is text of bytes. -/
structure ScriptCall where
  text : ScriptText
  name : String
  arguments : List String
  /-- What is switched on. -/
  switches : List Switch := []
  /-- What is printed first. -/
  preface : String := ""

/-- What running a program comes to. -/
inductive Program
  | script (call : ScriptCall)
  /-- The program only prints something, by the name it was called by. -/
  | shown (name text : String)
  /-- The program says that it cannot do it. Where even that cannot be said, the status may be another
  one. -/
  | refused (message : String) (status silentStatus : Nat)

/-- A program with what it is run in. -/
structure Start where
  environment : List (String × String)
  /-- The working directory. -/
  place : Location
  program : Program
  /-- Whether each signal in here is to be without effect. -/
  answers : List (Nat × Bool) := []
  /-- What is told first. -/
  told : String := ""

/-! ## The shell -/

/-- Where the shell lies. -/
def shellPlace : Location := ["usr", "bin", "dash"]

/-- Reads the options of the shell, at most `most` arguments of them. -/
def readShellOptions (call : SwitchCall) : (most : Nat) → List String →
    Except String (SwitchCall × List String)
  | 0, arguments => .ok (call, arguments)
  | _ + 1, [] => .ok (call, [])
  | most + 1, s :: arguments =>
    match s.toList with
    | ['-'] | ['-', '-'] => .ok (call, arguments)
    | '-' :: letters => do
      let (call, arguments) ← (call.read true true arguments letters).mapError (·.2)
      readShellOptions call most arguments
    | '+' :: letters => do
      let (call, arguments) ← (call.read false true arguments letters).mapError (·.2)
      readShellOptions call most arguments
    | _ => .ok (call, s :: arguments)

/-- What the shell is asked to run, called by a name. -/
def shellProgram (t : FileTree) (name : String) (arguments : List String) : Program :=
  let name := inBytes name
  let arguments := arguments.map inBytes
  let refused (why : String) : Program := .refused (name ++ ": 0: " ++ why) 2 2
  match readShellOptions {} (arguments.length + 1) arguments with
  | .error why => refused why
  | .ok (call, arguments) =>
    let script (text : ScriptText) (name : String) (arguments : List String) : Program :=
      .script ⟨text, name, arguments, call.onAtStart, call.listings⟩
    if call.isText then
      match arguments with
      | [] => refused "-c requires an argument"
      | [text] => script (.given text) name []
      | text :: name :: arguments => script (.given text) name arguments
    else
      match if call.switches.contains .stdin then none else arguments.head? with
      | none => script .input name arguments
      | some file =>
        match t.statText (outOfBytes file) with
        | .ok (_, .file content _) => script (.file (byteText content)) file (arguments.drop 1)
        | .ok _ => script (.file "") file (arguments.drop 1)
        | .error e =>
          let why :=
            match e with
            | .refused .noEntry _ | .refused .notDirectory _ => "No such file"
            | .refused why _ => why.text
            | e => e.message
          refused ("cannot open " ++ file ++ ": " ++ why)

/-! ## The finder -/

/-- The status by which the finder tells that it failed itself. -/
def finderFailure : Nat := 125

/-- Where the program lies that finds other ones. -/
def finderPlace : Location := ["usr", "bin", "env"]

/-- The place of a name in a directory of the search path; the empty one is the directory at hand. -/
def placeBelow (directory name : String) : String :=
  if directory = "" then name else directory ++ "/" ++ name

/-- The places a command may name, in the order in which they are tried; `below` makes one from a
directory and a name. -/
def candidates (below : String → String → String) (searchPath : Option String) (command : String) :
    List String :=
  if namesPlace command then [command]
  else (splitAt ':' (searchPath.getD defaultSearchPath)).map (below · command)

/-- The first refusal that does not only say that nothing is there, else the last one. -/
def worstRefusal {α : Type} (tried : List (Except Errno α)) : Errno :=
  let refusals := tried.filterMap fun
    | .error why => some why
    | .ok _ => none
  (refusals.find? fun why => why ≠ .noEntry && why ≠ .notDirectory).getD
    (refusals.getLast?.getD .noEntry)

/-- Which of the places that were tried decides: the first that can be run, or where it is not only
that nothing is there or that it may not be run. -/
def decided {α : Type} (tried : List (Except Errno α)) : Except Errno α :=
  let decides : Except Errno α → Bool
    | .ok _ => true
    | .error why => !([Errno.denied, .noEntry, .notDirectory].contains why)
  let isDenied : Except Errno α → Bool
    | .ok _ => false
    | .error why => why = .denied
  (tried.find? decides <|> tried.find? isDenied <|> tried.getLast?).getD (.error .noEntry)

/-- What the finder says of a command that it could not run. -/
def finderRefusal (environment : List (String × String)) (name command : String) (why : Errno) :
    Program :=
  let hint :=
    if why = .noEntry && command.toList.any finderBlanks.contains then
      "\n" ++ name ++ ": use -[v]S to pass options in shebang lines"
    else ""
  let marked := markedText (isWideLocale environment) command
  .refused (inBytes (name ++ ": " ++ marked ++ ": " ++ why.text ++ hint))
    (if why = .noEntry then 127 else 126) finderFailure

/-! ## Running -/

/-- How many bytes one argument may have with the mark of its end, or one text of the environment. -/
def maxTextBytes : Nat := Nat.pow 2 17

/-- How many bytes all of them may have, with the places where they are noted. -/
def maxStartBytes : Nat := Nat.pow 2 21

/-- Whether a program cannot be started since there is too much to hand over to it. -/
def isTooLong (environment : List (String × String)) (arguments : List String) : Bool :=
  let texts := arguments.map (·.utf8ByteSize + 1) ++
    environment.map fun (k, v) => k.utf8ByteSize + v.utf8ByteSize + 2
  texts.any (maxTextBytes < ·) || maxStartBytes < texts.foldl (fun n size => n + size + 8) 0

/-- How many programs may run one another in turn. -/
def programLevels : Nat := 6

/-- What the program at a path comes to, when it is called by the name `called`; the program that runs
a script may be a script as well. Only a fresh start of the finder is given the levels again, and
there are at most `starts` of these. -/
def programAt (t : FileTree) (environment : List (String × String)) (starts levels : Nat)
    (called program : String) (arguments : List String) : Except Errno Start :=
  match t.statText program with
  | .ok (place, .file content true) =>
    match levels with
    | 0 => .error .tooManyLinks
    | levels + 1 =>
      let start (program : Program) : Start := ⟨environment, t.workingDirectory, program, [], ""⟩
      if isTooLong environment (called :: arguments) then .error .tooLong
      else if place = shellPlace then .ok (start (shellProgram t called arguments))
      else if place = finderPlace then
        match finderPlan t environment called arguments with
        | .error message => .ok (start (.refused (inBytes message) finderFailure finderFailure))
        | .ok plan =>
          let environment' := plan.environment
          match starts, plan.command with
          | _, [] | 0, _ =>
            let shown := environment'.map fun (k, v) => k ++ "=" ++ v ++ String.singleton plan.lineEnd
            .ok { start (.shown called (String.join shown)) with told := plan.told }
          | starts + 1, command :: arguments =>
            let t := { t with workingDirectory := plan.place }
            let within (program : Program) : Start := ⟨environment', plan.place, program, [], ""⟩
            let places :=
              if command = "" then []
              else candidates placeBelow (environment'.lookup "PATH") command
            let tried := places.map fun place =>
              match programAt t environment' starts programLevels command place arguments with
              | .error .badExecutable => .ok (within (shellProgram t "/bin/sh" (place :: arguments)))
              | result => result
            let found := match decided tried with
              | .ok found => found
              | .error why => within (finderRefusal environment called command why)
            .ok { found with answers := found.answers ++ plan.answers, told := plan.told ++ found.told }
      else
        match firstLine content with
        | some ("", _) => .error .denied
        | some (name, argument) =>
          programAt t environment starts levels name name (argument ++ program :: arguments)
        | none => .error .badExecutable
  | .ok _ => .error .denied
  | .error (.refused why _) => .error why
  | .error _ => .error .noEntry
termination_by (starts, levels)

/-- How often the finder may be started in turn. -/
def finderStarts : Nat := 10

/-- What a command comes to: the first of the places it may name that can be run decides; if none
can, the refusal names the command. -/
def programOf (t : FileTree) (environment : List (String × String)) (command : String)
    (arguments : List String) : Except FileFailure Start :=
  if (command :: arguments).any (·.contains '\x00') then .error .nullCharacter
  else
    let tried := (candidates underDirectory (environment.lookup "PATH") command).map fun place =>
      programAt t environment finderStarts programLevels command place arguments
    match tried.findSome? (·.toOption) with
    | some start => .ok start
    | none => .error (.refusal (worstRefusal tried) command)

end Launch

end WeaveStep
