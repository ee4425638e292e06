import WeaveStep.Files.Walk
import WeaveStep.Launch.Signal
import WeaveStep.Text.Digit
import WeaveStep.Text.Split

/-! # The finder

The program that sets up an environment and finds another program to be run in it: what its
arguments ask for.

* `wordsWithin`: the words of a text that stands for several arguments.
* `FinderCall.read`: reads the options, up to the first argument that is none.
* `finderPlan`: what the arguments come to: an environment, a directory, and the command. -/

namespace WeaveStep.Launch

open Text

/-! ## Messages -/

/-- Whether messages are written in the whole character set, as far as the environment says. -/
def isWideLocale (environment : List (String × String)) : Bool :=
  let names := ["LC_ALL", "LC_CTYPE", "LANG"].filterMap fun name =>
    (environment.lookup name).filter (· ≠ "")
  match names.head?.map (splitAt '.') with
  | some ["C", set] => (set.toList.filter (· ≠ '-')).map Char.toLower = "utf8".toList
  | _ => false

/-- A text in quotation marks of a message. -/
def markedText (isWide : Bool) (s : String) : String :=
  let close := if isWide then '’' else '\''
  let marked := s.toList.flatMap fun c =>
    match c with
    | '\n' => ['\\', 'n']
    | '\t' => ['\\', 't']
    | '\r' => ['\\', 'r']
    | c => if c = '\\' ∨ c = close then ['\\', c] else [c]
  String.ofList ((if isWide then '‘' else '\'') :: marked ++ [close])

/-- The characters that part words. -/
def finderBlanks : List Char := " \t\n\x0b\x0c\r".toList

/-- A text as a shell reads it as one word. -/
def asWord (s : String) : String :=
  "'" ++ "'\\''".intercalate (splitAt '\'' s) ++ "'"

/-! ## Words within a text -/

/-- Words that are being gathered, last first, the characters of each last first as well. -/
structure Gathering where
  words : List (List Char) := []
  /-- Whether the next character begins a word. -/
  isBetween : Bool := true

namespace Gathering

/-- The words with one begun, unless one is at hand. -/
def begun (g : Gathering) : Gathering :=
  if g.isBetween then ⟨[] :: g.words, false⟩ else g

/-- The words with characters added to the one at hand. -/
def add (g : Gathering) (s : List Char) : Gathering :=
  match g.begun.words with
  | word :: words => ⟨(s.reverse ++ word) :: words, false⟩
  | [] => ⟨[s.reverse], false⟩

/-- The words in order. -/
def all (g : Gathering) : List String := g.words.reverse.map fun w => String.ofList w.reverse

end Gathering

/-- The name of a variable that stands in braces at the front of a text. -/
def bracedName? (s : List Char) : Option String :=
  match s with
  | '{' :: rest =>
    let name := rest.takeWhile fun c => c.isAlphanum || c = '_'
    if rest[name.length]? = some '}' ∧ name.head?.any (!Char.isDigit ·) then
      some (String.ofList name)
    else none
  | _ => none

/-- What a letter after a backslash stands for. -/
def meant? (c : Char) : Option Char :=
  if ['"', '#', '$', '\'', '\\'].contains c then some c
  else [('f', '\x0c'), ('n', '\n'), ('r', '\r'), ('t', '\t'), ('v', '\x0b')].lookup c

/-- The words of a text, which are parted by blanks. A quotation mark keeps all up to the next one
together; `quote` is the one at hand. Variables are put in by their names in braces. -/
def wordsWithin (value : String → Option String) (quote : Option Char) (g : Gathering)
    (s : List Char) : Except String (List String) :=
  match s with
  | [] => if quote.isSome then .error "no terminating quote in -S string" else .ok g.all
  | c :: rest =>
    if (c = '\'' ∨ c = '"') ∧ quote.all (· = c) then
      wordsWithin value (if quote.isNone then some c else none) g.begun rest
    else if finderBlanks.contains c ∧ quote.isNone then
      wordsWithin value quote { g with isBetween := true } rest
    else if c = '#' ∧ g.isBetween then .ok g.all
    else if c = '\\' ∧ (quote ≠ some '\'' ∨ rest.head?.any fun c => c = '\\' || c = '\'') then
      match rest with
      | [] => .error "invalid backslash at end of string in -S"
      | '_' :: rest =>
        let g := if quote.isSome then g.add [' '] else { g with isBetween := true }
        wordsWithin value quote g rest
      | 'c' :: _ =>
        if quote.isSome then .error "'\\c' must not appear in double-quoted -S string" else .ok g.all
      | c :: rest =>
        match meant? c with
        | some c => wordsWithin value quote (g.add [c]) rest
        | none => .error ("invalid sequence '\\" ++ String.singleton c ++ "' in -S")
    else if c = '$' ∧ quote ≠ some '\'' then
      match bracedName? rest with
      | some name =>
        let g := match value name with
          | some value => g.add value.toList
          | none => g
        wordsWithin value quote g (rest.drop (name.length + 2))
      | none =>
        .error ("only $\x7bVARNAME\x7d expansion is supported, error at: " ++ String.ofList (c :: rest))
    else wordsWithin value quote (g.add [c]) rest
termination_by s.length

/-! ## Options -/

/-- What the options ask for. -/
structure FinderCall where
  /-- What the finder was called by. -/
  name : String
  /-- The environment that it is called in. -/
  environment : List (String × String)
  /-- Whether the environment begins empty. -/
  isBare : Bool := false
  /-- The variables that are taken out of it. -/
  removed : List String := []
  /-- What stands behind each variable that is shown. -/
  lineEnd : Char := '\n'
  /-- The directory in which the command is run. -/
  directory : Option String := none
  /-- Whether each signal in here is to be without effect. Where signals are not named one by one,
  those that cannot be changed are left as they are. -/
  answers : List (Nat × Bool) := []
  /-- Whether it is told what is done. -/
  isTalking : Bool := false
  /-- Whether it is told which signals are without effect. -/
  isListing : Bool := false
  /-- What was told so far. -/
  told : String := ""

namespace FinderCall

/-- A text in quotation marks. -/
def marked (call : FinderCall) (s : String) : String :=
  markedText (isWideLocale call.environment) s

/-- The call with something told, if it is to talk. -/
def tell (call : FinderCall) (line : String) : FinderCall :=
  if call.isTalking then { call with told := call.told ++ line ++ "\n" } else call

/-- What is told where the call fails. -/
def failure (call : FinderCall) (why : String) : String := call.told ++ call.name ++ ": " ++ why

/-- What is told where the arguments make no sense. -/
def misuse (call : FinderCall) (why : String) : String :=
  call.failure why ++ "\nTry '" ++ call.name ++ " --help' for more information."

/-- The signal that an argument names. -/
def signal? (s : String) : Option Nat :=
  let s := s.toUpper
  let known (s : String) := (Signal.number? 1 s).filter (0 < ·)
  known s <|> (after? "SIG".toList s.toList).bind fun s => known (String.ofList s)

/-- The signals that an argument names, or all that can be chosen. -/
def signals (call : FinderCall) : Option String → Except String (List Nat)
  | none => .ok ((List.range' 1 Signal.last).filter Signal.isOptional)
  | some given =>
    let signal (s : String) : Except String Nat :=
      match signal? s with
      | some n => .ok n
      | none => .error (call.misuse (call.marked s ++ ": invalid signal"))
    ((splitAt ',' given).filter (· ≠ "")).mapM signal

/-- The call with signals made deaf or not. -/
def answering (call : FinderCall) (isDeaf : Bool) (given : Option String) :
    Except String FinderCall := do
  let signals ← call.signals given
  return { call with
    answers := call.answers.filter (fun a => !signals.contains a.1) ++ signals.map (·, isDeaf) }

/-- The options with long names: whether each takes a value, and whether it has to. -/
def longNames : List (String × Bool × Bool) := [
  ("ignore-environment", false, false), ("null", false, false), ("unset", true, true),
  ("chdir", true, true), ("default-signal", true, false), ("ignore-signal", true, false),
  ("block-signal", true, false), ("list-signal-handling", false, false), ("debug", false, false),
  ("split-string", true, true)]

/-- The call with the words of a text put in front of the arguments left. -/
def splitting (call : FinderCall) (text : String) (arguments : List String) :
    Except String (FinderCall × List String) := do
  let words ← (wordsWithin (List.lookup · call.environment) none {} text.toList).mapError call.failure
  let call := if words.isEmpty then call else call.tell ("split -S:  " ++ call.marked text)
  let fronts := " into:    " :: List.replicate words.length "     &    "
  let call := (fronts.zip words).foldl (fun call (front, w) => call.tell (front ++ call.marked w)) call
  return (call, words ++ arguments)

/-- The call with an option taken, by its long name. -/
def take (call : FinderCall) (name : String) (value : Option String) (arguments : List String) :
    Except String (FinderCall × List String) :=
  match name with
  | "ignore-environment" => .ok ({ call with isBare := true }, arguments)
  | "null" => .ok ({ call with lineEnd := '\x00' }, arguments)
  | "unset" => .ok ({ call with removed := call.removed ++ value.toList }, arguments)
  | "chdir" => .ok ({ call with directory := value }, arguments)
  | "default-signal" => (·, arguments) <$> call.answering false value
  | "ignore-signal" => (·, arguments) <$> call.answering true value
  | "block-signal" => do
    discard (call.answering true value)
    return (call, arguments)
  | "list-signal-handling" => .ok ({ call with isListing := true }, arguments)
  | "debug" => .ok ({ call with isTalking := true }, arguments)
  | _ => call.splitting (value.getD "") arguments

/-- Takes the option that an argument with two dashes names, which may be cut short as long as one
option has it. -/
def takeLong (call : FinderCall) (s : String) (arguments : List String) :
    Except String (FinderCall × List String) := do
  let start := s.toList.takeWhile (· ≠ '=')
  let attached := if s.toList.contains '=' then some (String.ofList (s.toList.drop (start.length + 1)))
    else none
  let fitting := longNames.filter fun o => startsWith start o.1.toList
  match fitting.filter (fun o => o.1.length = start.length) ++ fitting with
  | [] => throw (call.misuse ("unrecognized option '--" ++ s ++ "'"))
  | (name, takes, needs) :: others =>
    if others.any (·.1 ≠ name) ∧ name.length ≠ start.length then
      throw (call.misuse ("option '--" ++ s ++ "' is ambiguous; possibilities:" ++
        String.join (fitting.map fun o => " '--" ++ o.1 ++ "'")))
    if attached.isSome && !takes then
      throw (call.misuse ("option '--" ++ name ++ "' doesn't allow an argument"))
    if attached.isNone && needs then
      match arguments with
      | value :: arguments => call.take name (some value) arguments
      | [] => throw (call.misuse ("option '--" ++ name ++ "' requires an argument"))
    else call.take name attached arguments

/-- Takes the options that the letters of an argument name. -/
def takeLetters (call : FinderCall) (arguments : List String) :
    List Char → Except String (FinderCall × List String)
  | [] => .ok (call, arguments)
  | c :: rest =>
    if c = 'i' then { call with isBare := true }.takeLetters arguments rest
    else if c = '0' then { call with lineEnd := '\x00' }.takeLetters arguments rest
    else if c = 'v' then { call with isTalking := true }.takeLetters arguments rest
    else
      match [('u', "unset"), ('C', "chdir"), ('S', "split-string")].lookup c with
      | some name =>
        match rest, arguments with
        | [], [] => .error (call.misuse ("option requires an argument -- '" ++ String.singleton c ++ "'"))
        | [], value :: arguments => call.take name (some value) arguments
        | rest, arguments => call.take name (some (String.ofList rest)) arguments
      | none =>
        let why := "invalid option -- '" ++ String.singleton c ++ "'"
        if finderBlanks.contains c then
          .error (call.misuse (why ++ "\n" ++ call.name ++
            ": use -[v]S to pass options in shebang lines"))
        else .error (call.misuse why)

/-- Reads the options up to the first argument that is none, at most `most` arguments of them. -/
def read (call : FinderCall) : (most : Nat) → List String → Except String (FinderCall × List String)
  | 0, arguments => .ok (call, arguments)
  | _ + 1, [] => .ok (call, [])
  | most + 1, s :: arguments =>
    match s.toList with
    | ['-', '-'] => .ok (call, arguments)
    | '-' :: '-' :: name => do
      let (call, arguments) ← call.takeLong (String.ofList name) arguments
      call.read most arguments
    | '-' :: c :: letters => do
      let (call, arguments) ← call.takeLetters arguments (c :: letters)
      call.read most arguments
    | _ => .ok (call, s :: arguments)

/-- The environment with the variables taken out that are to be. -/
def remaining (call : FinderCall) : Except String (FinderCall × List (String × String)) :=
  if call.isBare then .ok (call.tell "cleaning environ", [])
  else call.removed.foldlM (fun (call, environment) name =>
    if name = "" ∨ name.toList.contains '=' then
      throw (call.failure ("cannot unset " ++ call.marked name ++ ": Invalid argument"))
    else pure (call.tell ("unset:    " ++ name), environment.filter (·.1 ≠ name)))
    (call, call.environment)

end FinderCall

/-! ## Plans -/

/-- An environment with a variable set, which stays in its place if it is there already. -/
def withVariable (environment : List (String × String)) (name value : String) :
    List (String × String) :=
  if environment.any (·.1 = name) then
    environment.map fun e => if e.1 = name then (name, value) else e
  else environment ++ [(name, value)]

/-- Takes the settings in front of a command. -/
def finderSettings (call : FinderCall) (environment : List (String × String)) :
    List String → FinderCall × List (String × String) × List String
  | [] => (call, environment, [])
  | s :: rest =>
    if s.toList.contains '=' then
      let name := s.toList.takeWhile (· ≠ '=')
      let value := String.ofList (s.toList.drop (name.length + 1))
      finderSettings (call.tell ("setenv:   " ++ s))
        (withVariable environment (String.ofList name) value) rest
    else (call, environment, s :: rest)

/-- What the finder does. -/
structure FinderPlan where
  environment : List (String × String)
  /-- The command that is run; if there is none, the environment is shown. -/
  command : List String
  lineEnd : Char
  /-- The directory in which the command is run. -/
  place : Location
  /-- Whether each signal in here is to be without effect. -/
  answers : List (Nat × Bool)
  /-- What is told first. -/
  told : String

/-- How many arguments of the finder are read at most, those within texts counted as well. -/
def maxFinderOptions (arguments : List String) : Nat :=
  arguments.foldl (fun n s => n + s.length + 1) 4096

/-- What a signal is called in a list of those without effect. -/
def deafLine (signal : Nat) : String :=
  let pad (least : Nat) (s : String) : String := String.ofList (List.replicate (least - s.length) ' ')
  let name := (Signal.name? signal).getD ""
  let number := toString signal
  name ++ pad 10 name ++ " (" ++ pad 2 number ++ number ++ "): IGNORE\n"

/-- What the arguments of the finder come to, or what it tells of them. -/
def finderPlan (t : FileTree) (environment : List (String × String)) (name : String)
    (arguments : List String) : Except String FinderPlan := do
  let (call, arguments) ← { name, environment : FinderCall }.read (maxFinderOptions arguments) arguments
  let (isBare, arguments) :=
    if arguments.head? = some "-" then (true, arguments.drop 1) else (call.isBare, arguments)
  let (call, environment) ← { call with isBare }.remaining
  let (call, environment, command) := finderSettings call environment arguments
  if call.lineEnd ≠ '\n' ∧ command ≠ [] then
    throw (call.misuse "cannot specify --null (-0) with command")
  if call.directory.isSome ∧ command = [] then
    throw (call.misuse "must specify command with --chdir (-C)")
  let plan (call : FinderCall) (place : Location) : FinderPlan :=
    ⟨environment, command, call.lineEnd, place, call.answers, call.told⟩
  if command = [] then return plan call t.workingDirectory
  let answer (call : FinderCall) (a : Nat × Bool) : Except String FinderCall :=
    if Signal.isOptional a.1 then pure call
    else throw (call.failure
      ("failed to set signal action for signal " ++ toString a.1 ++ ": Invalid argument"))
  let call ← call.answers.foldlM answer call
  let deaf := (List.range' 1 Signal.last).filter fun n => call.answers.lookup n = some true
  let call := if call.isListing then { call with told := call.told ++ String.join (deaf.map deafLine) }
    else call
  let (call, place) ← match call.directory with
    | none => pure (call, t.workingDirectory)
    | some directory =>
      let call := call.tell ("chdir:    " ++ asWord directory)
      let refused (why : Errno) : Except String (FinderCall × Location) := throw
        (call.failure ("cannot change directory to " ++ asWord directory ++ ": " ++ why.text))
      match t.statText directory with
      | .ok (place, .directory) => pure (call, place)
      | .ok _ => refused .notDirectory
      | .error (.refused why _) => refused why
      | .error _ => refused .noEntry
  let call := call.tell ("executing: " ++ command.headD "")
  let call := command.zipIdx.foldl (fun call (s, i) =>
    call.tell ("   arg[" ++ toString i ++ "]= " ++ call.marked s)) call
  return plan call place

end WeaveStep.Launch
