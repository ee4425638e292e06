import WeaveStep.Launch.Builtin
import WeaveStep.Launch.Parameter
import WeaveStep.Launch.Start

/-! # Running scripts

What the commands of a script do, whose words are replaced by what they stand for first.

* `Runner` is how what a command is made of is run. Given that, `Runner.expandPiece` says what a piece
  of a word stands for, `Runner.one` runs a command, whose status it gives, and `Runner.commands` the
  commands of a text. `Runner.script`: a whole script, with what it is to do at its end.
* `Runner.settle` runs the jobs left in the background, which wait until the shell waits as well.
* `Runner.pipeline` runs commands each of which reads what the one before it prints. They run one after
  the other, each with only so much room for what it prints; where that was too little for the next
  one, all is done again with more.
* `runner` ties the knot. Commands nest as deep as its fuel lasts, and a loop may take so many turns. -/

namespace WeaveStep.Launch

open Text

/-! ## Calls -/

/-- What the command that runs other commands is asked for. -/
inductive Detour
  | run (words : List String) (searchPath : Option String)
  /-- To say what a command is. -/
  | describe

/-- Reads the arguments of the command that runs other commands. -/
def detour (searchPath : Option String) : List String → Detour
  | [] => .run [] searchPath
  | s :: rest =>
    match s.toList with
    | ['-', '-'] => .run rest searchPath
    | '-' :: c :: letters =>
      if (c :: letters).all (· = 'p') then detour (some standardSearchPath) rest
      else .describe
    | _ => .run (s :: rest) searchPath

/-- The builtin commands whose arguments may be settings. -/
def markingCommands : List String := ["alias", "export", "readonly", "local"]

/-- The name of the command that some words call, at most `most` of them. -/
def calledWithin : (most : Nat) → List String → Option String
  | most + 1, "command" :: rest =>
    match detour none rest with
    | .run words _ => calledWithin most words
    | .describe => some "command"
  | _, words => words.head?

/-- The name of the command that some words call. -/
def calledName (words : List String) : Option String := calledWithin words.length words

/-- How a command is run. -/
structure Manner where
  /-- Whether its status is tested by what it is part of. -/
  tested : Bool := false
  /-- Whether the process ends with it, so that a program may take the place of the process. -/
  isLast : Bool := false

/-- How something within a command is run that is not the last thing it does. -/
def Manner.within (m : Manner) : Manner := { m with isLast := false }

/-- How the last command of a process is run. -/
def Manner.last : Manner := { isLast := true }

/-- How a command is run whose status decides what comes next. -/
def Manner.test : Manner := { tested := true }

/-- How deep functions may call one another. -/
def maxDepth : Nat := 1000

namespace Act

/-- Carries out a builtin command, which errors are told of; only in a special one they go on to end
the script. -/
def called (name : String) (isSpecial : Bool) (act : Act Nat) : Act Nat := fun sh =>
  let leave (sh' : Shell) : Shell := { sh' with caller := sh.caller }
  let whole : Act Nat := do
    let status ← act
    if ← writePrinted then return status
    complain (name ++ ": I/O error")
    return status ||| 1
  match whole { sh with caller := some name } with
  | .ok status sh' => .ok status (leave sh')
  | .error .failure sh' =>
    match writePrinted sh' with
    | .ok _ sh' =>
      if isSpecial then .error .failure (leave sh')
      else .ok 2 (leave (sh'.leaveFrames sh.frames.length))
    | .error e sh' => .error e (leave sh')
  | .error e sh' => .error e (leave sh')

/-- Runs the body of a function. -/
def function (arguments : List String) (act : Act Nat) : Act Nat := fun sh =>
  let leave (sh' : Shell) : Shell :=
    { sh' with
      arguments := sh.arguments
      optionPlace := sh.optionPlace
      loops := sh.loops
      depth := sh.depth }
  if maxDepth ≤ sh.depth then
    fail ("Maximum function recursion depth (" ++ toString maxDepth ++ ") reached") sh
  else
    match act { sh with arguments, optionPlace := {}, loops := 0, depth := sh.depth + 1 } with
    | .ok status sh' => .ok status (leave sh')
    | .error .returns sh' => .ok sh'.status (leave sh')
    | .error e sh' => .error e (leave sh')

/-- Runs the commands of a file, which may end early as a function does. -/
def returning (act : Act Nat) : Act Nat := fun sh =>
  match act sh with
  | .error .returns sh' => .ok sh'.status sh'
  | result => result

/-- Whether an interrupt ends a process without anything else being done in it. -/
def isAbrupt : Interrupt → Bool
  | .killed _ | .starved _ | .endless => true
  | _ => false

/-- Runs what a process does up to its end; gives the status it ends with. -/
def finishing (act : Act Nat) : Act Nat := fun sh =>
  match act sh with
  | .ok status sh' => .ok status sh'
  | .error e sh' => if isAbrupt e then .error e sh' else .ok sh'.status sh'

/-- Runs what a process does at its end; its status stays the one it ended with, unless an error or
a status of its own comes in between. -/
def closing (status : Nat) (act : Act Nat) : Act Nat := fun sh =>
  match act { sh with closingStatus := some status } with
  | .error .exit sh' | .error .failure sh' => .ok sh'.status sh'
  | .ok _ sh' => .ok status sh'
  | .error e sh' => if isAbrupt e then .error e sh' else .ok status sh'

/-- Ends the process with a status. -/
def endWith (status : Nat) : Act Nat := do
  modify ({ · with status })
  throw .exit

end Act

/-! ## Texts -/

/-- How a shell runs what is part of a command at hand. -/
structure Runner where
  /-- What a piece of a word stands for. Where fields are asked for, arguments are fields of their
  own. -/
  piece : (splits : Bool) → Piece → Act (List Bit)
  /-- Runs a command. -/
  command : Manner → Command → Act Nat
  /-- Runs what words call, which may be a function. -/
  words : Manner → (withFunctions : Bool) → (searchPath : Option String) → List String → Act Nat
  /-- How many turns a loop may take. -/
  turns : Nat

namespace Runner

variable (r : Runner)

/-- Shows the lines of a file that were read, where that is wanted. -/
def showLines (before after : Reading) : Act Unit := do
  if before.isFile && (← get).has .verbose then
    Act.tell (String.ofList (linesBetween before after))

/-- Runs the commands of a text that are left after one with a status, at most so many of them. -/
def commands (m : Manner) : (most : Nat) → Reading → (status : Nat) → Act Nat
  | 0, _, status => return status
  | most + 1, reading, status => do
    let sh ← get
    let before := { reading with documents := sh.documents, aliases := sh.aliases }
    match nextCommand before with
    | .error complaint after =>
      showLines before after
      modify ({ · with line := complaint.line })
      Act.fail ("Syntax error: " ++ complaint.text)
    | .ok none after =>
      showLines before after
      return status
    | .ok (some command) after =>
      showLines before after
      modify ({ · with documents := after.documents, lastLine := after.line })
      match command with
      | .nothing => commands m most after status
      | command => commands m most after (← r.command m command)

/-- Runs the commands of a text. -/
def wholeText (m : Manner) (text : List Char) : Act Nat :=
  r.commands m r.turns { rest := text } 0

/-- Runs what a process does, and then what it is to do at its end. -/
def ended (act : Act Nat) : Act Nat := do
  let status ← Act.finishing act
  let sh ← get
  match sh.traps.lookup 0 with
  | some action =>
    if action = "" then return status
    set { sh with
      toProcess := { sh.toProcess with
        traps := sh.traps.filter (·.1 ≠ 0), caller := none, loops := 0, status } }
    Act.closing status (r.wholeText {} action.toList)
  | none => return status

/-! ## Processes -/

/-- How many commands a job may take. -/
def jobPatience : Nat := 20000

/-- The name that a simple command begins with, if it is written plainly. Where the program of that name
lies is found out before a process is split off for it. -/
def plainName? : Command → Option String
  | .simple _ _ (w :: _) _ => (plainText? w).filter isName
  | _ => none

/-- Runs commands each of which reads what the one before it prints, and of which the first reads
from a channel if one is given. Their pipes have so much room. It is told of those that a signal
ends, or not. -/
def stages (split : Act Nat → Act Ending) (m : Manner) (isTold : Bool) (room : Nat)
    (input : Option Nat) : List Command → Act (List Ending)
  | [] => return []
  | command :: rest => do
    let n := (← get).nextChannel
    let output := if rest.isEmpty then none else some n
    if output.isSome then modify (·.opened (.pipe { room := some room }))
    if let some name := plainName? command then modify fun sh => (sh.find true none name).2
    let ending ← split do
      if input.isSome then modify (·.point 0 input)
      if output.isSome then modify (·.point 1 output)
      r.command { m with isLast := true } command
    if isTold then Act.tellEnd ending
    return ending :: (← stages split m isTold room output rest)

/-- Runs commands each of which reads what the one before it prints. Their pipes have so much room,
twice as much if that is too little, and so on. -/
def pipelineWith (split : Act Nat → Act Ending) (m : Manner) (isTold : Bool)
    (commands : List Command) : (tries room : Nat) → Act (List Ending)
  | 0, room => r.stages split m isTold room none commands
  | tries + 1, room => fun sh =>
    match r.stages split m isTold room none commands sh with
    | .ok endings sh' => (do Act.receive; return endings) (sh'.closed sh.nextChannel)
    | .error (.starved n) sh' =>
      if sh.nextChannel ≤ n then pipelineWith split m isTold commands tries (2 * room) sh
      else .error (.starved n) sh'
    | .error e sh' => .error e sh'

/-- How much a pipe holds at first, and how often that may be doubled. -/
def pipeRoom : Nat := Nat.pow 2 16

def pipeTries : Nat := 8

/-- What a job does: where it is a pipe, its commands are processes of the one that left it. -/
def jobBody (split : Act Nat → Act Ending) (body : Command) : Act (List Ending) :=
  match body with
  | .pipe commands => r.pipelineWith split {} false commands pipeTries pipeRoom
  | body => do
    let status ← r.ended (r.command .last body)
    return [.exited (status % 256)]

/-- Runs a job up to its end, unless it takes too long. -/
def runJob (split : Act Nat → Act Ending) (j : Job) (process : Process) (place : Location)
    (body : Command) : Act Unit := fun sh =>
  let child : Shell :=
    { sh.setJob { j with state := .running } with
      toProcess := process
      files := { sh.files with workingDirectory := place }
      patience := some jobPatience }
  let act : Act (List Ending) := do
    Act.receive
    modify fun sh => { sh with deafTo := Signal.fromKeyboard ++ sh.deafTo }
    r.jobBody split body
  let settled (ended : Shell) (endings : List Ending) : EStateM.Result Interrupt Shell Unit :=
    let back := (sh.resumed ended).setJob { j with state := .ended endings }
    .ok () { back with
      patience := sh.patience
      sent := back.sent ++ [(j.owner, Signal.childEnded)] }
  match act child with
  | .ok endings ended => settled ended endings
  | .error .endless _ => .ok () (sh.setJob { j with state := .waiting process place body true })
  | .error (.starved n) ended => .error (.starved n) ended
  | .error (.killed signal) ended => settled ended [.struck signal]
  | .error _ ended => settled ended [.exited (ended.status % 256)]

/-- Runs a step in a process that is split off; gives how that ended. Signals that were sent meanwhile
come later. -/
def fork (act : Act Nat) : Act Ending := do
  let sh := (← get).freeSlot.2
  set sh
  let ending ← Act.within sh.splitOff (r.ended act)
  Act.hear Signal.childEnded
  return ending

/-- Runs the jobs that wait, the oldest first, at most so many of them. -/
def settleWithin : (most : Nat) → Act Unit
  | 0 => return
  | most + 1 => do
    match (← get).jobs.reverse.find? (·.isReady) with
    | some j =>
      match j.state with
      | .waiting process place body _ =>
        r.runJob (fun act => do settleWithin most; r.fork act) j process place body
        settleWithin most
      | _ => return
    | none => Act.receive

/-- Runs the jobs that wait. -/
def settle : Act Unit := do
  if !(← get).jobs.isEmpty then r.settleWithin r.turns

/-- Runs a step in a process that is split off, once all jobs have run; gives how that ended. -/
def split (act : Act Nat) : Act Ending := do
  r.settle
  let ending ← r.fork act
  Act.receive
  return ending

/-- Runs commands each of which reads what the one before it prints. -/
def pipeline (m : Manner) (commands : List Command) : Act Nat := do
  r.settle
  let endings ← r.pipelineWith r.fork m true commands pipeTries pipeRoom
  return (endings.getLast?.map (·.status)).getD 0

/-- Runs a command in a process that is split off; gives its status and what it prints. Jobs that
print there as well are not left behind. -/
def captured (body : Command) : Act (Nat × List Char) := do
  let n := (← get).nextChannel
  modify (·.opened (.pipe {}))
  let ending ← r.split do
    modify (·.point 1 (some n))
    r.command .last body
  if (← get).jobs.any fun j => j.isReady && j.channels.contains n then r.settle
  let status ← Act.await ending
  let sh ← get
  set (sh.closed n)
  match sh.channels.lookup n with
  | some (.pipe p) => return (status, p.text)
  | _ => return (status, [])

/-! ## Words -/

/-- What the pieces of a word stand for. -/
def expand (splits : Bool) (w : Word) : Act (List Bit) := do
  return (← w.mapM (r.piece splits)).flatten

/-- The text that a word stands for. -/
def textOfWord (w : Word) : Act String := do return textOf (← r.expand false w)

/-- The fields that a word stands for. -/
def fields (w : Word) : Act (List String) := do
  let bits ← r.expand true ((← get).homed false w)
  let sh ← get
  let patterns := fieldsOf sh.separators bits
  return if sh.has .noglob then patterns.map Pattern.text else patterns.flatMap sh.files.matching

/-- The pattern that a word stands for. -/
def pattern (w : Word) : Act Pattern := do
  return patternOf (← r.expand false ((← get).homed false w))

/-- What a parameter stands for. -/
def expandParameter (splits quoted : Bool) (name : String) (use : ParameterUse) (needsText : Bool)
    (w : Word) : Act (List Bit) := do
  let sh ← get
  let value := sh.parameter? name
  let counts := value.any fun s => !needsText || s ≠ ""
  let text := value.getD ""
  let bits :=
    if name = "@" || name = "*" then sh.argumentBits quoted (name = "*") splits
    else bitsOf quoted text
  let checkSet : Act Unit :=
    if value.isNone && sh.has .nounset then Act.fail (name ++ ": parameter not set") else pure ()
  let w' := if quoted then w else sh.homed false w
  let replacement : Act (List Bit) := do
    let bits ← r.expand splits w'
    if quoted then return .hold :: bits
    else return bits.map fun
      | .char false _ c => .char false true c
      | bit => bit
  match use with
  | .value =>
    checkSet
    return bits
  | .length =>
    checkSet
    return bitsOf quoted (toString text.length)
  | .orWord => if counts then return bits else replacement
  | .ifSet => if counts then replacement else return if quoted then [.hold] else []
  | .orSet =>
    if counts then return bits
    let text ← r.textOfWord w'
    if !isName name then Act.fail (name ++ ": bad variable name")
    Act.setVariable name text false
    return bitsOf quoted text
  | .orFail =>
    if counts then return bits
    let why ← r.textOfWord w
    Act.fail (name ++ ": " ++
      if w.length ≠ 0 then why
      else if needsText then "parameter not set or null" else "parameter not set")
  | .withoutStart longest =>
    checkSet
    return bitsOf quoted (String.ofList (withoutStart (← r.pattern w) longest text.toList))
  | .withoutEnd longest =>
    checkSet
    return bitsOf quoted (String.ofList (withoutEnd (← r.pattern w) longest text.toList))
  | .andWord =>
    checkSet
    return bits ++ (← r.expand splits w)
  | .senseless => Act.fail "Bad substitution"

/-- What a piece of a word stands for. -/
def expandPiece (splits : Bool) : Piece → Act (List Bit)
  | .char quoted c => return [.char quoted false c]
  | .emptyQuotes => return [.hold]
  | .parameter quoted name use needsText w => r.expandParameter splits quoted name use needsText w
  | .output quoted body => do
    let (status, text) ← r.captured body
    modify ({ · with innerStatus := status })
    let text := (text.reverse.dropWhile (· = '\n')).reverse.filter (· ≠ '\x00')
    return bitsOf quoted (String.ofList text)
  | .sum quoted expression => do
    let text ← r.textOfWord expression
    match Sum.evaluate (← get).value? text with
    | .ok (n, settings) =>
      for (name, value) in settings.reverse do Act.setVariable name value false
      return bitsOf quoted (toString n)
    | .error why => Act.fail why

/-- The arguments that words stand for, after those that are there already. -/
def argumentsOf (done : List String) : List Word → Act (List String)
  | [] => return done
  | w :: rest => do
    let isMarking := (calledName done).any markingCommands.contains
    let further ← match if isMarking then setting? w else none with
      | some (_, value) => do
        let front := w.take (w.length - value.length)
        pure [← r.textOfWord (front ++ (← get).homed true value)]
      | none => r.fields w
    argumentsOf (done ++ further) rest

/-- Where a redirection leads, once its word is replaced. -/
def targetOf (redirect : Redirect) : Act Act.Target := do
  let (descriptor, how, w) := redirect
  let sh ← get
  match how with
  | .document n =>
    return { descriptor, how, document := r.textOfWord (sh.documents[n]?.getD []) }
  | .copy =>
    let text ← r.textOfWord w
    if text ≠ "-" && !(text.length = 1 && text.toList.all Char.isDigit) then
      modify fun sh => { sh with line := sh.lastLine }
      Act.fail "Syntax error: Bad fd number"
    return { descriptor, how, text }
  | how => return { descriptor, how, text := ← r.textOfWord (sh.homed false w) }

/-- What is shown in front of a command: a text in which all is replaced, unless that fails. -/
def traceFront : Act String := fun sh =>
  let raw := (sh.value? "PS4").getD ""
  let leave (sh' : Shell) : Shell := { sh' with isTracing := false, status := sh.status }
  let act : Act String := do
    let sh ← get
    match documentWord { rest := raw.toList, documents := sh.documents, aliases := sh.aliases } with
    | .error complaint _ => Act.fail ("Syntax error: " ++ complaint.text)
    | .ok w after =>
      modify ({ · with documents := after.documents })
      r.textOfWord w
  match act { sh with isTracing := true } with
  | .ok text sh' => .ok text (leave sh')
  | .error .failure sh' => .ok raw (leave sh')
  | .error e sh' => .error e (leave sh')

/-- Shows a command that is about to be run, on a channel if there is one. -/
def trace (channel : Option Nat) (words : List String) : Act Unit := do
  let sh ← get
  if sh.has .xtrace && !sh.isTracing then
    let front ← r.traceFront
    if let some channel := channel then
      discard (Act.writeTo channel (front ++ " ".intercalate words ++ "\n").toList)

/-! ## Programs -/

/-- Runs a whole script. -/
def script (call : ScriptCall) : Act Nat := r.ended do
  discard (Act.write 1 call.preface.toList)
  if (← get).has .monitor then
    modify ({ · with line := 0 })
    Act.loseMonitor
  match call.text with
  | .given text => r.wholeText {} text.toList
  | .file text => r.commands {} r.turns { rest := text.toList, isFile := true } 0
  | .input =>
    let sh ← get
    let text ← match sh.source 0 with
      | .bytes content => pure (byteText content).toList
      | .text s isCut =>
        if isCut then throw (.starved ((sh.descriptors.lookup 0).getD 0))
        pure s
    set (sh.advance 0 text.length)
    r.commands {} r.turns { rest := text, isFile := true } 0

/-- Runs a program in the place of the process at hand. -/
def become (start : Start) : Act Nat := do
  modify fun sh => { sh with files := { sh.files with workingDirectory := start.place } }
  Act.tell (inBytes start.told)
  match start.program with
  | .refused message status silentStatus =>
    if ← Act.write 2 (message ++ "\n").toList then return status else return silentStatus
  | .shown name text =>
    if ← Act.write 1 (inBytes text).toList then return 0
    let isOpen := ((← get).descriptors.lookup 1).isSome
    let why := if isOpen then "No space left on device" else "Bad file descriptor"
    Act.tell (inBytes name ++ ": write error: " ++ why ++ "\n")
    return finderFailure
  | .script call =>
    modify (·.begun start call)
    r.script call

/-- Runs a program. -/
def program (m : Manner) (searchPath : String) (first : Nat) (name : String)
    (arguments : List String) : Act Nat := do
  let isLast := m.isLast && !(← get).answers
  if !isLast then r.settle
  let sh ← get
  match sh.startOf searchPath first name arguments with
  | .ok start =>
    if isLast then Act.endWith (← r.become start)
    else
      let sh := sh.freeSlot.2
      set sh
      let ending ← Act.within { sh.splitOff with traps := sh.traps } (r.become start)
      Act.hear Signal.childEnded
      Act.receive
      Act.await ending
  | .error why =>
    Act.complain (name ++ ": " ++ whyNoProgram why)
    let isAbsent := why = .noEntry || why = .notDirectory || why = .tooManyLinks || why = .nameTooLong
    return if isAbsent then 127 else 126

/-- Runs the commands of a file. -/
def file (name : String) : Act Nat := do
  let sh ← get
  match sh.findText name with
  | none => Act.fail (name ++ ": not found")
  | some path =>
    match sh.files.statText (outOfBytes path) with
    | .ok (_, node) =>
      let text := match node with
        | .file content _ => byteText content
        | _ => ""
      Act.called path true (Act.returning
        (r.commands {} r.turns { rest := text.toList, isFile := true } 0))
    | .error why =>
      discard (Act.refuseReading path why)
      Act.failed

/-- The status of having waited for jobs, where the last status is given. A signal that comes in
between ends that early. -/
def waitFor (status : Nat) : List String → Act Nat
  | [] => return status
  | s :: rest => do
    let j ←
      if s.toList.head? = some '%' then some <$> Builtin.job (some s)
      else do
        let n ← Act.number s
        pure ((← get).ownJobs.find? fun j => j.processes.getLast? = some n)
    match j with
    | none => waitFor status rest
    | some j =>
      if !j.isEnded then r.settle
      let sh ← get
      match (sh.pending.filter (· ≠ Signal.childEnded)).getLast?, sh.ownJobs.find? (·.slot = j.slot) with
      | some signal, _ => return 128 + signal
      | none, some ended =>
        match ended.state with
        | .ended endings =>
          if !j.isEnded then endings.forM Act.tellEnd
          modify (·.setJob { ended with isOver := true })
          waitFor ((endings.getLast?.map (·.status)).getD 0) rest
        | _ => return 127
      | none, none => waitFor status rest

/-- Waits for jobs. -/
def wait (arguments : List String) : Act Nat := do
  let (_, names) ← Builtin.letters "" arguments
  if !names.isEmpty then return ← r.waitFor 127 names
  r.settle
  let sh ← get
  match (sh.pending.filter (· ≠ Signal.childEnded)).getLast? with
  | some signal => return 128 + signal
  | none =>
    set { sh with
      jobs := sh.jobs.map fun (j : Job) =>
        if j.owner = sh.number && j.isEnded then { j with isOver := true } else j }
    return 0

/-- Runs a builtin command. -/
def builtin (m : Manner) (name : String) (arguments : List String) : Act Nat := do
  match name with
  | "eval" => r.wholeText m.within (" ".intercalate arguments).toList
  | "." =>
    let (_, arguments) ← Builtin.letters "" arguments
    match arguments with
    | [] => return 0
    | name :: _ => r.file name
  | "exec" =>
    match arguments with
    | [] => return 0
    | name :: arguments =>
      let sh ← get
      if (sh.startOf sh.searchPath 0 name arguments).isOk then
        set { sh with traps := sh.traps.filter (·.2 = "") }
      r.program .last sh.searchPath 0 name arguments >>= Act.endWith
  | "wait" => r.wait arguments
  | name =>
    match builtin? name with
    | some act => act arguments
    | none => return 0

/-! ## Commands -/

/-- Runs what words call. -/
def call (m : Manner) (withFunctions : Bool) (searchPath : Option String) : List String → Act Nat
  | [] => do if withFunctions then return (← get).innerStatus else return 0
  | name :: arguments => do
    let sh ← get
    let (meaning, sh) := sh.find withFunctions searchPath name
    set sh
    match meaning with
    | .function body => Act.function arguments (r.command m.within body)
    | .builtin isSpecial =>
      if name = "command" then
        match detour searchPath arguments with
        | .run words searchPath => r.words m false searchPath words
        | .describe => Act.called name false do
          let (letters, names) ← Builtin.letters "pvV" arguments
          let searchPath := if letters.contains 'p' then some standardSearchPath else none
          Builtin.describe (letters.contains 'V') searchPath (names.take 1)
      else Act.called name (isSpecial && withFunctions) (r.builtin m name arguments)
    | .program index _ =>
      r.program m (searchPath.getD sh.searchPath) (index.getD 0) name arguments
    | .absent why =>
      Act.complain (name ++ ": " ++ whyNoProgram why)
      return 127

/-- Runs a simple command: its words are replaced first, then its redirections are followed, and
then its variables are set, which stay so only where no other command is run. -/
def simple (m : Manner) (line : Nat) (settings : List (String × Word)) (words : List Word)
    (redirects : List Redirect) : Act Nat := do
  modify ({ · with line, innerStatus := 0 })
  let words ← r.argumentsOf [] words
  let isSpecial := words.head?.any specialCommands.contains
  let isExec := calledName words = some "exec"
  let stays := isSpecial || words.isEmpty
  let errors := (← get).descriptors.lookup 2
  let targets ← redirects.mapM r.targetOf
  let set (s : String × Word) : Act String := do
    let value ← r.textOfWord ((← get).homed true s.2)
    if !stays then Act.keepLocal s.1
    Act.setVariable s.1 value (!stays || (isExec && 1 < words.length))
    return s.1 ++ "=" ++ value
  let run (isDone : Bool) : Act Nat := do
    if isDone then
      let shown ← settings.mapM set
      r.trace errors (shown ++ words)
      r.call m true none words
    else
      if isSpecial then Act.failed
      return 2
  let act (isDone : Bool) : Act Nat := if stays then run isDone else Act.framed (run isDone)
  if isExec then Act.redirectAll (targets.map (·.descriptor)) targets >>= act else Act.redirected targets act

/-- Runs the turns of a loop that are left after one with a status, at most so many of them. -/
def turnsOf (m : Manner) (until_ : Bool) (test body : Command) :
    (most : Nat) → (status : Nat) → Act Nat
  | 0, status => return status
  | most + 1, status => do
    match ← Act.turn (r.command .test test) with
    | (_, false) => return status
    | (none, true) => turnsOf m until_ test body most status
    | (some n, true) =>
      if (n == 0) == until_ then return status
      let (status, goesOn) ← Act.turn (r.command m body)
      if goesOn then turnsOf m until_ test body most (status.getD 0) else return status.getD 0

/-- Runs a command for each item, after one with a status. -/
def each (m : Manner) (name : String) (body : Command) (status : Nat) : List String → Act Nat
  | [] => return status
  | item :: rest => do
    Act.setVariable name item false
    let (status, goesOn) ← Act.turn (r.command m body)
    if goesOn then each m name body (status.getD 0) rest else return status.getD 0

/-- Runs the first command a pattern of which fits a text. -/
def cases (m : Manner) (text : List Char) : List (List Word × Command) → Act Nat
  | [] => return 0
  | (patterns, body) :: rest => do
    let isFit ← patterns.anyM fun w => (fits · text) <$> r.pattern w
    if !isFit then cases m text rest
    else
      match body with
      | .nothing => return 0
      | body => r.command m body

/-- Runs a command in a process of its own, with descriptors sent elsewhere there; the last command of
a process needs none. -/
def apart (m : Manner) (body : Command) (targets : List Act.Target) : Act Nat := do
  let act : Act Nat := do
    if ← Act.redirectAll [] targets then r.command { m with isLast := true } body else Act.failed
  r.settle
  if m.isLast && !(← get).answers then act >>= Act.endWith
  else r.split act >>= Act.await

/-- Leaves a command in the background, without anything to read. -/
def leave (body : Command) : Act Nat := do
  let (slot, sh) := (← get).freeSlot
  let count := match body with
    | .pipe commands => commands.length
    | _ => 1
  let number := sh.nextProcess + count - 1
  let child := { sh with nextProcess := number }.splitOff.connect 0 (.device false)
  let job : Job := {
    owner := sh.number
    slot
    processes := List.range' sh.nextProcess count
    state := .waiting child.toProcess sh.files.workingDirectory body false }
  set { child with
    toProcess := { sh.toProcess with background := some number }
    jobs := job :: child.jobs }
  return 0

/-- Answers the signals that came, in the order of their numbers. -/
def answer : Act Unit := do
  let sh ← get
  if !sh.pending.isEmpty then
    set { sh with pending := [], closingStatus := some sh.status }
    for signal in sh.pending.mergeSort do
      if let some action := (← get).traps.lookup signal then
        discard (r.wholeText {} action.toList)
        modify ({ · with status := sh.status })
    modify ({ · with closingStatus := sh.closingStatus })

/-- Takes over the status of a command and answers the signals that came. A failure that is checked ends
the script, unless the status is tested. -/
def conclude (m : Manner) (isChecked : Bool) (status : Nat) : Act Nat := do
  modify ({ · with status })
  r.answer
  if status ≠ 0 && !m.tested && isChecked && (← get).has .errexit then throw .exit
  return status

/-- Runs a command that is made of others. -/
def compound (m : Manner) : Command → Act Nat
  | .nothing => do return (← get).status
  | .simple line settings words redirects => r.simple m line settings words redirects
  | .redirected line body redirects => do
    modify ({ · with line })
    let targets ← redirects.mapM r.targetOf
    Act.redirected targets fun isDone =>
      if isDone then r.command m.within body else r.conclude m true 2
  | .apart line body redirects => do
    modify ({ · with line })
    r.apart m body (← redirects.mapM r.targetOf)
  | .pipe commands => r.pipeline m commands
  | .inBackground body => leave body
  | .negated body => do return if (← r.command .test body) = 0 then 1 else 0
  | .sequence first second => do
    discard (r.command m.within first)
    r.command m second
  | .onSuccess first second => do
    let status ← r.command .test first
    if status = 0 then r.command m second else return status
  | .onFailure first second => do
    let status ← r.command .test first
    if status = 0 then return status else r.command m second
  | .choice test success failure => do
    if (← r.command .test test) = 0 then r.command m success
    else
      match failure with
      | .nothing => return 0
      | failure => r.command m failure
  | .loop until_ test body => r.turnsOf m.within until_ test body r.turns 0
  | .each line name items body => do
    modify ({ · with line })
    let items ← match items with
      | some words => List.flatten <$> words.mapM r.fields
      | none => do pure (← get).arguments
    r.each m.within name body 0 items
  | .cases line subject branches => do
    modify ({ · with line })
    let text ← r.textOfWord ((← get).homed false subject)
    r.cases m text.toList branches
  | .define name body => do
    modify fun sh => { sh with
      functions := (name, body) :: sh.functions.filter (·.1 ≠ name)
      known := Shell.updated sh.known name none }
    return 0

/-- Whether a failure of a command may end the script. -/
def isChecked : Command → Bool
  | .simple _ _ _ _ | .apart _ _ _ | .pipe _ | .inBackground _ => true
  | _ => false

/-- Counts a command, while a job runs that may not take too many. -/
def count : Act Unit := do
  let sh ← get
  match sh.patience with
  | some 0 => throw .endless
  | some (n + 1) => set { sh with patience := some n }
  | none => return

/-- Runs a command. Unless its status is tested, a failure may end the script. -/
def one (m : Manner) (command : Command) : Act Nat := do
  count
  if (← get).has .noexec then return (← get).status
  r.conclude m (isChecked command) (← r.compound m command)

end Runner

/-- A runner for commands that nest at most so deep; one that nests deeper ends the process. -/
def runner (turns : Nat) : (depth : Nat) → Runner
  | 0 => ⟨fun _ _ => throw .exit, fun _ _ => throw .exit, fun _ _ _ _ => throw .exit, turns⟩
  | depth + 1 => {
      piece := fun splits p sh => (runner turns depth).expandPiece splits p sh
      command := fun m command sh => (runner turns depth).one m command sh
      words := fun m withFunctions searchPath words sh =>
        (runner turns depth).call m withFunctions searchPath words sh
      turns }

end WeaveStep.Launch
