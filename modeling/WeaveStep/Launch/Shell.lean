import WeaveStep.Launch.Channel
import WeaveStep.Launch.Script
import WeaveStep.Launch.Switch

/-! # Shells

The state of the processes that run scripts.

* `Process`: what a process has to itself. One that is split off from another begins with a copy.
* `Job`: a command left in the background. It runs when the one that left it next waits for something.
* `Shell`: the process at hand, with all that processes share.
* `Shell.splitOff`, `Shell.resumed`: the shell as a new process begins, and when that has ended. -/

namespace WeaveStep.Launch

open Text

/-! ## Processes -/

/-- A variable, which may be marked before it has a value. -/
structure Variable where
  value : Option String := none
  isExported : Bool := false
  isReadonly : Bool := false

/-- Where on the search path a program was found. -/
structure Finding where
  index : Nat
  /-- Whether the working directory changed since. -/
  isStale : Bool := false

/-- What a function at hand keeps to itself, as it was before. -/
structure Frame where
  vars : List (String × Option Variable) := []
  switches : Option (List Switch) := none

/-- How much of something a process may take, and how far it may raise that itself. -/
structure Limit where
  soft : Option Nat := none
  hard : Option Nat := none

/-- How far the options of the arguments have been taken. -/
structure OptionPlace where
  /-- The number of the argument that is next, unless options have gone astray. -/
  next : Option Nat := some 1
  /-- How much of the argument before it was taken, if the options in that one go on. -/
  offset : Option Nat := none

/-- What a process has to itself. All its text is text of bytes. -/
structure Process where
  number : Nat
  /-- The number of the process that the shell began as. -/
  leader : Nat
  /-- The number of the process that started the shell. -/
  parent : Nat
  /-- The processes that wait for this one to end, closest first. -/
  waiting : List Nat := []
  /-- The working directory, by the names it was reached by. -/
  directory : String
  /-- The name of the script. -/
  name : String
  arguments : List String
  switches : List Switch := []
  vars : List (String × Variable) := []
  functions : List (String × Command) := []
  aliases : List (String × String) := []
  /-- Where on the search path programs were found, by their names. -/
  known : List (String × Finding) := []
  /-- The documents in the text read so far. -/
  documents : List Word := []
  /-- The channel that each descriptor leads to. -/
  descriptors : List (Nat × Nat) := []
  /-- What signals and the end are answered with. -/
  traps : List (Nat × String) := []
  /-- The signals that were without effect when the process began, which stay so. -/
  deafTo : List Nat := []
  /-- Signals that came and are not answered yet. -/
  pending : List Nat := []
  limits : List (Char × Limit) := []
  /-- The bits that new files do not get. -/
  mask : Nat := 18
  /-- The status of the last command. -/
  status : Nat := 0
  /-- The status that `exit` ends the process with, while an answer to a signal or to the end runs. -/
  closingStatus : Option Nat := none
  /-- The status of the last command put into the words of the one at hand. -/
  innerStatus : Nat := 0
  /-- The last process left in the background. -/
  background : Option Nat := none
  /-- The line of the command at hand. -/
  line : Nat := 1
  /-- The line up to which the script was read. -/
  lastLine : Nat := 1
  /-- The command that errors are told of. -/
  caller : Option String := none
  /-- What a builtin command printed so far and has not written yet, latest first. -/
  unwritten : List (List Char) := []
  /-- How many loops the command at hand stands in. -/
  loops : Nat := 0
  /-- How many functions it stands in. -/
  depth : Nat := 0
  frames : List Frame := []
  /-- Whether the command at hand is being shown. -/
  isTracing : Bool := false
  optionPlace : OptionPlace := {}

/-! ## Jobs -/

/-- How a process ended. -/
inductive Ending
  | exited (status : Nat)
  | struck (signal : Nat)
  deriving DecidableEq

/-- The status that stands for the end of a process. -/
def Ending.status : Ending → Nat
  | exited status => status
  | struck signal => 128 + signal

/-- What has become of a job. -/
inductive JobState
  /-- It has not done anything yet: the process it begins with, in some directory. One that would not
  end by itself is not tried again. -/
  | waiting (process : Process) (place : Location) (body : Command) (isEndless : Bool)
  | running
  | ended (endings : List Ending)

/-- A command left in the background. -/
structure Job where
  /-- The process that left it there, and the number that this one has for it. -/
  owner : Nat
  slot : Nat
  /-- The processes that it consists of. -/
  processes : List Nat
  state : JobState
  /-- Whether its end was waited for, so that its number may be used again. -/
  isOver : Bool := false

/-- Whether a job can run now. -/
def Job.isReady (j : Job) : Bool :=
  match j.state with
  | .waiting _ _ _ isEndless => !isEndless
  | _ => false

/-- Whether a job has ended. -/
def Job.isEnded (j : Job) : Bool :=
  match j.state with
  | .ended _ => true
  | _ => false

/-- The channels that a job will need. -/
def Job.channels (j : Job) : List Nat :=
  match j.state with
  | .waiting process _ _ _ => process.descriptors.map (·.2)
  | _ => []

/-! ## Shells -/

/-- The process at hand, with all that processes share. -/
structure Shell extends Process where
  files : FileTree
  /-- All that is open, by number, latest first. -/
  channels : List (Nat × Channel) := []
  nextChannel : Nat := 0
  /-- What was printed, latest first. -/
  printed : List (Console.Stream × List Char) := []
  /-- The signals that were sent and have not come yet, each with the process it was sent to. -/
  sent : List (Nat × Nat) := []
  /-- The jobs of all processes, latest first. -/
  jobs : List Job := []
  nextProcess : Nat
  /-- How many more commands a job may take, while one runs. -/
  patience : Option Nat := none

namespace Shell

/-- Whether something is switched on. -/
def has (sh : Shell) (switch : Switch) : Bool := sh.switches.contains switch

/-! ### Variables -/

/-- The value of a variable. -/
def value? (sh : Shell) (name : String) : Option String :=
  (sh.vars.lookup name).bind (·.value)

/-- What parts fields, unless that is said otherwise. -/
def defaultSeparators : String := " \t\n"

/-- What parts fields. -/
def separators (sh : Shell) : String := (sh.value? "IFS").getD defaultSeparators

/-- The variables that the shell itself knows. They stay where they are when they are removed, and
keep their marks. -/
def fixedVariables : List String :=
  ["HISTSIZE", "TERM", "OPTIND", "PS4", "PS2", "PS1", "PATH", "MAILPATH", "MAIL", "IFS"]

/-- A table with an entry changed, or removed, or added at its end. -/
def updated {α : Type} (table : List (String × α)) (name : String) (entry : Option α) :
    List (String × α) :=
  match entry with
  | none => table.filter (·.1 ≠ name)
  | some a =>
    if table.any (·.1 = name) then table.map fun e => if e.1 = name then (name, a) else e
    else table ++ [(name, a)]

/-- Puts a variable in the place of another one, or removes it. -/
def putVariable (sh : Shell) (name : String) (v : Option Variable) : Shell :=
  { sh with
    vars := updated sh.vars name v
    known := if name = "PATH" then [] else sh.known }

/-- Takes the value of a variable away. -/
def unsetVariable (sh : Shell) (name : String) : Shell :=
  match sh.vars.lookup name with
  | some v =>
    sh.putVariable name (if fixedVariables.contains name then some { v with value := none } else none)
  | none => sh

/-- The place that the number of the next argument stands for. -/
def placeOfNumber (n : Nat) : OptionPlace := { next := some (max 1 n) }

/-- Leaves a function: what it kept to itself is as it was before. -/
def leaveFrame (sh : Shell) : Shell :=
  match sh.frames with
  | frame :: frames =>
    let number := ((frame.vars.lookup "OPTIND").join.bind (·.value)).bind String.toNat?
    let sh := frame.vars.foldl (fun sh (name, v) => sh.putVariable name v) sh
    { sh with
      optionPlace := (number.map placeOfNumber).getD sh.optionPlace
      frames
      switches := frame.switches.getD sh.switches }
  | [] => sh

/-- Leaves functions until only so many are left. -/
def leaveFrames (sh : Shell) (left : Nat) : Shell :=
  (sh.frames.drop left).foldl (fun sh _ => sh.leaveFrame) sh

/-- How many chains tables consist of. -/
def chains : Nat := 39

/-- The chain of a table that a name is in. -/
def chain (count : Nat) (name : String) : Nat :=
  let codes := name.toList.map Char.toNat
  codes.foldl (· + ·) (16 * codes.headD 0) % count

/-- The entries of a table chain by chain, those of one chain in the order of the table. -/
def inChains {α : Type} (count : Nat) (table : List (String × α)) : List (String × α) :=
  (List.range count).flatMap fun n => table.filter fun e => chain count e.1 = n

/-- The environment of the programs that are started. -/
def environment (sh : Shell) : List (String × String) :=
  (inChains chains sh.vars).filterMap fun (name, v) =>
    match v with
    | ⟨some value, true, _⟩ => some (name, outOfBytes value)
    | _ => none

/-! ### Descriptors -/

/-- The channel that a descriptor leads to, with its number. -/
def channel? (sh : Shell) (descriptor : Nat) : Option (Nat × Channel) := do
  let n ← sh.descriptors.lookup descriptor
  let channel ← sh.channels.lookup n
  return (n, channel)

/-- Changes a channel. -/
def setChannel (sh : Shell) (n : Nat) (c : Channel) : Shell :=
  { sh with channels := sh.channels.map fun e => if e.1 = n then (n, c) else e }

/-- Lets a descriptor lead to a channel, or nowhere. -/
def point (sh : Shell) (descriptor : Nat) (channel : Option Nat) : Shell :=
  { sh with
    descriptors := (channel.map (descriptor, ·)).toList ++ sh.descriptors.filter (·.1 ≠ descriptor) }

/-- Opens a channel that no descriptor leads to yet; its number is `nextChannel`. -/
def opened (sh : Shell) (c : Channel) : Shell :=
  { sh with channels := (sh.nextChannel, c) :: sh.channels, nextChannel := sh.nextChannel + 1 }

/-- Lets a descriptor lead to a new channel. -/
def connect (sh : Shell) (descriptor : Nat) (c : Channel) : Shell :=
  (sh.opened c).point descriptor (some sh.nextChannel)

/-- Closes the channels from some number on that neither the process at hand nor a job needs. -/
def closed (sh : Shell) (first : Nat) : Shell :=
  let young := sh.channels.takeWhile fun e => first ≤ e.1
  if young.isEmpty then sh
  else
    let needed := sh.descriptors.map (·.2) ++ sh.jobs.flatMap Job.channels
    { sh with
      channels := young.filter (fun e => needed.contains e.1) ++ sh.channels.drop young.length }

/-- How many bytes a file that is written to may have. -/
def fileLimit (sh : Shell) : Option Nat := (sh.limits.lookup 'f').bind (·.soft)

/-- Writes to a channel. -/
def write (sh : Shell) (n : Nat) (text : List Char) : Written × Shell :=
  match sh.channels.lookup n with
  | some (.console stream) => (.done, { sh with printed := (stream, text) :: sh.printed })
  | some c =>
    let (written, c, files) := c.write sh.files sh.fileLimit text
    (written, { sh.setChannel n c with files })
  | none => (.refused, sh)

/-- What is still to be read from a descriptor. -/
def source (sh : Shell) (descriptor : Nat) : Source :=
  match sh.channel? descriptor with
  | some (_, c) => c.source sh.files
  | none => .bytes []

/-- Goes on in what a descriptor is read from. -/
def advance (sh : Shell) (descriptor count : Nat) : Shell :=
  match sh.channel? descriptor with
  | some (n, c) => sh.setChannel n (c.advance count)
  | none => sh

/-! ### Processes -/

/-- Whether any signal is answered by a command. -/
def answers (sh : Shell) : Bool := sh.traps.any (·.2 ≠ "")

/-- The shell as a new process begins that is split off from it, where only the signals without
effect stay so. -/
def splitOff (sh : Shell) : Shell :=
  { sh with
    number := sh.nextProcess
    waiting := sh.number :: sh.waiting
    traps := sh.traps.filter (·.2 = "")
    pending := []
    lastLine := 1
    nextProcess := sh.nextProcess + 1 }

/-- The shell when a process that it started has ended: only what processes share is kept. -/
def resumed (sh ended : Shell) : Shell :=
  { ended with
    toProcess := sh.toProcess
    files := { ended.files with workingDirectory := sh.files.workingDirectory } }.closed sh.nextChannel

/-! ### Jobs -/

/-- The jobs of the process at hand, latest first. -/
def ownJobs (sh : Shell) : List Job := sh.jobs.filter (·.owner = sh.number)

/-- Changes a job. -/
def setJob (sh : Shell) (j : Job) : Shell :=
  { sh with
    jobs := sh.jobs.map fun j' => if j'.owner = j.owner && j'.slot = j.slot then j else j' }

/-- Forgets a job. -/
def dropJob (sh : Shell) (j : Job) : Shell :=
  { sh with jobs := sh.jobs.filter fun j' => !(j'.owner = j.owner && j'.slot = j.slot) }

/-- The number for a new job: the least that no job has whose end has not been waited for. A job that
had it is forgotten. -/
def freeSlot (sh : Shell) : Nat × Shell :=
  let jobs := sh.ownJobs
  let isFree (n : Nat) : Bool := !(jobs.any fun j => j.slot = n && !(j.isEnded && j.isOver))
  let slot := ((List.range' 1 (jobs.length + 1)).find? isFree).getD (jobs.length + 1)
  (slot, { sh with jobs := sh.jobs.filter fun j => !(j.owner = sh.number && j.slot = slot) })

/-- Whether a process of some number is there. -/
def isProcess (sh : Shell) (n : Nat) : Bool :=
  n = sh.number || sh.waiting.contains n || n = sh.parent ||
    sh.jobs.any fun j => j.processes.contains n && !j.isEnded

end Shell

end WeaveStep.Launch
