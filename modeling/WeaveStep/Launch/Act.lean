import WeaveStep.Launch.Shell
import WeaveStep.Launch.Sum

/-! # Steps of shells

What all commands are made of.

* `Act`: a step of a shell, which an `Interrupt` may end.
* `Act.write`, `Act.redirected`: descriptors; `Act.setVariable`: variables; `Act.fail`: an error.
* `Act.hear`, `Act.receive`: signals.
* `Act.within`: a step in a process of its own, of which only what processes share is kept. -/

namespace WeaveStep.Launch

open Text

/-- What ends a step early. -/
inductive Interrupt
  /-- The process ends with the status at hand. -/
  | exit
  /-- An error, which ends the process unless it arose in a plain builtin command. -/
  | failure
  /-- Some loops end. -/
  | breaks (loops : Nat)
  /-- Some loops end, the last of which goes on with its next turn. -/
  | continues (loops : Nat)
  /-- The function at hand ends with the status at hand. -/
  | returns
  /-- A signal ends the process. -/
  | killed (signal : Nat)
  /-- A reader came to the end of a text in a channel that was cut off. -/
  | starved (channel : Nat)
  /-- A job took more commands than it may. -/
  | endless
  deriving DecidableEq

/-- A step of a shell. -/
abbrev Act := EStateM Interrupt Shell

namespace Act

/-! ## Signals -/

/-- A signal comes to the process at hand. -/
def hear (signal : Nat) : Act Unit := do
  let sh ← get
  if signal = Signal.kill then throw (.killed signal)
  else if sh.deafTo.contains signal then return
  else
    match sh.traps.lookup signal with
    | some action =>
      if action ≠ "" then
        set { sh with pending := sh.pending.filter (· ≠ signal) ++ [signal] }
    | none => if !Signal.isIdle signal then throw (.killed signal)

/-- The signals that were sent to the process at hand come to it. -/
def receive : Act Unit := do
  let sh ← get
  if !sh.sent.isEmpty then
    set { sh with sent := sh.sent.filter (·.1 ≠ sh.number) }
    for (process, signal) in sh.sent do
      if process = sh.number then hear signal

/-! ## Writing -/

/-- Writes to a channel; gives whether it could be done. -/
def writeTo (channel : Nat) (text : List Char) : Act Bool := do
  if text.isEmpty then return true
  let (written, sh) := (← get).write channel text
  set sh
  match written with
  | .done => return true
  | .refused => return false
  | .struck signal =>
    hear signal
    return false

/-- Writes to a descriptor; gives whether it could be done. -/
def write (descriptor : Nat) (text : List Char) : Act Bool := do
  match (← get).descriptors.lookup descriptor with
  | some channel => writeTo channel text
  | none => return text.isEmpty

/-- Tells of something on the error stream. -/
def tell (text : String) : Act Unit := discard (write 2 text.toList)

/-- Tells of an error. -/
def complain (text : String) : Act Unit := do
  let sh ← get
  let caller := match sh.caller with
    | some caller => caller ++ ": "
    | none => ""
  tell (sh.name ++ ": " ++ toString sh.line ++ ": " ++ caller ++ text ++ "\n")

/-- Gives up the control of jobs, for which there would have to be a terminal. -/
def loseMonitor : Act Unit := do
  complain "can't access tty; job control turned off"
  modify fun sh => { sh with switches := Switch.turned sh.switches .monitor false }

/-- Ends with a status that tells of an error. -/
def failed {α : Type} : Act α := do
  modify ({ · with status := 2 })
  throw .failure

/-- Fails with an error. -/
def fail {α : Type} (text : String) : Act α := do
  complain text
  failed

/-- Prints from within a builtin command, which writes all of it when it ends. -/
def print (text : List Char) : Act Nat := do
  modify fun sh => { sh with unwritten := text :: sh.unwritten }
  return 0

/-- Writes what was printed; gives whether it could be done. -/
def writePrinted : Act Bool := do
  let text := (← get).unwritten.reverse.flatten
  modify ({ · with unwritten := [] })
  write 1 text

/-- A number that is not negative. -/
def number (s : String) : Act Nat :=
  match Sum.number? false s with
  | some n => if 0 ≤ n ∧ n < Nat.pow 2 31 then return n.toNat else fail ("Illegal number: " ++ s)
  | none => fail ("Illegal number: " ++ s)

/-! ## Variables -/

/-- Sets a variable. -/
def setVariable (name value : String) (exports : Bool) : Act Unit := do
  let sh ← get
  let v := (sh.vars.lookup name).getD {}
  if v.isReadonly then fail (name ++ ": is read only")
  let isExported := v.isExported || exports || sh.has .allexport
  let optionPlace ←
    if name = "OPTIND" then Shell.placeOfNumber <$> number value else pure sh.optionPlace
  set ({ sh with optionPlace }.putVariable name (some { v with value := some value, isExported }))

/-- Keeps a variable to the function at hand. -/
def keepLocal (name : String) : Act Unit := modify fun sh =>
  match sh.frames with
  | frame :: frames =>
    if frame.vars.any (·.1 = name) then sh
    else
      let frame := { frame with vars := (name, sh.vars.lookup name) :: frame.vars }
      { sh with frames := frame :: frames }
  | [] => sh

/-- Keeps what is switched on to the function at hand. -/
def keepSwitches : Act Unit := modify fun sh =>
  match sh.frames with
  | frame :: frames =>
    { sh with frames := { frame with switches := frame.switches <|> some sh.switches } :: frames }
  | [] => sh

/-- Leaves a function; it is an error where that would take away a variable whose name is none. -/
def leaveFrame : Act Unit := do
  let sh ← get
  set sh.leaveFrame
  let kept := (sh.frames.head?.map (·.vars)).getD []
  match kept.find? fun (name, v) => v.isNone && !isName name with
  | some (name, _) => fail (name ++ ": bad variable name")
  | none => return

/-- Takes a step that may keep variables to itself; they are still there for what is done at the end of
the process. -/
def framed {α : Type} (act : Act α) : Act α := fun sh =>
  match act { sh with frames := {} :: sh.frames } with
  | .ok a sh' => (do leaveFrame; return a) sh'
  | .error .exit sh' => .error .exit sh'
  | .error .failure sh' => .error .failure sh'
  | .error e sh' => .error e sh'.leaveFrame

/-! ## Descriptors -/

/-- Refuses to open a file. -/
def refuse (what absent path : String) (why : FileFailure) : Act Bool := do
  let text := match why with
    | .refused .noEntry _ | .refused .notDirectory _ => absent
    | .refused why _ => why.text
    | why => why.message
  complain (what ++ path ++ ": " ++ text)
  return false

/-- Refuses to open a file that is to be read. -/
def refuseReading (path : String) (why : FileFailure) : Act Bool :=
  refuse "cannot open " "No such file" path why

/-- Refuses to open a file that is to be written to. -/
def refuseWriting (path : String) (why : FileFailure) : Act Bool :=
  refuse "cannot create " "Directory nonexistent" path why

/-- The descriptor that a path stands for. -/
def descriptorOf? (path : String) : Option Nat :=
  match path with
  | "/dev/stdin" => some 0
  | "/dev/stdout" => some 1
  | "/dev/stderr" => some 2
  | path => (after? "/dev/fd/".toList path.toList).bind fun digits => (String.ofList digits).toNat?

/-- Opens a file, which is made if it is not there where it is to be written to. -/
def openFile (descriptor : Nat) (path : String) (mode : OpenMode)
    (opening : Option FileTree.Opening) : Act Bool := do
  let sh ← get
  let channelAt (place : Location) (files : FileTree) : Channel :=
    match files.get? place with
    | some (.device isFull) => .device isFull
    | _ => .file place 0 mode
  match (descriptorOf? path).map sh.channel? with
  | some (some (_, .file place _ _)) =>
    let files := if opening = some .empties then sh.files.emptied place else sh.files
    set ({ sh with files }.connect descriptor (.file place 0 mode))
    return true
  | some (some (n, _)) =>
    set (sh.point descriptor (some n))
    return true
  | some none =>
    let why := FileFailure.refusal .noEntry path
    if opening.isSome then refuseWriting path why else refuseReading path why
  | none =>
    match opening with
    | some opening =>
      match sh.files.placeToWrite (outOfBytes path) opening with
      | .ok (place, files) =>
        set ({ sh with files }.connect descriptor (channelAt place files))
        return true
      | .error why =>
        match opening, why with
        | .spares, .refused .isDirectory _ => refuseReading path why
        | _, _ => refuseWriting path why
    | none =>
      match sh.files.statText (outOfBytes path) with
      | .ok (place, _) =>
        set (sh.connect descriptor (channelAt place sh.files))
        return true
      | .error why => refuseReading path why

/-- A redirection whose word has been replaced. -/
structure Target where
  descriptor : Nat
  how : Redirection
  text : String := ""
  /-- The text of a document, in which all is replaced when it is opened. -/
  document : Act String := pure ""

/-- Takes a step, of which there is no result if an error ends it. -/
def attempt {α : Type} (act : Act α) : Act (Option α) := fun sh =>
  match act sh with
  | .ok a sh' => .ok (some a) sh'
  | .error .failure sh' => .ok none sh'
  | .error e sh' => .error e sh'

/-- Lets a descriptor lead where a redirection says; gives whether it could be done. One that is kept
to be restored is closed before another is copied to it. -/
def redirect (isKept : Bool) (target : Target) : Act Bool := do
  let { descriptor, how, text, document } := target
  match how with
  | .input => openFile descriptor text { reads := true } none
  | .output =>
    let opening := if (← get).has .noclobber then .spares else .empties
    openFile descriptor text { writes := true } (some opening)
  | .overwrite => openFile descriptor text { writes := true } (some .empties)
  | .append => openFile descriptor text { writes := true, atEnd := true } (some .keeps)
  | .both => openFile descriptor text { reads := true, writes := true } (some .keeps)
  | .document _ =>
    let some text ← attempt document | return false
    modify (·.connect descriptor (.pipe (.ofText text)))
    return true
  | .copy =>
    if text = "-" then
      modify (·.point descriptor none)
      return true
    if isKept then modify (·.point descriptor none)
    match (← get).descriptors.lookup (text.toNat?.getD 0) with
    | some channel =>
      modify (·.point descriptor (some channel))
      return true
    | none =>
      complain (text ++ ": Bad file descriptor")
      return false

/-- Whether a redirection copies a descriptor to itself, which does nothing. -/
def isIdle (target : Target) : Bool :=
  match target.how with
  | .copy => target.text = toString target.descriptor
  | _ => false

/-- Follows redirections in turn, up to the first that fails, where some descriptors are to be kept
when they are sent elsewhere for the first time. -/
def redirectAll (kept : List Nat) : List Target → Act Bool
  | [] => return true
  | target :: rest => do
    if isIdle target then redirectAll kept rest
    else if ← redirect (kept.contains target.descriptor) target then
      redirectAll (kept.filter (· ≠ target.descriptor)) rest
    else return false

/-- Takes a step, which is told whether it could be done, with descriptors sent elsewhere. After it
these lead where they led before. -/
def redirected {α : Type} (targets : List Target) (act : Bool → Act α) : Act α := fun sh =>
  let before := (targets.map (·.descriptor)).eraseDups.map fun d => (d, sh.descriptors.lookup d)
  let back (sh' : Shell) : Shell :=
    if before.isEmpty then sh'
    else (before.foldl (fun sh' (d, n) => sh'.point d n) sh').closed sh.nextChannel
  match (redirectAll (before.map (·.1)) targets >>= act) sh with
  | .ok a sh' => .ok a (back sh')
  | .error e sh' => .error e (back sh')

/-! ## Processes -/

/-- Takes a step in a process of its own, which begins with `child`; gives how that ends. -/
def within (child : Shell) (act : Act Nat) : Act Ending := fun sh =>
  match act child with
  | .ok status ended => .ok (.exited (status % 256)) (sh.resumed ended)
  | .error (.killed signal) ended => .ok (.struck signal) (sh.resumed ended)
  | .error (.starved channel) ended => .error (.starved channel) (sh.resumed ended)
  | .error .endless ended => .error .endless (sh.resumed ended)
  | .error _ ended => .ok (.exited (ended.status % 256)) (sh.resumed ended)

/-- Tells of the end of a process that a signal ended. -/
def tellEnd (ending : Ending) : Act Unit :=
  match ending with
  | .exited _ => pure ()
  | .struck signal => if Signal.isQuiet signal then pure () else tell (Signal.text signal ++ "\n")

/-- Waits for a process that has ended; gives its status. -/
def await (ending : Ending) : Act Nat := do
  tellEnd ending
  return ending.status

/-! ## Loops -/

/-- Takes one turn of a loop: its status, unless it was broken off, and whether the loop goes on. -/
def turn (act : Act Nat) : Act (Option Nat × Bool) := fun sh =>
  let leave (sh' : Shell) : Shell := { sh' with loops := sh.loops }
  match act { sh with loops := sh.loops + 1 } with
  | .ok status sh' => .ok (some status, true) (leave sh')
  | .error (.breaks n) sh' =>
    if n ≤ 1 then .ok (none, false) (leave sh') else .error (.breaks (n - 1)) (leave sh')
  | .error (.continues n) sh' =>
    if n ≤ 1 then .ok (none, true) (leave sh') else .error (.continues (n - 1)) (leave sh')
  | .error e sh' => .error e (leave sh')

end Act

end WeaveStep.Launch
