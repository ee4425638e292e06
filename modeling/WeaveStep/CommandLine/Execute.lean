import WeaveStep.CommandLine.Commands
import WeaveStep.CommandLine.Guard
import WeaveStep.CommandLine.Logging
import WeaveStep.Fetch.Toolchain
import WeaveStep.Settings.Load
import WeaveStep.Weave.Step

/-! # Executing commands

From arguments to an exit code.

* `CommandFailure.ending`: how a command ends that failed; `CommandFailure.tell` prints that and
  gives the exit code.
* `weaveCommand`, `fetchCommand`: the commands. Only the set-up of the log may fail; all that fails
  after it is told.
* `execute`: the whole program, which checks all paths before it does anything. -/

namespace WeaveStep

open Text CommandLine

/-! ## Failures -/

/-- What was to be done with a path where an option gives none. -/
inductive PathUse
  | look
  | resolve
  | extend
  | name
  deriving DecidableEq, Repr

/-- The text of the failure to use a path. -/
def PathUse.message : PathUse → String
  | look => "'list' object has no attribute 'exists'"
  | resolve => "'list' object has no attribute 'resolve'"
  | extend => "unsupported operand type(s) for /: 'list' and 'str'"
  | name => "expected str, bytes or os.PathLike object, not list"

/-- The name of the kind of that failure. -/
def PathUse.kind : PathUse → String
  | look | resolve => "AttributeError"
  | extend | name => "TypeError"

/-- Why a command failed. -/
inductive CommandFailure
  | settings (why : LoadFailure)
  | toolchain (why : ToolchainFailure)
  | weave (why : WeaveFailure)
  | files (why : FileFailure)
  /-- An option gives no path where one is used. -/
  | noPath (use : PathUse)

/-- One failure in a trace: the whole name of its kind, and its text. -/
structure TraceStep where
  kind : String
  message : String

/-- The steps of a trace that a failure of files leaves. -/
def FileFailure.steps (e : FileFailure) : List TraceStep := e.chain.map fun e => ⟨e.kind, e.message⟩

/-- The step of a trace that a fault leaves. -/
def Fault.step (f : Fault) : TraceStep :=
  ⟨(if f.kind.isTransfer then "requests.exceptions." else "") ++ f.kind.name, f.message⟩

namespace CommandFailure

/-- The text of a failure. -/
def message : CommandFailure → String
  | settings why => why.message
  | toolchain why => why.message
  | weave why => why.message
  | files why => why.message
  | noPath use => use.message

/-- The name of the kind of failure. -/
def kind : CommandFailure → String
  | settings why => why.kind
  | toolchain why => why.kind
  | weave why => why.kind
  | files why => why.kind
  | noPath use => use.kind

/-- The failure of files that this one is, if it is one, with the steps that led to it. -/
def ofFiles? : CommandFailure → Option (List TraceStep × FileFailure)
  | settings (.inaccessible why) => some ([], why)
  | toolchain (.files why) => some ([], why)
  | toolchain (.download (.files why)) => some ([], why)
  | toolchain (.download (.leftover fault why)) => some ([fault.step], why)
  | weave (.files why) => some ([], why)
  | weave (.weaver (.badCommand why)) => some ([], why)
  | files why => some ([], why)
  | _ => none

/-- The trace that led to a failure: every step is told, and that the next one arose from it. -/
def trace (e : CommandFailure) : String :=
  let steps :=
    match e.ofFiles? with
    | some (before, why) => before ++ why.steps
    | none => [⟨e.kind, e.message⟩]
  let told (s : TraceStep) := "Traceback (most recent call last):\n" ++ s.kind ++ ": " ++ s.message ++ "\n"
  "\nDuring handling of the above exception, another exception occurred:\n\n".intercalate
    (steps.map told)

/-- How a failed command ends. -/
inductive Ending
  | aborted
  /-- The failure is one that users are told by its text alone. -/
  | reported
  | missing
  | interrupted
  | unexpected
  deriving DecidableEq, Repr

/-- Whether the failure is that a file is missing. -/
def isMissing : CommandFailure → Bool
  | settings (.missing _) => true
  | e => e.ofFiles?.any (·.2.isMissing)

/-- How a command ends with this failure. -/
def ending : CommandFailure → Ending
  | weave (.aborted _) => .aborted
  | weave (.copyFailed _ _) | weave (.noPlatform _) => .reported
  | settings (.rejected _) | toolchain (.flawed _) => .reported
  | toolchain (.download (.fault ⟨.interrupt, _⟩)) => .interrupted
  | e => if e.isMissing then .missing else .unexpected

/-- Tells the user of a failure, and gives the exit code. -/
def tell {ε : Type} (verbose : Bool) (e : CommandFailure) : Run ε Nat := do
  match e.ending with
  | .aborted =>
    Notice.error "Weave failed!" e.message
    return 1
  | .reported =>
    Notice.error "Error" e.message
    return 1
  | .missing => Notice.missingFile e.message
  | .interrupted => Notice.interrupted
  | .unexpected => Notice.unexpected e.kind e.message (if verbose then some e.trace else none)

end CommandFailure

/-! ## Commands -/

/-- A path that an option has to give. -/
def givenFor (use : PathUse) : GivenPath → Run CommandFailure Path
  | some p => pure p
  | none => throw (.noPath use)

/-- The settings that a command goes by. -/
def findSettings (given : Option GivenPath) (project : GivenPath) : Run CommandFailure Settings := do
  match given with
  | some file =>
    let file ← givenFor .look file
    Run.ofExcept .settings (Settings.loadGiven (← get).files file)
  | none =>
    let project ← givenFor .extend project
    Run.ofExcept .settings (Settings.loadOwn (← get).files project)

/-- The toolchain that settings ask for in a project. -/
def findToolchain (settings : Settings) (project : GivenPath) (showProgress : Bool) :
    Run CommandFailure Toolchain := do
  let project ← givenFor .name project
  let w ← get
  let cache ← Run.ofExcept .files (Cache.of w.files w.environment (some project))
  return .ofSettings settings cache showProgress

/-- The class path that is written so. -/
def writtenClasspath (s : Option String) : List String :=
  match given? s with
  | some s => splitAt ':' s
  | none => []

/-- The paths that a weave is about, all of them given. -/
structure WeavePaths where
  inputs : List Path
  referenced : List Path
  output : Path

/-- Weaves and tells that all went well. -/
def tryWeave (o : WeaveOptions) (paths : WeavePaths) : Run CommandFailure Unit := do
  let settings ← findSettings o.settings o.project
  let command ←
    if settings.enabled then do
      let toolchain ← findToolchain settings o.project (!o.quiet)
      Run.wrapping .toolchain toolchain.command
    else pure []
  let root ← Run.ask .files (·.absolute paths.output)
  let inputs ← Run.ask .files (Bundle.ofPaths · paths.inputs)
  let referenced ← Run.ask .files (Bundle.ofPaths · paths.referenced)
  let completion ← Run.wrapping .weave
    (weave settings root (.ofCommand command (some settings.weaverVersion))
      { inputs := [inputs], referenced := [referenced],
        javaClasspath := writtenClasspath o.javaClasspath })
  match completion.invocation? with
  | none => Notice.warning "Weaving skipped: disabled in configuration"
  | some invocation =>
    Notice.success "Weave successful!"
    Run.print ""
    Run.print ("Output: " ++ invocation.output.text)
    Run.print ("Weave time: " ++ (← get).duration ++ "s")

/-- Fetches the weaver and tells that all went well. -/
def tryFetch (o : FetchOptions) : Run CommandFailure Unit := do
  let settings ← findSettings o.settings o.project
  let toolchain ← findToolchain settings o.project true
  let archive ← Run.wrapping .toolchain toolchain.ensureWeaver
  Notice.success ("AspectJ tools " ++ settings.weaverVersion ++ " ready")
  Run.print ("Jar: " ++ archive.text)

/-- Runs a command to its exit code; a failure is told. -/
def concluding {ε : Type} (verbose : Bool) (act : Run CommandFailure Unit) : Run ε Nat := fun w =>
  match act w with
  | .ok _ w => .ok 0 w
  | .error e w => e.tell verbose w

/-- The command to weave. -/
def weaveCommand (o : WeaveOptions) (paths : WeavePaths) : Run FileFailure Nat := do
  LogOptions.setUp { verbose := o.verbose, quiet := o.quiet, file := o.log }
  concluding o.verbose (tryWeave o paths)

/-- The command to fetch the weaver. -/
def fetchCommand (o : FetchOptions) : Run FileFailure Nat := do
  LogOptions.setUp { verbose := o.verbose }
  concluding o.verbose (tryFetch o)

/-! ## The program -/

/-- The number of columns of the terminal, as the environment tells it. -/
def terminalColumns (environment : List (String × String)) : Nat :=
  match (environment.lookup "COLUMNS").map readInteger with
  | some (.ok n) => if 0 < n then n.toNat else 80
  | _ => 80

/-- Says what arguments ask to be said, or what is wrong with them, and gives the exit code. -/
def say {ε : Type} : Answer → Run ε Nat
  | .page text => do
    modify fun w => { w with output := w.output ++ text }
    return 0
  | .misuse usage program message => do
    modify fun w => { w with
      errors := w.errors ++ usage ++ "\n" ++ program ++ ": error: " ++ message ++ "\n" }
    return refusedCode

/-- Why the program ends without an exit code. -/
inductive ProgramFailure
  | files (why : FileFailure)
  | noPath (use : PathUse)

/-- The text of a failure. -/
def ProgramFailure.message : ProgramFailure → String
  | files why => why.message
  | noPath use => use.message

/-- The name of the kind of failure. -/
def ProgramFailure.kind : ProgramFailure → String
  | files why => why.kind
  | noPath use => use.kind

/-- The paths in front of the first that is not given, and whether all are given. -/
def givenPaths : List GivenPath → List Path × Bool
  | some p :: rest => (p :: (givenPaths rest).1, (givenPaths rest).2)
  | none :: _ => ([], false)
  | [] => ([], true)

/-- Checks all paths of a weave in turn, and weaves if they are fine. -/
def checkedWeave (here : Path) (o : WeaveOptions) : Run ProgramFailure Nat := do
  let (read, allGiven) := givenPaths (o.inputs ++ o.referenced)
  if !(← Run.wrapping .files (inputsExist read)) then return refusedCode
  if !allGiven then throw (.noPath .look)
  let some output := o.output | throw (.noPath .resolve)
  let kept := match o.project with
    | some project => read ++ [project, here]
    | none => read
  if !(← Run.wrapping .files (outputIsSafe output kept)) then return refusedCode
  if o.project.isNone then throw (.noPath .resolve)
  let paths := ⟨(givenPaths o.inputs).1, (givenPaths o.referenced).1, output⟩
  Run.wrapping .files (weaveCommand o paths)

/-- Runs the program to its exit code. -/
def execute (arguments : List String) : Run ProgramFailure Nat := do
  let here ← Run.ask .files (·.currentPath)
  match Call.read (terminalColumns (← get).environment) here arguments with
  | .error answer => say answer
  | .ok (.fetch o) => Run.wrapping .files (fetchCommand o)
  | .ok (.weave o) => checkedWeave here o

end WeaveStep
