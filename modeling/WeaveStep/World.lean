import WeaveStep.Console.Messages
import WeaveStep.Files.Change
import WeaveStep.Text.Utf8
import WeaveStep.Weave.Invocation

/-! # The world of a run

All that a run reads and writes: files, the environment, the server it asks for files, the weaver's
console if that is given, and what it prints, logs, asks for and launches.

* `World` is the state of a run, and `Run` an action on it that may fail; when it fails, what it did
  before stays done.
* `World.log` hands a record to every sink that wants it: the list of records, the console, a file.

A log file only grows here. A real one is turned over when it has ten megabytes: it becomes the first of
three backups beside it, and another one is begun. Statements on the files beside a log except its
backups for that.
-/

namespace WeaveStep

open Text

/-! ## Logging -/

/-- How important a log record is. -/
inductive LogLevel
  | debug
  | info
  | warning
  /-- What is told even when little is asked for. -/
  | quiet
  | error
  | critical
  deriving DecidableEq, Repr

namespace LogLevel

/-- The rank of a level. -/
def rank : LogLevel → Nat
  | debug => 10
  | info => 20
  | warning => 30
  | quiet => 35
  | error => 40
  | critical => 50

/-- The name of a level. -/
def name : LogLevel → String
  | debug => "DEBUG"
  | info => "INFO"
  | warning => "WARNING"
  | quiet => "QUIET"
  | error => "ERROR"
  | critical => "CRITICAL"

end LogLevel

/-- What is logged. -/
structure LogRecord where
  level : LogLevel
  logger : String
  message : String
  cause : Option Cause := none

/-- Where log records go. -/
inductive Sink
  /-- The list of records of the world. -/
  | records
  /-- The console, with or without time, logger and level. -/
  | console (threshold : LogLevel) (detailed : Bool)
  /-- The end of the file that is held open. -/
  | file
  deriving DecidableEq

/-- Where records go, and from which level on. -/
structure Logging where
  threshold : LogLevel := .debug
  sinks : List Sink := [.records]

/-! ## Server and processes -/

/-- How a transfer can fail. -/
inductive FaultKind
  | connection
  | timeout
  | status
  | redirects
  | request
  /-- A failure of the system that is none of the transfer. -/
  | system
  /-- The user stops the program. -/
  | interrupt
  deriving DecidableEq, Repr

/-- The name of a kind of fault. -/
def FaultKind.name : FaultKind → String
  | connection => "ConnectionError"
  | timeout => "Timeout"
  | status => "HTTPError"
  | redirects => "TooManyRedirects"
  | request => "RequestException"
  | system => "OSError"
  | interrupt => "KeyboardInterrupt"

/-- A failed transfer. -/
structure Fault where
  kind : FaultKind
  message : String
  deriving DecidableEq, Repr

/-- What a server sends. -/
structure Response where
  status : Int := 200
  reason : String := "OK"
  body : List UInt8 := []
  /-- How long the chunks are in which the server sends the body; what is left is the last one. -/
  chunks : List Nat := []
  headers : List (String × String) := []
  /-- Where the answer comes from, if not from where it was asked for. -/
  url : Option String := none
  /-- After how many bytes the transfer fails, and how. -/
  fails : Option (Nat × Fault) := none

/-- What becomes of a request. -/
inductive Exchange
  | refused (fault : Fault)
  | answered (response : Response)

/-- A request that was made. -/
structure Request where
  url : String
  timeout : Option Int

/-- A progress bar: what was said first, and the steps it was told. -/
structure Progress where
  description : String
  total : Int
  disabled : Bool
  updates : List Nat

/-- A finished process, as its console shows it. -/
structure ConsoleRun where
  status : Int
  lines : List Console.Line

/-! ## The world -/

/-- All that a run reads and writes. -/
structure World where
  files : FileTree
  environment : List (String × String) := []
  /-- What becomes of the requests to come. -/
  exchanges : List Exchange := []
  /-- The console of every process, if none is to be launched. -/
  console : Option ConsoleRun := none
  /-- The time of a log record, as it is shown. -/
  timestamp : String := ""
  /-- The time a weave takes, as it is shown. -/
  duration : String := ""
  logging : Logging := {}
  records : List LogRecord := []
  output : String := ""
  errors : String := ""
  requests : List Request := []
  progress : List Progress := []
  /-- What the weaver was told, in each of its runs. -/
  invocations : List Invocation := []
  /-- The commands that were to run the weaver. -/
  commands : List (List String) := []
  /-- What became of each of these commands. -/
  launches : List (Except FileFailure ConsoleRun) := []

/-- An action of a run, which fails with an `ε`. -/
abbrev Run (ε : Type) := EStateM ε World

namespace World

/-- The value of a variable of the environment. -/
def setting? (w : World) (name : String) : Option String := w.environment.lookup name

/-- The world with a line printed. -/
def print (w : World) (line : String) : World := { w with output := w.output ++ line ++ "\n" }

/-- What a record says of its cause: the trace that led to it, if it was ever raised, and the cause
itself. -/
def causeText : Cause → String
  | .trace text => "aspectweave.transform.weave_executor.WeaverInternalError: " ++ text
  | .launch why => "Traceback (most recent call last):\n" ++ why.kind ++ ": " ++ why.message
  | .other kind text => kind ++ ": " ++ text

/-- A record as it is shown. -/
def shown (w : World) (detailed : Bool) (r : LogRecord) : String :=
  let name := if r.logger = "" then "root" else r.logger
  let line :=
    if detailed then w.timestamp ++ " - " ++ name ++ " - " ++ r.level.name ++ " - " ++ r.message
    else r.message
  match r.cause with
  | some cause => line ++ "\n" ++ causeText cause
  | none => line

/-- Hands a record to a sink. A file that was removed takes its records with it. -/
def emit (w : World) (r : LogRecord) : Sink → World
  | .records => { w with records := w.records ++ [r] }
  | .console threshold detailed =>
    if threshold.rank ≤ r.level.rank then w.print (w.shown detailed r) else w
  | .file => { w with files := w.files.extendHeld (utf8Bytes (w.shown true r ++ "\n")) }

/-- Hands a record to all sinks, if it is important enough. -/
def log (w : World) (r : LogRecord) : World :=
  if w.logging.threshold.rank ≤ r.level.rank then w.logging.sinks.foldl (emit · r) w else w

end World

/-! ## Actions -/

namespace Run

/-- Logs a message. -/
def log {ε : Type} (level : LogLevel) (logger message : String) : Run ε Unit :=
  modify (·.log { level, logger, message })

/-- Prints a line. -/
def print {ε : Type} (line : String) : Run ε Unit := modify (·.print line)

/-- An action on files. -/
def onFiles {ε α : Type} (wrap : FileFailure → ε) (act : FileTree.Action α) : Run ε α := fun w =>
  match act w.files with
  | .ok a files => .ok a { w with files }
  | .error e files => .error (wrap e) { w with files }

/-- A question about files. -/
def ask {ε α : Type} (wrap : FileFailure → ε) (f : FileTree → Except FileFailure α) : Run ε α :=
  fun w =>
    match f w.files with
    | .ok a => .ok a w
    | .error e => .error (wrap e) w

/-- The same action with another type of failure. -/
def wrapping {ε ε' α : Type} (wrap : ε → ε') (act : Run ε α) : Run ε' α := fun w =>
  match act w with
  | .ok a w => .ok a w
  | .error e w => .error (wrap e) w

/-- The same action, which hands over its failure instead. -/
def attempt {ε ε' α : Type} (act : Run ε α) : Run ε' (Except ε α) := fun w =>
  match act w with
  | .ok a w => .ok (.ok a) w
  | .error e w => .ok (.error e) w

/-- A result that is there already. -/
def ofExcept {ε ε' α : Type} (wrap : ε → ε') : Except ε α → Run ε' α
  | .ok a => pure a
  | .error e => throw (wrap e)

end Run

end WeaveStep
