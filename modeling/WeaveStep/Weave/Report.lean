import WeaveStep.World

/-! # Reporting diagnostics

Every diagnostic is logged, in order, as importantly as it is severe; a run with an error among them
is aborted after that, and the first one is the reason.

* `Report`: diagnostics and the first fatal one that counts.
* `report`: logs and sums up. `judgeReport`: aborts if there is a fatal one. -/

namespace WeaveStep

/-- What diagnostics come to. -/
structure Report where
  diagnostics : List Diagnostic
  /-- The first fatal diagnostic, and its position. -/
  fatal : Option (Nat × Diagnostic)

/-- Whether the run is aborted. -/
def Report.aborted (r : Report) : Bool := r.fatal.isSome

/-- The weaver reported an error or worse. -/
structure Abort where
  text : String
  /-- What lies behind the diagnostic, and so behind the failure that is raised for it. -/
  cause : Option Cause

/-- How importantly a diagnostic is logged. -/
def Diagnostic.logLevel (verbose : Bool) (d : Diagnostic) : LogLevel :=
  if verbose then .quiet
  else if Severity.error.level ≤ d.severity.level then .error
  else if Severity.warning.level ≤ d.severity.level then .warning
  else if Severity.debug.level ≤ d.severity.level then .info
  else .debug

/-- The log record of a diagnostic; only an error tells its cause. -/
def Diagnostic.record (verbose : Bool) (logger : String) (d : Diagnostic) : LogRecord where
  level := d.logLevel verbose
  logger := logger
  message := d.render
  cause := if d.logLevel verbose = .error then d.cause else none

/-- The first fatal diagnostic; where everything is told, none counts as fatal. -/
def firstFatal? (verbose : Bool) (diagnostics : List Diagnostic) : Option (Nat × Diagnostic) :=
  if verbose then none
  else
    match diagnostics.find? (·.isFatal), diagnostics.findIdx? (·.isFatal) with
    | some d, some i => some (i, d)
    | _, _ => none

/-- Logs diagnostics and sums them up. -/
def report {ε : Type} (verbose : Bool) (logger : String) (diagnostics : List Diagnostic) :
    Run ε Report := do
  diagnostics.forM fun d => modify (·.log (d.record verbose logger))
  return ⟨diagnostics, firstFatal? verbose diagnostics⟩

/-- Logs diagnostics, then aborts if one of them is fatal. -/
def judgeReport (verbose : Bool) (logger : String) (diagnostics : List Diagnostic) :
    Run Abort Report := do
  let result ← report verbose logger diagnostics
  match result.fatal with
  | some (_, d) => throw ⟨d.text, d.cause⟩
  | none => return result

end WeaveStep
