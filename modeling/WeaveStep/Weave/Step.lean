import WeaveStep.Weave.BootClasspath
import WeaveStep.Weave.Report
import WeaveStep.Weave.Routing
import WeaveStep.Weave.Weaver

/-! # The weave step

One full weave: earlier outputs are removed, artifacts are routed, the weaver is told what to do and
its diagnostics are reported. A weave is never partial, since aspects and other classes are woven
across one another.

* `weave`: the step. It fails with a `WeaveFailure`, and its outputs are then undefined.
* `Metadata.of`: what the step tells the build about itself. -/

namespace WeaveStep

open Text

/-! ## Failures -/

/-- Why a weave failed. -/
inductive WeaveFailure
  /-- An excluded artifact could not be copied. -/
  | copyFailed (path : String) (why : FileFailure)
  /-- There is no boot class path. -/
  | noPlatform (why : PlatformFailure)
  /-- The weaver reported an error. -/
  | aborted (why : Abort)
  | files (why : FileFailure)
  | weaver (why : WeaverFailure)

namespace WeaveFailure

/-- The text of a failure. -/
def message : WeaveFailure → String
  | copyFailed path why => "Failed to copy excluded artifact " ++ path ++ ": " ++ why.message
  | noPlatform why => why.message
  | aborted why => why.text
  | files why => why.message
  | weaver why => why.message

/-- The name of the kind of failure. -/
def kind : WeaveFailure → String
  | copyFailed _ _ => "ArtifactCopyError"
  | noPlatform _ => "TransformError"
  | aborted _ => "WeaveAbortError"
  | files why => why.kind
  | weaver why => why.kind

/-- The kind of failure behind this one. -/
def origin : WeaveFailure → Option String
  | copyFailed _ why => some why.kind
  | noPlatform why => some why.kind
  | aborted why => why.cause.map (·.kind)
  | _ => none

/-- Whether the failure is reported as a failed weave. -/
def isReported : WeaveFailure → Bool
  | files _ | weaver _ => false
  | _ => true

/-- The failure to route artifacts as a failure of the weave. -/
def ofRoute : RouteFailure → WeaveFailure
  | .copyFailed path why => copyFailed path why
  | .badPath why => files why

/-- The failure to find the platform as a failure of the weave. -/
def ofPlatform : PlatformFailure → WeaveFailure
  | .inaccessible why => files why
  | why => noPlatform why

end WeaveFailure

/-! ## The invocation -/

/-- The slot of the woven classes. -/
def mainSlot : SlotKey := ⟨"main", [.classes], fullProject, .folder⟩

/-- Who logs what the step does. -/
def stepLogger : String := "aspectweave.transform.transform"

/-- The class path of an invocation: what the weaver only sees, and the runtime library last if it
is needed. -/
def classpathEntries (settings : Settings) (classpathOnly : List Path) (library : Option String) :
    List String :=
  classpathOnly.map (·.text) ++
    (if settings.runtimeNeeded then (given? library).toList else [])

/-- The invocation for routed artifacts; it opens the slot of the woven classes. -/
def assemble (settings : Settings) (root : Path) (logger : String) (toWeave classpathOnly : List Path)
    (bootClasspath : List String) (library : Option String) : Run FileFailure Invocation := do
  if settings.runtimeNeeded ∧ given? library = none then
    Run.log .error logger "Can not extract java runtime classpath."
  let output ← Run.onFiles id (openSlot root mainSlot)
  return {
    source := settings.compileOptions.source
    target := settings.compileOptions.target
    encoding := settings.compileOptions.encoding
    inpath := joinPaths (toWeave.map (·.text))
    classpath := joinPaths (classpathEntries settings classpathOnly library)
    bootClasspath := joinPaths bootClasspath
    output }

/-! ## The step -/

/-- How a weave that did not fail ended. -/
inductive Completion
  | disabled
  | nothingToWeave (routing : Routing) (invocation : Invocation)
  | woven (routing : Routing) (invocation : Invocation) (diagnostics : List Diagnostic)

/-- What the weaver was told, or would have been told; nothing if weaving is disabled. -/
def Completion.invocation? : Completion → Option Invocation
  | .disabled => none
  | .nothingToWeave _ invocation => some invocation
  | .woven _ invocation _ => some invocation

/-- What a weave is given. -/
structure WeaveInput where
  inputs : List Bundle
  referenced : List Bundle := []
  /-- The class path of the Java compiler, on which the runtime library is looked for. -/
  javaClasspath : List String := []
  /-- Whether a partial weave was asked for; the weave is a full one all the same. -/
  incremental : Bool := false

/-- Tells the weaver what to do and reports its diagnostics. -/
def runReported (weaver : Weaver) (verbose : Bool) (invocation : Invocation) :
    Run WeaveFailure (List Diagnostic) := do
  modify fun w => { w with invocations := w.invocations ++ [invocation] }
  let diagnostics ← Run.wrapping .weaver (weaver.run invocation)
  let _ ← Run.wrapping .aborted (judgeReport verbose stepLogger diagnostics)
  return diagnostics

/-- The runtime library, if it is needed. -/
def neededLibrary (settings : Settings) (javaClasspath : List String) :
    Run FileFailure (Option String) := do
  if settings.runtimeNeeded then
    let javaHome := given? settings.javaHome <|> (← get).setting? "JAVA_HOME"
    Run.ask id (runtimeLibrary? · javaClasspath javaHome)
  else return none

/-- An enabled weave, after earlier outputs were removed. -/
def weaveEnabled (settings : Settings) (root : Path) (weaver : Weaver) (input : WeaveInput) :
    Run WeaveFailure Completion := do
  let tell := Run.log (ε := WeaveFailure) .quiet stepLogger
  if input.incremental then
    Run.log .debug stepLogger "Incremental run requested; performing a full weave."
  tell ("AspectJ Compiler, version " ++ (given? weaver.version).getD "unknown")
  let library ← Run.wrapping .files (neededLibrary settings input.javaClasspath)
  tell "Excluding dependencies from AspectJ Compiler inpath ..."
  tell ("Note: The excluded will not be eliminated from the compilation. " ++
    "They're just being used as classpath instead.")
  let routing ← Run.wrapping .ofRoute
    (route root settings.excludeRules stepLogger input.inputs input.referenced)
  let w ← get
  let boot ← Run.ofExcept .ofPlatform (bootClasspath w.files settings w.environment)
  let invocation ← Run.wrapping .files (assemble settings root stepLogger
    (routing.toWeave.map (·.path)) (routing.classpathOnly.map (·.path)) boot library)
  if routing.toWeave.isEmpty then
    tell "Nothing to weave."
    return .nothingToWeave routing invocation
  tell "Weaving ..."
  return .woven routing invocation (← runReported weaver settings.verbose invocation)

/-- A weave with outputs below `root`, an absolute path. -/
def weave (settings : Settings) (root : Path) (weaver : Weaver) (input : WeaveInput) :
    Run WeaveFailure Completion := do
  Run.onFiles .files (clearSlots root)
  if settings.enabled then weaveEnabled settings root weaver input
  else
    Run.log .quiet stepLogger "AspectJ weaving is disabled."
    return .disabled

/-! ## Metadata -/

/-- What the step tells the build about itself. -/
structure Metadata where
  name : String
  inputTypes : List ContentType
  /-- The scopes whose artifacts are woven. -/
  scopes : List Scope
  /-- The scopes whose artifacts the weaver only sees. -/
  referencedScopes : List Scope
  incremental : Bool

/-- The metadata of the step; a disabled step weaves nothing. -/
def Metadata.of (settings : Settings) : Metadata where
  name := "AspectJ"
  inputTypes := [.classes]
  scopes := if settings.enabled then fullProject else []
  referencedScopes := [.providedOnly]
  incremental := false

end WeaveStep
