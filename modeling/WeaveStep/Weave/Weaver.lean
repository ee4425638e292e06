import WeaveStep.Launch.Process

/-! # The weaver

A weaver is told an invocation and answers with diagnostics.

* `Weaver.ofCommand`: the weaver that a command launches; its diagnostics are read off its console.
  That it cannot be launched is a diagnostic, too. -/

namespace WeaveStep

/-- Why a weaver gave no diagnostics. -/
inductive WeaverFailure
  /-- A tag on the console that stands for no severity. -/
  | unknownTag (tag : String)
  /-- There is no command to be named. -/
  | noCommand
  /-- A command that means nothing to the system. -/
  | badCommand (why : FileFailure)
  deriving Repr

namespace WeaverFailure

/-- The text of a failure. -/
def message : WeaverFailure → String
  | unknownTag tag => Text.quoted (Severity.spelled tag)
  | noCommand => "list index out of range"
  | badCommand why => why.message

/-- The name of the kind of failure. -/
def kind : WeaverFailure → String
  | unknownTag _ => "KeyError"
  | noCommand => "IndexError"
  | badCommand why => why.kind

end WeaverFailure

/-- A weaver, with its version if that is known. -/
structure Weaver where
  version : Option String
  run : Invocation → Run WeaverFailure (List Diagnostic)

/-- Who logs what the weaver is told. -/
def weaverLogger : String := "aspectweave.transform.weave_executor"

/-- The diagnostic that a weaver could not be launched. -/
def launchDiagnostic (command : List String) (why : FileFailure) :
    Except WeaverFailure (List Diagnostic) :=
  match command with
  | [] => .error .noCommand
  | program :: _ =>
    .ok [{
      severity := .abort
      text := "Failed to launch weaver " ++ program ++ ": " ++ why.message
      cause := some (.launch why) }]

/-- What the weaver answers, going by what became of its launch. -/
def launchAnswer (command : List String) :
    Except FileFailure ConsoleRun → Except WeaverFailure (List Diagnostic)
  | .ok run => (Console.outcome run.status run.lines).mapError fun e => .unknownTag e.tag
  | .error why => if why.isSystem then launchDiagnostic command why else .error (.badCommand why)

/-- Launches the weaver and reads its console. -/
def runWeaver (command : List String) (i : Invocation) : Run WeaverFailure (List Diagnostic) := do
  let full := command ++ i.arguments
  Run.log .debug weaverLogger ("Running weaver: " ++ " ".intercalate full)
  modify fun w => { w with commands := w.commands ++ [full] }
  let launch ← Run.attempt (Run.launch full)
  modify fun w => { w with launches := w.launches ++ [launch] }
  Run.ofExcept id (launchAnswer command launch)

/-- The weaver that a command launches. -/
def Weaver.ofCommand (command : List String) (version : Option String) : Weaver :=
  ⟨version, runWeaver command⟩

end WeaveStep
