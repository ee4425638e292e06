import WeaveStep.World

/-! # Logging of a command

What a command shows of its log, and the file it may write it to as well.

* `LogOptions.shownFrom`: from which level on the console shows records.
* `LogOptions.setUp`: sends records to the console and to the file, and nowhere else. -/

namespace WeaveStep

/-- What is asked of the log. -/
structure LogOptions where
  verbose : Bool := false
  quiet : Bool := false
  file : Option Path := none

/-- The level from which on the console shows records. -/
def LogOptions.shownFrom (o : LogOptions) : LogLevel :=
  if o.quiet then .quiet else if o.verbose then .debug else .info

/-- The level from which on records are taken at all; the file takes every one. -/
def LogOptions.takenFrom (o : LogOptions) : LogLevel :=
  if o.file.isSome then .debug else o.shownFrom

/-- Opens a file, which is made if need be, and holds it open. -/
def FileTree.hold (p : Path) : FileTree.Action Unit := do
  let place ← query (·.locate .made p)
  if !((← get).get? place).any Node.isFile then change (·.write p [])
  modify fun t => { t with held := some place }

/-- Opens the file of a log, with the directories above it. Two dots in its path are taken by the text
alone. -/
def openLogFile (p : Path) : FileTree.Action Unit := do
  FileTree.ensureDirectory p.parent
  let whole ← FileTree.query (·.absolute p)
  FileTree.hold whole.collapsed

/-- Sends records to the console, and to the file if there is to be one. -/
def LogOptions.setUp (o : LogOptions) : Run FileFailure Unit := do
  let console := Sink.console o.shownFrom o.verbose
  modify fun w => { w with logging := ⟨o.takenFrom, [console]⟩ }
  if let some p := o.file then
    Run.onFiles id (openLogFile p)
    modify fun w => { w with logging := ⟨o.takenFrom, [console, .file]⟩ }

end WeaveStep
