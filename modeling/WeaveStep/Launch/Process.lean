import WeaveStep.Launch.Run

/-! # Launched processes

What becomes of a command that is launched, as its console shows it.

* `Launch.consoleLines`: what was printed, as lines of the console.
* `Run.launch`: launches a command and waits for its end.

The modules of this directory stand for the system, which finds the programs that commands name and runs
the scripts that they are. A weave is run with them as a whole. What is proved of it holds of any console:
of what a script does it takes only that the working directory is the same again once the script has
ended, and that bytes become lines as in `Launch.linesOf`. -/

namespace WeaveStep

namespace Launch

open Text

/-! ## The console -/

/-- Bytes as lines of text. -/
def linesOf (stream : Console.Stream) (bytes : List UInt8) : List Console.Line :=
  (fedLines (unifyLineEnds (decodeLeniently bytes))).map fun l => ⟨stream, String.ofList l⟩

/-- What was printed so far: the finished lines, last first, and the bytes of the unfinished line of
either stream, last first as well. -/
structure Printout where
  lines : List Console.Line := []
  waitingOut : List UInt8 := []
  waitingErr : List UInt8 := []

namespace Printout

/-- The printout with bytes printed on a stream. -/
def add (p : Printout) (piece : Console.Stream × List UInt8) : Printout :=
  let (stream, bytes) := piece
  let waiting := if stream = .stderr then p.waitingErr else p.waitingOut
  let last := bytes.reverse.takeWhile (· ≠ 10)
  let (lines, waiting) :=
    if last.length = bytes.length then ([], last ++ waiting)
    else (linesOf stream (waiting.reverse ++ bytes.take (bytes.length - last.length)), last)
  let p := { p with lines := lines.reverse ++ p.lines }
  if stream = .stderr then { p with waitingErr := waiting } else { p with waitingOut := waiting }

/-- All lines of a printout, also those that were not finished. -/
def allLines (p : Printout) : List Console.Line :=
  p.lines.reverse ++ linesOf .stdout p.waitingOut.reverse ++ linesOf .stderr p.waitingErr.reverse

end Printout

/-- What was printed, as lines of the console in the order in which they were finished. -/
def consoleLines (printed : List (Console.Stream × List UInt8)) : List Console.Line :=
  (printed.foldl Printout.add {}).allLines

/-! ## Launching -/

/-- How many turns a loop may take, and how deep commands may nest. -/
def maxTurns : Nat := 20000000

def maxNesting : Nat := 100000

/-- The numbers of a process that is launched and of the one that launches it. -/
def launchedProcess : Nat × Nat := (1001, 1000)

/-- A process that is launched, before it begins to run anything, whose console is seen. -/
def launched (files : FileTree) : Shell :=
  let (number, parent) := launchedProcess
  let sh : Shell := {
    number
    leader := number
    parent
    directory := ""
    name := ""
    arguments := []
    files
    nextProcess := number + 1 }
  ((sh.connect 0 (.device false)).connect 1 (.console .stdout)).connect 2 (.console .stderr)

/-- What a shell printed, in order. -/
def Shell.output (sh : Shell) : List (Console.Stream × List UInt8) :=
  sh.printed.reverse.map fun (stream, text) => (stream, textBytes (String.ofList text))

/-- How a program ends, with the files it leaves behind once all jobs have run; where a signal ended it,
the status is its number turned negative. -/
def finished (files : FileTree) (start : Start) : ConsoleRun × FileTree :=
  let r := runner maxTurns maxNesting
  let ended (status : Int) (sh : Shell) : ConsoleRun × FileTree :=
    let sh := match r.settle sh with
      | .ok _ sh | .error _ sh => sh
    (⟨status, consoleLines sh.output⟩,
      { sh.files with workingDirectory := files.workingDirectory })
  match r.become start (launched files) with
  | .ok status sh => ended ((status % 256 : Nat) : Int) sh
  | .error (.killed signal) sh => ended (-(signal : Int)) sh
  | .error _ sh => ended ((sh.status % 256 : Nat) : Int) sh

end Launch

namespace Run

open Launch

/-- Launches a command and waits for its end. Where the console is given, nothing is launched. -/
def launch (command : List String) : Run FileFailure ConsoleRun := fun w =>
  match w.console, command with
  | some console, _ => .ok console w
  | none, [] => .error .noProgram w
  | none, program :: arguments =>
    match programOf w.files w.environment program arguments with
    | .error why => .error why w
    | .ok start =>
      let (console, files) := finished w.files start
      .ok console { w with files }

end Run

end WeaveStep
