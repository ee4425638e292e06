import WeaveStep.CommandLine.Notice
import WeaveStep.Files.Resolve

/-! # Guarding paths

The paths of a command line are checked before anything is done: what is to be read has to be there,
and what a weave deletes must not hold anything that has to stay.

* `inputsExist`: whether all inputs are there.
* `outputIsSafe`: whether the output root is neither a protected path nor above one. -/

namespace WeaveStep

/-- The exit code of a command line that is refused. -/
def refusedCode : Nat := 2

/-- Whether there is an entry at every path; the first that is missing is told. -/
def inputsExist : List Path → Run FileFailure Bool
  | [] => return true
  | p :: rest => do
    if ← Run.ask id (·.exists? p) then inputsExist rest
    else
      Notice.refusal ("Path does not exist: " ++ p.text)
      return false

/-- Whether deleting what is at `root` deletes what is at `p`, both of them resolved. -/
def Path.holds (root p : Path) : Bool := p = root || p.ancestors.contains root

/-- Whether deleting `root`, which is where `output` leads, leaves all the paths in place; the first
one to be deleted is told. -/
def spares (output root : Path) : List Path → Run FileFailure Bool
  | [] => return true
  | p :: rest => do
    if root.holds (← Run.ask id (·.resolve p)) then
      Notice.refusal ("Output directory " ++ output.text ++ " would delete " ++ p.text)
      return false
    else spares output root rest

/-- Whether an output root may be deleted: no protected path is it or lies below it. -/
def outputIsSafe (output : Path) (kept : List Path) : Run FileFailure Bool := do
  let root ← Run.ask id (·.resolve output)
  spares output root kept

end WeaveStep
