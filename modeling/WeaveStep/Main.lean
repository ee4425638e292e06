import WeaveStep.CommandLine.Execute
import WeaveStep.Workspace

/-! # The program

Reads the listing of a workspace from its input, runs the command that its arguments give, and
prints what the command says and the listing of the workspace that it leaves. -/

namespace WeaveStep

/-- The variables of the environment that commands look at. -/
def usedVariables : List String :=
  ["PATH", "COLUMNS", "JAVA_HOME", "ANDROID_HOME", "ANDROID_SDK_ROOT", Cache.placeVariable]

/-- All lines of the input. -/
partial def readLines (input : IO.FS.Stream) : IO (List String) := do
  let line ← input.getLine
  if line.isEmpty then return []
  return (Text.splitAt '\n' line).headD "" :: (← readLines input)

/-- The used variables that are set. -/
def readEnvironment : IO (List (String × String)) :=
  usedVariables.filterMapM fun name => do
    return (← IO.getEnv name).map fun value => (name, value)

/-- Prints what a run said and the workspace that it left. -/
def present (w : World) : IO Unit := do
  IO.print w.output
  IO.eprint w.errors
  w.files.listing.forM IO.println

end WeaveStep

/-- Runs the program on the workspace that its input lists. -/
def main (arguments : List String) : IO UInt32 := do
  let files := WeaveStep.FileTree.ofListing (← WeaveStep.readLines (← IO.getStdin))
  let world : WeaveStep.World := { files, environment := ← WeaveStep.readEnvironment }
  match WeaveStep.execute arguments world with
  | .ok code w =>
    WeaveStep.present w
    return code.toUInt32
  | .error why w =>
    WeaveStep.present w
    IO.eprintln (why.kind ++ ": " ++ why.message)
    return 1
