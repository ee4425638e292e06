import WeaveStep.Launch.Builtin.Jobs
import WeaveStep.Launch.Builtin.Limits
import WeaveStep.Launch.Builtin.Names
import WeaveStep.Launch.Builtin.Places
import WeaveStep.Launch.Builtin.Text

/-! # Builtin commands

The commands that a shell carries out itself, except those that run other commands or wait for them.

* `builtin?`: what a builtin command does with its arguments; what it gives is its status. -/

namespace WeaveStep.Launch

/-! ## Control -/

namespace Builtin

/-- Ends the process. -/
def exit (arguments : List String) : Act Nat := do
  match arguments with
  | s :: _ =>
    let status ← Act.number s
    modify ({ · with status })
  | [] => modify fun sh => { sh with status := sh.closingStatus.getD sh.status }
  throw .exit

/-- Ends the function at hand. -/
def return_ (arguments : List String) : Act Nat := do
  if let s :: _ := arguments then
    let status ← Act.number s
    modify ({ · with status })
  throw .returns

/-- Ends loops, or goes on with them. -/
def leaveLoops (interrupt : Nat → Interrupt) (arguments : List String) : Act Nat := do
  let n ← match arguments with
    | [] => pure 1
    | s :: _ => do
      let n ← Act.number s
      if n = 0 then Act.fail ("Illegal number: " ++ s)
      pure n
  let sh ← get
  if sh.loops = 0 then return 0
  set { sh with status := 0 }
  throw (interrupt (min n sh.loops))

/-- Shows how much time was taken, which is none. -/
def times (_ : List String) : Act Nat :=
  let line := "0m0.000000s 0m0.000000s\n"
  Act.print (line ++ line).toList

end Builtin

/-! ## All of them -/

/-- What a builtin command does, unless it runs other commands. -/
def builtin? (name : String) : Option (List String → Act Nat) :=
  match name with
  | ":" | "true" => some fun _ => return 0
  | "alias" => some Builtin.setAliases
  | "unalias" => some Builtin.unalias
  | "hash" => some Builtin.hash
  | "jobs" => some Builtin.jobs
  | "bg" | "fg" => some Builtin.goOn
  | "times" => some Builtin.times
  | "ulimit" => some Builtin.limit
  | "false" => some fun _ => return 1
  | "echo" => some Builtin.echo
  | "printf" => some Builtin.printf
  | "test" => some Builtin.test
  | "[" => some fun words =>
    if words.getLast?.any (·.toList.head? = some ']') then Builtin.test words.dropLast
    else Act.fail "missing ]"
  | "read" => some Builtin.read
  | "cd" | "chdir" => some Builtin.changeDirectory
  | "pwd" => some Builtin.printDirectory
  | "export" => some (Builtin.mark name (·.isExported) ({ · with isExported := true }))
  | "readonly" => some (Builtin.mark name (·.isReadonly) ({ · with isReadonly := true }))
  | "unset" => some Builtin.unset
  | "local" => some Builtin.keepLocal
  | "set" => some Builtin.setArguments
  | "shift" => some Builtin.shift
  | "getopts" => some Builtin.nextOption
  | "exit" => some Builtin.exit
  | "return" => some Builtin.return_
  | "break" => some (Builtin.leaveLoops .breaks)
  | "continue" => some (Builtin.leaveLoops .continues)
  | "kill" => some Builtin.kill
  | "trap" => some Builtin.trap
  | "type" => some (Builtin.describe true none)
  | "umask" => some Builtin.umask
  | _ => none

end WeaveStep.Launch
