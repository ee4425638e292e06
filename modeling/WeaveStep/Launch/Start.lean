import WeaveStep.Launch.Builtin.Places

/-! # Starting programs

How a process begins to run a program.

* `Shell.startOf`: what a call of a program comes to.
* `Shell.begun`: the process as it begins to run a script. -/

namespace WeaveStep.Launch

open Text

/-! ## Calls -/

/-- The search path that does not depend on variables. -/
def standardSearchPath : String := "/usr/local/sbin:/usr/local/bin:/usr/sbin:/usr/bin:/sbin:/bin"

/-- The file of commands that a name stands for. -/
def Shell.findText (sh : Shell) (name : String) : Option String :=
  if name.toList.contains '/' then some name
  else
    match sh.findProgram sh.searchPath none name with
    | .program _ path => some path
    | _ => none

/-- What a call of a program comes to; the first directories of the search path, as many as `first`, are
not tried. -/
def Shell.startOf (sh : Shell) (searchPath : String) (first : Nat) (name : String)
    (arguments : List String) : Except Errno Start :=
  let places := (candidates placeBelow (some (outOfBytes searchPath)) (outOfBytes name)).drop first
  let tried := places.map fun place =>
    let arguments := arguments.map outOfBytes
    match programAt sh.files sh.environment finderStarts programLevels (outOfBytes name) place arguments with
    | .error .badExecutable =>
      let program := shellProgram sh.files "/bin/sh" (place :: arguments)
      .ok ⟨sh.environment, sh.files.workingDirectory, program, [], ""⟩
    | result => result
  match tried.findSome? (·.toOption) with
  | some start => .ok start
  | none => .error (worstRefusal tried)

/-! ## Beginnings -/

/-- The variables a shell begins with: those that it knows itself, and then those of the environment.
Some of the former are always set anew. -/
def firstVariables (environment : List (String × String)) (directory : String) (parent : Nat) :
    List (String × Variable) :=
  let put (table : List (String × Variable)) (name : String) (change : Variable → Variable) :=
    Shell.updated table name (some (change ((table.lookup name).getD {})))
  let known : List (String × Variable) := Shell.fixedVariables.map fun name =>
    (name, { value :=
      [("PATH", standardSearchPath), ("PS1", "# "), ("PS2", "> "), ("PS4", "+ ")].lookup name })
  let given := (environment.filter fun e => isName e.1).foldl (fun table (name, value) =>
    put table name fun _ => { value := some (inBytes value), isExported := true }) known
  let set (table : List (String × Variable)) (name value : String) :=
    put table name ({ · with value := some value })
  let table := set (set given "IFS" Shell.defaultSeparators) "OPTIND" "1"
  put (set table "PPID" (toString parent)) "PWD"
    fun _ => { value := some directory, isExported := true }

/-- The working directory as the environment says, if that is right. -/
def firstDirectory (t : FileTree) (environment : List (String × String)) : String :=
  let real := "/" ++ "/".intercalate t.workingDirectory
  inBytes (match environment.lookup "PWD" with
    | some path =>
      match (Path.ofString path).isAbsolute, t.statText path with
      | true, .ok (place, .directory) => if place = t.workingDirectory then path else real
      | _, _ => real
    | none => real)

/-- The process as it begins to run a script: what it is to hand over to programs stays, all else is
new. -/
def Shell.begun (sh : Shell) (start : Start) (call : ScriptCall) : Shell :=
  let environment := start.environment
  let directory := firstDirectory sh.files environment
  let parent := sh.waiting.headD sh.parent
  let deaf := sh.deafTo ++ (sh.traps.filter (·.2 = "")).map (·.1)
  { sh with
    toProcess := {
      number := sh.number
      leader := sh.number
      parent
      waiting := sh.waiting
      directory
      name := call.name
      arguments := call.arguments
      switches := call.switches
      vars := firstVariables environment directory parent
      descriptors := sh.descriptors
      deafTo := deaf.filter (fun n => start.answers.lookup n ≠ some false) ++
        (start.answers.filter (·.2)).map (·.1)
      limits := sh.limits
      mask := sh.mask } }

end WeaveStep.Launch
