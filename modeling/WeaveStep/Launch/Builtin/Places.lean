import WeaveStep.Launch.Builtin.Arguments
import WeaveStep.Launch.Program

/-! # Builtin commands on places

Those that deal with the working directory, and with where programs are found.

* `Shell.find`: what the name of a command stands for. -/

namespace WeaveStep.Launch

open Text

/-! ## Names of commands -/

/-- The builtin commands that are not special. -/
def plainCommands : List String :=
  ["[", "alias", "bg", "cd", "chdir", "command", "echo", "false", "fg", "getopts", "hash", "jobs",
    "kill", "printf", "pwd", "read", "test", "true", "type", "ulimit", "umask", "unalias", "wait"]

/-- What the name of a command stands for. -/
inductive Meaning
  | function (body : Command)
  | builtin (isSpecial : Bool)
  /-- A program at some path, which is the one of a number on the search path, unless the name is that
  path. -/
  | program (index : Option Nat) (path : String)
  /-- No program that could be run, with the reason. -/
  | absent (why : Errno)

namespace Shell

/-- Where programs are looked for. -/
def searchPath (sh : Shell) : String := (sh.value? "PATH").getD ""

/-- The path of a program in the directory of a number on the search path. -/
def pathAt (searchPath name : String) (index : Nat) : String :=
  placeBelow (((splitAt ':' searchPath)[index]?).getD "") name

/-- The first place on the search path where a program is. A place from the root where it was found
once counts still, and none before it that begins at the root is tried. -/
def findProgram (sh : Shell) (searchPath : String) (last : Option Nat) (name : String) : Meaning :=
  let attempt (directory : String) (n : Nat) : Except Errno Nat :=
    let place := placeBelow directory name
    if place.toList.head? = some '/' && last.any (n ≤ ·) then
      if last = some n then .ok n else .error .noEntry
    else
      match sh.files.statText (outOfBytes place) with
      | .ok (_, .file _ true) => .ok n
      | .ok _ => .error .denied
      | .error (.refused why _) => .error why
      | .error _ => .error .noEntry
  let tried := (splitAt ':' searchPath).zipIdx.map fun (directory, n) => attempt directory n
  match tried.findSome? (·.toOption) with
  | some n => .program (some n) (pathAt searchPath name n)
  | none =>
    let refusals := tried.filterMap fun
      | .error why => if why = .noEntry || why = .notDirectory then none else some why
      | .ok _ => none
    .absent (refusals.getLast?.getD .noEntry)

/-- What the name of a command stands for. Where programs were found is remembered, as long as they are
looked for where they always are. -/
def find (sh : Shell) (withFunctions : Bool) (searchPath : Option String) (name : String) :
    Meaning × Shell :=
  if name.toList.contains '/' then (.program none name, sh)
  else
    match sh.functions.lookup name, withFunctions with
    | some body, true => (.function body, sh)
    | function, _ =>
      if specialCommands.contains name then (.builtin true, sh)
      else if plainCommands.contains name then (.builtin false, sh)
      else
        match searchPath, function with
        | some searchPath, _ => (sh.findProgram searchPath none name, sh)
        | none, some _ => (sh.findProgram sh.searchPath none name, sh)
        | none, none =>
          match sh.known.lookup name with
          | some ⟨n, false⟩ => (.program (some n) (pathAt sh.searchPath name n), sh)
          | before =>
            let meaning := sh.findProgram sh.searchPath (before.map (·.index)) name
            let finding := match meaning with
              | .program (some n) _ => some ⟨n, false⟩
              | _ => none
            (meaning, { sh with known := updated sh.known name finding })

end Shell

/-- What is said of a command that cannot be run. -/
def whyNoProgram (why : Errno) : String :=
  if why = .noEntry || why = .notDirectory then "not found" else why.text

namespace Builtin

/-! ## The working directory -/

/-- The working directory without links. -/
def realDirectory (sh : Shell) : String :=
  inBytes ("/" ++ "/".intercalate sh.files.workingDirectory)

/-- The path that leads from the working directory, by the names it was reached by. -/
def logicalPath (sh : Shell) (target : String) : String :=
  ((Path.ofString (outOfBytes sh.directory)).child (outOfBytes target)).collapsed.text

/-- Whether a directory is meant as it stands, and not looked for: a path from the root, or one that
begins with dots. -/
def isPlain (target : String) : Bool :=
  match (splitAt '/' target).head? with
  | some name => name = "." || name = ".." || (name = "" && target ≠ "")
  | none => false

/-- Where a directory is first found among those of the search path for directories, and whether that
is worth telling. -/
def directoryOnPath? (sh : Shell) (target : String) : Option (String × Bool) := do
  let path ← if isPlain target then none else sh.value? "CDPATH"
  (splitAt ':' path).findSome? fun directory =>
    let place := if directory = "" then target else directory ++ "/" ++ target
    match sh.files.statText (outOfBytes place) with
    | .ok (_, .directory) => some (place, directory ≠ "")
    | _ => none

/-- Goes to another directory. -/
def changeDirectory (arguments : List String) : Act Nat := do
  let (found, arguments) ← letters "LP" arguments
  let sh ← get
  let (target, isBack) := match arguments.head? with
    | none => ((sh.value? "HOME").getD "", false)
    | some "-" => ((sh.value? "OLDPWD").getD "", true)
    | some target => (target, false)
  let target := if target = "" then "." else target
  let (path, isFound) := (directoryOnPath? sh target).getD (target, false)
  let isReal := found.getLast? = some 'P'
  match sh.files.statText (if isReal then outOfBytes path else logicalPath sh path) with
  | .ok (place, .directory) =>
    let sh' := { sh with files := { sh.files with workingDirectory := place } }
    set { sh' with
      directory := if isReal then realDirectory sh' else inBytes (logicalPath sh path)
      known := sh.known.map fun (e : String × Finding) => (e.1, ⟨e.2.index, true⟩) }
    Act.setVariable "OLDPWD" sh.directory true
    Act.setVariable "PWD" (← get).directory true
    if isBack || isFound then Act.print ((← get).directory ++ "\n").toList else return 0
  | _ => Act.fail ("can't cd to " ++ target)

/-- Prints the working directory. -/
def printDirectory (arguments : List String) : Act Nat := do
  let (found, _) ← letters "LP" arguments
  let sh ← get
  Act.print ((if found.getLast? = some 'P' then realDirectory sh else sh.directory) ++ "\n").toList

/-! ## Programs -/

/-- How many chains the table of programs consists of. -/
def programChains : Nat := 31

/-- Lists where programs were found, or looks for some. -/
def hash (arguments : List String) : Act Nat := do
  let (found, names) ← letters "r" arguments
  if !found.isEmpty then
    modify ({ · with known := [] })
    return 0
  let sh ← get
  if names.isEmpty then
    let lines := (Shell.inChains programChains sh.known).map fun (name, finding) =>
      Shell.pathAt sh.searchPath name finding.index ++ (if finding.isStale then "*\n" else "\n")
    return ← Act.print (String.join lines).toList
  let mut status := 0
  for name in names do
    let sh ← get
    let (meaning, sh) := { sh with known := Shell.updated sh.known name none }.find true none name
    set sh
    if let .absent why := meaning then
      Act.complain (name ++ ": " ++ whyNoProgram why)
      status := 1
  return status

/-- What the name of a command stands for, briefly and in words. -/
def meaning? (sh : Shell) (searchPath : Option String) (name : String) :
    Option (String × String) × Shell :=
  let isThere (path : String) : Bool := (sh.files.statText (outOfBytes path)).toOption.isSome
  if keywords.contains name then (some (name, name ++ " is a shell keyword"), sh)
  else
    match sh.aliases.lookup name with
    | some text =>
      (some ("alias " ++ name ++ "=" ++ quoted text, name ++ " is an alias for " ++ text), sh)
    | none =>
      match searchPath, sh.known.lookup name with
      | none, some finding =>
        let path := Shell.pathAt sh.searchPath name finding.index
        (some (path, name ++ " is a tracked alias for " ++ path), sh)
      | searchPath, _ =>
        let (meaning, sh) := sh.find true searchPath name
        let described := match meaning with
          | .function _ => some (name, name ++ " is a shell function")
          | .builtin true => some (name, name ++ " is a special shell builtin")
          | .builtin false => some (name, name ++ " is a shell builtin")
          | .program none path => if isThere path then some (path, name ++ " is " ++ path) else none
          | .program _ path => some (path, name ++ " is " ++ path)
          | .absent _ => none
        (described, sh)

/-- Says what the names of commands stand for, briefly or in words. -/
def describe (inWords : Bool) (searchPath : Option String) (names : List String) : Act Nat := do
  let mut status := 0
  for name in names do
    let (described, sh) := meaning? (← get) searchPath name
    set sh
    match described with
    | some (brief, text) => discard (Act.print ((if inWords then text else brief) ++ "\n").toList)
    | none =>
      if inWords then discard (Act.print (name ++ ": not found\n").toList)
      status := 127
  return status

end Builtin

end WeaveStep.Launch
