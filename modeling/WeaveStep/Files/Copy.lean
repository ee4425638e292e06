import WeaveStep.Files.Change

/-! # Copying files and trees

* `FileTree.copyFile`: the bytes of a file into another file, which is made if need be.
* `FileTree.copyTree`: a directory with all that is in it. Links are followed, so the copy holds
  files and directories only; a target that is there is merged into. An entry that cannot be copied
  is noted and the others are copied all the same.

A copy goes as deep as paths can be long. A program takes a call for each directory, and fails before
that where its stack does not hold so many. -/

namespace WeaveStep.FileTree

/-- Whether two paths lead to the same entry. -/
def sameEntry (t : FileTree) (a b : Path) : Bool :=
  match t.look .followed a, t.look .followed b with
  | .ok (x, _), .ok (y, _) => x = y
  | _, _ => false

/-- Opens the target of a copy. Where it is written as a directory and there is none, it is the
directory that is missing. -/
def openCopy (target : Path) : Action Unit := fun t =>
  match t.write target [] with
  | .ok t' => .ok () t'
  | .error e =>
    if e.isRefusal .isDirectory && !t.leadsTo (fun _ => true) target then
      .error (.noDirectory target.text) t
    else .error e t

/-- Copies the bytes of a file; `shown` are the two paths as a failure would show them. -/
def copyFile (shown : String × String) (source target : Path) : Action Unit := do
  if (← get).sameEntry source target then throw (.sameFile shown.1 shown.2)
  let content ← query (·.read source)
  openCopy target
  change (·.write target content)

/-- Copies the bytes of a file, showing both paths as path objects. -/
def copyArchive (source target : Path) : Action Unit :=
  copyFile (shownPath source.text, shownPath target.text) source target

/-- Copies an entry of a directory with its execute bit, into the target if that is a directory. -/
def copyEntry (source target : Path) : Action Unit := do
  let target := if (← get).leadsTo Node.isDirectory target then target.entry source.name else target
  copyFile ("<DirEntry " ++ Text.quoted source.name ++ ">", Text.quoted target.text) source target
  change (·.setExecutable target (← query (·.stat source)).isExecutable)

/-- Makes the directory that a tree is copied to, unless it is there. -/
def openTarget (target : Path) : Action Unit := fun t =>
  match t.makeDirectory target with
  | .ok t' => .ok () t'
  | .error e => if t.leadsTo Node.isDirectory target then .ok () t else .error e t

/-- What a failure to copy an entry adds to the notes. -/
def flawsOf (source target : Path) : FileFailure → List CopyFlaw
  | .copies flaws => flaws
  | e@(.sameFile _ _) => e.message.toList.map .letter
  | e => [.entry source.text target.text e.message]

/-- An action whose failure is noted instead. -/
def noting (source target : Path) (act : Action Unit) : Action (List CopyFlaw) := fun t =>
  match act t with
  | .ok _ t' => .ok [] t'
  | .error e t' => .ok (flawsOf source target e) t'

/-- Copies a tree that is at most `depth` directories deep. A deeper one has paths that are too
long for the system, which is the failure at depth zero. -/
def copyTreeWithin : (depth : Nat) → (source target : Path) → Action Unit
  | 0, source, _ => throw (.refusal .nameTooLong source.text)
  | depth + 1, source, target => do
    let names ← query (·.list source)
    openTarget target
    let flaws ← names.mapM fun name => do
      let entry := source.entry name
      let goal := target.entry name
      noting entry goal do
        if (← get).leadsTo Node.isDirectory entry then copyTreeWithin depth entry goal
        else copyEntry entry goal
    if flaws.flatten ≠ [] then throw (.copies flaws.flatten)

/-- Copies a directory and everything in it. -/
def copyTree (source target : Path) : Action Unit := copyTreeWithin pathBytesLimit source target

end WeaveStep.FileTree
