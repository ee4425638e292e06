import WeaveStep.Files.Walk

/-! # Changing a file tree

The single changes the system makes, each of them made whole or refused, and `ensureDirectory`,
which makes a directory with all that is missing above it.

* A change is a function on trees: `FileTree → Except FileFailure FileTree`.
* A sequence of changes is a `FileTree.Action`: when it fails, the changes made before stay.

`removeTree` deletes directories however deep they are nested. A program does so with one call for each,
and fails where its stack does not hold so many. -/

namespace WeaveStep.FileTree

/-! ## Single changes -/

/-- Makes a directory. -/
def makeDirectory (t : FileTree) (p : Path) : Except FileFailure FileTree := do
  let place ← t.locate .own p
  match t.get? place with
  | some _ => .error (.refusal .taken p.text)
  | none => .ok (t.set place .directory)

/-- Gives the file a path leads to the content, making it if it is not there; a file that is there
keeps its execute bit. -/
def write (t : FileTree) (p : Path) (content : List UInt8) : Except FileFailure FileTree := do
  let place ← t.locate .made p
  match t.get? place with
  | some (.file _ executable) => .ok (t.set place (.file content executable))
  | some (.device _) => .ok t
  | some .directory => .error (.refusal .isDirectory p.text)
  | some (.link _) => .error (.refusal .tooManyLinks p.text)
  | none => .ok (t.set place (.file content false))

/-- Gives the file a path leads to the execute bit, or takes it away. -/
def setExecutable (t : FileTree) (p : Path) (executable : Bool) : Except FileFailure FileTree := do
  match ← t.look .followed p with
  | (place, .file content _) => .ok (t.set place (.file content executable))
  | _ => .ok t

/-- Removes a file or a link. -/
def unlink (t : FileTree) (p : Path) : Except FileFailure FileTree := do
  match ← t.look .own p with
  | (_, .directory) => .error (.refusal .isDirectory p.text)
  | (place, _) => .ok (t.erase place)

/-- Removes an empty directory, which has to be named by its own name. -/
def removeDirectory (t : FileTree) (p : Path) : Except FileFailure FileTree := do
  match ← t.look .own p with
  | (place, .directory) =>
    if p.parts = [] then .error (.refusal (if p.isAbsolute then .busy else .invalid) p.text)
    else if p.name = ".." ∨ t.names place ≠ [] then .error (.refusal .notEmpty p.text)
    else .ok (t.erase place)
  | _ => .error (.refusal .notDirectory p.text)

/-- Moves a file or a link over another, or to a free name. -/
def move (t : FileTree) (source target : Path) : Except FileFailure FileTree := do
  let refuse (e : FileFailure) : FileFailure :=
    match e with
    | .refused why _ => .refused why (.move source.text target.text)
    | e => e
  let (place, node) ← (t.look .own source).mapError refuse
  let goal ← (t.locate .own target).mapError refuse
  if target.name = ".." then throw (.refused .busy (.move source.text target.text))
  match t.get? goal, node with
  | some .directory, _ => .error (.refused .isDirectory (.move source.text target.text))
  | _, .directory => .error (.refused .notDirectory (.move source.text target.text))
  | _, _ => if place = goal then .ok t else .ok (t.relocate place goal)

/-- Adds to the end of the file that is held open. -/
def extendHeld (t : FileTree) (bytes : List UInt8) : FileTree :=
  match t.held with
  | some place =>
    match t.get? place with
    | some (.file content executable) => t.set place (.file (content ++ bytes) executable)
    | _ => t
  | none => t

/-! ## Sequences of changes -/

/-- Changes made one after the other, up to the first that fails. -/
abbrev Action := EStateM FileFailure FileTree

/-- A single change as an action. -/
def change (f : FileTree → Except FileFailure FileTree) : Action Unit := fun t =>
  match f t with
  | .ok t' => .ok () t'
  | .error e => .error e t

/-- A question as an action. -/
def query {α : Type} (f : FileTree → Except FileFailure α) : Action α := fun t =>
  match f t with
  | .ok a => .ok a t
  | .error e => .error e t

/-- An action taken because something failed: if it fails too, that failure came after the first. -/
def dealingWith {α : Type} (earlier : FileFailure) (act : Action α) : Action α := fun t =>
  match act t with
  | .ok a t' => .ok a t'
  | .error e t' => .error (.after earlier e) t'

/-- The failure to make a directory does not count where there is one. -/
def unlessDirectory (p : Path) (e : FileFailure) : Action Unit := fun t =>
  match t.isDirectory? p with
  | .ok true => .ok () t
  | .ok false => .error e t
  | .error later => .error (.after e later) t

/-- Makes the directory unless it is there; what is above has to be there. -/
def ensureLast (p : Path) : Action Unit := fun t =>
  match t.makeDirectory p with
  | .ok t' => .ok () t'
  | .error e => if e.isMissing then .error e t else unlessDirectory p e t

theorem parts_parent_length_lt {p : Path} (h : p.parts ≠ []) :
    p.parent.parts.length < p.parts.length := by
  have := List.length_pos_iff.2 h
  simp only [Path.parent, List.length_dropLast]
  omega

/-- Makes the directory unless it is there, first of all the directories above it that are missing. -/
def ensureDirectory (p : Path) : Action Unit := fun t =>
  match t.makeDirectory p with
  | .ok t' => .ok () t'
  | .error e =>
    if e.isMissing then
      if h : p.parts = [] then .error e t
      else
        have := parts_parent_length_lt h
        dealingWith e (do ensureDirectory p.parent; ensureLast p) t
    else unlessDirectory p e t
termination_by p.parts.length

/-- Deletes a directory and everything in it. Links are removed, not followed; the directory itself
has to be named by its own name, and must not be reached through a link. -/
def removeTree (p : Path) : Action Unit := do
  match ← query (·.look .own p) with
  | (_, .link _) =>
    let _ ← query (·.look .followed p)
    throw .treeIsLink
  | (place, .directory) =>
    modify fun t => t.eraseInside place
    change (·.removeDirectory p)
  | _ => throw (.refused .notDirectory (.shown p.text))

end WeaveStep.FileTree
