import WeaveStep.Files.Tree

/-! # Walking paths

Where a path leads in a file tree, and the questions programs ask about a path.

* `FileTree.walk`: one name after the other, links replaced by their targets; the number of links
  left to follow and the names left to walk bound the walk. `LastName` says what becomes of the last
  one.
* `FileTree.locate`: where a path leads; the last name need not be there.
* `FileTree.stat`: the entry a path leads to.
* `FileTree.exists?`, `isFile?`, `isDirectory?`: a path that leads nowhere is a plain no, any other
  refusal is a failure. `FileTree.leadsTo`: every refusal is a no. -/

namespace WeaveStep.FileTree

/-- The most bytes a name may have. -/
def maxNameBytes : Nat := 255

/-- A path must have fewer bytes than this. -/
def pathBytesLimit : Nat := 4096

/-- The most links on the way of one path. -/
def maxLinks : Nat := 40

/-- What is wanted of the last name of a path. -/
inductive LastName
  /-- What it names itself, even if that is a link. -/
  | own
  /-- Where it leads to, links followed. -/
  | followed
  /-- As before, to make a file there, so that no slash may stand after it. -/
  | made
  deriving DecidableEq, Repr

/-- The names in the target of a link. -/
def targetNames (target : String) : List String := Text.splitAt '/' target

/-- The directory that the target of a link in `here` starts from. -/
def targetStart (here : Location) (target : String) : Location :=
  if (Path.ofString target).isAbsolute then [] else here

/-- Walks `names` from `here`, following at most `budget` links. -/
def walk (t : FileTree) (last : LastName) (budget : Nat) (here : Location) (names : List String) :
    Except Errno Location :=
  match names with
  | [] => .ok here
  | name :: rest =>
    match t.get? here with
    | some .directory =>
      if name = "" ∨ name = "." then t.walk last budget here rest
      else if name = ".." then t.walk last budget here.dropLast rest
      else if last = .made ∧ rest ≠ [] ∧ rest.all (· = "") then .error .isDirectory
      else if maxNameBytes < name.utf8ByteSize then .error .nameTooLong
      else
        match t.get? (here ++ [name]) with
        | some (.link target) =>
          if rest = [] ∧ last = .own then .ok (here ++ [name])
          else
            match budget with
            | 0 => .error .tooManyLinks
            | budget + 1 =>
              t.walk last budget (targetStart here target) (targetNames target ++ rest)
        | _ => t.walk last budget (here ++ [name]) rest
    | some _ => .error .notDirectory
    | none => .error .noEntry
termination_by (budget, names.length)

/-- The directory a path starts from. -/
def startOf (t : FileTree) (p : Path) : Location :=
  if p.isAbsolute then [] else t.workingDirectory

/-- Walks the names of a path that is written `text`. -/
def locateNames (t : FileTree) (last : LastName) (text : String) (start : Location)
    (names : List String) : Except FileFailure Location :=
  if text.contains '\x00' then .error .nullCharacter
  else if pathBytesLimit ≤ text.utf8ByteSize then .error (.refusal .nameTooLong text)
  else (t.walk last maxLinks start names).mapError (.refusal · text)

/-- Where a path leads; everything but its last name has to be there. -/
def locate (t : FileTree) (last : LastName) (p : Path) : Except FileFailure Location :=
  t.locateNames last p.text (t.startOf p) p.parts

/-! ## Looking -/

/-- The entry a path leads to, and where it lies. -/
def look (t : FileTree) (last : LastName) (p : Path) : Except FileFailure (Location × Node) := do
  let place ← t.locate last p
  match t.get? place with
  | some node => .ok (place, node)
  | none => .error (.refusal .noEntry p.text)

/-- The entry a path leads to, links followed. -/
def stat (t : FileTree) (p : Path) : Except FileFailure Node := (·.2) <$> t.look .followed p

/-- Whether a refusal says only that a path leads nowhere. -/
def saysAbsent : FileFailure → Bool
  | .refused why _ => why = .noEntry ∨ why = .notDirectory ∨ why = .tooManyLinks
  | .nullCharacter => true
  | _ => false

/-- Whether a path leads to an entry of some sort. -/
def ask (t : FileTree) (sort : Node → Bool) (p : Path) : Except FileFailure Bool :=
  match t.stat p with
  | .ok node => .ok (sort node)
  | .error e => if saysAbsent e then .ok false else .error e

/-- Whether a path leads to an entry of any sort. -/
def exists? (t : FileTree) (p : Path) : Except FileFailure Bool := t.ask (fun _ => true) p

/-- Whether a path leads to a regular file. -/
def isFile? (t : FileTree) (p : Path) : Except FileFailure Bool := t.ask Node.isFile p

/-- Whether a path leads to a directory. -/
def isDirectory? (t : FileTree) (p : Path) : Except FileFailure Bool := t.ask Node.isDirectory p

/-- Whether a path leads to an entry of some sort, every refusal being a no. -/
def leadsTo (t : FileTree) (sort : Node → Bool) (p : Path) : Bool :=
  match t.stat p with
  | .ok node => sort node
  | .error _ => false

/-- The content of the file a path leads to. -/
def read (t : FileTree) (p : Path) : Except FileFailure (List UInt8) := do
  match ← t.stat p with
  | .file content _ => .ok content
  | .device _ => .ok []
  | .directory => .error (.refusal .isDirectory p.text)
  | .link _ => .error (.refusal .tooManyLinks p.text)

/-- The names in the directory a path leads to. -/
def list (t : FileTree) (p : Path) : Except FileFailure (List String) := do
  match ← t.look .followed p with
  | (place, .directory) => .ok (t.names place)
  | _ => .error (.refusal .notDirectory p.text)

/-- The entry a path leads to as it is written, where a slash or a dot at the end asks for a directory. -/
def lookText (t : FileTree) (last : LastName) (text : String) :
    Except FileFailure (Location × Node) := do
  if text = "" then throw (.refusal .noEntry text)
  let place ← t.locateNames last text (t.startOf (.ofString text)) (targetNames text)
  match t.get? place with
  | some node => .ok (place, node)
  | none => .error (.refusal .noEntry text)

/-- The entry a path leads to as it is written, links followed. -/
def statText (t : FileTree) (text : String) : Except FileFailure (Location × Node) :=
  t.lookText .followed text

/-! ## Absolute paths -/

/-- The working directory as a path; it fails once that directory is gone. -/
def currentPath (t : FileTree) : Except FileFailure Path :=
  match t.get? t.workingDirectory with
  | some .directory => .ok ⟨.root, t.workingDirectory⟩
  | _ => .error (.refused .noEntry .nothing)

/-- The path with the working directory in front of it, if it is relative. -/
def absolute (t : FileTree) (p : Path) : Except FileFailure Path :=
  if p.isAbsolute then .ok p else (·.join p) <$> t.currentPath

end WeaveStep.FileTree
