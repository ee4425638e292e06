import WeaveStep.Files.Failure
import WeaveStep.Files.Path

/-! # File trees

A file tree maps locations to files, links and directories. A location is the list of names from
the root down, with no links and no dots on the way.

* `FileTree.get?` is the view of a tree: two trees with the same view are the same to every
  operation.
* `FileTree.set`, `FileTree.erase`, `FileTree.eraseInside`: what each does to the view is said by
  `get?_set`, `get?_erase` and `get?_eraseInside`.

An entry has no owner and no permissions but that to execute it: whoever runs a program may read and
change the whole tree. -/

namespace WeaveStep

/-- Where an entry lies: the names from the root down. -/
abbrev Location := List String

/-- An entry of a file tree. -/
inductive Node
  | file (content : List UInt8) (executable : Bool)
  | link (target : String)
  | directory
  /-- It holds nothing; it takes whatever is written to it, unless it is full. -/
  | device (isFull : Bool)
  deriving DecidableEq

/-- Whether an entry is a directory. -/
def Node.isDirectory : Node → Bool
  | .directory => true
  | _ => false

/-- Whether an entry is a regular file. -/
def Node.isFile : Node → Bool
  | .file _ _ => true
  | _ => false

/-- Whether an entry is a file that may be run. -/
def Node.isExecutable : Node → Bool
  | .file _ executable => executable
  | _ => false

/-- The entries of a file system, and the directory that relative paths start from. -/
structure FileTree where
  entries : List (Location × Node)
  workingDirectory : Location
  /-- Where the file lies that is held open; nothing once that file is removed. -/
  held : Option Location := none

namespace FileTree

/-! ## The view -/

/-- The entry at a location. -/
def get? (t : FileTree) (place : Location) : Option Node := t.entries.lookup place

/-- The tree with `node` at the location. -/
def set (t : FileTree) (place : Location) (node : Node) : FileTree :=
  { t with entries := (place, node) :: t.entries.filter (fun e => e.1 ≠ place) }

/-- The tree without the entry at the location. -/
def erase (t : FileTree) (place : Location) : FileTree :=
  { t with
    entries := t.entries.filter (fun e => e.1 ≠ place)
    held := t.held.filter (· ≠ place) }

/-- Whether `place` is `root` or lies below it. -/
def isWithin (root place : Location) : Bool := root.isPrefixOf place

/-- The tree without the entries below `root`; `root` itself stays. -/
def eraseInside (t : FileTree) (root : Location) : FileTree :=
  { t with
    entries := t.entries.filter (fun e => !isWithin root e.1 || e.1 == root)
    held := t.held.filter (fun place => !isWithin root place || place == root) }

/-- The tree with the entry at `source` at `target` instead. A file held open is so wherever it is
moved. -/
def relocate (t : FileTree) (source target : Location) : FileTree :=
  match t.get? source with
  | some node =>
    let moved := ((t.erase source).erase target).set target node
    if t.held = some source then { moved with held := some target } else moved
  | none => t

/-- Looking up a key among the entries whose keys `p` keeps. -/
theorem lookup_filter (p : Location → Bool) (l : List (Location × Node)) (b : Location) :
    (l.filter (fun e => p e.1)).lookup b = if p b then l.lookup b else none := by
  induction l with
  | nil => simp
  | cons e rest ih =>
    obtain ⟨k, n⟩ := e
    by_cases hb : b = k
    · subst hb
      cases hp : p b with
      | true => simp [hp]
      | false => simpa [hp] using ih
    · have hbk : (b == k) = false := beq_eq_false_iff_ne.2 hb
      cases hp : p k with
      | true => simp only [List.filter_cons, hp, if_true, List.lookup_cons, hbk, ih]
      | false => simp [hp, List.lookup_cons, hbk, ih]

theorem get?_set (t : FileTree) (a b : Location) (n : Node) :
    (t.set a n).get? b = if b = a then some n else t.get? b := by
  by_cases h : b = a
  · subst h; simp [get?, set]
  · have h' := lookup_filter (fun k => decide (k ≠ a)) t.entries b
    simp only [get?, set, List.lookup_cons, beq_eq_false_iff_ne.2 h, h, if_false]
    simpa [h] using h'

theorem get?_erase (t : FileTree) (a b : Location) :
    (t.erase a).get? b = if b = a then none else t.get? b := by
  have h := lookup_filter (fun k => decide (k ≠ a)) t.entries b
  by_cases hb : b = a <;> simpa [get?, erase, hb] using h

theorem get?_eraseInside (t : FileTree) (root b : Location) :
    (t.eraseInside root).get? b = if isWithin root b ∧ b ≠ root then none else t.get? b := by
  have h := lookup_filter (fun k => !isWithin root k || k == root) t.entries b
  cases hb : isWithin root b <;> by_cases hr : b = root <;> simpa [get?, eraseInside, hb, hr] using h

/-! ## Listing -/

/-- The last name of a location directly below `root`. -/
def nameBelow? (root place : Location) : Option String :=
  match place.getLast? with
  | some name => if place = root ++ [name] then some name else none
  | none => none

/-- The names directly below a location, in alphabetical order. -/
def names (t : FileTree) (root : Location) : List String :=
  ((t.entries.filterMap fun e => nameBelow? root e.1).eraseDups).mergeSort (fun a b => a ≤ b)

end FileTree

end WeaveStep
