import WeaveStep.Text.Split

/-! # Paths

Paths as programs write them: an anchor and the names between slashes. Empty names and single dots
are dropped, two dots are kept; exactly two leading slashes are an anchor of their own.

* `Path.ofString`, `Path.text`: reading and showing a path.
* `Path.join`: a path relative to another; an absolute path stands for itself.
* `Path.name`, `Path.parent`, `Path.ancestors`: the last name, the path without it, and all paths
  above. -/

namespace WeaveStep

/-- How a path begins. -/
inductive Anchor
  | relative
  | root
  | doubleRoot
  deriving DecidableEq, Repr

/-- The slashes a path begins with. -/
def Anchor.text : Anchor → String
  | .relative => ""
  | .root => "/"
  | .doubleRoot => "//"

/-- A path: its anchor and its names. -/
structure Path where
  anchor : Anchor
  parts : List String
  deriving DecidableEq, Repr

namespace Path

/-! ## Reading and showing -/

/-- The anchor of a path written so: two slashes count, three or more are one. -/
def anchorOf : List Char → Anchor
  | '/' :: '/' :: '/' :: _ => .root
  | '/' :: '/' :: _ => .doubleRoot
  | '/' :: _ => .root
  | _ => .relative

/-- A name that counts. -/
def isName (s : String) : Bool := s ≠ "" && s ≠ "."

/-- The path written so. -/
def ofString (s : String) : Path :=
  ⟨anchorOf s.toList, (Text.splitAt '/' s).filter isName⟩

/-- The path with one slash between its names, or a dot where nothing is left. -/
def text (p : Path) : String :=
  match p.anchor, p.parts with
  | .relative, [] => "."
  | anchor, parts => anchor.text ++ "/".intercalate parts

/-- Whether the path begins at the root. -/
def isAbsolute (p : Path) : Bool := p.anchor ≠ .relative

/-! ## Taking apart and putting together -/

/-- `q` as seen from `p`: an absolute path stands for itself. -/
def join (p q : Path) : Path :=
  if q.isAbsolute then q else ⟨p.anchor, p.parts ++ q.parts⟩

/-- The path written `s`, as seen from `p`. -/
def child (p : Path) (s : String) : Path := p.join (ofString s)

/-- The name `s` directly below `p`. -/
def entry (p : Path) (s : String) : Path := ⟨p.anchor, p.parts ++ [s]⟩

/-- The last name, empty where there is none. -/
def name (p : Path) : String := p.parts.getLast?.getD ""

/-- The path without its last name; a path without names is its own parent. -/
def parent (p : Path) : Path := ⟨p.anchor, p.parts.dropLast⟩

/-- The path with another last name; there is none where the path has no name. -/
def withName? (p : Path) (s : String) : Option Path :=
  if p.parts = [] then none else some ⟨p.anchor, p.parts.dropLast ++ [s]⟩

/-- The paths above `p`, nearest first. -/
def ancestors (p : Path) : List Path :=
  (List.range p.parts.length).reverse.map fun n => ⟨p.anchor, p.parts.take n⟩

/-- The path with each pair of a name and two dots after it taken out, by the text alone; two dots
at the root are the root. -/
def collapsed (p : Path) : Path :=
  ⟨p.anchor, p.parts.foldl (fun done part =>
    if part = ".." then
      if done.getLast? = some ".." ∨ (done = [] ∧ !p.isAbsolute) then done ++ [part]
      else done.dropLast
    else done ++ [part]) []⟩

end Path

end WeaveStep
