import WeaveStep.Files.Walk

/-! # Resolved paths

The path a file is reached by without links and dots. Names that are not there are kept as they
are, so every path has a resolution unless its links run in a circle.

* `FileTree.unfold`: replaces links, one name after the other; `Unfolding` remembers the links met.
* `FileTree.resolve`: the resolution of a path, or the failure that its links never end. -/

namespace WeaveStep

/-- The directory above a path without links: two dots are added where there is no name to take
away. -/
def Path.above (p : Path) : Path :=
  if p.parts = [] ∨ p.name = ".." then if p.isAbsolute then p else p.entry ".." else p.parent

namespace FileTree

/-- The links met so far, by their paths, each with where it leads, or with nothing while that is
being found. -/
abbrev Unfolding := List (Path × Option Path)

/-- A path with its links replaced; `whole` is false where a circle of links stopped that, and the
path then goes on with the link that closes the circle and the names left. -/
structure Unfolded where
  place : Path
  whole : Bool
  met : Unfolding

/-- A path with the text of names after it that are not looked at; the text stands for itself if it
begins with a slash. -/
def unseen (p : Path) (names : List String) : Path := p.child ("/".intercalate names)

/-- The path that the target of a link in `here` starts from. -/
def linkStart (here : Path) (target : String) : Path :=
  if (Path.ofString target).isAbsolute then ⟨.root, []⟩ else here

/-- Replaces the links of `names` as seen from `here`; at most `depth` links are entered inside one
another. -/
def unfold (t : FileTree) (depth : Nat) (met : Unfolding) (here : Path) (names : List String) :
    Unfolded :=
  match names with
  | [] => ⟨here, true, met⟩
  | name :: rest =>
    if name = "" ∨ name = "." then t.unfold depth met here rest
    else if name = ".." then t.unfold depth met here.above rest
    else
      let there := here.entry name
      match (t.look .own there).toOption with
      | some (_, .link target) =>
        match met.lookup there with
        | some (some place) => t.unfold depth met place rest
        | some none => ⟨unseen there rest, false, met⟩
        | none =>
          match depth with
          | 0 => ⟨unseen there rest, false, met⟩
          | depth + 1 =>
            let inner := t.unfold depth ((there, none) :: met) (linkStart here target)
              (targetNames target)
            if inner.whole then
              t.unfold (depth + 1) ((there, some inner.place) :: inner.met) inner.place rest
            else ⟨unseen inner.place rest, false, inner.met⟩
      | _ => t.unfold depth met there rest
termination_by (depth, names.length)

/-- How deep links may be entered inside one another: every link once by each of its paths. -/
def unfoldDepth (t : FileTree) : Nat := t.entries.length * (t.workingDirectory.length + 2)

/-- The resolution of a path. -/
def resolve (t : FileTree) (p : Path) : Except FileFailure Path := do
  if p.text.contains '\x00' then throw .nullCharacter
  let start : Path := ⟨if p.isAbsolute then .root else .relative, []⟩
  let found := t.unfold t.unfoldDepth [] start p.parts
  let resolved := (← t.absolute found.place).collapsed
  match t.stat resolved with
  | .error (.refused .tooManyLinks subject) =>
    throw (.after (.refused .tooManyLinks subject) (.linkLoop resolved.text))
  | _ => return resolved

end FileTree

end WeaveStep
