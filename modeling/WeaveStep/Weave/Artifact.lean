import WeaveStep.Digest
import WeaveStep.Files.Walk
import WeaveStep.Settings.Basic

/-! # Artifacts

What is woven: directories of compiled classes and class archives.

* `Artifact.ofPath`: the artifact at a path; what is no directory counts as an archive.
* `Bundle`: artifacts handed over together; its directories come before its archives.
* `isExcluded`, `FileTree.isExcluded?`: whether some rule's group and module show in an artifact's
  path. -/

namespace WeaveStep

/-- The two kinds of artifacts. -/
inductive ArtifactKind
  | directory
  | archive
  deriving DecidableEq, Repr

/-- A directory or an archive of compiled classes. -/
structure Artifact where
  /-- Where it lies, as an absolute path. -/
  path : Path
  name : String
  kind : ArtifactKind
  deriving DecidableEq, Repr

namespace Artifact

/-- The artifact at a path, named by its last name unless another name is given. -/
def ofPath (t : FileTree) (p : Path) (name : String) : Except FileFailure Artifact := do
  let path ← t.absolute p
  let kind := if ← t.isDirectory? path then ArtifactKind.directory else .archive
  return ⟨path, if name = "" then path.name else name, kind⟩

/-- What the artifact's output is called: the name of an archive is told without its ending. -/
def slotName (a : Artifact) : String :=
  match a.kind with
  | .archive => Text.without ".jar" a.name
  | .directory => a.name

end Artifact

/-- The short digest of a path, as seen from the root. -/
def pathDigest (t : FileTree) (p : Path) : Except FileFailure String :=
  (fun q => Digest.shortOf q.text) <$> t.absolute p

/-! ## Bundles -/

/-- Artifacts handed over together. -/
structure Bundle where
  directories : List Artifact
  archives : List Artifact

namespace Bundle

/-- The artifacts at some paths. -/
def ofPaths (t : FileTree) (paths : List Path) : Except FileFailure Bundle := do
  let artifacts ← paths.mapM (Artifact.ofPath t · "")
  return ⟨artifacts.filter (·.kind = .directory), artifacts.filter (·.kind = .archive)⟩

/-- All artifacts, in the order in which they are found. -/
def artifacts (b : Bundle) : List Artifact := b.directories ++ b.archives

end Bundle

/-! ## Exclusion -/

/-- Whether a rule's fragment stands in a path. -/
def ExcludeRule.marks (r : ExcludeRule) (path : Path) : Bool := Text.occursIn r.fragment path.text

/-- Whether some rule keeps the artifact at an absolute path out of weaving. -/
def isExcluded (path : Path) (rules : List ExcludeRule) : Bool := rules.any (·.marks path)

/-- Whether some rule keeps the artifact at a path out of weaving; a relative path is seen from the working
directory. -/
def FileTree.isExcluded? (t : FileTree) (p : Path) (rules : List ExcludeRule) : Except FileFailure Bool :=
  (isExcluded · rules) <$> t.absolute p

end WeaveStep
