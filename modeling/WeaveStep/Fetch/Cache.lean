import WeaveStep.Digest
import WeaveStep.Files.Change
import WeaveStep.Files.Resolve
import WeaveStep.Text.Blank

/-! # The cache of a project

Downloaded tools are kept below the project's directory, or in a place that the environment names:

    tools/<digest of the server's address>/<version>/

* `Cache.of`: the cache of a project.
* `Cache.toolPath`: the directory of one version of a tool. The digest keeps servers apart, and the
  version lets several of them stand side by side. -/

namespace WeaveStep

open Text

/-- The cache of a project; both paths are resolved. -/
structure Cache where
  project : Path
  root : Path
  deriving DecidableEq, Repr

namespace Cache

/-- The variable that names another place for the cache. -/
def placeVariable : String := "ASPECTWEAVE_CACHE_DIR"

/-- The cache of a project, or of the working directory if none is given. -/
def of (t : FileTree) (environment : List (String × String)) (project : Option Path) :
    Except FileFailure Cache := do
  let given ← match project with
    | some p => pure p
    | none => t.currentPath
  let project ← t.resolve given
  match given? (environment.lookup placeVariable) with
  | some place => return ⟨project, ← t.resolve (.ofString place)⟩
  | none => return ⟨project, (project.entry ".aspectweave").entry "cache"⟩

/-- The directory of all tools. -/
def toolsDirectory (c : Cache) : Path := c.root.entry "tools"

/-- The directory of one version of the tool at an address. -/
def toolPath (c : Cache) (url version : String) : Path :=
  (c.toolsDirectory.entry (Digest.shortOf url)).child version

/-- Makes the directories of the cache. -/
def ensureDirectories (c : Cache) : FileTree.Action Unit :=
  FileTree.ensureDirectory c.toolsDirectory

end Cache

end WeaveStep
