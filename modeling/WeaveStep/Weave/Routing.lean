import WeaveStep.Files.Copy
import WeaveStep.Weave.Artifact
import WeaveStep.Weave.Slot
import WeaveStep.World

/-! # Routing artifacts

Which artifacts the weaver weaves and which it only sees. Artifacts that are only referred to, and
those that a rule excludes, go on the class path; an excluded one is copied as it is into a slot of
its own, so that nothing is lost to the build.

* `Routing`: one verdict for each artifact; the lists are read off the verdicts.
* `route`: goes through the artifacts in the order in which they are found. -/

namespace WeaveStep

/-- What became of an artifact: an excluded one has an output slot. -/
structure Verdict where
  artifact : Artifact
  output : Option Path
  deriving DecidableEq, Repr

/-- Whether the artifact is kept out of weaving. -/
def Verdict.isExcluded (v : Verdict) : Bool := v.output.isSome

/-- The routes of all artifacts of a run. -/
structure Routing where
  referenced : List Artifact
  verdicts : List Verdict

namespace Routing

/-- The verdicts on the excluded artifacts. -/
def excluded (r : Routing) : List Verdict := r.verdicts.filter (·.isExcluded)

/-- The artifacts to be woven. -/
def toWeave (r : Routing) : List Artifact :=
  (r.verdicts.filter (!·.isExcluded)).map (·.artifact)

/-- The artifacts that the weaver only sees. -/
def classpathOnly (r : Routing) : List Artifact := r.referenced ++ r.excluded.map (·.artifact)

/-- Whether no artifact is excluded. -/
def nothingExcluded (r : Routing) : Bool := r.excluded.isEmpty

end Routing

/-- Why routing failed. -/
inductive RouteFailure
  /-- An excluded artifact could not be copied. -/
  | copyFailed (path : String) (why : FileFailure)
  /-- A path that means nothing to the system. -/
  | badPath (why : FileFailure)
  deriving Repr

/-- A failure to copy the artifact at `path`. -/
def RouteFailure.ofFile (path : Path) (why : FileFailure) : RouteFailure :=
  if why.isSystem then copyFailed path.text why else badPath why

/-- What the slot of an excluded artifact is called: artifacts of one name are told apart by their
paths. -/
def Artifact.slotTitle (a : Artifact) : String :=
  a.slotName ++ "-" ++ Digest.shortOf a.path.text

/-- The slot of an excluded artifact. -/
def Artifact.slotKey (a : Artifact) : SlotKey where
  name := a.slotTitle
  types := [.classes]
  scopes := fullProject
  format :=
    match a.kind with
    | .directory => .folder
    | .archive => .jar

/-- Copies an excluded artifact into its slot. -/
def copyIntoSlot (root : Path) (a : Artifact) : FileTree.Action Path := do
  let slot ← openSlot root a.slotKey
  match a.kind with
  | .directory => FileTree.copyTree a.path (slot.child a.path.name)
  | .archive => FileTree.copyArchive a.path slot
  return slot

/-- What is logged of an excluded artifact. -/
def Artifact.exclusionNotice (a : Artifact) : String :=
  match a.kind with
  | .directory => "Folder [" ++ a.path.name ++ "] has been excluded."
  | .archive => "Jar [" ++ a.path.name ++ "] has been excluded."

/-- Decides on one artifact. -/
def judge (root : Path) (rules : List ExcludeRule) (logger : String) (a : Artifact) :
    Run RouteFailure Verdict := do
  if isExcluded a.path rules then
    Run.log .quiet logger a.exclusionNotice
    let slot ← Run.onFiles (.ofFile a.path) (copyIntoSlot root a)
    return ⟨a, some slot⟩
  else return ⟨a, none⟩

/-- Decides on all artifacts, those of the first bundle first. -/
def route (root : Path) (rules : List ExcludeRule) (logger : String)
    (inputs referenced : List Bundle) : Run RouteFailure Routing := do
  let verdicts ← (inputs.flatMap (·.artifacts)).mapM (judge root rules logger)
  let routing : Routing := ⟨referenced.flatMap (·.artifacts), verdicts⟩
  if routing.nothingExcluded then Run.log .quiet logger "Nothing excluded."
  return routing

end WeaveStep
