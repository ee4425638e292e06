import WeaveStep.Digest
import WeaveStep.Files.Change

/-! # Output slots

Where results go. Every piece of content has a slot of its own below one root, which is named by
the content's name, types and scopes and by the slot's format:

    root/folders/<types>/<scopes>/<name>/
    root/jars/<types>/<scopes>/<name>.jar

* `slotPath`: the path of a slot, a function of these alone.
* `openSlot`: makes the directories of a slot.
* `clearSlots`: removes all that was written below a root. -/

namespace WeaveStep

/-- What kind of content is told apart. -/
inductive ContentType
  | classes
  deriving DecidableEq, Repr

/-- The name of a content type. -/
def ContentType.name : ContentType → String
  | .classes => "classes"

/-- Where content comes from. -/
inductive Scope
  | project
  | projectLocalDeps
  | subProjects
  | subProjectsLocalDeps
  | externalLibraries
  | providedOnly
  deriving DecidableEq, Repr

/-- The name of a scope. -/
def Scope.name : Scope → String
  | .project => "project"
  | .projectLocalDeps => "project_local_deps"
  | .subProjects => "sub_projects"
  | .subProjectsLocalDeps => "sub_projects_local_deps"
  | .externalLibraries => "external_libraries"
  | .providedOnly => "provided_only"

/-- The scope of everything that is woven. -/
def fullProject : List Scope :=
  [.project, .projectLocalDeps, .subProjects, .subProjectsLocalDeps, .externalLibraries]

/-- The form of a slot. -/
inductive SlotFormat
  | folder
  | jar
  deriving DecidableEq, Repr

/-- What a slot holds. -/
structure SlotKey where
  name : String
  types : List ContentType
  scopes : List Scope
  format : SlotFormat
  deriving DecidableEq, Repr

/-- The key of names, in whichever order they are told. -/
def nameKey (names : List String) : String :=
  Digest.shortOf (",".intercalate (names.mergeSort (fun a b => a ≤ b)))

/-- The directory that holds the slots of the same types, scopes and format. -/
def slotBase (root : Path) (key : SlotKey) : Path :=
  let folder :=
    match key.format with
    | .folder => "folders"
    | .jar => "jars"
  ((root.child folder).child (nameKey (key.types.map (·.name)))).child
    (nameKey (key.scopes.map (·.name)))

/-- The path of a slot. -/
def slotPath (root : Path) (key : SlotKey) : Path :=
  match key.format with
  | .folder => (slotBase root key).child key.name
  | .jar => (slotBase root key).child (key.name ++ ".jar")

/-- Makes the directory of a slot, or the one its archive goes into, and gives its path. -/
def openSlot (root : Path) (key : SlotKey) : FileTree.Action Path := do
  let path := slotPath root key
  match key.format with
  | .folder => FileTree.ensureDirectory path
  | .jar => FileTree.ensureDirectory path.parent
  return path

/-- Removes everything below a root, and the root, if it is there. -/
def clearSlots (root : Path) : FileTree.Action Unit := do
  if ← FileTree.query (·.exists? root) then FileTree.removeTree root

end WeaveStep
