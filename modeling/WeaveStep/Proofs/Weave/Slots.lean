import WeaveStep.Proofs.Digest
import WeaveStep.Proofs.Files.Ways
import WeaveStep.Proofs.Text.Split
import WeaveStep.Weave.Routing

/-!
# Slots and their names

The slot of an excluded artifact lies below the root by names that are found in one way only:

* `Artifact.opened a`: the names of the directories that lead to the artifact's copy.
* `Artifact.copyName a`: the name of the copy in the last of them.
* **`copyIntoSlot_eq`**: an artifact is copied to these names.
* **`slotKey_eq_of_opened`**: nothing of one copy lies in another, unless both have the same slot.
-/

namespace WeaveStep

/-! ## Names of entries -/

/-- A name as it stands between the slashes of a path, and names an entry. -/
structure IsPlainName (name : String) : Prop where
  entry : FileTree.IsEntryName name
  noSlash : '/' ∉ name.toList

/-- The path that is written as a name without slashes. -/
theorem ofString_of_noSlash {s : String} (hs : '/' ∉ s.toList) :
    Path.ofString s = ⟨.relative, if Path.isName s then [s] else []⟩ := by
  have hanchor : Path.anchorOf s.toList = .relative := by
    unfold Path.anchorOf
    split <;> simp_all
  simp [Path.ofString, hanchor, Text.splitAt_of_not_mem hs, List.filter_cons]

/-- A link that says a name leads to the entry by that name beside it. -/
theorem FileTree.way_of_link_beside {t : FileTree} {last : LastName} {budget : Nat}
    {here place : Location} {name : String} {names : List String} (hslash : '/' ∉ name.toList) :
    Way t last budget (targetStart here name) (targetNames name ++ names) place ↔
      Way t last budget here (name :: names) place := by
  have hstart : targetStart here name = here := by
    rw [targetStart, ofString_of_noSlash hslash]
    rfl
  rw [hstart, targetNames, Text.splitAt_of_not_mem hslash, List.singleton_append]

theorem IsPlainName.ofString {name : String} (h : IsPlainName name) :
    Path.ofString name = ⟨.relative, [name]⟩ := by
  have hname : Path.isName name = true := by simp [Path.isName, h.entry.1, h.entry.2.1]
  rw [ofString_of_noSlash h.noSlash, if_pos hname]

theorem IsPlainName.child {name : String} (h : IsPlainName name) (p : Path) :
    p.child name = p.entry name := by
  simp [Path.child, Path.join, h.ofString, Path.isAbsolute, Path.entry]

/-- The parts of a path as it is written are without slashes. -/
theorem not_slash_mem_parts {s name : String} (h : name ∈ (Path.ofString s).parts) :
    '/' ∉ name.toList :=
  Text.not_mem_of_mem_splitAt (List.mem_of_mem_filter h)

theorem Digest.isPlainName_shortOf (s : String) : IsPlainName (shortOf s) where
  entry := by
    have hlength := length_shortOf s
    refine ⟨?_, ?_, ?_⟩ <;> intro heq <;> rw [heq] at hlength <;> simp at hlength
  noSlash h := absurd (digit_of_mem_shortOf h) (by decide)

/-! ## Paths of slots -/

/-- The directory of all slots of a format. -/
def SlotFormat.folderName : SlotFormat → String
  | .folder => "folders"
  | .jar => "jars"

/-- The names that lead to a slot's directory, or to the one of its archive. -/
def SlotKey.above (key : SlotKey) : List String :=
  [key.format.folderName, nameKey (key.types.map (·.name)), nameKey (key.scopes.map (·.name))]

theorem isPlainName_of_mem_above {key : SlotKey} {name : String} (h : name ∈ key.above) :
    IsPlainName name := by
  simp only [SlotKey.above, List.mem_cons, List.not_mem_nil, or_false] at h
  rcases h with rfl | rfl | rfl
  · cases key.format <;> exact ⟨⟨by decide, by decide, by decide⟩, by decide⟩
  · exact Digest.isPlainName_shortOf _
  · exact Digest.isPlainName_shortOf _

theorem slotBase_eq (root : Path) (key : SlotKey) :
    slotBase root key = ⟨root.anchor, root.parts ++ key.above⟩ := by
  have hplain : ∀ name ∈ key.above, IsPlainName name := fun _ => isPlainName_of_mem_above
  have hfolder : slotBase root key = ((root.child key.format.folderName).child
      (nameKey (key.types.map (·.name)))).child (nameKey (key.scopes.map (·.name))) := by
    unfold slotBase
    cases key.format <;> rfl
  rw [hfolder, (hplain _ (by simp [SlotKey.above])).child, (hplain _ (by simp [SlotKey.above])).child,
    (hplain _ (by simp [SlotKey.above])).child]
  simp [Path.entry, SlotKey.above]

/-! ## Copies of artifacts -/

namespace Artifact

/-- The names of the directories that lead to the artifact's copy. -/
def opened (a : Artifact) : List String :=
  match a.kind with
  | .directory => a.slotKey.above ++ [a.slotTitle]
  | .archive => a.slotKey.above

/-- The name of the artifact's copy. -/
def copyName (a : Artifact) : String :=
  match a.kind with
  | .directory => a.path.name
  | .archive => a.slotTitle ++ ".jar"

/-- Copies the artifact to a path. -/
def copyTo (a : Artifact) (target : Path) : FileTree.Action Unit :=
  match a.kind with
  | .directory => FileTree.copyTree a.path target
  | .archive => FileTree.copyArchive a.path target

/-- The names of the artifact are names of entries. -/
structure IsPlain (a : Artifact) : Prop where
  name : '/' ∉ a.name.toList
  directory : a.kind = .directory → IsPlainName a.path.name

variable {a b : Artifact}

section

variable (hname : '/' ∉ a.name.toList)
include hname

theorem isPlainName_slotTitle : IsPlainName a.slotTitle where
  entry := by
    have hdash : '-' ∈ a.slotTitle.toList := by simp [Artifact.slotTitle]
    refine ⟨?_, ?_, ?_⟩ <;> intro heq <;> rw [heq] at hdash <;> simp at hdash
  noSlash := by
    have hslot : '/' ∉ a.slotName.toList := by
      unfold Artifact.slotName
      split
      · exact fun hmem => hname (Text.mem_of_mem_without hmem)
      · exact hname
    simp [Artifact.slotTitle, hslot, (Digest.isPlainName_shortOf _).noSlash]

theorem isPlainName_slotTitle_jar : IsPlainName (a.slotTitle ++ ".jar") where
  entry := by
    have hdash : '-' ∈ (a.slotTitle ++ ".jar").toList := by simp [Artifact.slotTitle]
    refine ⟨?_, ?_, ?_⟩ <;> intro heq <;> rw [heq] at hdash <;> simp at hdash
  noSlash := by simp [(isPlainName_slotTitle hname).noSlash]

theorem isPlainName_of_mem_opened {name : String} (h : name ∈ a.opened) : IsPlainName name := by
  unfold opened at h
  split at h
  · rcases List.mem_append.1 h with h | h
    · exact isPlainName_of_mem_above h
    · rw [List.mem_singleton.1 h]
      exact isPlainName_slotTitle hname
  · exact isPlainName_of_mem_above h

/-- The path of the copy in the directory that is opened for it. -/
def copyPath (a : Artifact) (slot : Path) : Path :=
  match a.kind with
  | .directory => slot.child a.path.name
  | .archive => slot.entry (a.slotTitle ++ ".jar")

/-- **An artifact is copied** into the last of the directories that are opened for it. -/
theorem copyIntoSlot_eq_copyTo (root : Path) :
    copyIntoSlot root a = (do
      FileTree.ensureDirectory ⟨root.anchor, root.parts ++ a.opened⟩
      a.copyTo (a.copyPath ⟨root.anchor, root.parts ++ a.opened⟩)
      return slotPath root a.slotKey) := by
  unfold copyIntoSlot openSlot
  cases hkind : a.kind with
  | directory =>
    have hformat : a.slotKey.format = .folder := by simp [slotKey, hkind]
    have hslot : slotPath root a.slotKey = ⟨root.anchor, root.parts ++ a.opened⟩ := by
      simp [slotPath, slotBase_eq, opened, hkind, slotKey, (isPlainName_slotTitle hname).child,
        Path.entry]
    simp [hformat, hslot, copyTo, copyPath, hkind]
  | archive =>
    have hformat : a.slotKey.format = .jar := by simp [slotKey, hkind]
    have hslot : slotPath root a.slotKey =
        Path.entry ⟨root.anchor, root.parts ++ a.opened⟩ (a.slotTitle ++ ".jar") := by
      simp [slotPath, slotBase_eq, opened, hkind, slotKey, (isPlainName_slotTitle_jar hname).child]
    have hparent : (slotPath root a.slotKey).parent = ⟨root.anchor, root.parts ++ a.opened⟩ := by
      simp [hslot, Path.parent, Path.entry]
    rw [hslot] at hparent
    simp [hformat, hslot, hparent, copyTo, copyPath, hkind]

end

theorem IsPlain.of_mem_opened (h : a.IsPlain) {name : String} (hname : name ∈ a.opened) :
    IsPlainName name :=
  isPlainName_of_mem_opened h.name hname

theorem IsPlain.copyName (h : a.IsPlain) : IsPlainName a.copyName := by
  unfold Artifact.copyName
  split
  · exact h.directory ‹_›
  · exact isPlainName_slotTitle_jar h.name

/-- An artifact whose path ends in a name is copied to that name. -/
theorem copyIntoSlot_eq (h : a.IsPlain) (root : Path) :
    copyIntoSlot root a = (do
      FileTree.ensureDirectory ⟨root.anchor, root.parts ++ a.opened⟩
      a.copyTo (Path.entry ⟨root.anchor, root.parts ++ a.opened⟩ a.copyName)
      return slotPath root a.slotKey) := by
  have hpath : ∀ slot : Path, a.copyPath slot = slot.entry a.copyName := by
    intro slot
    unfold copyPath Artifact.copyName
    cases hkind : a.kind with
    | directory => exact (h.directory hkind).child slot
    | archive => rfl
  rw [copyIntoSlot_eq_copyTo h.name, hpath]

/-- Two copies of which one lies in the other have the same slot. -/
theorem slotKey_eq_of_opened {rest rest' : List String}
    (h : a.opened ++ a.copyName :: rest = b.opened ++ b.copyName :: rest') :
    a.slotKey = b.slotKey := by
  unfold opened copyName at h
  cases ha : a.kind <;> cases hb : b.kind <;>
    simp_all [slotKey, SlotKey.above, SlotFormat.folderName]

/-- No directory is opened inside a copy. -/
theorem not_copy_prefix_opened : ¬ a.opened ++ [a.copyName] <+: b.opened := by
  unfold opened copyName
  cases ha : a.kind <;> cases hb : b.kind <;>
    simp_all [slotKey, SlotKey.above, SlotFormat.folderName, List.cons_prefix_cons]

end Artifact

end WeaveStep
