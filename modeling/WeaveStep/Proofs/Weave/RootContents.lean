import Mathlib
import WeaveStep.Proofs.Lists
import WeaveStep.Proofs.Weave.Placement

/-!
# What routing leaves below the root

Routing copies each excluded artifact into a slot of its own, and the slots are all there is below a
root that was missing or empty before: **`route_fills_fresh_root`**.

A copy of a directory goes by the last name of its path. Where that is two dots, it leads out of the
slot (`not_route_fills_fresh_root`).
-/

namespace WeaveStep

open FileTree

variable {t : FileTree} {a : Artifact} {written : List String} {b : Bundle}

/-! ## Artifacts of written paths -/

theorem artifact_of_mem_bundle {paths : List Path} (hb : Bundle.ofPaths t paths = .ok b)
    (ha : a ∈ b.artifacts) : ∃ p ∈ paths, Artifact.ofPath t p "" = .ok a := by
  obtain ⟨artifacts, hartifacts, hb⟩ := except_bind_eq_ok.1 hb
  cases hb
  have hmem : a ∈ artifacts := by
    rcases List.mem_append.1 ha with ha | ha <;> exact List.mem_of_mem_filter ha
  exact exists_of_mem_forall₂ (except_mapM_eq_ok hartifacts).flip hmem

theorem parts_of_absolute {p q : Path} (h : t.absolute p = .ok q) {name : String}
    (hname : name ∈ q.parts) : name ∈ p.parts ∨ name ∈ t.workingDirectory := by
  unfold absolute at h
  split at h
  · cases h
    exact .inl hname
  · unfold currentPath at h
    split at h
    · simp only [Functor.map, Except.map, Except.ok.injEq] at h
      rw [← h, Path.join] at hname
      split at hname
      · exact .inl hname
      · exact (List.mem_append.1 hname).symm
    · cases h

/-- The names of artifacts of written paths are the last of these, and have no slashes. -/
theorem name_of_ofPath {s : String} (hhere : ∀ name ∈ t.workingDirectory, '/' ∉ name.toList)
    (h : Artifact.ofPath t (.ofString s) "" = .ok a) :
    a.name = a.path.name ∧ '/' ∉ a.path.name.toList := by
  obtain ⟨path, hpath, h⟩ := except_bind_eq_ok.1 h
  obtain ⟨isDirectory, -, h⟩ := except_bind_eq_ok.1 h
  cases h
  refine ⟨rfl, ?_⟩
  cases hlast : path.parts.getLast? with
  | none => simp [Path.name, hlast]
  | some name =>
    have hname : path.name = name := by simp [Path.name, hlast]
    rw [hname]
    exact (parts_of_absolute hpath (List.mem_of_getLast? hlast)).elim not_slash_mem_parts (hhere name)

/-- Bundles of paths as they are written. -/
def AreWritten (t : FileTree) (inputs : List Bundle) : Prop :=
  ∀ b ∈ inputs, ∃ written : List String, Bundle.ofPaths t (written.map Path.ofString) = .ok b

theorem areWritten_singleton (written : List String)
    (h : Bundle.ofPaths t (written.map Path.ofString) = .ok b) : AreWritten t [b] := by
  intro b' hb'
  rw [List.mem_singleton.1 hb']
  exact ⟨written, h⟩

theorem AreWritten.not_slash_mem {inputs : List Bundle} (h : AreWritten t inputs)
    (hhere : ∀ name ∈ t.workingDirectory, '/' ∉ name.toList)
    (ha : a ∈ inputs.flatMap (·.artifacts)) : '/' ∉ a.name.toList ∧ '/' ∉ a.path.name.toList := by
  obtain ⟨b, hb, hab⟩ := List.mem_flatMap.1 ha
  obtain ⟨written, hwritten⟩ := h b hb
  obtain ⟨_, hp, hofPath⟩ := artifact_of_mem_bundle hwritten hab
  obtain ⟨s, -, rfl⟩ := List.mem_map.1 hp
  obtain ⟨hname, hslash⟩ := name_of_ofPath hhere hofPath
  exact ⟨hname ▸ hslash, hslash⟩

theorem AreWritten.isPlain {rules : List ExcludeRule} {inputs : List Bundle}
    (h : AreWritten t inputs) (hhere : ∀ name ∈ t.workingDirectory, '/' ∉ name.toList)
    (hentry : ∀ a ∈ excludedOf rules inputs, a.kind = .directory → IsEntryName a.path.name) :
    ∀ a ∈ excludedOf rules inputs, a.IsPlain := by
  intro a ha
  obtain ⟨hname, hslash⟩ := h.not_slash_mem hhere (List.mem_of_mem_filter ha)
  exact ⟨hname, fun hkind => ⟨hentry a ha hkind, hslash⟩⟩

/-! ## Two small libraries -/

/-- A directory of classes with a package and a link to it, an archive beside it, and an empty directory
for outputs. -/
def libraryFiles : FileTree where
  entries := [([], .directory), (["lib"], .directory), (["lib", "a"], .directory),
    (["lib", "a", "org"], .directory), (["lib", "a", "same"], .link "org"),
    (["lib", "a.jar"], .file [0x50, 0x4b] false), (["out"], .directory)]
  workingDirectory := []

/-- The directory of classes. -/
def classFolder : Artifact := ⟨⟨.root, ["lib", "a"]⟩, "a", .directory⟩

/-- The names of the directories that lead to its copy. -/
def classSlot : List String :=
  ["folders", "7b3bb6b022108418", "8c76cc24a0efdcc0", "a-116e2e1160ba6581"]

/-- The files with the directory of classes in its slot. -/
def libraryCopied : FileTree where
  entries := [
    (["out", "folders", "7b3bb6b022108418", "8c76cc24a0efdcc0", "a-116e2e1160ba6581", "a", "same"],
      .directory),
    (["out", "folders", "7b3bb6b022108418", "8c76cc24a0efdcc0", "a-116e2e1160ba6581", "a", "org"],
      .directory),
    (["out", "folders", "7b3bb6b022108418", "8c76cc24a0efdcc0", "a-116e2e1160ba6581", "a"],
      .directory),
    (["out", "folders", "7b3bb6b022108418", "8c76cc24a0efdcc0", "a-116e2e1160ba6581"], .directory),
    (["out", "folders", "7b3bb6b022108418", "8c76cc24a0efdcc0"], .directory),
    (["out", "folders", "7b3bb6b022108418"], .directory),
    (["out", "folders"], .directory)] ++ libraryFiles.entries
  workingDirectory := []

/-- The archive beside the directory of classes. -/
def classArchive : Artifact := ⟨⟨.root, ["lib", "a.jar"]⟩, "a.jar", .archive⟩

/-- The names of the directories that lead to its copy. -/
def archiveSlot : List String := ["jars", "7b3bb6b022108418", "8c76cc24a0efdcc0"]

/-- Where its copy lies. -/
def archivePlace : Location := "out" :: archiveSlot ++ ["a-683a16e6b0120d15.jar"]

/-- The files with the directory of classes in its slot, the directories that lead to the copy of the
archive, and these ones. -/
def libraryFilled (more : List (Location × Node)) : FileTree where
  entries := more ++ [(["out", "jars", "7b3bb6b022108418", "8c76cc24a0efdcc0"], .directory),
    (["out", "jars", "7b3bb6b022108418"], .directory), (["out", "jars"], .directory)] ++
      libraryCopied.entries
  workingDirectory := []

/-- The files with both in their slots. -/
def libraryRouted : FileTree := libraryFilled [(archivePlace, .file [0x50, 0x4b] false)]

/-- A directory in a library, and an empty directory for outputs. -/
def nestedFiles : FileTree where
  entries := [([], .directory), (["lib"], .directory), (["lib", "a"], .directory),
    (["out"], .directory)]
  workingDirectory := []

/-- The library, as seen from the directory in it. -/
def upFolder : Artifact := ⟨⟨.root, ["lib", "a", ".."]⟩, "..", .directory⟩

/-- The slot of the library. -/
def upSlot : Path :=
  ⟨.root, ["out", "folders", "7b3bb6b022108418", "8c76cc24a0efdcc0", "..-896b7f19af6e6b9c"]⟩

/-- The files once the slot is open. -/
def upOpened : FileTree where
  entries := [
    (["out", "folders", "7b3bb6b022108418", "8c76cc24a0efdcc0", "..-896b7f19af6e6b9c"], .directory),
    (["out", "folders", "7b3bb6b022108418", "8c76cc24a0efdcc0"], .directory),
    (["out", "folders", "7b3bb6b022108418"], .directory),
    (["out", "folders"], .directory)] ++ nestedFiles.entries
  workingDirectory := []

/-- The files with the directory beside the slot. -/
def upCopied : FileTree :=
  { upOpened with entries := (["out", "folders", "7b3bb6b022108418", "8c76cc24a0efdcc0", "a"],
      .directory) :: upOpened.entries }

/-! ## Copies of a small library -/

/-- What leads aside is apart if all entries in it are. -/
theorem Apart.of_entries {t : FileTree} {source : Path} {place q : Location}
    (hlocate : t.locate .followed source = .ok q) (haside : isWithin place q = false)
    (hheld : t.held = none)
    (hrest : ∀ name, t.get? (q ++ [name]) ≠ none → Apart t place (source.entry name)) :
    Apart t place source := by
  intro p hp found hfound
  cases hp with
  | self =>
    obtain rfl := Except.ok.inj (hlocate.symm.trans hfound)
    exact ⟨haside, by simp [hheld]⟩
  | inside hlist hname hlists =>
    obtain ⟨within, hlook, rfl⟩ := list_eq_ok hlist
    obtain rfl := Except.ok.inj (hlocate.symm.trans (look_eq_ok_iff.1 hlook).1)
    exact hrest _ (mem_names.1 hname) p hlists found hfound

/-- An empty directory is copied where there is nothing. -/
theorem copyInto_of_empty {t : FileTree} {depth : Nat} {source target : Path} {place : Location}
    (hsource : t.leadsTo Node.isDirectory source = true) (hlist : t.list source = .ok [])
    (hlocate : t.locate .own target = .ok place) (hfree : t.get? place = none) :
    copyInto (depth + 1) source target t =
      .ok () { t with entries := (place, .directory) :: t.entries } := by
  have hmade : openTarget target t =
      .ok () { t with entries := (place, .directory) :: t.entries } := by
    rw [openTarget, makeDirectory_of_free hlocate hfree, set_of_free hfree]
  have hget : (get : Action FileTree) t = .ok t t := rfl
  rw [copyInto, bind_ok hget, if_pos hsource]
  exact copyTreeWithin_of_forM hlist hmade rfl

/-- The bytes of a file are copied to where there is nothing. -/
theorem copyFile_of_free {t : FileTree} {shown : String × String} {source target : Path}
    {content : List UInt8} {place : Location} {e : FileFailure}
    (hmissing : t.look .followed target = .error e) (hread : t.read source = .ok content)
    (hlocate : t.locate .made target = .ok place) (hfree : t.get? place = none)
    (hagain : { t with entries := (place, .file [] false) :: t.entries : FileTree }.locate .made target =
      .ok place) :
    copyFile shown source target t =
      .ok () { t with entries := (place, .file content false) :: t.entries } := by
  have hget : (get : Action FileTree) t = .ok t t := rfl
  have hnothing : ¬t.sameEntry source target = true := by
    rw [sameEntry, hmissing]
    split <;> simp_all
  have hopen : openCopy target t = .ok () (t.set place (.file [] false)) := by
    rw [openCopy, write_of_free hlocate hfree, set_of_free hfree]
  have hthere : (t.set place (.file [] false)).get? place = some (.file [] false) := by
    rw [get?_set, if_pos rfl]
  rw [← set_of_free hfree] at hagain ⊢
  rw [copyFile, bind_ok hget, if_neg hnothing]
  refine (bind_ok (query_ok hread)).trans ((bind_ok hopen).trans ?_)
  rw [change, write_of_file hagain hthere, set_set]

theorem classFolder_isPlain : classFolder.IsPlain :=
  ⟨by decide, fun _ => ⟨⟨by decide, by decide, by decide⟩, by decide⟩⟩

/-- The directory of classes is copied once its slot is open. -/
theorem copy_classFolder :
    (do ensureDirectory ⟨.root, "out" :: classSlot⟩
        classFolder.copyTo (Path.entry ⟨.root, "out" :: classSlot⟩ "a") : Action Unit) libraryFiles =
      .ok () libraryCopied := by
  cbv

theorem locate_archivePlace (last : LastName) {more : List (Location × Node)}
    (hmore : more = [] ∨ more = [(archivePlace, .file [] false)]) :
    (libraryFilled more).locate last ⟨.root, archivePlace⟩ = .ok archivePlace := by
  refine locate_straight (isSayable_root (by decide) (by decide)) (by decide) ?_ ?_
  · rcases hmore with rfl | rfl <;> decide
  · rintro text hlink
    rcases hmore with rfl | rfl <;> cases hlink

/-- The archive is copied once the directories are there that lead to its copy. -/
theorem copy_classArchive :
    ensureDirectory ⟨.root, "out" :: archiveSlot⟩ libraryCopied = .ok () (libraryFilled []) ∧
    classArchive.copyTo ⟨.root, archivePlace⟩ (libraryFilled []) = .ok () libraryRouted := by
  have hfree : (libraryFilled []).get? archivePlace = none := rfl
  have hmissing : (libraryFilled []).look .followed ⟨.root, archivePlace⟩ =
      .error (.refusal .noEntry (Path.text ⟨.root, archivePlace⟩)) :=
    look_of_none (locate_archivePlace _ (.inl rfl)) hfree
  have hread : (libraryFilled []).read classArchive.path = .ok [0x50, 0x4b] := by cbv
  exact ⟨by cbv, copyFile_of_free hmissing hread (locate_archivePlace _ (.inl rfl)) hfree
    (locate_archivePlace _ (.inr rfl))⟩

/-- Nothing of the two lies where the outputs go. -/
theorem apart_library : libraryRouted.locate .followed ⟨.root, ["out"]⟩ = .ok ["out"] ∧
    ∀ a ∈ [classFolder, classArchive], Apart libraryRouted ["out"] a.path := by
  have hlocate : ∀ names ∈ [["out"], ["lib", "a"], ["lib", "a", "org"], ["lib", "a.jar"]],
      libraryRouted.locate .followed ⟨.root, names⟩ = .ok names := by
    intro names hnames
    simp only [List.mem_cons, List.not_mem_nil, or_false] at hnames
    rcases hnames with rfl | rfl | rfl | rfl <;>
      exact locate_straight (isSayable_root (by decide) (by decide)) (by decide) (by decide)
        (by rintro text ⟨⟩)
  have hstep : ∀ {name names}, name ∈ ["lib", "a", "org", "same"] → IsStep .followed name names := by
    intro name names hname
    have hentry : ∀ name ∈ ["lib", "a", "org", "same"],
        IsEntryName name ∧ name.utf8ByteSize ≤ maxNameBytes := by decide
    exact isStep_followed (hentry name hname).1 (hentry name hname).2
  have hsame : libraryRouted.locate .followed ⟨.root, ["lib", "a", "same"]⟩ = .ok ["lib", "a", "org"] :=
    locate_eq_ok_iff.2 ⟨isSayable_root (by decide) (by decide),
      .down rfl (hstep (by decide)) (by rintro text ⟨⟩)
        (.down rfl (hstep (by decide)) (by rintro text ⟨⟩)
        (.follow rfl (hstep (by decide)) rfl (by simp)
          ((way_of_link_beside (by decide)).2
            (.down rfl (hstep (by decide)) (by rintro text ⟨⟩) .done))))⟩
  have hempty : ∀ name, libraryRouted.get? (["lib", "a", "org"] ++ [name]) = none ∧
      libraryRouted.get? (["lib", "a.jar"] ++ [name]) = none := by
    intro name
    simp [libraryRouted, libraryFilled, libraryCopied, libraryFiles, archivePlace, get?, List.lookup]
  refine ⟨hlocate _ (by simp), fun a ha => ?_⟩
  rcases List.mem_pair.1 ha with rfl | rfl
  · refine Apart.of_entries (hlocate _ (by simp)) rfl rfl fun name hname => ?_
    have hnames : "org" = name ∨ "same" = name := by
      simpa [get?_ne_none_iff, libraryRouted, libraryFilled, libraryCopied, libraryFiles, archivePlace]
        using hname
    rcases hnames with rfl | rfl
    · exact Apart.of_entries (hlocate ["lib", "a", "org"] (by simp)) rfl rfl fun more hmore =>
        absurd (hempty more).1 hmore
    · exact Apart.of_entries hsame rfl rfl fun more hmore => absurd (hempty more).1 hmore
  · exact Apart.of_entries (hlocate _ (by simp)) rfl rfl fun more hmore => absurd (hempty more).2 hmore

theorem copy_upFolder : ensureDirectory upSlot nestedFiles = .ok () upOpened ∧
    copyTree ⟨.root, ["lib", "a", ".."]⟩ (upSlot.entry "..") upOpened = .ok () upCopied := by
  have hlist : upOpened.list ⟨.root, ["lib", "a", ".."]⟩ = .ok ["a"] := by cbv
  have hopen : openTarget (upSlot.entry "..") upOpened = .ok () upOpened := by cbv
  have hentry : copyInto 4095 ⟨.root, ["lib", "a", "..", "a"]⟩ ((upSlot.entry "..").entry "a")
      upOpened = .ok () upCopied := copyInto_of_empty (by cbv) (by cbv) (by cbv) rfl
  exact ⟨by cbv, copyTreeWithin_of_forM hlist hopen (by rw [List.forM_cons]; exact bind_ok hentry)⟩

/-- All of them are written as they are. -/
theorem areWritten_libraries : AreWritten libraryFiles [⟨[classFolder], []⟩] ∧
    AreWritten libraryFiles [⟨[classFolder], [classArchive]⟩] ∧
    AreWritten nestedFiles [⟨[upFolder], []⟩] := by
  have hclasses : Bundle.ofPaths libraryFiles [.ofString "lib/a"] = .ok ⟨[classFolder], []⟩ := by cbv
  have hboth : Bundle.ofPaths libraryFiles [.ofString "lib/a.jar", .ofString "lib/a"] =
      .ok ⟨[classFolder], [classArchive]⟩ := by cbv
  have hup : Bundle.ofPaths nestedFiles [.ofString "lib/a/.."] = .ok ⟨[upFolder], []⟩ := by cbv
  exact ⟨areWritten_singleton ["lib/a"] hclasses, areWritten_singleton ["lib/a.jar", "lib/a"] hboth,
    areWritten_singleton ["lib/a/.."] hup⟩

theorem apart_upFolder : upCopied.locate .followed ⟨.root, ["out"]⟩ = .ok ["out"] ∧
    Apart upCopied ["out"] upFolder.path := by
  have hout : upCopied.locate .followed ⟨.root, ["out"]⟩ = .ok ["out"] :=
    locate_straight (isSayable_root (by decide) (by decide)) (by decide) (by decide) (by rintro text ⟨⟩)
  have hstep : ∀ {name names}, name ∈ ["lib", "a"] → IsStep .followed name names := by
    intro name names hname
    have hentry : ∀ name ∈ ["lib", "a"], IsEntryName name ∧ name.utf8ByteSize ≤ maxNameBytes := by decide
    exact isStep_followed (hentry name hname).1 (hentry name hname).2
  have hup : ∀ {names place}, Way upCopied .followed maxLinks ["lib"] names place →
      Way upCopied .followed maxLinks [] ("lib" :: "a" :: ".." :: names) place := fun hway =>
    .down rfl (hstep (by simp)) (by rintro text ⟨⟩)
      (.down rfl (hstep (by simp)) (by rintro text ⟨⟩) (.up rfl hway))
  have hlibrary : upCopied.locate .followed ⟨.root, ["lib", "a", ".."]⟩ = .ok ["lib"] :=
    locate_eq_ok_iff.2 ⟨isSayable_root (by decide) (by decide), hup .done⟩
  have hinside : upCopied.locate .followed ⟨.root, ["lib", "a", "..", "a"]⟩ = .ok ["lib", "a"] :=
    locate_eq_ok_iff.2 ⟨isSayable_root (by decide) (by decide),
      hup (.down rfl (hstep (by simp)) (by rintro text ⟨⟩) .done)⟩
  refine ⟨hout, Apart.of_entries hlibrary rfl rfl fun name hname => ?_⟩
  obtain rfl : "a" = name := by
    simpa [get?_ne_none_iff, upCopied, upOpened, nestedFiles] using hname
  refine Apart.of_entries hinside rfl rfl fun more hmore => absurd ?_ hmore
  simp [upCopied, upOpened, nestedFiles, get?, List.lookup]

/-- The directory for outputs is there, and it is empty. -/
theorem outRoot_ready {t : FileTree} (ht : t = libraryFiles ∨ t = nestedFiles) :
    IsSteady t ⟨.root, ["out"]⟩ ∧ IsFresh ⟨.root, ["out"]⟩ t := by
  rcases ht with rfl | rfl
  · exact ⟨⟨[], ["out"], [], rfl, look_start rfl rfl, by decide⟩, .inr (by cbv)⟩
  · exact ⟨⟨[], ["out"], [], rfl, look_start rfl rfl, by decide⟩, .inr (by cbv)⟩

/-! ## Their slots -/

theorem slot_hashes : nameKey ["classes"] = "7b3bb6b022108418" ∧
    nameKey (fullProject.map (·.name)) = "8c76cc24a0efdcc0" ∧
    classFolder.slotTitle = "a-116e2e1160ba6581" ∧ upFolder.slotTitle = "..-896b7f19af6e6b9c" ∧
    classArchive.slotTitle = "a-683a16e6b0120d15" := by
  refine ⟨?_, ?_, ?_, ?_, ?_⟩
  · rw [nameKey, mergeSort_eq (.refl _) (by simp)]
    decide +kernel
  · have hperm : (fullProject.map (·.name)).Perm ["external_libraries", "project",
        "project_local_deps", "sub_projects", "sub_projects_local_deps"] := by decide
    rw [nameKey, mergeSort_eq hperm (by decide)]
    decide +kernel
  · decide +kernel
  · decide +kernel
  · decide +kernel

/-- The slots of one format lie in the same directory. -/
theorem above_slotKey (a : Artifact) : a.slotKey.above =
    [a.slotKey.format.folderName, "7b3bb6b022108418", "8c76cc24a0efdcc0"] := by
  obtain ⟨hclasses, hproject, -⟩ := slot_hashes
  rw [SlotKey.above, ← hclasses, ← hproject]
  rfl

theorem above_of_folder {a : Artifact} (h : a.kind = .directory) :
    a.slotKey.above = ["folders", "7b3bb6b022108418", "8c76cc24a0efdcc0"] := by
  rw [above_slotKey, Artifact.slotKey, h]
  rfl

theorem slotPath_upFolder : slotPath ⟨.root, ["out"]⟩ upFolder.slotKey = upSlot := by
  have htitle : IsPlainName "..-896b7f19af6e6b9c" := ⟨by decide, by decide⟩
  have hslot : slotPath ⟨.root, ["out"]⟩ upFolder.slotKey =
      (slotBase ⟨.root, ["out"]⟩ upFolder.slotKey).child upFolder.slotTitle := rfl
  obtain ⟨-, -, -, hup, -⟩ := slot_hashes
  rw [hslot, slotBase_eq, above_of_folder rfl, hup, htitle.child]
  rfl

theorem classFolder_opened : classFolder.opened = classSlot := by
  obtain ⟨-, -, hclass, -⟩ := slot_hashes
  rw [Artifact.opened, above_of_folder rfl]
  exact congrArg (_ ++ [·]) hclass

theorem copyIntoSlot_classFolder : ∃ slot,
    copyIntoSlot ⟨.root, ["out"]⟩ classFolder libraryFiles = .ok slot libraryCopied := by
  refine ⟨slotPath ⟨.root, ["out"]⟩ classFolder.slotKey, ?_⟩
  rw [Artifact.copyIntoSlot_eq classFolder_isPlain, classFolder_opened, ← bind_assoc]
  exact bind_ok copy_classFolder

theorem copyIntoSlot_classArchive : ∃ slot,
    copyIntoSlot ⟨.root, ["out"]⟩ classArchive libraryCopied = .ok slot libraryRouted := by
  have hplain : classArchive.IsPlain := ⟨by decide, fun h => by cases h⟩
  have hopened : classArchive.opened = archiveSlot := above_slotKey classArchive
  obtain ⟨-, -, -, -, harchive⟩ := slot_hashes
  have hname : classArchive.copyName = "a-683a16e6b0120d15.jar" := by
    rw [← show "a-683a16e6b0120d15" ++ ".jar" = "a-683a16e6b0120d15.jar" by decide, ← harchive]
    rfl
  refine ⟨slotPath ⟨.root, ["out"]⟩ classArchive.slotKey, ?_⟩
  rw [Artifact.copyIntoSlot_eq hplain, hopened, hname]
  exact (bind_ok copy_classArchive.1).trans (bind_ok copy_classArchive.2)

theorem copyIntoSlot_upFolder :
    copyIntoSlot ⟨.root, ["out"]⟩ upFolder nestedFiles = .ok upSlot upCopied := by
  have hopen : openSlot ⟨.root, ["out"]⟩ upFolder.slotKey nestedFiles = .ok upSlot upOpened := by
    have hformat : upFolder.slotKey.format = .folder := rfl
    rw [openSlot, slotPath_upFolder, hformat]
    exact bind_ok copy_upFolder.1
  rw [copyIntoSlot, bind_ok hopen]
  exact bind_ok copy_upFolder.2

/-! ## The contents of a fresh root -/

/-- **What routing leaves below a root that was fresh** are the slots of the excluded artifacts: the
directories that lead to their copies, and the copies, and nothing else. Besides these it makes only
the directories that lead to the root, and adds to the file held open; without excluded artifacts it
does no more than the latter. The excluded directories have to end in a name, the root may lead up
only from what is there, and nothing of the excluded artifacts may lie below the root. -/
theorem route_fills_fresh_root {root : Path} {rules : List ExcludeRule} {logger : String}
    {inputs referenced : List Bundle} {routing : Routing} {w w' : World} (htree : IsTree w.files)
    (hheld : ∀ q, w.files.held = some q → w.files.get? q ≠ none)
    (hhere : ∀ name ∈ w.files.workingDirectory, '/' ∉ name.toList)
    (hwritten : AreWritten w.files inputs) (hparts : ∀ name ∈ root.parts, Path.isName name = true)
    (hsteady : IsSteady w.files root)
    (hfresh : IsFresh root w.files) (hsame : ToldApart (excludedOf rules inputs))
    (hentry : ∀ a ∈ excludedOf rules inputs, a.kind = .directory → IsEntryName a.path.name)
    (hapart : ∀ place, w'.files.locate .followed root = .ok place →
      ∀ a ∈ excludedOf rules inputs, Apart w'.files place a.path)
    (h : route root rules logger inputs referenced w = .ok routing w') :
    (excludedOf rules inputs = [] → FileTree.Told w.files w'.files) ∧
      (excludedOf rules inputs ≠ [] → ∃ place,
        w'.files.look .followed root = .ok (place, .directory) ∧
        FilledBy w'.files place (excludedOf rules inputs) w'.files ∧
        ∀ q, isWithin place q = false → Kept w.files w'.files q ∨
          w.files.get? q = none ∧ w'.files.get? q = some .directory ∧ isWithin q place = true) := by
  have hcopied := copiedTelling_of_route h
  refine ⟨fun hnone => ?_, fun hsome => ?_⟩
  · rw [hnone] at hcopied
    cases hcopied with
    | nil htold => exact htold
  · obtain ⟨place, hfound, hfilled, houtside⟩ := hcopied.filledBy_of_fresh htree hheld hfresh hparts
      hsteady hsome (hwritten.isPlain hhere hentry) hsame
    exact ⟨place, hfound, hfilled (hapart place (look_eq_ok_iff.1 hfound).1), houtside⟩

/-- Routing the directory of classes and the archive leaves their slots below the root, and nothing else. -/
theorem route_fills_root_of_library : ∃ (routing : Routing) (w' : World),
    route ⟨.root, ["out"]⟩ [⟨"lib", "a"⟩] "" [⟨[classFolder], [classArchive]⟩] [] { files := libraryFiles } =
      .ok routing w' ∧
    ∃ place, w'.files.look .followed ⟨.root, ["out"]⟩ = .ok (place, .directory) ∧
      FilledBy w'.files place [classFolder, classArchive] w'.files := by
  have hexcluded : excludedOf [⟨"lib", "a"⟩] [⟨[classFolder], [classArchive]⟩] =
      [classFolder, classArchive] := by decide
  obtain ⟨slot, hcopy⟩ := copyIntoSlot_classFolder
  obtain ⟨slot', hcopy'⟩ := copyIntoSlot_classArchive
  have hcopies : (excludedOf [⟨"lib", "a"⟩] [⟨[classFolder], [classArchive]⟩]).mapM
      (copyIntoSlot ⟨.root, ["out"]⟩) libraryFiles = .ok [slot, slot'] libraryRouted := by
    rw [hexcluded, List.mapM_cons, bind_ok hcopy, List.mapM_cons, bind_assoc, bind_ok hcopy']
    rfl
  let w : World := { files := libraryFiles }
  obtain ⟨routing, w', hroute, hfiles⟩ := exists_route_of_copies "" [] (w := w) rfl hcopies
  obtain ⟨hsteady, hfresh⟩ := outRoot_ready (.inl rfl)
  have hentry : ∀ a ∈ excludedOf [⟨"lib", "a"⟩] [⟨[classFolder], [classArchive]⟩], a.kind = .directory →
      IsEntryName a.path.name := by
    rw [hexcluded]
    decide
  have hsame : ToldApart (excludedOf [⟨"lib", "a"⟩] [⟨[classFolder], [classArchive]⟩]) := by
    rw [hexcluded]
    intro a ha b hb hkey
    rcases List.mem_pair.1 ha with rfl | rfl <;> rcases List.mem_pair.1 hb with rfl | rfl
    · rfl
    · cases congrArg SlotKey.format hkey
    · cases congrArg SlotKey.format hkey
    · rfl
  have hapart : ∀ place, w'.files.locate .followed ⟨.root, ["out"]⟩ = .ok place →
      ∀ a ∈ excludedOf [⟨"lib", "a"⟩] [⟨[classFolder], [classArchive]⟩], Apart w'.files place a.path := by
    obtain ⟨hlocate, hapart⟩ := apart_library
    intro place hplace
    rw [hfiles, hlocate] at hplace
    cases hplace
    rw [hexcluded, hfiles]
    exact hapart
  have hfills := (route_fills_fresh_root (isTree_of_entries rfl (by decide))
    (by simp [w, libraryFiles]) (by simp [w, libraryFiles]) areWritten_libraries.2.1 (by decide) hsteady
    hfresh hsame hentry hapart hroute).2
  rw [hexcluded] at hfills
  obtain ⟨place, hfound, hfilled, -⟩ := hfills (by simp)
  exact ⟨routing, w', hroute, place, hfound, hfilled⟩

/-- The copy of a directory whose path ends in two dots lies beside its slot. -/
theorem not_route_fills_fresh_root :
    ¬ ∀ (root : Path) (rules : List ExcludeRule) (logger : String) (inputs referenced : List Bundle)
      (routing : Routing) (w w' : World), IsTree w.files →
      (∀ q, w.files.held = some q → w.files.get? q ≠ none) →
      (∀ name ∈ w.files.workingDirectory, '/' ∉ name.toList) → AreWritten w.files inputs →
      (∀ name ∈ root.parts, Path.isName name = true) → IsSteady w.files root →
      IsFresh root w.files → ToldApart (excludedOf rules inputs) →
      (∀ place, w'.files.locate .followed root = .ok place →
        ∀ a ∈ excludedOf rules inputs, Apart w'.files place a.path) →
      route root rules logger inputs referenced w = .ok routing w' →
      excludedOf rules inputs ≠ [] → ∃ place,
        w'.files.look .followed root = .ok (place, .directory) ∧
        FilledBy w'.files place (excludedOf rules inputs) w'.files := by
  intro h
  have hexcluded : excludedOf [⟨"lib", "a"⟩] [⟨[upFolder], []⟩] = [upFolder] := by decide
  have hcopies : (excludedOf [⟨"lib", "a"⟩] [⟨[upFolder], []⟩]).mapM
      (copyIntoSlot ⟨.root, ["out"]⟩) nestedFiles = .ok [upSlot] upCopied := by
    rw [hexcluded, List.mapM_cons, bind_ok copyIntoSlot_upFolder]
    rfl
  let w : World := { files := nestedFiles }
  obtain ⟨routing, w', hroute, hfiles⟩ := exists_route_of_copies "" [] (w := w) rfl hcopies
  obtain ⟨hsteady, hfresh⟩ := outRoot_ready (.inr rfl)
  obtain ⟨hlocate, hapart⟩ := apart_upFolder
  have hsame : ToldApart (excludedOf [⟨"lib", "a"⟩] [⟨[upFolder], []⟩]) := by
    rw [hexcluded]
    simp [ToldApart]
  have hapart : ∀ place, w'.files.locate .followed ⟨.root, ["out"]⟩ = .ok place →
      ∀ a ∈ excludedOf [⟨"lib", "a"⟩] [⟨[upFolder], []⟩], Apart w'.files place a.path := by
    intro place hplace a ha
    rw [hfiles, hlocate] at hplace
    cases hplace
    rw [hexcluded, List.mem_singleton] at ha
    rw [hfiles, ha]
    exact hapart
  obtain ⟨place, hfound, hfilled⟩ := h _ _ _ _ _ _ w w' (isTree_of_entries rfl (by decide))
    (by simp [w, nestedFiles]) (by simp [w, nestedFiles]) areWritten_libraries.2.2 (by decide) hsteady
    hfresh hsame hapart hroute (by simp [hexcluded])
  rw [hfiles] at hfound hfilled
  have hplace := (look_eq_ok_iff.1 hfound).1
  rw [hlocate] at hplace
  cases hplace
  -- what lies beside the slot is placed for nothing
  obtain ⟨a, ha, hplaced⟩ := (hfilled
    ["folders", "7b3bb6b022108418", "8c76cc24a0efdcc0", "a"] .directory).1 rfl
  rw [hexcluded, List.mem_singleton] at ha
  subst ha
  obtain ⟨-, -, -, hup, -⟩ := slot_hashes
  have hopened : upFolder.opened =
      ["folders", "7b3bb6b022108418", "8c76cc24a0efdcc0", "..-896b7f19af6e6b9c"] := by
    rw [Artifact.opened, above_of_folder rfl]
    exact congrArg (_ ++ [·]) hup
  rw [Artifact.Placed, hopened] at hplaced
  rcases hplaced with ⟨hbegin, -⟩ | ⟨rest, hnames, -⟩
  · revert hbegin
    decide
  · simp at hnames

end WeaveStep
