import WeaveStep.Proofs.CommandLine.Inputs
import WeaveStep.Proofs.CommandLine.Launching
import WeaveStep.Proofs.Fetch.Checksums

/-!
# The archive of the weaver that is launched

The archive is found, or downloaded, before the outputs of earlier weaves are cleared. The check in front
of a weave knows its inputs, the project and the working directory, but not the archive.

* `Launching.IsOf.changesAmong`: between the archive and the launch, a weave changes its outputs only.
* **`execute_keeps_archive`**: so the archive that is named in the command is there at the launch, as it was
  found, if it lies beside the outputs. Where it lies among them, as in a cache below the root, it is
  gone (`not_execute_keeps_archive`).
-/

namespace WeaveStep

open FileTree CommandLine World

/-! ## Up to the archive -/

theorem keeps_standing_ensureDirectory (p : Path) : Always (Keeps Standing) (ensureDirectory p) :=
  .ensureDirectory (R := Keeps Standing) (fun _ _ _ hmade h => h.makeDirectory hmade) p

theorem keeps_standing_write (p : Path) (content : List UInt8) :
    Always (Keeps Standing) (change (·.write p content)) :=
  .change fun _ _ hwritten h => h.write hwritten

theorem keeps_standing_hold (p : Path) : Always (Keeps Standing) (hold p) := by
  refine (Always.query _).bind fun place => Always.get.bind fun t => ?_
  have hheld : Always (Keeps Standing)
      (modify fun t => { t with held := some place } : Action Unit) := .modify fun _ h => h.holding place
  split
  · exact (keeps_standing_write p []).bind fun _ => hheld
  · exact hheld

theorem keeps_standing_setUp (o : LogOptions) :
    Always (Keeps fun w : World => Standing w.files) o.setUp := by
  refine always_setUp (R := Keeps fun w : World => Standing w.files) (fun _ _ h => h) fun p _ => ?_
  exact always_keeps_onFiles _ ((keeps_standing_ensureDirectory _).bind fun _ =>
    (Always.query _).bind fun _ => keeps_standing_hold _)

theorem keeps_standing_ensureWeaver (c : Toolchain) :
    Always (Keeps fun w : World => Standing w.files) c.ensureWeaver := by
  refine Toolchain.always_ensureWeaver (R := Keeps fun w : World => Standing w.files)
    (fun _ _ => always_keeps_log (fun _ bytes h => h.extendHeld bytes) _ _ _) fun _ => ?_
  exact Download.always_download (fun _ _ _ _ h => h)
    (always_keeps_onFiles _ (keeps_standing_ensureDirectory _))
    (fun _ _ _ => always_keeps_onFiles _ (keeps_standing_write _ _))
    (fun _ _ => always_keeps_onFiles _ (Download.always_discard fun _ _ hremoved h => h.unlink hremoved))
    fun _ _ => always_keeps_onFiles _ (.change fun _ _ hmoved h => h.move hmoved)

/-- A file that is there is read, also when something was told. -/
theorem exists_read_of_told {t t' : FileTree} {p : Path} (hfile : t.isFile? p = .ok true)
    (htold : FileTree.Told t t') : ∃ content, t'.read p = .ok content := by
  obtain ⟨q, node, hlook, hsort⟩ := ask_eq_true.1 hfile
  obtain ⟨hlocate, hnode⟩ := look_eq_ok_iff.1 hlook
  obtain ⟨content, executable, hnode'⟩ : ∃ content executable,
      t'.get? q = some (.file content executable) := by
    rcases htold.kept q with hsame | ⟨-, old, new, executable, -, hnew⟩
    · cases node with
      | file content executable => exact ⟨content, executable, hsame.trans hnode⟩
      | _ => cases hsort
    · exact ⟨new, executable, hnew⟩
  have hlook' := look_eq_ok_iff.2 ⟨(htold.locate_iff (by simp [hnode])).2 hlocate, hnode'⟩
  refine ⟨content, ?_⟩
  rw [FileTree.read, stat, hlook']
  rfl

section

variable {o : WeaveOptions} {paths : WeavePaths} {w : World} {l : Launching} {q : Location}

/-- The archive can be read where it was found, and where it was downloaded to a place for it. -/
theorem Launching.IsOf.exists_read (h : l.IsOf o paths w)
    (hplace : l.toolchain.archive = none → l.toolchain.isInstalled w.files = .ok false →
      l.toolchain.asDownload.HasPlace w.files) :
    ∃ content, l.found.files.read l.archive = .ok content := by
  by_cases hfound : l.toolchain.isInstalled w.files = .ok true
  · obtain ⟨harchive, htold⟩ := (Toolchain.yields_ensureWeaver_found hfound).of_ok h.archive
    rw [Except.ok.inj harchive]
    exact exists_read_of_told hfound htold.files
  · obtain ⟨hp, response, hdelivers⟩ := (Toolchain.yields_ensureWeaver_fetched hfound
      fun hnone hmissing _ hmade => (hplace hnone hmissing).hasFreeWay hmade).of_ok h.archive _ rfl
    exact ⟨response.body, hp ▸ hdelivers.content⟩

/-! ## From the archive to the launch -/

/-- **Between the archive and the launch** a weave changes its outputs only. -/
theorem Launching.IsOf.changesAmong (h : l.IsOf o paths w) (hstanding : Standing l.found.files)
    (hslash : ∀ name ∈ l.found.files.workingDirectory, '/' ∉ name.toList)
    (houtput : ∃ text, paths.output = .ofString text)
    (hwritten : ∃ texts : List String, paths.inputs = texts.map .ofString)
    (hsteady : IsSteady l.found.files l.root) :
    ChangesAmong (IsOutput l.found.files l.root) l.found.files l.world.files := by
  obtain ⟨opened, hprepares, htold⟩ := h.told_world
  obtain ⟨text, htext⟩ := houtput
  obtain ⟨texts, htexts⟩ := hwritten
  have hparts : ∀ name ∈ l.root.parts, Path.isName name = true :=
    isName_of_absolute hstanding.isTree hstanding.start (htext ▸ h.root)
  have hbundle : AreWritten l.found.files [l.inputs] := areWritten_singleton texts (htexts ▸ h.inputs)
  exact trans_of (ChangesAmong _) (hprepares.changesAmong (isAbsolute_of_absolute h.root) hparts
    hstanding.isTree hslash hbundle hsteady) htold.changesAmong

end

/-! ## The program -/

/-- The outputs lie beside the archive that was found at `q`: the way to it passes nothing where the root
lies or may come to lie, the root leads up only from what is there, and the log is not written to it. -/
structure Launching.SparesArchive (l : Launching) (q : Location) (node : Node) : Prop where
  steady : IsSteady l.found.files l.root
  unheld : l.found.files.held ≠ some q
  beside : ∀ place, MayLieAt l.found.files l.root place →
    (l.found.files.without place).look .followed l.archive = .ok (q, node)

/-- **The archive at the launch**. A program launches nothing, or what it comes to. The archive that is named
in the command was found, and could be read then, or it was downloaded, and can be read if there was a place
for it. At the launch it is there as it was found, if the outputs lie beside it. If they lie where it does, or
above, it is not there any more, unless an excluded artifact was copied in its place. -/
theorem execute_keeps_archive (arguments : List String) {w : World} (htree : IsTree w.files)
    (hslash : ∀ name ∈ w.files.workingDirectory, '/' ∉ name.toList) :
    Yields (execute arguments) w fun _ w' => w'.launches = w.launches ∨
      ∃ o paths begun l, w.ComesTo arguments o paths begun l ∧ w.LaunchesIn l.world l.command w' ∧
        ((l.toolchain.archive = none → l.toolchain.isInstalled begun.files = .ok false →
            l.toolchain.asDownload.HasPlace begun.files) →
          ∃ content, l.found.files.read l.archive = .ok content) ∧
        ∀ q node, l.found.files.look .followed l.archive = .ok (q, node) →
          (l.SparesArchive q node → l.world.files.look .followed l.archive = .ok (q, node)) ∧
          ∀ place, l.found.files.look .own l.root = .ok (place, .directory) → isWithin place q = true →
            (∀ a ∈ l.inputs.artifacts, isExcluded a.path l.settings.excludeRules = false) →
            ∀ node', l.world.files.look .followed l.archive = .ok (q, node') → node' = .directory := by
  by_cases hcomes : ∃ o paths begun l, w.ComesTo arguments o paths begun l
  · obtain ⟨o, paths, begun, l, h⟩ := hcomes
    refine (launchesIn_execute h).imp fun _ w' hlaunches => .inr ⟨o, paths, begun, l, h, hlaunches,
      h.launching.exists_read, fun q node hlook => ⟨fun hspares => ?_, fun place hroot hin hnone node' hnode => ?_⟩⟩
    · have hbegun : Standing begun.files :=
        (keeps_standing_setUp _).of_ok h.begins ⟨htree, directory_of_currentPath h.here⟩
      have hstanding : Standing l.found.files :=
        (keeps_standing_ensureWeaver _).of_ok h.launching.archive hbegun
      have hsame : w.SameLaunches l.found := ((sameLaunches_setUp _).of_ok h.begins).trans
        ((sameLaunches_ensureWeaver _).of_ok h.launching.archive)
      obtain ⟨⟨values, hvalues⟩, -, value, hvalue⟩ := Call.read_written h.call
      have hwritten := eq_map_ofString (h.passes.inputs.symm.trans hvalues)
      obtain ⟨text, -, htext⟩ := Option.map_eq_some_iff.1 (hvalue.symm.trans h.passes.output)
      have hchanged := h.launching.changesAmong hstanding (hsame.workingDirectory ▸ hslash)
        ⟨text, htext.symm⟩ hwritten hspares.steady
      exact look_of_changesAmong (refl_of SameLinks _) (look_eq_ok_iff.1 hlook).2 hchanged hspares.unheld
        hlook hspares.beside
    · exact h.launching.directory_of_cleared hroot hin hnone (look_eq_ok_iff.1 hnode).2
  · simp only [not_exists] at hcomes
    exact (sameLaunches_execute hcomes).imp fun _ _ hsame => .inl hsame.launches

/-! ## An archive in a cache -/

/-- The archive is there at the launch of a weave beside the cache. -/
theorem execute_keeps_cached_archive :
    Yields (execute ["weave", "-i", "/in", "-o", "/out"]) worldEquipped fun _ w' =>
      ∃ l : Launching, worldEquipped.LaunchesIn l.world l.command w' ∧
        l.archive = ⟨.root, archiveEquipped⟩ ∧
        l.world.files.look .followed l.archive = .ok (archiveEquipped, .file Download.archiveMark false) := by
  obtain ⟨paths, begun, l, hcomes, hfound, harchive, hroot, -⟩ := comesTo_equipped_beside ⟨0, []⟩
  have hlocate : worldEquipped.files.locate .followed ⟨.root, ["out"]⟩ = .ok ["out"] := by cbv
  have hbeside : (worldEquipped.files.without ["out"]).look .followed ⟨.root, archiveEquipped⟩ =
      .ok (archiveEquipped, .file Download.archiveMark false) := by cbv
  have hspares : l.SparesArchive archiveEquipped (.file Download.archiveMark false) := by
    refine ⟨?_, ?_, fun place hmay => ?_⟩
    · rw [hfound, hroot]
      exact ⟨[], ["out"], [], rfl, look_start rfl rfl, by decide⟩
    · rw [hfound]
      exact fun hheld => by cases hheld
    · rw [hfound, hroot] at hmay
      rw [hfound, harchive, hmay.eq_of_liesAt isTree_equipped (.found hlocate)]
      exact hbeside
  have hkept := execute_keeps_archive ["weave", "-i", "/in", "-o", "/out"] isTree_equipped
    (by simp [worldEquipped, filesEquipped])
  refine (hkept.and (launchesIn_execute hcomes)).imp fun _ w' hboth => ?_
  obtain ⟨h, hlaunches⟩ := hboth
  refine ⟨l, hlaunches, harchive, ?_⟩
  rcases h with hsame | ⟨o, paths', begun', l', hcomes', -, -, hlook⟩
  · obtain ⟨launch, after, -, hnew⟩ := hlaunches
    simp [hsame] at hnew
  · obtain rfl := hcomes.unique hcomes'
    refine (hlook _ _ ?_).1 hspares
    rw [hfound, harchive]
    exact look_archiveEquipped

/-- **An archive among the outputs is removed**: a weave into the directory of the cache launches the weaver
without it. -/
theorem not_execute_keeps_archive :
    ¬ ∀ (arguments : List String) {w : World}, IsTree w.files →
      (∀ name ∈ w.files.workingDirectory, '/' ∉ name.toList) →
      Yields (execute arguments) w fun _ w' => ∀ o paths begun l,
        w.ComesTo arguments o paths begun l → w.LaunchesIn l.world l.command w' →
        ∀ q node, l.found.files.look .followed l.archive = .ok (q, node) →
          l.world.files.look .followed l.archive = .ok (q, node) := by
  intro h
  have hsafe : outputIsSafe ⟨.root, ["c"]⟩ [⟨.root, ["in"]⟩, ⟨.root, []⟩, ⟨.root, []⟩] worldEquipped =
      .ok true worldEquipped := by cbv
  have hclear : clearSlots ⟨.root, ["c"]⟩ worldEquipped.files = .ok () (filesEquipped []) := by cbv
  obtain ⟨opened, hopen⟩ : ∃ opened, ensureDirectory (under ⟨.root, ["c"]⟩ mainNames) (filesEquipped []) =
      .ok () opened := by
    rw [mainNames_eq]
    exact ⟨_, by cbv⟩
  obtain ⟨paths, begun, l, hcomes, hfound, harchive, hroot, hdefaults, -⟩ :=
    comesTo_equipped ["weave", "-i", "/in", "-o", "/c"] ⟨0, []⟩ (by rfl) hsafe hclear hopen
  have hlook : l.found.files.look .followed l.archive =
      .ok (archiveEquipped, .file Download.archiveMark false) := by
    rw [hfound, harchive]
    exact look_archiveEquipped
  have hplace : l.found.files.look .own l.root = .ok (["c"], .directory) := by
    rw [hfound, hroot]
    cbv
  obtain ⟨_, w', hkept, hlaunches⟩ := (h ["weave", "-i", "/in", "-o", "/c"] isTree_equipped
    (by simp [worldEquipped, filesEquipped])).exists_and (launchesIn_execute hcomes)
  have hthere := hkept _ _ _ _ hcomes hlaunches _ _ hlook
  have hnone : ∀ a ∈ l.inputs.artifacts, isExcluded a.path l.settings.excludeRules = false := by
    simp [hdefaults, isExcluded]
  cases hcomes.launching.directory_of_cleared hplace (by decide) hnone (look_eq_ok_iff.1 hthere).2

end WeaveStep
