import Mathlib
import WeaveStep.Proofs.Weave.LaunchCondition

/-!
# Failures of a weave

With a weaver that always answers, a weave fails in one of two ways. Most failures are reported as
failures of the weave. Those of five steps are not, and leave it as failures of operations on files
(`Escapes`): **`weave_escapes_iff`**. A file where the outputs are to go is enough for that
(`not_weave_reports`).
-/

namespace WeaveStep

open FileTree Text

/-! ## Failures that escape -/

/-- A failure `why` of an operation on files leaves the weave as it is, with the world `w'`. It is one
of the removal of earlier outputs or, once these are removed and weaving is enabled, of the search
for the runtime library, of a copy for which the system is not to blame, of a look for the platform
archive, or of the opening of the slot of the woven classes. -/
inductive Escapes (settings : Settings) (root : Path) (version : Option String) (input : WeaveInput)
    (w : World) : FileFailure → World → Prop
  | clearing {why : FileFailure} {files : FileTree}
      (fails : clearSlots root w.files = .error why files) :
      Escapes settings root version input w why { w with files }
  | library {cleared : FileTree} {announced w' : World} {why : FileFailure}
      (enabled : settings.enabled = true)
      (clears : clearSlots root w.files = .ok () cleared)
      (announces : announced = { w with files := cleared }.announced version input.incremental)
      (fails : neededLibrary settings input.javaClasspath announced = .error why w') :
      Escapes settings root version input w why w'
  | copy {cleared : FileTree} {announced w' : World} {library : Option String} {why : FileFailure}
      (enabled : settings.enabled = true)
      (clears : clearSlots root w.files = .ok () cleared)
      (announces : announced = { w with files := cleared }.announced version input.incremental)
      (finds : neededLibrary settings input.javaClasspath announced = .ok library announced)
      (fails : route root settings.excludeRules stepLogger input.inputs input.referenced
        announced.warnedOfExclusion = .error (.badPath why) w') :
      Escapes settings root version input w why w'
  | platform {cleared : FileTree} {announced routed : World} {library : Option String}
      {routing : Routing} {why : FileFailure}
      (enabled : settings.enabled = true)
      (clears : clearSlots root w.files = .ok () cleared)
      (announces : announced = { w with files := cleared }.announced version input.incremental)
      (finds : neededLibrary settings input.javaClasspath announced = .ok library announced)
      (routes : route root settings.excludeRules stepLogger input.inputs input.referenced
        announced.warnedOfExclusion = .ok routing routed)
      (fails : bootClasspath routed.files settings routed.environment = .error (.inaccessible why)) :
      Escapes settings root version input w why routed
  | opening {cleared files : FileTree} {announced routed : World} {library : Option String}
      {routing : Routing} {boot : List String} {why : FileFailure}
      (enabled : settings.enabled = true)
      (clears : clearSlots root w.files = .ok () cleared)
      (announces : announced = { w with files := cleared }.announced version input.incremental)
      (finds : neededLibrary settings input.javaClasspath announced = .ok library announced)
      (routes : route root settings.excludeRules stepLogger input.inputs input.referenced
        announced.warnedOfExclusion = .ok routing routed)
      (boots : bootClasspath routed.files settings routed.environment = .ok boot)
      (fails : openSlot root mainSlot (settings.missed library routed).files = .error why files) :
      Escapes settings root version input w why { settings.missed library routed with files }

theorem Run.log_ne_error {ε : Type} {level : LogLevel} {logger message : String} {e : ε}
    {w w' : World} : Run.log level logger message w ≠ .error e w' := by
  intro h
  cases h

section

variable {settings : Settings} {root : Path} {input : WeaveInput} {routing : Routing}
  {invocation : Invocation} {e : WeaveFailure} {w w' : World}

theorem ofRoute_eq_files {why : RouteFailure} {file : FileFailure} :
    WeaveFailure.files file = .ofRoute why ↔ why = .badPath file := by
  cases why <;> simp [WeaveFailure.ofRoute, eq_comm]

theorem ofPlatform_eq_files {why : PlatformFailure} {file : FileFailure} :
    WeaveFailure.files file = .ofPlatform why ↔ why = .inaccessible file := by
  cases why <;> simp [WeaveFailure.ofPlatform, eq_comm]

theorem assemble_eq_error {boot : List String} {library : Option String} {why : FileFailure} :
    assemble settings root stepLogger (routing.toWeave.map (·.path))
      (routing.classpathOnly.map (·.path)) boot library w = .error why w' ↔
    ∃ files, openSlot root mainSlot (settings.missed library w).files = .error why files ∧
      w' = { settings.missed library w with files } := by
  unfold assemble Settings.missed
  split
  · simp only [bind_eq_error_iff, Run.log_eq_ok, Run.onFiles_eq_error, Run.log_ne_error, pure_ne_error,
      false_or, or_false, and_false, exists_false, id_eq]
    constructor
    · rintro ⟨_, _, rfl, _, files, hopen, rfl, rfl⟩
      exact ⟨files, hopen, rfl⟩
    · rintro ⟨files, hopen, rfl⟩
      exact ⟨(), _, rfl, why, files, hopen, rfl, rfl⟩
  · simp only [bind_eq_error_iff, Run.onFiles_eq_error, pure_ne_error, or_false, and_false,
      exists_false, id_eq]
    constructor
    · rintro ⟨_, files, hopen, rfl, rfl⟩
      exact ⟨files, hopen, rfl⟩
    · rintro ⟨files, hopen, rfl⟩
      exact ⟨why, files, hopen, rfl, rfl⟩

/-- The front of an enabled weave lets pass what its steps do not deal with. -/
theorem prepare_eq_error_files {why : FileFailure} :
    prepare settings root input w = .error (.files why) w' ↔
      neededLibrary settings input.javaClasspath w = .error why w' ∨
      ∃ library, neededLibrary settings input.javaClasspath w = .ok library w ∧
        (route root settings.excludeRules stepLogger input.inputs input.referenced
            w.warnedOfExclusion = .error (.badPath why) w' ∨
          ∃ routing routed, route root settings.excludeRules stepLogger input.inputs input.referenced
              w.warnedOfExclusion = .ok routing routed ∧
            (bootClasspath routed.files settings routed.environment = .error (.inaccessible why) ∧
                w' = routed ∨
              ∃ boot, bootClasspath routed.files settings routed.environment = .ok boot ∧
                ∃ files, openSlot root mainSlot (settings.missed library routed).files =
                    .error why files ∧
                  w' = { settings.missed library routed with files })) := by
  have hget : ∀ {w w' mid : World}, (get : Run WeaveFailure World) w = .ok w' mid ↔ w' = w ∧ mid = w :=
    pure_eq_ok
  have hgetError : ∀ {w mid : World} {e : WeaveFailure},
      (get : Run WeaveFailure World) w ≠ .error e mid := by
    intro w mid e h
    cases h
  unfold prepare
  simp only [bind_eq_error_iff, Run.wrapping_eq_error, Run.wrapping_eq_ok, Run.log_eq_ok,
    Run.log_ne_error, Run.ofExcept_eq_error, Run.ofExcept_eq_ok, hget, hgetError, pure_ne_error,
    assemble_eq_error, ofRoute_eq_files, ofPlatform_eq_files, false_or, or_false, and_false,
    exists_false]
  constructor
  · rintro (⟨_, hfails, heq⟩ | ⟨library, _, hfinds, _, _, rfl, _, _, rfl, hrest⟩)
    · cases heq
      exact .inl hfails
    · obtain rfl := neededLibrary_same hfinds
      refine .inr ⟨library, hfinds, ?_⟩
      obtain ⟨_, hroute, rfl⟩ | ⟨routing, routed, hroutes, _, _, ⟨rfl, rfl⟩, hrest⟩ := hrest
      · exact .inl hroute
      · refine .inr ⟨routing, _, hroutes, ?_⟩
        obtain ⟨_, hboot, rfl, rfl⟩ | ⟨boot, _, ⟨hboots, rfl⟩, _, ⟨files, hopen, rfl⟩, heq⟩ := hrest
        · exact .inl ⟨hboot, rfl⟩
        · cases heq
          exact .inr ⟨boot, hboots, files, hopen, rfl⟩
  · rintro (hfails | ⟨library, hfinds, hrest⟩)
    · exact .inl ⟨why, hfails, rfl⟩
    · refine .inr ⟨library, w, hfinds, (), _, rfl, (), _, rfl, ?_⟩
      obtain hroute | ⟨routing, routed, hroutes, hrest⟩ := hrest
      · exact .inl ⟨_, hroute, rfl⟩
      · refine .inr ⟨routing, routed, hroutes, routed, routed, ⟨rfl, rfl⟩, ?_⟩
        obtain ⟨hboot, rfl⟩ | ⟨boot, hboots, files, hopen, rfl⟩ := hrest
        · exact .inl ⟨_, hboot, rfl, rfl⟩
        · exact .inr ⟨boot, routed, ⟨hboots, rfl⟩, why, ⟨files, hopen, rfl⟩, rfl⟩

/-- The weaver has no part in the front of a weave. -/
theorem prepare_ne_error_weaver {why : WeaverFailure} :
    prepare settings root input w ≠ .error (.weaver why) w' := by
  have hroute : ∀ why', WeaveFailure.weaver why ≠ .ofRoute why' := by
    intro why' h
    cases why' <;> cases h
  have hplatform : ∀ why', WeaveFailure.weaver why ≠ .ofPlatform why' := by
    intro why' h
    cases why' <;> cases h
  have hgetError : ∀ {w mid : World} {e : WeaveFailure},
      (get : Run WeaveFailure World) w ≠ .error e mid := by
    intro w mid e h
    cases h
  unfold prepare
  simp only [ne_eq, bind_eq_error_iff, Run.wrapping_eq_error, Run.log_ne_error,
    Run.ofExcept_eq_error, hgetError, hroute, hplatform, pure_ne_error, reduceCtorEq, false_and,
    and_false, exists_false, or_self, not_false_eq_true]

/-- What escapes comes of the removal of earlier outputs, or of what follows it up to the weaver. -/
theorem escapes_iff {version : Option String} {why : FileFailure} :
    Escapes settings root version input w why w' ↔
      (∃ files, clearSlots root w.files = .error why files ∧ w' = { w with files }) ∨
      settings.enabled = true ∧ ∃ cleared, clearSlots root w.files = .ok () cleared ∧
        prepare settings root input ({ w with files := cleared }.announced version input.incremental) =
          .error (.files why) w' := by
  constructor
  · intro h
    cases h with
    | clearing fails => exact .inl ⟨_, fails, rfl⟩
    | library enabled clears announces fails =>
      subst announces
      exact .inr ⟨enabled, _, clears, prepare_eq_error_files.2 (.inl fails)⟩
    | copy enabled clears announces finds fails =>
      subst announces
      exact .inr ⟨enabled, _, clears, prepare_eq_error_files.2 (.inr ⟨_, finds, .inl fails⟩)⟩
    | platform enabled clears announces finds routes fails =>
      subst announces
      exact .inr ⟨enabled, _, clears, prepare_eq_error_files.2
        (.inr ⟨_, finds, .inr ⟨_, _, routes, .inl ⟨fails, rfl⟩⟩⟩)⟩
    | opening enabled clears announces finds routes boots fails =>
      subst announces
      exact .inr ⟨enabled, _, clears, prepare_eq_error_files.2
        (.inr ⟨_, finds, .inr ⟨_, _, routes, .inr ⟨_, boots, _, fails, rfl⟩⟩⟩)⟩
  · rintro (⟨files, fails, rfl⟩ | ⟨enabled, cleared, clears, hprepare⟩)
    · exact .clearing fails
    · obtain fails | ⟨library, finds, fails | ⟨routing, routed, routes,
        ⟨fails, rfl⟩ | ⟨boot, boots, files, fails, rfl⟩⟩⟩ := prepare_eq_error_files.1 hprepare
      · exact .library enabled clears rfl fails
      · exact .copy enabled clears rfl finds fails
      · exact .platform enabled clears rfl finds routes fails
      · exact .opening enabled clears rfl finds routes boots fails

/-- Once the weaver answers, all that can fail is reported. -/
theorem isReported_of_conclude {weaver : Weaver} {verbose : Bool}
    (hweaver : ∀ i w, ∃ ds w', weaver.run i w = .ok ds w')
    (h : conclude weaver verbose routing invocation w = .error e w') : e.isReported = true := by
  cases hleft : routing.toWeave.isEmpty with
  | true =>
    rw [conclude, if_pos hleft] at h
    cases h
  | false =>
    rw [conclude_of_left hleft] at h
    obtain h | ⟨_, _, -, h⟩ := bind_eq_error_iff.1 h
    · obtain ⟨_, hfails, -⟩ := Run.wrapping_eq_error.1 h
      obtain ⟨_, _, hanswers⟩ := hweaver invocation ((w.told .quiet "Weaving ...").recorded invocation)
      rw [hfails] at hanswers
      cases hanswers
    · obtain h | ⟨_, _, -, h⟩ := bind_eq_error_iff.1 h
      · obtain ⟨_, -, rfl⟩ := Run.wrapping_eq_error.1 h
        rfl
      · cases h

/-- A failure that is not reported is one of an operation on files or of the weaver. -/
theorem isReported_eq_false : e.isReported = false ↔
    (∃ why, e = .files why) ∨ ∃ why, e = .weaver why := by
  cases e <;> simp [WeaveFailure.isReported]

end

/-- **What leaves a weave with a weaver that always answers**: a result, a failure that is reported as
one of the weave, or exactly where it `Escapes` the failure of an operation on files. -/
theorem weave_escapes_iff (settings : Settings) (root : Path) {weaver : Weaver}
    (hweaver : ∀ i w, ∃ ds w', weaver.run i w = .ok ds w') (input : WeaveInput) (w : World)
    (e : WeaveFailure) (w' : World) :
    (weave settings root weaver input w = .error e w' ∧ e.isReported = false) ↔
      ∃ why, e = .files why ∧ Escapes settings root weaver.version input w why w' := by
  rw [weave_eq, bind_eq_error_iff, Run.onFiles_eq_error]
  constructor
  · rintro ⟨⟨why, files, fails, rfl, rfl⟩ | ⟨_, cleared, hclears, h⟩, hsilent⟩
    · exact ⟨why, rfl, .clearing fails⟩
    · obtain ⟨clears, hcleared⟩ := Run.onFiles_eq_ok.1 hclears
      unfold weaveCleared at h
      split at h
      · rename_i enabled
        rw [weaveEnabled_eq, bind_eq_error_iff] at h
        obtain hprepare | ⟨_, _, -, hconclude⟩ := h
        · obtain ⟨why, rfl⟩ | ⟨why, rfl⟩ := isReported_eq_false.1 hsilent
          · exact ⟨why, rfl, escapes_iff.2 (.inr ⟨enabled, cleared.files, clears, hcleared ▸ hprepare⟩)⟩
          · exact absurd hprepare prepare_ne_error_weaver
        · rw [isReported_of_conclude hweaver hconclude] at hsilent
          cases hsilent
      · cases h
  · rintro ⟨why, rfl, hescapes⟩
    refine ⟨?_, rfl⟩
    obtain ⟨files, fails, rfl⟩ | ⟨enabled, cleared, clears, hprepare⟩ := escapes_iff.1 hescapes
    · exact .inl ⟨why, files, fails, rfl, rfl⟩
    · refine .inr ⟨(), { w with files := cleared }, Run.onFiles_eq_ok.2 ⟨clears, rfl⟩, ?_⟩
      rw [weaveCleared, if_pos enabled, weaveEnabled_eq]
      exact bind_error hprepare

/-- A file where the outputs are to go. -/
def fileAtRoot : FileTree where
  entries := [([], .directory), (["out"], .file [] false)]
  workingDirectory := []

theorem clearSlots_fileAtRoot : clearSlots ⟨.root, ["out"]⟩ fileAtRoot =
    .error (.refused .notDirectory (.shown "/out")) fileAtRoot := by
  cbv

/-- The refusal to remove the file leaves the weave. -/
theorem weave_escapes_at_file :
    weave {} ⟨.root, ["out"]⟩ ⟨none, fun _ => pure []⟩ { inputs := [] } { files := fileAtRoot } =
      .error (.files (.refused .notDirectory (.shown "/out"))) { files := fileAtRoot } := by
  have hanswers : ∀ i w, ∃ ds w', (⟨none, fun _ => pure []⟩ : Weaver).run i w = .ok ds w' :=
    fun _ w => ⟨[], w, rfl⟩
  exact ((weave_escapes_iff {} ⟨.root, ["out"]⟩ hanswers { inputs := [] } { files := fileAtRoot } _ _).2
    ⟨_, rfl, .clearing clearSlots_fileAtRoot⟩).1

/-- Not every failure of a weave is reported as one, though the weaver always answers. -/
theorem not_weave_reports :
    ¬ ∀ (settings : Settings) (root : Path) (weaver : Weaver) (input : WeaveInput) (w : World),
      (∀ i w, ∃ ds w', weaver.run i w = .ok ds w') →
      ∀ e w', weave settings root weaver input w = .error e w' → e.isReported = true := by
  intro hall
  have hclears : Run.onFiles WeaveFailure.files (clearSlots ⟨.root, ["out"]⟩) { files := fileAtRoot } =
      .error (.files (.refused .notDirectory (.shown "/out"))) { files := fileAtRoot } :=
    Run.onFiles_eq_error.2 ⟨_, _, clearSlots_fileAtRoot, rfl, rfl⟩
  have hreported := hall {} ⟨.root, ["out"]⟩ ⟨none, fun _ => pure []⟩ { inputs := [] }
    { files := fileAtRoot } (fun _ w => ⟨[], w, rfl⟩) _ _ (by rw [weave_eq]; exact bind_error hclears)
  cases hreported

end WeaveStep
