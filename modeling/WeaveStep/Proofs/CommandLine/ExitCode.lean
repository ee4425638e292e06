import WeaveStep.Proofs.CommandLine.Launching
import WeaveStep.Proofs.Lists
import WeaveStep.Proofs.Weave.Launch

/-!
# The exit code of a weave

**`execute_exit_code`**: a weave that is not verbose exits with code 0 after a launch that went well,
and with code 1 after one that did not. Without a launch, it exits with code 0 only if it had nothing to
launch the weaver for.

* `mayLaunch_tryWeave`: the command, whose failures tell the launch.
* `exitTells_concluding`: its exit code. `exitTells_checkedWeave`: with the checks in front.
-/

namespace WeaveStep

open World FileTree CommandLine

/-! ## The inputs -/

/-- Every path is that of an artifact of the bundle. -/
theorem artifacts_ofPaths {t : FileTree} {paths : List Path} {bundle : Bundle}
    (h : Bundle.ofPaths t paths = .ok bundle) {p : Path} (hp : p ∈ paths) :
    ∃ a ∈ bundle.artifacts, t.absolute p = .ok a.path := by
  obtain ⟨artifacts, hartifacts, h⟩ := except_bind_eq_ok.1 h
  cases h
  obtain ⟨a, ha, hpa⟩ := exists_of_mem_forall₂ (except_mapM_eq_ok hartifacts) hp
  refine ⟨a, ?_, ?_⟩
  · unfold Bundle.artifacts
    cases hkind : a.kind <;> simp [ha, hkind]
  · obtain ⟨path, hpath, hpa⟩ := except_bind_eq_ok.1 hpa
    obtain ⟨isDirectory, -, hpa⟩ := except_bind_eq_ok.1 hpa
    cases hpa
    exact hpath

/-! ## The weave -/

/-- Whether there is nothing to weave: weaving is disabled, or the rules exclude every input. -/
def WeavesNothing (w : World) (inputs : List GivenPath) (settings : Settings) : Prop :=
  settings.enabled = false ∨
    ∀ p, some p ∈ inputs →
      ∃ q, w.files.absolute p = .ok q ∧ isExcluded q settings.excludeRules = true

theorem mayLaunch_wrapping {ε ε' α : Type} {wrap : ε → ε'} {act : Run ε α} {idle : α → Prop}
    {told : ε → Prop} {told' : ε' → Prop} {w : World} (h : Yields act w (MayLaunch idle told w))
    (htold : ∀ e, told e → told' (wrap e)) :
    Yields (Run.wrapping wrap act) w (MayLaunch idle told' w) := by
  refine h.wrapping (fun a w' ha => ?_) fun e w' he => ?_
  · cases ha with
    | idle same value => exact .idle same fun _ hb => by cases hb; exact value a rfl
    | well once well => exact .well once well a
  · cases he with
    | idle same => exact .idle same fun _ hb => by cases hb
    | badly once badly tells => exact .badly once badly (htold e tells)

/-- Whether a command that fails so has launched the weaver. -/
def CommandFailure.FollowsLaunch : CommandFailure → Prop
  | .weave why => why.FollowsLaunch
  | _ => False

theorem code_of_followsLaunch {e : CommandFailure} (h : e.FollowsLaunch) : e.ending.code = 1 := by
  cases e with
  | weave why =>
    cases why with
    | aborted why => rfl
    | weaver why =>
      unfold CommandFailure.ending
      dsimp only
      split <;> rfl
    | _ => cases h
  | _ => cases h

theorem mayLaunch_tryWeave {o : WeaveOptions} {w₀ w : World} {here : Path} (paths : WeavePaths)
    (hhere : w₀.files.currentPath = .ok here) (hsame : w₀.SameLaunches w)
    (hquiet : ∀ settings w', findSettings o.settings o.project w = .ok settings w' →
      settings.verbose = false) :
    Yields (tryWeave o paths) w
      (MayLaunch (fun _ => ∃ settings w', findSettings o.settings o.project w = .ok settings w' ∧
        WeavesNothing w₀ (paths.inputs.map some) settings) CommandFailure.FollowsLaunch w) := by
  unfold tryWeave
  refine (always_findSettings _ _).mayLaunch_bind fun settings w₁ hsame₁ hsettings => ?_
  extract_lets rest
  -- both branches go on with `rest`, with the command of a toolchain or with none
  have hrest : ∀ command w₂, w₀.SameLaunches w₂ → Yields (rest command) w₂
      (MayLaunch (fun _ => ∃ settings w', findSettings o.settings o.project w = .ok settings w' ∧
        WeavesNothing w₀ (paths.inputs.map some) settings) CommandFailure.FollowsLaunch w₂) := by
    intro command w₂ hsame₂
    refine (Always.ask _ _).mayLaunch_bind fun root w₃ hsame₃ _ => ?_
    refine (Always.ask _ _).mayLaunch_bind fun inputs w₄ hsame₄ hinputs => ?_
    refine (Always.ask _ _).mayLaunch_bind fun referenced w₅ _ _ => ?_
    have hbundle := (Run.ask_eq_ok.1 hinputs).1
    have hidle : NeedsNoLaunch settings
        { inputs := [inputs], referenced := [referenced],
          javaClasspath := writtenClasspath o.javaClasspath } →
        WeavesNothing w₀ (paths.inputs.map some) settings := by
      refine Or.imp_right fun hexcluded p hp => ?_
      obtain ⟨a, ha, hpa⟩ := artifacts_ofPaths hbundle (p := p) (by simpa using hp)
      exact ⟨a.path, absolute_of_sameDirectory (hsame₂.trans hsame₃).workingDirectory hhere hpa,
        hexcluded a (by simpa using ha)⟩
    refine mayLaunch_bind_ok (mayLaunch_wrapping
      (mayLaunch_weave (hquiet settings w₁ hsettings) root command _ _ w₅) fun _ => id)
      fun completion => ⟨(), ?_, fun h => ⟨settings, w₁, hsettings, hidle h⟩⟩
    split
    · exact says_warning _
    · exact (says_success _).bind <| (says_print _).bind <| (says_print _).bind fun w =>
        says_print ("Weave time: " ++ w.duration ++ "s") w
  split
  · refine (always_findToolchain _ _ _).mayLaunch_bind fun toolchain w₂ hsame₂ _ => ?_
    refine (sameLaunches_command _).wrapping.mayLaunch_bind fun command w₃ hsame₃ _ => ?_
    exact hrest command w₃ (hsame.trans (hsame₁.trans (hsame₂.trans hsame₃)))
  · exact hrest [] w₁ (hsame.trans hsame₁)

/-! ## The exit code -/

/-- How a program ends, begun in `w`, that may launch the weaver: with at most one launch, with exit
code 0 after a launch that went well and 1 after one that did not, and without a launch with exit code 0
only for the reason `idle`. -/
def ExitTells {ε : Type} (idle : Prop) (w : World) (r : Except ε Nat) (w' : World) : Prop :=
  ∃ new, w'.launches = w.launches ++ new ∧ new.length ≤ 1 ∧
    (∀ launch ∈ new, ¬ WentWell launch → r = .ok 1) ∧
    (∀ launch ∈ new, WentWell launch → r = .ok 0) ∧
    (r = .ok 0 → (new = [] ∧ idle) ∨ ∃ launch, new = [launch] ∧ WentWell launch)

section

variable {ε ε' : Type} {idle idle' : Prop} {w w₁ w' : World} {r : Except ε Nat}

theorem exitTells_of_same (hsame : w.SameLaunches w') (hidle : r = .ok 0 → idle) :
    ExitTells idle w r w' :=
  ⟨[], by simpa using hsame.launches, by simp, by simp, by simp, fun h => .inl ⟨rfl, hidle h⟩⟩

/-- A failure before any launch. -/
theorem exitTells_of_error {e : ε} (hsame : w.SameLaunches w') : ExitTells idle w (.error e) w' :=
  exitTells_of_same hsame fun h0 => by cases h0

theorem ExitTells.after (hsame : w.SameLaunches w₁) (h : ExitTells idle w₁ r w') :
    ExitTells idle w r w' := by
  rwa [ExitTells, hsame.launches] at h

theorem ExitTells.imp (h : ExitTells idle w r w') (hidle : idle → idle') :
    ExitTells idle' w r w' := by
  obtain ⟨new, hlaunches, honce, hfailed, hwell, hzero⟩ := h
  exact ⟨new, hlaunches, honce, hfailed, hwell, fun h0 => (hzero h0).imp_left (And.imp_right hidle)⟩

theorem exitTells_wrapping {wrap : ε → ε'} {act : Run ε Nat} (h : Yields act w (ExitTells idle w)) :
    Yields (Run.wrapping wrap act) w (ExitTells idle w) := by
  refine h.wrapping (fun code w' => ?_) fun e w' => ?_
  all_goals
    rintro ⟨new, hlaunches, honce, hfailed, hwell, hzero⟩
    refine ⟨new, hlaunches, honce, fun launch hl hbad => ?_, fun launch hl hgood => ?_, fun h0 => ?_⟩
  · rw [Except.ok.inj (hfailed launch hl hbad)]
  · rw [Except.ok.inj (hwell launch hl hgood)]
  · exact hzero (by rw [Except.ok.inj h0])
  · cases hfailed launch hl hbad
  · cases hwell launch hl hgood
  · cases h0

theorem code_ne_zero (ending : CommandFailure.Ending) : ending.code ≠ 0 := by
  cases ending <;> decide

theorem exitTells_concluding (verbose : Bool) {act : Run CommandFailure Unit}
    (h : Yields act w (MayLaunch (fun _ => idle) CommandFailure.FollowsLaunch w)) :
    Yields (concluding verbose act : Run ε Nat) w (ExitTells idle w) := by
  unfold Yields at h ⊢
  unfold concluding
  cases ha : act w with
  | ok a w' =>
    rw [ha] at h
    cases h with
    | idle same value => exact exitTells_of_same same fun _ => value a rfl
    | @well launch _ once well =>
      exact ⟨[launch], once, Nat.le_refl 1,
        fun _ hl hbad => absurd (List.mem_singleton.1 hl ▸ well) hbad, fun _ _ _ => rfl,
        fun _ => .inr ⟨launch, rfl, well⟩⟩
  | error e w' =>
    rw [ha] at h
    obtain ⟨w'', htell, hsame⟩ := (says_tell (ε := ε) verbose e).sameLaunches w'
    dsimp only at h ⊢
    rw [htell]
    have hcode : Except.ok e.ending.code ≠ (Except.ok 0 : Except ε Nat) := fun h0 =>
      code_ne_zero e.ending (Except.ok.inj h0)
    cases h with
    | idle same => exact exitTells_of_same (same.trans hsame) fun h0 => absurd h0 hcode
    | @badly launch _ _ once badly tells =>
      refine ⟨[launch], hsame.launches.trans once, Nat.le_refl 1, fun _ _ _ => ?_,
        fun _ hl hgood => absurd (List.mem_singleton.1 hl ▸ hgood) badly, fun h0 => absurd h0 hcode⟩
      rw [code_of_followsLaunch tells]

end

/-- The settings that a weave loads, once its log is set up. -/
def World.Loads (w : World) (o : WeaveOptions) (settings : Settings) : Prop :=
  ∃ w₁ w₂, w.Begins o w₁ ∧ findSettings o.settings o.project w₁ = .ok settings w₂

theorem exitTells_weaveCommand {o : WeaveOptions} {w : World} {here : Path} (paths : WeavePaths)
    (hhere : w.files.currentPath = .ok here)
    (hquiet : ∀ settings, w.Loads o settings → settings.verbose = false) :
    Yields (weaveCommand o paths) w
      (ExitTells (∃ settings, w.Loads o settings ∧
        WeavesNothing w (paths.inputs.map some) settings) w) := by
  refine (sameLaunches_setUp _).yields_bind (fun _ w₁ hsame hsetUp => ?_) fun e w' hsame =>
    exitTells_of_error hsame
  have hweave := exitTells_concluding (ε := FileFailure) o.verbose
    (mayLaunch_tryWeave paths hhere hsame fun settings w₂ hsettings =>
      hquiet settings ⟨w₁, w₂, hsetUp, hsettings⟩)
  refine hweave.imp fun r w' h => (h.imp ?_).after hsame
  rintro ⟨settings, w₂, hsettings, hidle⟩
  exact ⟨settings, ⟨w₁, w₂, hsetUp, hsettings⟩, hidle⟩

/-! ## The program -/

theorem exitTells_checkedWeave {here : Path} {o : WeaveOptions} {w : World}
    (hhere : w.files.currentPath = .ok here)
    (hquiet : ∀ settings, w.Loads o settings → settings.verbose = false) :
    Yields (checkedWeave here o) w
      (ExitTells (∃ settings, w.Loads o settings ∧ WeavesNothing w o.inputs settings) w) := by
  refine yields_checkedWeave (fun w' h => ?_) (fun e w' h => exitTells_of_error h.sameLaunches)
    fun paths hpasses => ?_
  · exact exitTells_of_same h.sameLaunches fun h0 => by cases h0
  · rw [hpasses.inputs]
    exact exitTells_wrapping (exitTells_weaveCommand paths hhere hquiet)

/-- For arguments that do not ask for a page or to fetch, with settings that are not verbose: the
weaver is launched at most once. After a launch that went well the exit code is 0, and after one that did
not it is 1. The exit code is 0 only if a launch went well, or if there was none and nothing is to be
woven. -/
theorem execute_exit_code {arguments : List String} {w : World}
    (hpage : ∀ text, w.call arguments ≠ .error (.page text))
    (hfetch : ∀ o, w.call arguments ≠ .ok (.fetch o))
    (hquiet : ∀ o settings, w.call arguments = .ok (.weave o) → w.Loads o settings →
      settings.verbose = false) :
    Yields (execute arguments) w fun r w' =>
      ∃ new, w'.launches = w.launches ++ new ∧ new.length ≤ 1 ∧
        (∀ launch ∈ new, ¬ WentWell launch → r = .ok 1) ∧
        (∀ launch ∈ new, WentWell launch → r = .ok 0) ∧
        (r = .ok 0 →
          (new = [] ∧ ∃ o settings, w.call arguments = .ok (.weave o) ∧ w.Loads o settings ∧
            WeavesNothing w o.inputs settings) ∨
          ∃ launch, new = [launch] ∧ WentWell launch) := by
  cases hhere : w.files.currentPath with
  | error e =>
    exact .of_eq (execute_lost hhere arguments) (yields_throw (exitTells_of_error (refl_of SameLaunches w)))
  | ok here =>
    refine .of_eq (execute_eq hhere arguments) ?_
    cases hcall : w.call arguments with
    | error answer =>
      cases answer with
      | page text => exact absurd hcall (hpage text)
      | misuse usage program message =>
        exact exitTells_of_same ⟨rfl, rfl, rfl, rfl⟩ fun h0 => by cases h0
    | ok call =>
      cases call with
      | fetch o => exact absurd hcall (hfetch o)
      | weave o =>
        have hweave := exitTells_checkedWeave hhere fun settings => hquiet o settings hcall
        exact hweave.imp fun r w' h => h.imp fun ⟨settings, hloads, hidle⟩ =>
          ⟨o, settings, rfl, hloads, hidle⟩

/-- A weaver that fails, and one that has nothing to say. -/
theorem execute_exit_code_of_launched :
    Yields (execute ["weave", "-i", "/in", "-o", "/out"])
      { worldEquipped with console := some ⟨3, [⟨.stderr, "boom\n"⟩]⟩ }
      (fun r w' => r = .ok 1 ∧ w'.launches = [.ok ⟨3, [⟨.stderr, "boom\n"⟩]⟩]) ∧
    Yields (execute ["weave", "-i", "/in", "-o", "/out"]) { worldEquipped with console := some ⟨0, []⟩ }
      fun r w' => r = .ok 0 ∧ w'.launches = [.ok ⟨0, []⟩] := by
  have hexit : ∀ run code, (¬ WentWell (.ok run) ∧ code = 1 ∨ WentWell (.ok run) ∧ code = 0) →
      Yields (execute ["weave", "-i", "/in", "-o", "/out"]) { worldEquipped with console := some run }
        fun r w' => r = .ok code ∧ w'.launches = [.ok run] := by
    intro run code hcode
    let w : World := { worldEquipped with console := some run }
    have hcall : w.call ["weave", "-i", "/in", "-o", "/out"] = .ok (.weave (equippedOptions ["out"])) := rfl
    obtain ⟨paths, begun, l, hcomes, -, -, -, hdefaults, -⟩ := comesTo_equipped_beside run
    have hquiet : ∀ o settings, w.call ["weave", "-i", "/in", "-o", "/out"] = .ok (.weave o) →
        w.Loads o settings → settings.verbose = false := by
      rintro o settings ho ⟨w₁, w₂, hbegins, hsettings⟩
      cases hcall.symm.trans ho
      obtain ⟨-, rfl⟩ := EStateM.Result.ok.inj (hcomes.begins.symm.trans hbegins)
      obtain ⟨rfl, -⟩ := EStateM.Result.ok.inj (hcomes.launching.settings.symm.trans hsettings)
      rw [hdefaults]
    have htells := execute_exit_code (w := w) (by simp [hcall]) (by simp [hcall]) hquiet
    refine (htells.and (hcomes.launches_of_console rfl)).imp ?_
    rintro r w' ⟨⟨new, hnew, -, hfailed, hwell, -⟩, hlaunches⟩
    obtain rfl := List.append_cancel_left (hnew.symm.trans hlaunches)
    refine ⟨?_, hlaunches⟩
    rcases hcode with ⟨hbad, rfl⟩ | ⟨hgood, rfl⟩
    · exact hfailed _ List.mem_cons_self hbad
    · exact hwell _ List.mem_cons_self hgood
  exact ⟨hexit _ _ (.inl ⟨fun h => absurd h.1 (by decide), rfl⟩),
    hexit _ _ (.inr ⟨⟨rfl, [], rfl, by simp⟩, rfl⟩)⟩

end WeaveStep
