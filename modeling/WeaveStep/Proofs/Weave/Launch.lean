import WeaveStep.Proofs.Console.Outcome
import WeaveStep.Proofs.Weave.Preparation
import WeaveStep.Proofs.Weave.Report
import WeaveStep.Proofs.Weave.Routing
import WeaveStep.Proofs.Weave.Weaver

/-!
# A weave and its launch

`WentWell launch`: the weaver exited with status 0 and reported nothing worse than a warning.
`MayLaunch` says how an action ends that may launch the weaver: without a launch, or after exactly
one, and then with a value where that went well, and with a failure that tells it where it did not.
Steps before and after that launch nothing keep it (`Always.mayLaunch_bind`, `mayLaunch_bind_ok`).

* `mayLaunch_weave`: so it is with a weave whose settings are not verbose.
-/

namespace WeaveStep

open World FileTree

/-- The launch went well: the weaver exited with status 0, and none of its diagnostics is an error
or worse. -/
def WentWell : Except FileFailure ConsoleRun → Prop
  | .ok run => run.status = 0 ∧
    ∃ ds, Console.outcome run.status run.lines = .ok ds ∧ ∀ d ∈ ds, d.isFatal = false
  | .error _ => False

/-- How an action ends, begun in `w`, that may launch the weaver. Without a launch a value is as
`idle` says; a failure after a launch is as `told` says. -/
inductive MayLaunch {ε α : Type} (idle : α → Prop) (told : ε → Prop) (w : World) :
    Except ε α → World → Prop
  | idle {r : Except ε α} {w' : World} (same : w.SameLaunches w')
    (value : ∀ a, r = .ok a → idle a) : MayLaunch idle told w r w'
  | well {launch : Except FileFailure ConsoleRun} {w' : World}
    (once : w'.launches = w.launches ++ [launch]) (well : WentWell launch) (a : α) :
    MayLaunch idle told w (.ok a) w'
  | badly {launch : Except FileFailure ConsoleRun} {w' : World} {why : ε}
    (once : w'.launches = w.launches ++ [launch]) (badly : ¬ WentWell launch) (tells : told why) :
    MayLaunch idle told w (.error why) w'

/-- What the weaver answered says how its launch went. -/
theorem wentWell_iff {command : List String} {launch : Except FileFailure ConsoleRun}
    {ds : List Diagnostic} (h : launchAnswer command launch = .ok ds) :
    WentWell launch ↔ ∀ d ∈ ds, d.isFatal = false := by
  cases launch with
  | ok run =>
    have houtcome := (launchAnswer_ok_eq_ok command).1 h
    constructor
    · rintro ⟨-, ds', hds', hcalm⟩
      rw [houtcome] at hds'
      cases hds'
      exact hcalm
    · intro hcalm
      refine ⟨?_, ds, houtcome, hcalm⟩
      by_contra hstatus
      obtain ⟨d, hd, hfatal⟩ := (Console.outcome_has_error_iff houtcome).2 (.inl hstatus)
      rw [hcalm d hd] at hfatal
      cases hfatal
  | error why =>
    refine iff_of_false id fun hcalm => ?_
    simp only [launchAnswer] at h
    split at h
    · unfold launchDiagnostic at h
      cases command with
      | nil => cases h
      | cons program _ =>
        cases h
        exact absurd (hcalm _ List.mem_cons_self) (by simp [Diagnostic.isFatal, Severity.level])
    · cases h

/-- Where the weaver gave no answer, its launch did not go well. -/
theorem not_wentWell {command : List String} {launch : Except FileFailure ConsoleRun}
    {why : WeaverFailure} (h : launchAnswer command launch = .error why) : ¬ WentWell launch := by
  cases launch with
  | error _ => exact id
  | ok run =>
    rintro ⟨-, ds, hds, -⟩
    rw [(launchAnswer_ok_eq_ok command).2 hds] at h
    cases h

/-! ## Steps before and after -/

section

variable {ε α β : Type} {idle : α → Prop} {told : ε → Prop} {w : World}

/-- Steps in front that launch nothing do not matter. -/
theorem MayLaunch.after {r : Except ε α} {w₁ w' : World} (hsame : w.SameLaunches w₁)
    (h : MayLaunch idle told w₁ r w') : MayLaunch idle told w r w' := by
  cases h with
  | idle same value => exact .idle (hsame.trans same) value
  | well once well a => exact .well (hsame.launches ▸ once) well a
  | badly once badly tells => exact .badly (hsame.launches ▸ once) badly tells

/-- An action that launches nothing ends without a launch. -/
theorem mayLaunch_of_always {act : Run ε α} (h : Always SameLaunches act)
    (value : ∀ a w', act w = .ok a w' → idle a) : Yields act w (MayLaunch idle told w) :=
  yields_of_cases
    (fun a w' ha => .idle (h.of_ok ha) fun _ hb => by cases hb; exact value a w' ha)
    fun _ _ he => .idle (h.of_error he) fun _ hb => by cases hb

/-- A step in front that launches nothing. -/
theorem Always.mayLaunch_bind {act : Run ε β} {f : β → Run ε α} (h : Always SameLaunches act)
    (hf : ∀ b w₁, w.SameLaunches w₁ → act w = .ok b w₁ → Yields (f b) w₁ (MayLaunch idle told w₁)) :
    Yields (act >>= f) w (MayLaunch idle told w) :=
  h.yields_bind (fun b w₁ hsame hb => (hf b w₁ hsame hb).imp fun _ _ => .after hsame)
    fun _ _ hsame => .idle hsame fun _ hb => by cases hb

/-- A step behind that succeeds and launches nothing. -/
theorem mayLaunch_bind_ok {idle' : β → Prop} {act : Run ε β} {f : β → Run ε α}
    (h : Yields act w (MayLaunch idle' told w))
    (hf : ∀ b, ∃ a, Says (f b) a ∧ (idle' b → idle a)) :
    Yields (act >>= f) w (MayLaunch idle told w) := by
  refine Yields.bind (fun b w₁ hb => ?_) fun e w₁ he => ?_
  · obtain ⟨a, hsaid, hidle⟩ := hf b
    obtain ⟨w', ha, hsame⟩ := hsaid.sameLaunches w₁
    refine yields_of_eq_ok ha ?_
    cases h.of_ok hb with
    | idle same value =>
      exact .idle (same.trans hsame) fun _ hb' => by cases hb'; exact hidle (value b rfl)
    | well once well => exact .well (hsame.launches.trans once) well a
  · cases h.of_error he with
    | idle same => exact .idle same fun _ hb' => by cases hb'
    | badly once badly tells => exact .badly once badly tells

end

/-! ## The weave -/

/-- Whether a weave that fails so has launched the weaver. -/
def WeaveFailure.FollowsLaunch : WeaveFailure → Prop
  | .weaver _ | .aborted _ => True
  | _ => False

theorem mayLaunch_runReported (command : List String) (version : Option String)
    (invocation : Invocation) (w : World) :
    Yields (runReported (.ofCommand command version) false invocation) w
      (MayLaunch (fun _ => False) WeaveFailure.FollowsLaunch w) := by
  have htell : Always SameLaunches (modify fun w =>
      { w with invocations := w.invocations ++ [invocation] } : Run WeaveFailure Unit) :=
    Always.modify fun _ => ⟨rfl, rfl, rfl, rfl⟩
  refine htell.mayLaunch_bind fun _ w₁ _ _ => ?_
  obtain ⟨launch, w₂, -, hlaunches, -, hrun⟩ := runWeaver_eq command invocation w₁
  -- the launch is recorded here; the answer, and then the report, say how it went
  cases hanswer : launchAnswer command launch with
  | error why =>
    rw [hanswer] at hrun
    have hfails : Run.wrapping WeaveFailure.weaver (runWeaver command invocation) w₁ =
        .error (.weaver why) w₂ := by
      rw [Run.wrapping, hrun]
      rfl
    exact yields_bind_of_error hfails (.badly hlaunches (not_wentWell hanswer) trivial)
  | ok ds =>
    have hends : Run.wrapping WeaveFailure.weaver (runWeaver command invocation) w₁ = .ok ds w₂ :=
      Run.wrapping_eq_ok.2 (hrun.trans (Run.ofExcept_eq_ok.2 ⟨hanswer, rfl⟩))
    refine yields_bind_of_ok hends ?_
    have hlogged : (w₂.logAll false stepLogger ds).launches = w₁.launches ++ [launch] :=
      (w₂.sameLaunches_logAll false stepLogger ds).launches.trans hlaunches
    have hany := firstFatal?_isSome ds
    have hjudge := judgeReport_eq false stepLogger ds w₂
    cases hfatal : firstFatal? false ds with
    | none =>
      rw [hfatal] at hjudge hany
      have hcalm : WentWell launch := (wentWell_iff hanswer).2 (by simpa using hany.symm)
      exact yields_bind_of_ok (Run.wrapping_eq_ok.2 hjudge) (.well hlogged hcalm ds)
    | some found =>
      rw [hfatal] at hjudge hany
      have hbad : ¬ WentWell launch := by
        rw [wentWell_iff hanswer]
        simpa using hany.symm
      have hfails : Run.wrapping WeaveFailure.aborted (judgeReport false stepLogger ds) w₂ =
          .error (.aborted ⟨found.2.text, found.2.cause⟩) (w₂.logAll false stepLogger ds) := by
        rw [Run.wrapping, hjudge]
      exact yields_bind_of_error hfails (.badly hlogged hbad trivial)

/-- What is known of a weave that ended well without a launch: it is disabled, or every artifact is
excluded. -/
def NeedsNoLaunch (settings : Settings) (input : WeaveInput) : Prop :=
  settings.enabled = false ∨
    ∀ a ∈ input.inputs.flatMap (·.artifacts), isExcluded a.path settings.excludeRules = true

theorem mayLaunch_weaveEnabled {settings : Settings} (hquiet : settings.verbose = false)
    (root : Path) (command : List String) (version : Option String) (input : WeaveInput)
    (w : World) :
    Yields (weaveEnabled settings root (.ofCommand command version) input) w
      (MayLaunch (fun _ => NeedsNoLaunch settings input) WeaveFailure.FollowsLaunch w) := by
  unfold weaveEnabled
  extract_lets tell rest
  -- `rest` is what both branches end with, and only its last step launches
  have htell : ∀ message, Always SameLaunches (tell message) := fun _ => sameLaunches_log _ _ _
  have hrest : ∀ w, Yields (rest ()) w
      (MayLaunch (fun _ => NeedsNoLaunch settings input) WeaveFailure.FollowsLaunch w) := by
    intro w
    refine (htell _).mayLaunch_bind fun _ _ _ _ => ?_
    refine (sameLaunches_neededLibrary _ _).wrapping.mayLaunch_bind fun library _ _ _ => ?_
    refine (htell _).mayLaunch_bind fun _ _ _ _ => (htell _).mayLaunch_bind fun _ _ _ _ => ?_
    refine (sameLaunches_route _ _ _ _ _).wrapping.mayLaunch_bind fun routing _ _ hroute => ?_
    have htoWeave := toWeave_of_route (Run.wrapping_eq_ok.1 hroute)
    refine Always.get.mayLaunch_bind fun w₁ _ _ _ => ?_
    refine (Always.ofExcept _ _).mayLaunch_bind fun boot _ _ _ => ?_
    refine (sameLaunches_assemble _ _ _ _ _ _ _).wrapping.mayLaunch_bind fun invocation _ _ _ => ?_
    split
    · rename_i hempty
      refine (htell _).mayLaunch_bind fun _ _ _ _ => ?_
      refine mayLaunch_of_always (.pure _) fun _ _ _ => .inr fun a ha => ?_
      rw [List.isEmpty_iff, htoWeave, List.filter_eq_nil_iff] at hempty
      simpa using hempty a ha
    · refine (htell _).mayLaunch_bind fun _ w₁ _ _ => ?_
      rw [hquiet]
      exact mayLaunch_bind_ok (mayLaunch_runReported command version invocation w₁) fun ds =>
        ⟨_, says_pure _, False.elim⟩
  split
  · exact (sameLaunches_log _ _ _).mayLaunch_bind fun _ w₁ _ _ => hrest w₁
  · exact hrest w

theorem mayLaunch_weave {settings : Settings} (hquiet : settings.verbose = false) (root : Path)
    (command : List String) (version : Option String) (input : WeaveInput) (w : World) :
    Yields (weave settings root (.ofCommand command version) input) w
      (MayLaunch (fun _ => NeedsNoLaunch settings input) WeaveFailure.FollowsLaunch w) := by
  unfold weave
  refine (sameLaunches_onFiles (sameDirectory_clearSlots root)).mayLaunch_bind fun _ w₁ _ _ => ?_
  split
  · exact mayLaunch_weaveEnabled hquiet root command version input w₁
  · rename_i hdisabled
    refine (sameLaunches_log _ _ _).mayLaunch_bind fun _ _ _ _ => ?_
    exact mayLaunch_of_always (.pure _) fun _ _ _ => .inl (by simpa using hdisabled)

end WeaveStep
