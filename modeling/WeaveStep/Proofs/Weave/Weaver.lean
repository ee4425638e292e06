import WeaveStep.Proofs.World
import WeaveStep.Weave.Weaver

/-!
# One run of the weaver

`runWeaver` records exactly one launch, whatever becomes of it, and its answer goes by that launch
alone (`runWeaver_eq`). The launch is attempted in the world `w.launching command`
(`runWeaver_attempt`). Where the console is given, the launch is that console, and the answer is
read off its lines (`runWeaver_of_console`).
-/

namespace WeaveStep

open World

theorem launch_of_console {w : World} {run : ConsoleRun} (h : w.console = some run)
    (command : List String) : Run.launch command w = .ok run w := by
  simp only [Run.launch, h]

/-- A process has a working directory of its own. -/
theorem workingDirectory_finished (files : FileTree) (start : Launch.Start) :
    (Launch.finished files start).2.workingDirectory = files.workingDirectory := by
  unfold Launch.finished
  dsimp only
  split <;> rfl

theorem sameLaunches_launch (command : List String) : Always SameLaunches (Run.launch command) := by
  refine fun w => yields_of_cases (fun run w' h => ?_) fun why w' h => ?_
  all_goals
    unfold Run.launch at h
    split at h
  · cases h
    exact refl_of SameLaunches w
  · cases h
  · split at h
    · cases h
    · cases h
      exact ⟨rfl, rfl, rfl, workingDirectory_finished _ _⟩
  · cases h
  · cases h
    exact refl_of SameLaunches w
  · split at h
    · cases h
      exact refl_of SameLaunches w
    · cases h

/-- An attempt cannot fail. -/
theorem attempt_eq {ε α : Type} (ε' : Type) {R : World → World → Prop} {act : Run ε α}
    (h : Always R act) (w : World) :
    ∃ r w', R w w' ∧ (Run.attempt act : Run ε' _) w = .ok r w' := by
  unfold Run.attempt
  cases ha : act w with
  | ok a w' => exact ⟨.ok a, w', h.of_ok ha, rfl⟩
  | error e w' => exact ⟨.error e, w', h.of_error ha, rfl⟩

/-- What holds however an action ends holds after an attempt. -/
theorem yields_of_attempt {ε ε' α : Type} {act : Run ε α} {r : Except ε α} {w w' : World}
    {Q : Except ε α → World → Prop} (h : Yields act w Q)
    (hattempt : (Run.attempt act : Run ε' _) w = .ok r w') : Q r w' := by
  unfold Run.attempt at hattempt
  unfold Yields at h
  cases hact : act w <;> rw [hact] at h hattempt <;> cases hattempt <;> exact h

/-- The world in which a command is launched to run the weaver. -/
def World.launching (w : World) (command : List String) : World :=
  let logged := w.log ⟨.debug, weaverLogger, "Running weaver: " ++ " ".intercalate command, none⟩
  { logged with commands := logged.commands ++ [command] }

theorem World.sameLaunches_launching (w : World) (command : List String) :
    w.SameLaunches (w.launching command) :=
  (w.sameLaunches_log _).trans ⟨rfl, rfl, rfl, rfl⟩

/-- A run of the weaver attempts one launch and records it, and its answer goes by that. -/
theorem runWeaver_attempt (command : List String) (i : Invocation) (w : World) :
    ∃ launch after, (w.launching (command ++ i.arguments)).SameLaunches after ∧
      (Run.attempt (Run.launch (command ++ i.arguments)) : Run WeaverFailure _)
        (w.launching (command ++ i.arguments)) = .ok launch after ∧
      (∀ run, w.console = some run → launch = .ok run) ∧
      runWeaver command i w = Run.ofExcept id (launchAnswer command launch)
        { after with launches := after.launches ++ [launch] } := by
  have htold := w.sameLaunches_launching (command ++ i.arguments)
  obtain ⟨launch, after, hsame, hattempt⟩ := attempt_eq WeaverFailure
    (sameLaunches_launch (command ++ i.arguments)) (w.launching (command ++ i.arguments))
  refine ⟨launch, after, hsame, hattempt, fun run hrun => ?_, ?_⟩
  · rw [Run.attempt, launch_of_console (htold.console.trans hrun)] at hattempt
    cases hattempt
    rfl
  · unfold runWeaver
    exact (bind_ok rfl).trans ((bind_ok rfl).trans ((bind_ok hattempt).trans (bind_ok rfl)))

/-- A run of the weaver records one launch, and its answer goes by that. -/
theorem runWeaver_eq (command : List String) (i : Invocation) (w : World) :
    ∃ launch w', w.SameLaunches { w' with launches := w.launches } ∧
      w'.launches = w.launches ++ [launch] ∧
      (∀ run, w.console = some run → launch = .ok run) ∧
      runWeaver command i w = Run.ofExcept id (launchAnswer command launch) w' := by
  obtain ⟨launch, after, hsame, -, hconsole, hrun⟩ := runWeaver_attempt command i w
  have hall := (w.sameLaunches_launching (command ++ i.arguments)).trans hsame
  refine ⟨launch, { after with launches := after.launches ++ [launch] }, ?_, ?_, hconsole, hrun⟩
  · exact ⟨rfl, hall.console, hall.environment, hall.workingDirectory⟩
  · rw [← hall.launches]

/-- A run that ends well answers by the launch that it recorded. -/
theorem launchAnswer_of_runWeaver {command : List String} {i : Invocation} {w w' : World}
    {diagnostics : List Diagnostic} (h : runWeaver command i w = .ok diagnostics w') :
    ∃ launch, w'.launches = w.launches ++ [launch] ∧
      launchAnswer command launch = .ok diagnostics := by
  obtain ⟨launch, w₁, -, hlaunches, -, hrun⟩ := runWeaver_eq command i w
  obtain ⟨hanswer, rfl⟩ := Run.ofExcept_eq_ok.1 (hrun.symm.trans h)
  exact ⟨launch, hlaunches, hanswer⟩

theorem launchAnswer_ok_eq_ok (command : List String) {run : ConsoleRun}
    {diagnostics : List Diagnostic} :
    launchAnswer command (.ok run) = .ok diagnostics ↔
      Console.outcome run.status run.lines = .ok diagnostics := by
  simp only [launchAnswer]
  cases Console.outcome run.status run.lines <;> simp [Except.mapError]

/-- Where the console is given, the answer is what its lines come to. -/
theorem runWeaver_of_console {w : World} {run : ConsoleRun} (h : w.console = some run)
    (command : List String) (i : Invocation) :
    ∃ w', runWeaver command i w =
      match Console.outcome run.status run.lines with
      | .ok diagnostics => .ok diagnostics w'
      | .error why => .error (.unknownTag why.tag) w' := by
  obtain ⟨launch, w', -, -, hgiven, hrun⟩ := runWeaver_eq command i w
  obtain rfl := hgiven run h
  refine ⟨w', hrun.trans ?_⟩
  simp only [launchAnswer]
  cases Console.outcome run.status run.lines <;> rfl

end WeaveStep
