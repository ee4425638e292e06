import WeaveStep.Proofs.Console.Outcome
import WeaveStep.Proofs.Weave.Weaver

/-!
# What the weaver answers after a run

**`runWeaver_tells_failure`**: there is an error or worse among the diagnostics of a run exactly if
the run failed or a line of its console says so, and a failure that no line told adds one: the first
message on the error stream becomes an abort if it begins on a plain line, and the exit status is
reported if not. All other diagnostics are those of the console's messages.
-/

namespace WeaveStep

open Console Text

/-- A failed run or a line that says so shows among the diagnostics, and nothing else does: what is
changed where no line told of the failure is one message, or one diagnostic is added. -/
theorem runWeaver_tells_failure {command : List String} {i : Invocation} {w w' : World}
    {ds : List Diagnostic} {status : Int} {lines : List Line}
    (hrun : runWeaver command i w = .ok ds w')
    (hlaunch : w'.launches = w.launches ++ [.ok ⟨status, lines⟩]) :
    ∃ messages, collect lines = .ok messages ∧
      ((∃ d ∈ ds, d.isFatal = true) ↔ status ≠ 0 ∨ ∃ l ∈ lines, l.SaysError) ∧
      ((status = 0 ∨ ∃ l ∈ lines, l.SaysError) → ds = messages.map Message.finish) ∧
      (status ≠ 0 → (¬ ∃ l ∈ lines, l.SaysError) →
        (∀ first, firstLineOn? .stderr lines = some first → first.isPlain = true →
          ∃ before m after, messages = before ++ m :: after ∧
            (∀ m' ∈ before, m'.stream ≠ .stderr) ∧ m.stream = .stderr ∧ m.text = trim first.text ∧
            ds = before.map Message.finish ++ m.aborting :: after.map Message.finish) ∧
        ((∀ first, firstLineOn? .stderr lines = some first → first.isPlain = false) →
          ds = messages.map Message.finish ++ [statusDiagnostic status])) := by
  obtain ⟨launch, hlaunch', hanswer⟩ := launchAnswer_of_runWeaver hrun
  obtain rfl : Except.ok ⟨status, lines⟩ = launch := by
    rw [hlaunch] at hlaunch'
    simpa using hlaunch'
  have houtcome := (launchAnswer_ok_eq_ok command).1 hanswer
  obtain ⟨messages, hc, hds⟩ := outcome_eq_ok.1 houtcome
  refine ⟨messages, hc, outcome_has_error_iff houtcome, fun htold => ?_,
    fun hstatus hcalm => ⟨fun first hfirst hplain => ?_, fun hfirst => ?_⟩⟩
  · rw [hds, explained_eq_self hc htold]
  · obtain ⟨before, m, after, rfl, hbefore, hstream, htext, hexplained⟩ :=
      explained_of_plain hc hstatus hcalm hfirst hplain
    refine ⟨before, m, after, rfl, hbefore, hstream, htext, ?_⟩
    rw [hds, hexplained, List.map_append, List.map_cons, Message.finish_abort]
  · rw [hds, explained_of_not_plain hc hstatus hcalm hfirst, List.map_append]
    rfl

/-- A trace on the error stream, with a warning on the other one in the middle of it. -/
theorem runWeaver_tells_trace :
    ∃ (w : World) (ds : List Diagnostic) (w' : World),
      w.console = some ⟨3, [⟨.stdout, "note\n"⟩, ⟨.stderr, "boom\n"⟩, ⟨.stdout, "[warning] w\n"⟩,
        ⟨.stderr, "  at x\n"⟩]⟩ ∧
      runWeaver ["ajc"] ⟨"", "", "", "", "", "", .ofString "out"⟩ w = .ok ds w' ∧
      (∃ d ∈ ds, d.isFatal = true) ∧
      ∃ (before : List Message) (m : Message) (after : List Message), m.text = "boom" ∧
        ds = before.map Message.finish ++ m.aborting :: after.map Message.finish := by
  let lines : List Line := [⟨.stdout, "note\n"⟩, ⟨.stderr, "boom\n"⟩, ⟨.stdout, "[warning] w\n"⟩,
    ⟨.stderr, "  at x\n"⟩]
  let w : World := { files := ⟨[], [], none⟩, console := some ⟨3, lines⟩ }
  obtain ⟨launch, w', -, hlaunches, hgiven, hrun⟩ :=
    runWeaver_eq ["ajc"] ⟨"", "", "", "", "", "", .ofString "out"⟩ w
  obtain rfl := hgiven ⟨3, lines⟩ rfl
  have hcollect : collect lines = .ok [⟨.info, "note", .stdout, none, false, []⟩,
    ⟨.info, "boom", .stderr, none, false, ["  at x"]⟩,
    ⟨.warning, "w", .stdout, none, true, []⟩] := rfl
  have hanswer : launchAnswer ["ajc"] (.ok ⟨3, lines⟩) = .ok _ :=
    (launchAnswer_ok_eq_ok ["ajc"]).2 (outcome_eq_ok.2 ⟨_, hcollect, rfl⟩)
  have hok := hrun.trans (Run.ofExcept_eq_ok.2 ⟨hanswer, rfl⟩)
  have hcalm : ¬ ∃ l ∈ lines, l.SaysError := mt (exists_isFatal_iff hcollect).2 (by decide)
  obtain ⟨_, -, hfatal, -, hfailed⟩ := runWeaver_tells_failure hok hlaunches
  obtain ⟨before, m, after, -, -, -, htext, hds⟩ :=
    (hfailed (by decide) hcalm).1 ⟨.stderr, "boom\n"⟩ rfl rfl
  exact ⟨w, _, w', rfl, hok, hfatal.2 (.inl (by decide)), before, m, after, htext, hds⟩

end WeaveStep
