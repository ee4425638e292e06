import WeaveStep.Proofs.Console.Readers
import WeaveStep.Proofs.Console.Streams
import WeaveStep.Proofs.Weave.Report
import WeaveStep.Proofs.Weave.Weaver

/-!
# The order in which the readers step

What the weaver answers does not depend on it: the diagnostics are the same but for the order in
which those of one stream stand among those of the other, and so the run is aborted for all
schedules of the readers or for none (**`runWeaver_of_schedules`**).
-/

namespace WeaveStep

open Console

/-- The world where processes leave this console. -/
def World.showing (w : World) (status : Int) (lines : List Line) : World :=
  { w with console := some ⟨status, lines⟩ }

section

variable {lines lines₁ lines₂ : List Line} {messages : List Message} (status : Int)
  (command : List String) (i : Invocation) (w : World)

theorem runWeaver_showing_ok (h : collect lines = .ok messages) :
    ∃ w', runWeaver command i (w.showing status lines) =
      .ok ((explained status messages).map Message.finish) w' := by
  obtain ⟨w', hrun⟩ := runWeaver_of_console (w := w.showing status lines) rfl command i
  refine ⟨w', hrun.trans ?_⟩
  simp [outcome, h, Functor.map, Except.map]

theorem runWeaver_showing_error {why : UnknownTag} (h : collect lines = .error why) :
    ∃ w', runWeaver command i (w.showing status lines) = .error (.unknownTag why.tag) w' := by
  obtain ⟨w', hrun⟩ := runWeaver_of_console (w := w.showing status lines) rfl command i
  refine ⟨w', hrun.trans ?_⟩
  simp [outcome, h, Functor.map, Except.map]

/-- Lines that are the same on every stream are refused together, or have messages that are the same
on every stream. -/
theorem collect_of_filter_eq
    (h : ∀ s, lines₁.filter (·.stream = s) = lines₂.filter (·.stream = s)) :
    (∃ why₁ why₂, collect lines₁ = .error why₁ ∧ collect lines₂ = .error why₂) ∨
      ∃ messages₁ messages₂, collect lines₁ = .ok messages₁ ∧ collect lines₂ = .ok messages₂ ∧
        ∀ s, messages₁.filter (·.stream = s) = messages₂.filter (·.stream = s) := by
  have hperm : lines₁.Perm lines₂ := perm_of_filter_eq Line.stream h
  have hboth : (∃ messages, collect lines₁ = .ok messages) ↔
      ∃ messages, collect lines₂ = .ok messages := by
    simp only [collect_isOk_iff, hperm.mem_iff]
  cases h₁ : collect lines₁ with
  | error why₁ =>
    cases h₂ : collect lines₂ with
    | error why₂ => exact .inl ⟨why₁, why₂, rfl, rfl⟩
    | ok messages₂ => simp [h₁, h₂] at hboth
  | ok messages₁ =>
    cases h₂ : collect lines₂ with
    | error why₂ => simp [h₁, h₂] at hboth
    | ok messages₂ =>
      refine .inr ⟨messages₁, messages₂, rfl, rfl, fun s => ?_⟩
      have hs₁ := collect_filter s h₁
      rw [h s, collect_filter s h₂] at hs₁
      exact (Except.ok.inj hs₁).symm

end

/-- However the readers step, their console is a shuffle of the lines of either stream, and the
weaver fails for all schedules or answers with the same diagnostics for all of them. Those of one
stream are in the same order, and whether they abort the run is the same for all schedules, too. -/
theorem runWeaver_of_schedules {out err : List String} {schedule₁ schedule₂ : List Stream}
    {r₁ r₂ : Readers} (h₁ : (Readers.start out err).run schedule₁ = some r₁) (hf₁ : r₁.IsFinished)
    (h₂ : (Readers.start out err).run schedule₂ = some r₂) (hf₂ : r₂.IsFinished) (status : Int)
    (command : List String) (i : Invocation) (w : World) :
    IsShuffle (out.map (Line.mk .stdout)) (err.map (Line.mk .stderr)) r₁.console ∧
    ((∃ why₁ w₁ why₂ w₂,
        runWeaver command i (w.showing status r₁.console) = .error why₁ w₁ ∧
        runWeaver command i (w.showing status r₂.console) = .error why₂ w₂) ∨
      ∃ messages₁ messages₂ ds₁ ds₂ w₁ w₂,
        collect r₁.console = .ok messages₁ ∧ collect r₂.console = .ok messages₂ ∧
        ds₁ = (explained status messages₁).map Message.finish ∧
        ds₂ = (explained status messages₂).map Message.finish ∧
        runWeaver command i (w.showing status r₁.console) = .ok ds₁ w₁ ∧
        runWeaver command i (w.showing status r₂.console) = .ok ds₂ w₂ ∧
        ds₁.Perm ds₂ ∧
        (∀ s, (explained status messages₁).filter (·.stream = s) =
          (explained status messages₂).filter (·.stream = s)) ∧
        ∀ logger u₁ u₂, (∃ why u, judgeReport false logger ds₁ u₁ = .error why u) ↔
          ∃ why u, judgeReport false logger ds₂ u₂ = .error why u) := by
  refine ⟨Readers.isShuffle_console h₁ hf₁, ?_⟩
  have hsame : ∀ s, r₁.console.filter (·.stream = s) = r₂.console.filter (·.stream = s) := fun s =>
    (Readers.filter_console h₁ hf₁ s).trans (Readers.filter_console h₂ hf₂ s).symm
  obtain ⟨why₁, why₂, hc₁, hc₂⟩ | ⟨messages₁, messages₂, hc₁, hc₂, hmessages⟩ :=
    collect_of_filter_eq hsame
  · obtain ⟨w₁, hw₁⟩ := runWeaver_showing_error status command i w hc₁
    obtain ⟨w₂, hw₂⟩ := runWeaver_showing_error status command i w hc₂
    exact .inl ⟨_, w₁, _, w₂, hw₁, hw₂⟩
  · obtain ⟨w₁, hw₁⟩ := runWeaver_showing_ok status command i w hc₁
    obtain ⟨w₂, hw₂⟩ := runWeaver_showing_ok status command i w hc₂
    have hexplained := filter_explained_congr status hmessages
    have hperm := (perm_of_filter_eq Message.stream hexplained).map Message.finish
    -- equal on either stream, the diagnostics are the same but for their order
    refine .inr ⟨messages₁, messages₂, _, _, w₁, w₂, hc₁, hc₂, rfl, rfl, hw₁, hw₂, hperm,
      hexplained, fun logger u₁ u₂ => ?_⟩
    rw [judgeReport_fails_iff, judgeReport_fails_iff]
    simp only [hperm.mem_iff]

/-- An error and a trace on two streams: the error can come first, and it can come in the middle of
the trace. -/
theorem runWeaver_of_two_schedules :
    ∃ r₁ r₂ : Readers,
      r₁.console = [⟨.stdout, "[error] no\n"⟩, ⟨.stderr, "boom\n"⟩, ⟨.stderr, "  at x\n"⟩] ∧
      r₂.console = [⟨.stderr, "boom\n"⟩, ⟨.stdout, "[error] no\n"⟩, ⟨.stderr, "  at x\n"⟩] ∧
      ∃ ds₁ ds₂ w₁ w₂,
        runWeaver ["ajc"] ⟨"", "", "", "", "", "", .ofString "out"⟩
          (World.showing { files := ⟨[], [], none⟩ } 1 r₁.console) = .ok ds₁ w₁ ∧
        runWeaver ["ajc"] ⟨"", "", "", "", "", "", .ofString "out"⟩
          (World.showing { files := ⟨[], [], none⟩ } 1 r₂.console) = .ok ds₂ w₂ ∧
        ds₁.Perm ds₂ := by
  have hfirst : IsShuffle (["[error] no\n"].map (Line.mk .stdout))
      (["boom\n", "  at x\n"].map (Line.mk .stderr)) _ := .left (.right (.right .nil))
  have hwithin : IsShuffle (["[error] no\n"].map (Line.mk .stdout))
      (["boom\n", "  at x\n"].map (Line.mk .stderr)) _ := .right (.left (.right .nil))
  obtain ⟨schedule₁, r₁, hrun₁, hf₁, hc₁⟩ := Readers.finished_iff_isShuffle.2 hfirst
  obtain ⟨schedule₂, r₂, hrun₂, hf₂, hc₂⟩ := Readers.finished_iff_isShuffle.2 hwithin
  refine ⟨r₁, r₂, hc₁, hc₂, ?_⟩
  have hcollect : collect r₁.console =
      .ok [⟨.error, "no", .stdout, none, true, []⟩,
        ⟨.info, "boom", .stderr, none, false, ["  at x"]⟩] :=
    hc₁ ▸ rfl
  obtain ⟨-, ⟨_, _, _, _, hw₁, -⟩ | ⟨_, _, ds₁, ds₂, w₁, w₂, -, -, -, -, hw₁, hw₂, hperm, -⟩⟩ :=
    runWeaver_of_schedules hrun₁ hf₁ hrun₂ hf₂ 1 ["ajc"] ⟨"", "", "", "", "", "", .ofString "out"⟩
      { files := ⟨[], [], none⟩ }
  · obtain ⟨_, hok⟩ := runWeaver_showing_ok 1 ["ajc"]
      ⟨"", "", "", "", "", "", .ofString "out"⟩ { files := ⟨[], [], none⟩ } hcollect
    rw [hok] at hw₁
    cases hw₁
  · exact ⟨ds₁, ds₂, w₁, w₂, hw₁, hw₂, hperm⟩

end WeaveStep
