import Mathlib.Logic.Function.Basic
import WeaveStep.Console.Readers
import WeaveStep.Proofs.Console.Shuffle

/-!
# What the readers put on the console

However the steps of the two readers come, the lines of the console are a shuffle of what was
printed on the two streams, and every shuffle comes of some schedule (`finished_iff_isShuffle`). The
invariant (`Readers.all_run`): for each stream, the lines on the console and those its reader has
yet to put there are what was printed. The lock keeps no one waiting for good: whoever has it can
step, so that readers that have not finished are never stuck (`Readers.can_step`).
-/

namespace WeaveStep.Console

/-- The lines that a reader has yet to put on the console. -/
def Reader.pending (x : Reader) : List String :=
  (match x.stand with
    | .waiting line | .holding line => [line]
    | .reading | .leaving => []) ++ x.ahead

namespace Readers

variable {r r' : Readers} {s t : Stream} {schedule : List Stream}

/-- The lines of a stream: those on the console and those that are pending. -/
def all (r : Readers) (s : Stream) : List Line :=
  r.console.filter (·.stream = s) ++ (r.reader s).pending.map (Line.mk s)

theorem reader_set (x : Reader) : (r.set t x).reader s = if s = t then x else r.reader s := rfl

theorem console_set (x : Reader) : (r.set t x).console = r.console := rfl

/-- A step of a reader moves the lines of its stream and touches no other. -/
theorem all_step? (h : r.step? t = some r') (s : Stream) : r'.all s = r.all s := by
  unfold step? at h
  -- the stands of the reader that steps, first for its own stream and then for any other
  by_cases hs : s = t
  · subst hs
    split at h
    · cases h
    · rename_i line ahead hx
      cases h
      simp [all, reader_set, console_set, hx, Reader.pending]
    · rename_i line ahead hx
      split at h
      · cases h
      · cases h
        simp [all, reader_set, console_set, hx, Reader.pending]
    · rename_i line ahead hx
      cases h
      simp [all, reader_set, hx, Reader.pending]
    · rename_i ahead hx
      cases h
      simp [all, reader_set, console_set, hx, Reader.pending]
  · split at h
    · cases h
    · cases h
      simp [all, reader_set, console_set, hs]
    · split at h
      · cases h
      · cases h
        simp [all, reader_set, console_set, hs]
    · cases h
      simp [all, reader_set, hs, Ne.symm hs]
    · cases h
      simp [all, reader_set, console_set, hs]

/-- The run: the lines of a stream stay what they are. -/
theorem all_run (h : r.run schedule = some r') (s : Stream) : r'.all s = r.all s := by
  induction schedule generalizing r with
  | nil => cases h; rfl
  | cons t schedule ih =>
    obtain ⟨mid, hstep, hrun⟩ := Option.bind_eq_some_iff.1 h
    rw [ih hrun, all_step? hstep]

/-- When the readers have finished, the console holds the lines of a stream as they were printed. -/
theorem filter_console {out err : List String} (h : (start out err).run schedule = some r)
    (hf : r.IsFinished) (s : Stream) :
    r.console.filter (·.stream = s) = ((start out err).reader s).ahead.map (Line.mk s) := by
  have hall := all_run h s
  rw [all, all, hf s] at hall
  cases s <;> simpa [Reader.pending, start] using hall

/-! ## The lock -/

/-- While the list is locked, one of the readers has the lock. -/
def LockHeld (r : Readers) : Prop :=
  r.locked = true →
    ∃ s, (∃ line, (r.reader s).stand = .holding line) ∨ (r.reader s).stand = .leaving

theorem lockHeld_step? (hr : r.LockHeld) (h : r.step? t = some r') : r'.LockHeld := by
  unfold step? at h
  split at h
  · cases h
  · rename_i line ahead hx
    cases h
    -- A reader that takes a line does not have the lock, so whoever has it is another one.
    intro hlocked
    obtain ⟨s, hs⟩ := hr hlocked
    have hne : s ≠ t := by
      rintro rfl
      simp [hx] at hs
    exact ⟨s, by simpa [reader_set, hne] using hs⟩
  · rename_i line ahead hx
    split at h
    · cases h
    · cases h
      exact fun _ => ⟨t, .inl ⟨line, by simp [reader_set]⟩⟩
  · cases h
    exact fun _ => ⟨t, .inr (by simp [reader_set])⟩
  · cases h
    exact fun hlocked => by cases hlocked

theorem lockHeld_run (hr : r.LockHeld) (h : r.run schedule = some r') : r'.LockHeld := by
  induction schedule generalizing r with
  | nil => cases h; exact hr
  | cons t schedule ih =>
    obtain ⟨mid, hstep, hrun⟩ := Option.bind_eq_some_iff.1 h
    exact ih (lockHeld_step? hr hstep) hrun

/-- As long as the readers have not finished, one of them can step. -/
theorem can_step {out err : List String} (h : (start out err).run schedule = some r)
    (hf : ¬ r.IsFinished) : ∃ s, (r.step? s).isSome := by
  have hheld : r.LockHeld := lockHeld_run (fun hlocked => by cases hlocked) h
  cases hlocked : r.locked with
  | true =>
    -- whoever has the lock need not wait for it
    obtain ⟨s, hs⟩ := hheld hlocked
    refine ⟨s, ?_⟩
    unfold step?
    split <;> simp_all
  | false =>
    obtain ⟨s, hs⟩ := not_forall.1 hf
    refine ⟨s, ?_⟩
    unfold step?
    split
    · rename_i hx
      exact absurd hx hs
    · rfl
    · simp [hlocked]
    · rfl
    · rfl

/-! ## All shuffles -/

/-- Readers that are about to take their next lines, with some lines on the console. -/
def between (ahead : Stream → List String) (console : List Line) : Readers :=
  { reader := fun s => { ahead := ahead s }, console }

/-- Undisturbed, a reader puts its next line on the console. -/
theorem run_between {ahead : Stream → List String} {line : String} {rest : List String}
    (h : ahead s = line :: rest) (console : List Line) :
    (between ahead console).run [s, s, s, s] =
      some (between (Function.update ahead s rest) (console ++ [⟨s, line⟩])) := by
  have hreader : (fun t => if t = s then (⟨.reading, rest⟩ : Reader) else { ahead := ahead t }) =
      fun t => { ahead := Function.update ahead s rest t } := by
    funext t
    by_cases ht : t = s
    · subst ht; simp
    · simp [ht]
  simp only [run, List.foldlM_cons, List.foldlM_nil, step?, between, h, set, if_true,
    Option.bind_eq_bind, Option.bind_some, Option.pure_def, Bool.false_eq_true, if_false,
    Option.some.injEq, Readers.mk.injEq, and_true]
  rw [← hreader]
  funext t
  by_cases ht : t = s <;> simp [ht]

theorem run_append {schedule' : List Stream} {mid : Readers} (h : r.run schedule = some mid)
    (h' : mid.run schedule' = some r') : r.run (schedule ++ schedule') = some r' := by
  rw [run, List.foldlM_append]
  exact Option.bind_eq_some_iff.2 ⟨mid, h, h'⟩

/-- The lines that are still to come can be put on the console in any order that keeps the order of
either stream. -/
theorem exists_run_between {u v w : List Line} (h : IsShuffle u v w) (ahead : Stream → List String)
    (hout : u = (ahead .stdout).map (Line.mk .stdout))
    (herr : v = (ahead .stderr).map (Line.mk .stderr)) (hother : ∀ name, ahead (.other name) = [])
    (console : List Line) :
    ∃ schedule r, (between ahead console).run schedule = some r ∧ r.IsFinished ∧
      r.console = console ++ w := by
  induction h generalizing ahead console with
  | nil =>
    refine ⟨[], _, rfl, fun s => ?_, (List.append_nil _).symm⟩
    cases s with
    | stdout => simpa [between] using List.map_eq_nil_iff.1 hout.symm
    | stderr => simpa [between] using List.map_eq_nil_iff.1 herr.symm
    | other name => simp [between, hother]
  | left _ ih =>
    obtain ⟨line, rest, hahead, rfl, hrest⟩ := List.map_eq_cons_iff.1 hout.symm
    have hstep := run_between hahead console
    obtain ⟨schedule, r, hrun, hf, hr⟩ :=
      ih (Function.update ahead .stdout rest) (by simp [hrest]) (by simpa using herr)
        (by simpa using hother) (console ++ [⟨.stdout, line⟩])
    exact ⟨_, r, run_append hstep hrun, hf, by simpa using hr⟩
  | right _ ih =>
    obtain ⟨line, rest, hahead, rfl, hrest⟩ := List.map_eq_cons_iff.1 herr.symm
    have hstep := run_between hahead console
    obtain ⟨schedule, r, hrun, hf, hr⟩ :=
      ih (Function.update ahead .stderr rest) (by simpa using hout) (by simp [hrest])
        (by simpa using hother) (console ++ [⟨.stderr, line⟩])
    exact ⟨_, r, run_append hstep hrun, hf, by simpa using hr⟩

theorem start_eq_between (out err : List String) :
    start out err = between (fun s => ((start out err).reader s).ahead) [] := by
  simp only [start, between, Readers.mk.injEq, and_true]
  funext s
  cases s <;> rfl

/-- When the readers have finished, the console is a shuffle of what was printed on the streams. -/
theorem isShuffle_console {out err : List String} (h : (start out err).run schedule = some r)
    (hf : r.IsFinished) :
    IsShuffle (out.map (Line.mk .stdout)) (err.map (Line.mk .stderr)) r.console := by
  have hline : ∀ l ∈ r.console, l.stream ≠ .stdout → l.stream = .stderr := by
    intro l hl hout
    cases hs : l.stream with
    | stdout => exact absurd hs hout
    | stderr => rfl
    | other name =>
      have hnone : r.console.filter (·.stream = .other name) = [] := filter_console h hf _
      exact absurd hs (by simpa using List.filter_eq_nil_iff.1 hnone l hl)
  have hshuffle : IsShuffle (r.console.filter (·.stream = .stdout))
      (r.console.filter (·.stream = .stderr)) r.console := by
    refine isShuffle_filter fun l hl => ?_
    by_cases hout : l.stream = .stdout
    · simp [hout]
    · simp [hline l hl hout]
  rwa [filter_console h hf, filter_console h hf] at hshuffle

/-- The consoles that the readers can end with are the shuffles of what was printed. -/
theorem finished_iff_isShuffle {out err : List String} {lines : List Line} :
    (∃ schedule r, (start out err).run schedule = some r ∧ r.IsFinished ∧ r.console = lines) ↔
      IsShuffle (out.map (Line.mk .stdout)) (err.map (Line.mk .stderr)) lines := by
  constructor
  · rintro ⟨schedule, r, hrun, hf, rfl⟩
    exact isShuffle_console hrun hf
  · intro h
    obtain ⟨schedule, r, hrun, hf, hr⟩ :=
      exists_run_between h (fun s => ((start out err).reader s).ahead) rfl rfl
        (fun _ => rfl) []
    rw [← start_eq_between] at hrun
    exact ⟨schedule, r, hrun, hf, hr⟩

end Readers

end WeaveStep.Console
