import WeaveStep.Proofs.World
import WeaveStep.Weave.Step

/-!
# What a report comes to

`judgeReport_eq`: a report logs every diagnostic in order, and then fails with the first fatal one,
if one counts. So it fails exactly where there is a fatal diagnostic (`judgeReport_fails_iff`), and
the records tell of each of them (**`judgeReport_tells`**). The weave that this aborts fails with the
text of that diagnostic, and behind its failure is the cause of it (`runReported_aborts`).
-/

namespace WeaveStep

/-- The world after diagnostics were logged. -/
def World.logAll (verbose : Bool) (logger : String) (w : World) (ds : List Diagnostic) : World :=
  ds.foldl (fun w d => w.log (d.record verbose logger)) w

theorem report_eq {ε : Type} (verbose : Bool) (logger : String) (ds : List Diagnostic) (w : World) :
    report (ε := ε) verbose logger ds w =
      .ok ⟨ds, firstFatal? verbose ds⟩ (w.logAll verbose logger ds) := by
  have hlogs : ∀ (ds : List Diagnostic) (w : World),
      (ds.forM fun d => (modify (·.log (d.record verbose logger)) : Run ε Unit)) w =
        .ok () (w.logAll verbose logger ds) := by
    intro ds
    induction ds with
    | nil => intro w; rfl
    | cons d ds ih => intro w; exact ih (w.log (d.record verbose logger))
  unfold report
  simp only [bind, EStateM.bind, hlogs]
  rfl

theorem judgeReport_eq (verbose : Bool) (logger : String) (ds : List Diagnostic) (w : World) :
    judgeReport verbose logger ds w =
      match firstFatal? verbose ds with
      | some (_, d) => .error ⟨d.text, d.cause⟩ (w.logAll verbose logger ds)
      | none => .ok ⟨ds, none⟩ (w.logAll verbose logger ds) := by
  unfold judgeReport
  simp only [bind, EStateM.bind, report_eq]
  cases h : firstFatal? verbose ds with
  | none => rfl
  | some found => rfl

theorem firstFatal?_snd (ds : List Diagnostic) :
    (firstFatal? false ds).map Prod.snd = ds.find? Diagnostic.isFatal := by
  have hfound : (ds.findIdx? Diagnostic.isFatal).isSome = (ds.find? Diagnostic.isFatal).isSome :=
    List.findIdx?_isSome.trans List.isSome_find?.symm
  unfold firstFatal?
  rw [if_neg Bool.false_ne_true]
  cases hd : ds.find? Diagnostic.isFatal with
  | none => rfl
  | some d =>
    rw [hd] at hfound
    obtain ⟨i, hi⟩ := Option.isSome_iff_exists.1 hfound
    rw [hi]
    rfl

/-- Where not everything is told, the first fatal diagnostic counts, if there is one. -/
theorem firstFatal?_isSome (ds : List Diagnostic) :
    (firstFatal? false ds).isSome = ds.any Diagnostic.isFatal := by
  rw [← Option.isSome_map, firstFatal?_snd, List.isSome_find?]

theorem World.sameLaunches_logAll (verbose : Bool) (logger : String) (w : World)
    (ds : List Diagnostic) : w.SameLaunches (w.logAll verbose logger ds) := by
  induction ds generalizing w with
  | nil => exact refl_of World.SameLaunches w
  | cons d ds ih => exact (w.sameLaunches_log _).trans (ih _)

/-- A report fails exactly where there is a fatal diagnostic. -/
theorem judgeReport_fails_iff (logger : String) (ds : List Diagnostic) (w : World) :
    (∃ why w', judgeReport false logger ds w = .error why w') ↔ ∃ d ∈ ds, d.isFatal = true := by
  rw [judgeReport_eq, ← List.any_eq_true, ← firstFatal?_isSome]
  cases firstFatal? false ds with
  | none => simp
  | some found => simp

/-! ## Records that are logged -/

namespace World

/-- The world after records were logged. -/
def logged (w : World) (rs : List LogRecord) : World := rs.foldl log w

/-- What logging a record adds to the list of records: the record once for each time that the list is
among the sinks, if it is important enough. -/
def listing (w : World) (r : LogRecord) : List LogRecord :=
  if w.logging.threshold.rank ≤ r.level.rank then
    List.replicate (w.logging.sinks.count .records) r
  else []

theorem logAll_eq_logged (verbose : Bool) (logger : String) (w : World) (ds : List Diagnostic) :
    w.logAll verbose logger ds = w.logged (ds.map (·.record verbose logger)) :=
  List.foldl_map.symm

theorem records_emit (w : World) (r : LogRecord) (sink : Sink) :
    (w.emit r sink).records = w.records ++ List.replicate ([sink].count .records) r := by
  cases sink with
  | records => rfl
  | console threshold detailed =>
    simp only [emit]
    split <;> simp [print]
  | file => simp [emit]

theorem records_log (w : World) (r : LogRecord) : (w.log r).records = w.records ++ w.listing r := by
  have hsinks : ∀ (sinks : List Sink) (w : World), (sinks.foldl (emit · r) w).records =
      w.records ++ List.replicate (sinks.count .records) r := by
    intro sinks
    induction sinks with
    | nil => simp
    | cons sink sinks ih =>
      intro w
      have hcount : (sink :: sinks).count .records = [sink].count .records + sinks.count .records := by
        rw [← List.count_append, List.singleton_append]
      rw [List.foldl_cons, ih, records_emit, hcount, List.append_assoc, List.replicate_append_replicate]
  unfold log listing
  split
  · exact hsinks w.logging.sinks w
  · simp

theorem logging_log (w : World) (r : LogRecord) : (w.log r).logging = w.logging := by
  refine rel_log (R := fun w w' => w'.logging = w.logging) fun w' sink _ => ?_
  cases sink with
  | records => rfl
  | console threshold detailed =>
    simp only [emit]
    split <;> rfl
  | file => rfl

/-- Records get on the list in the order in which they are logged. -/
theorem records_logged (w : World) (rs : List LogRecord) :
    (w.logged rs).records = w.records ++ rs.flatMap w.listing := by
  induction rs generalizing w with
  | nil => simp [logged]
  | cons r rs ih =>
    have hlisting : (w.log r).listing = w.listing := by
      unfold listing
      rw [logging_log]
    calc ((w.log r).logged rs).records
        = (w.records ++ w.listing r) ++ rs.flatMap w.listing := by rw [ih, records_log, hlisting]
      _ = w.records ++ (r :: rs).flatMap w.listing := by simp

/-- The logging that a world starts with lists every record, and lists it once. -/
theorem listing_of_default {w : World} (h : w.logging = {}) (r : LogRecord) : w.listing r = [r] := by
  have hrank : LogLevel.debug.rank ≤ r.level.rank := by cases r.level <;> decide
  simp [listing, h, hrank]

end World

/-! ## What is told of a diagnostic -/

/-- How importantly a message of that severity is logged, where not everything is told. -/
def Severity.importance : Severity → LogLevel
  | weaveInfo => .debug
  | debug | info | taskTag => .info
  | warning => .warning
  | error | fail | abort => .error

/-- The record tells of the diagnostic: as its rendering, as importantly as it is severe, and with the
cause of an error; where everything is told, neither of these counts. -/
structure LogRecord.Tells (verbose : Bool) (logger : String) (d : Diagnostic) (r : LogRecord) :
    Prop where
  logger : r.logger = logger
  message : r.message = d.render
  level : r.level = if verbose then .quiet else d.severity.importance
  cause : r.cause = if !verbose && d.isFatal then d.cause else none

theorem tells_record (verbose : Bool) (logger : String) (d : Diagnostic) :
    (d.record verbose logger).Tells verbose logger d := by
  obtain ⟨severity, text, cause, location, detail⟩ := d
  refine ⟨rfl, rfl, ?_, ?_⟩
  · cases verbose <;> cases severity <;> rfl
  · cases verbose <;> cases severity <;> rfl

/-- The diagnostic is the first fatal one of a list. -/
def IsFirstFatal (ds : List Diagnostic) (d : Diagnostic) : Prop :=
  d.isFatal = true ∧ ∃ before after, ds = before ++ d :: after ∧ ∀ b ∈ before, b.isFatal = false

theorem exists_firstFatal?_iff {ds : List Diagnostic} {d : Diagnostic} :
    (∃ i, firstFatal? false ds = some (i, d)) ↔ IsFirstFatal ds d := by
  calc (∃ i, firstFatal? false ds = some (i, d))
      ↔ (firstFatal? false ds).map Prod.snd = some d := by simp
    _ ↔ IsFirstFatal ds d := by
      rw [firstFatal?_snd, List.find?_eq_some_iff_append]
      simp [IsFirstFatal]

theorem firstFatal?_eq_none_iff {verbose : Bool} {ds : List Diagnostic} :
    firstFatal? verbose ds = none ↔ verbose = true ∨ ∀ d ∈ ds, d.isFatal = false := by
  cases verbose with
  | true => simp [firstFatal?]
  | false =>
    rw [← Option.map_eq_none_iff, firstFatal?_snd]
    simp

/-- **A report tells of every diagnostic, in order, and then fails with the first fatal one, if one
counts**: it fails with the text and the cause of that one, and where everything is told it does not
fail. -/
theorem judgeReport_tells (verbose : Bool) (logger : String) (ds : List Diagnostic) (w : World) :
    ∃ told, List.Forall₂ (LogRecord.Tells verbose logger) ds told ∧
      (w.logged told).records = w.records ++ told.flatMap w.listing ∧
      (w.logging = {} → (w.logged told).records = w.records ++ told) ∧
      (∀ e w', judgeReport verbose logger ds w = .error e w' ↔
        w' = w.logged told ∧ verbose = false ∧ ∃ d, IsFirstFatal ds d ∧ e = ⟨d.text, d.cause⟩) ∧
      ∀ result w', judgeReport verbose logger ds w = .ok result w' ↔
        w' = w.logged told ∧ result = ⟨ds, none⟩ ∧ (verbose = true ∨ ∀ d ∈ ds, d.isFatal = false) := by
  refine ⟨ds.map (·.record verbose logger), ?_, w.records_logged _, fun hdefault => ?_, ?_⟩
  · rw [List.forall₂_map_right_iff, List.forall₂_same]
    exact fun d _ => tells_record verbose logger d
  · rw [World.records_logged, funext (World.listing_of_default hdefault), List.flatMap_singleton']
  rw [judgeReport_eq, World.logAll_eq_logged, ← firstFatal?_eq_none_iff]
  constructor
  · intro e w'
    cases verbose with
    | true => simp [firstFatal?]
    | false =>
      simp only [← exists_firstFatal?_iff]
      cases hfirst : firstFatal? false ds with
      | none => simp
      | some found =>
        obtain ⟨i, d⟩ := found
        constructor
        · rintro ⟨⟩
          exact ⟨rfl, trivial, d, ⟨i, rfl⟩, rfl⟩
        · rintro ⟨rfl, -, _, ⟨_, ⟨⟩⟩, rfl⟩
          rfl
  · intro result w'
    cases firstFatal? verbose ds with
    | none => simp [eq_comm, and_comm]
    | some found => simp

/-- **A weave that its report aborts** fails with the text of the first fatal diagnostic. The cause of that
diagnostic is what the failure carries and what lies behind it. -/
theorem runReported_aborts {weaver : Weaver} {verbose : Bool} {invocation : Invocation} {w w' : World}
    {why : Abort} (h : runReported weaver verbose invocation w = .error (.aborted why) w') :
    ∃ ds after d, weaver.run invocation { w with invocations := w.invocations ++ [invocation] } =
        .ok ds after ∧ verbose = false ∧ IsFirstFatal ds d ∧
      (WeaveFailure.aborted why).message = d.text ∧ why.cause = d.cause ∧
      (WeaveFailure.aborted why).origin = d.cause.map (·.kind) := by
  have htold : (modify fun w => { w with invocations := w.invocations ++ [invocation] } :
      Run WeaveFailure Unit) w = .ok () { w with invocations := w.invocations ++ [invocation] } := rfl
  rw [runReported, bind_ok htold] at h
  rcases bind_eq_error_iff.1 h with hweaver | ⟨ds, after, hran, hrest⟩
  · obtain ⟨_, -, hwhy⟩ := Run.wrapping_eq_error.1 hweaver
    cases hwhy
  rcases bind_eq_error_iff.1 hrest with hreport | ⟨_, _, -, hdone⟩
  · obtain ⟨_, hjudged, hwhy⟩ := Run.wrapping_eq_error.1 hreport
    cases hwhy
    rw [judgeReport_eq] at hjudged
    cases hfound : firstFatal? verbose ds with
    | none =>
      rw [hfound] at hjudged
      cases hjudged
    | some found =>
      obtain ⟨i, d⟩ := found
      rw [hfound] at hjudged
      cases hjudged
      cases verbose with
      | true =>
        rw [firstFatal?_eq_none_iff.2 (.inl rfl)] at hfound
        cases hfound
      | false =>
        exact ⟨ds, after, d, Run.wrapping_eq_ok.1 hran, rfl, exists_firstFatal?_iff.1 ⟨i, hfound⟩, rfl, rfl,
          rfl⟩
  · cases hdone

/-- The first error counts, not the worst. -/
example (w : World) (cause : Cause) :
    ∃ w', judgeReport false "" [⟨.warning, "old", none, none, []⟩, ⟨.error, "odd", some cause, none, []⟩,
      ⟨.abort, "gone", none, none, []⟩] w = .error ⟨"odd", some cause⟩ w' :=
  ⟨_, rfl⟩

end WeaveStep
