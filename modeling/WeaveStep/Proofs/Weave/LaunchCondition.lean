import WeaveStep.Proofs.Weave.Frame
import WeaveStep.Proofs.Weave.Routing

/-!
# When the weaver is told what to do

The front of a weave does not depend on the weaver, and only where all of it succeeds is there
something to tell the weaver.

* `Prepares settings root version input w routing invocation opened`: the steps up to the slot of the
  woven classes, one after the other and every one with success. They lead from `w` to `opened`
  (`prepare_eq_ok`).
* `TellsOnce`, `TellsNothing`: the weaver is told an invocation once and its answer decides how the
  weave goes on, or no answer would make a difference.
* **`weave_tells_iff`**: which of the two it is, and what there is when the weaver is told.
-/

namespace WeaveStep

open FileTree Text

/-! ## Copies -/

/-- The world after the step has logged a message. -/
def World.told (w : World) (level : LogLevel) (message : String) : World :=
  w.log { level, logger := stepLogger, message }

theorem Run.log_eq_ok {ε : Type} {level : LogLevel} {message : String} {u : Unit} {w w' : World} :
    Run.log (ε := ε) level stepLogger message w = .ok u w' ↔ w' = w.told level message := by
  have hlog : Run.log (ε := ε) level stepLogger message w = .ok () (w.told level message) := rfl
  rw [hlog]
  simp [eq_comm]

/-- The excluded ones among the artifacts are copied in turn, each of them wholly. -/
inductive CopiesAll (root : Path) (rules : List ExcludeRule) :
    World → List Artifact → List Verdict → World → Prop
  | nil {w : World} : CopiesAll root rules w [] [] w
  | kept {w w' : World} {a : Artifact} {as : List Artifact} {vs : List Verdict}
      (kept : isExcluded a.path rules = false) (rest : CopiesAll root rules w as vs w') :
      CopiesAll root rules w (a :: as) (⟨a, none⟩ :: vs) w'
  | copied {w w' : World} {a : Artifact} {as : List Artifact} {vs : List Verdict} {slot : Path}
      {files : FileTree} (excluded : isExcluded a.path rules = true)
      (copy : copyIntoSlot root a (w.told .quiet a.exclusionNotice).files = .ok slot files)
      (rest : CopiesAll root rules { w.told .quiet a.exclusionNotice with files } as vs w') :
      CopiesAll root rules w (a :: as) (⟨a, some slot⟩ :: vs) w'

section

variable {root : Path} {rules : List ExcludeRule} {w w' : World} {as : List Artifact}
  {vs : List Verdict}

theorem judge_eq_ok {a : Artifact} {v : Verdict} : judge root rules stepLogger a w = .ok v w' ↔
    (isExcluded a.path rules = false ∧ v = ⟨a, none⟩ ∧ w' = w) ∨
    (isExcluded a.path rules = true ∧ ∃ slot files,
      copyIntoSlot root a (w.told .quiet a.exclusionNotice).files = .ok slot files ∧
      v = ⟨a, some slot⟩ ∧ w' = { w.told .quiet a.exclusionNotice with files }) := by
  unfold judge
  cases isExcluded a.path rules with
  | false => simp [pure_eq_ok]
  | true =>
    rw [if_pos rfl, bind_eq_ok_iff]
    simp only [bind_eq_ok_iff, Run.log_eq_ok, Run.onFiles_eq_ok, pure_eq_ok]
    constructor
    · rintro ⟨_, _, rfl, slot, mid, ⟨hcopy, hmid⟩, rfl, rfl⟩
      exact .inr ⟨trivial, slot, _, hcopy, rfl, hmid⟩
    · rintro (⟨⟨⟩, -⟩ | ⟨-, slot, files, hcopy, rfl, rfl⟩)
      exact ⟨(), _, rfl, slot, _, ⟨hcopy, rfl⟩, rfl, rfl⟩

theorem mapM_judge_eq_ok :
    as.mapM (judge root rules stepLogger) w = .ok vs w' ↔ CopiesAll root rules w as vs w' := by
  induction as generalizing w vs with
  | nil =>
    rw [List.mapM_nil, pure_eq_ok]
    constructor
    · rintro ⟨rfl, rfl⟩
      exact .nil
    · intro h
      cases h
      exact ⟨rfl, rfl⟩
  | cons a as ih =>
    simp only [List.mapM_cons, bind_eq_ok_iff, judge_eq_ok, pure_eq_ok]
    constructor
    · rintro ⟨v, mid, ⟨hkept, rfl, rfl⟩ | ⟨hexcluded, slot, files, hcopy, rfl, rfl⟩, vs', mid', hrest,
        rfl, rfl⟩
      · exact .kept hkept (ih.1 hrest)
      · exact .copied hexcluded hcopy (ih.1 hrest)
    · intro h
      cases h with
      | kept hkept hrest => exact ⟨_, _, .inl ⟨hkept, rfl, rfl⟩, _, _, ih.2 hrest, rfl, rfl⟩
      | copied hexcluded hcopy hrest =>
        exact ⟨_, _, .inr ⟨hexcluded, _, _, hcopy, rfl, rfl⟩, _, _, ih.2 hrest, rfl, rfl⟩

/-- The world after the verdicts were summed up. -/
def Routing.summedUp (routing : Routing) (w : World) : World :=
  if routing.nothingExcluded then w.told .quiet "Nothing excluded." else w

theorem route_eq_ok {inputs referenced : List Bundle} {routing : Routing} :
    route root rules stepLogger inputs referenced w = .ok routing w' ↔ ∃ verdicts copied,
      CopiesAll root rules w (inputs.flatMap (·.artifacts)) verdicts copied ∧
      routing = ⟨referenced.flatMap (·.artifacts), verdicts⟩ ∧ w' = routing.summedUp copied := by
  unfold route Routing.summedUp
  rw [bind_eq_ok_iff]
  simp only [mapM_judge_eq_ok]
  constructor
  · rintro ⟨verdicts, copied, hcopies, h⟩
    split at h
    · rename_i hnothing
      obtain ⟨_, _, hlog, h⟩ := bind_eq_ok h
      rw [Run.log_eq_ok] at hlog
      subst hlog
      cases h
      exact ⟨verdicts, copied, hcopies, rfl, (if_pos hnothing).symm⟩
    · rename_i hsome
      cases h
      exact ⟨verdicts, _, hcopies, rfl, (if_neg hsome).symm⟩
  · rintro ⟨verdicts, copied, hcopies, rfl, rfl⟩
    refine ⟨verdicts, copied, hcopies, ?_⟩
    split
    · exact bind_ok rfl
    · rfl

end

/-! ## The front of a weave -/

/-- The world in which the runtime library is looked for. -/
def World.announced (w : World) (version : Option String) (incremental : Bool) : World :=
  (if incremental then
    w.told .debug "Incremental run requested; performing a full weave." else w).told .quiet
    ("AspectJ Compiler, version " ++ (given? version).getD "unknown")

/-- The world in which artifacts are routed. -/
def World.warnedOfExclusion (w : World) : World :=
  (w.told .quiet "Excluding dependencies from AspectJ Compiler inpath ...").told .quiet
    ("Note: The excluded will not be eliminated from the compilation. " ++
      "They're just being used as classpath instead.")

/-- The world in which the slot of the woven classes is opened. -/
def Settings.missed (settings : Settings) (library : Option String) (w : World) : World :=
  if settings.runtimeNeeded ∧ given? library = none then
    w.told .error "Can not extract java runtime classpath." else w

/-- The invocation for routed artifacts, with these class paths and this output. -/
def Routing.invocation (routing : Routing) (settings : Settings) (boot : List String)
    (library : Option String) (output : Path) : Invocation where
  source := settings.compileOptions.source
  target := settings.compileOptions.target
  encoding := settings.compileOptions.encoding
  inpath := joinPaths ((routing.toWeave.map (·.path)).map (·.text))
  classpath := joinPaths (classpathEntries settings (routing.classpathOnly.map (·.path)) library)
  bootClasspath := joinPaths boot
  output

/-- A weave up to the slot of the woven classes, every step of it with success: earlier outputs are
removed, the runtime library is looked for if it is needed, every excluded artifact is copied, the
boot class path is found, and the slot of the woven classes is opened. -/
inductive Prepares (settings : Settings) (root : Path) (version : Option String)
    (input : WeaveInput) (w : World) : Routing → Invocation → World → Prop
  | intro {cleared files : FileTree} {library : Option String} {verdicts : List Verdict}
      {announced copied routed : World} {boot : List String} {output : Path} {routing : Routing}
      (enabled : settings.enabled = true)
      (clears : clearSlots root w.files = .ok () cleared)
      (announces : announced = { w with files := cleared }.announced version input.incremental)
      (finds : neededLibrary settings input.javaClasspath announced = .ok library announced)
      (copies : CopiesAll root settings.excludeRules announced.warnedOfExclusion
        (input.inputs.flatMap (·.artifacts)) verdicts copied)
      (routes : routing = ⟨input.referenced.flatMap (·.artifacts), verdicts⟩)
      (sums : routed = routing.summedUp copied)
      (boots : bootClasspath routed.files settings routed.environment = .ok boot)
      (opens : openSlot root mainSlot (settings.missed library routed).files = .ok output files) :
      Prepares settings root version input w routing
        (routing.invocation settings boot library output)
        { settings.missed library routed with files }

/-- The front of an enabled weave, after it was announced. -/
def prepare (settings : Settings) (root : Path) (input : WeaveInput) :
    Run WeaveFailure (Routing × Invocation) := do
  let library ← Run.wrapping .files (neededLibrary settings input.javaClasspath)
  Run.log .quiet stepLogger "Excluding dependencies from AspectJ Compiler inpath ..."
  Run.log .quiet stepLogger
    ("Note: The excluded will not be eliminated from the compilation. " ++
      "They're just being used as classpath instead.")
  let routing ← Run.wrapping .ofRoute
    (route root settings.excludeRules stepLogger input.inputs input.referenced)
  let w ← get
  let boot ← Run.ofExcept .ofPlatform (bootClasspath w.files settings w.environment)
  let invocation ← Run.wrapping .files (assemble settings root stepLogger
    (routing.toWeave.map (·.path)) (routing.classpathOnly.map (·.path)) boot library)
  return (routing, invocation)

/-- The end of an enabled weave: the weaver is told what to do, if there is anything to weave. -/
def conclude (weaver : Weaver) (verbose : Bool) (routing : Routing) (invocation : Invocation) :
    Run WeaveFailure Completion := do
  if routing.toWeave.isEmpty then
    Run.log .quiet stepLogger "Nothing to weave."
    return .nothingToWeave routing invocation
  Run.log .quiet stepLogger "Weaving ..."
  return .woven routing invocation (← runReported weaver verbose invocation)

section

variable {settings : Settings} {root : Path} {version : Option String} {input : WeaveInput}
  {routing : Routing} {invocation : Invocation} {w w' opened mid : World}

theorem weaveEnabled_eq (weaver : Weaver) : weaveEnabled settings root weaver input w =
    (prepare settings root input >>= fun p => conclude weaver settings.verbose p.1 p.2)
      (w.announced weaver.version input.incremental) := by
  unfold weaveEnabled prepare conclude World.announced
  cases input.incremental <;> simp only [bind_assoc, pure_bind] <;> rfl

theorem neededLibrary_same {javaClasspath : List String} {library : Option String}
    (h : neededLibrary settings javaClasspath w = .ok library w') : w' = w := by
  unfold neededLibrary at h
  split at h
  · obtain ⟨_, _, hget, h⟩ := bind_eq_ok h
    cases hget
    exact (Run.ask_eq_ok.1 h).2
  · exact (pure_eq_ok.1 h).2

theorem assemble_eq_ok {boot : List String} {library : Option String} :
    assemble settings root stepLogger (routing.toWeave.map (·.path))
      (routing.classpathOnly.map (·.path)) boot library w = .ok invocation w' ↔
    ∃ output files, openSlot root mainSlot (settings.missed library w).files = .ok output files ∧
      invocation = routing.invocation settings boot library output ∧
      w' = { settings.missed library w with files } := by
  unfold assemble Settings.missed
  split
  · simp only [bind_eq_ok_iff, Run.log_eq_ok, Run.onFiles_eq_ok, pure_eq_ok]
    constructor
    · rintro ⟨_, _, rfl, output, _, ⟨hopen, hmid⟩, rfl, rfl⟩
      exact ⟨output, _, hopen, rfl, hmid⟩
    · rintro ⟨output, files, hopen, rfl, rfl⟩
      exact ⟨(), _, rfl, output, _, ⟨hopen, rfl⟩, rfl, rfl⟩
  · simp only [bind_eq_ok_iff, Run.onFiles_eq_ok, pure_eq_ok]
    constructor
    · rintro ⟨output, _, ⟨hopen, hmid⟩, rfl, rfl⟩
      exact ⟨output, _, hopen, rfl, hmid⟩
    · rintro ⟨output, files, hopen, rfl, rfl⟩
      exact ⟨output, _, ⟨hopen, rfl⟩, rfl, rfl⟩

theorem prepare_eq_ok : prepare settings root input w = .ok (routing, invocation) opened ↔
    ∃ library verdicts copied boot output files,
      neededLibrary settings input.javaClasspath w = .ok library w ∧
      CopiesAll root settings.excludeRules w.warnedOfExclusion
        (input.inputs.flatMap (·.artifacts)) verdicts copied ∧
      routing = ⟨input.referenced.flatMap (·.artifacts), verdicts⟩ ∧
      bootClasspath (routing.summedUp copied).files settings (routing.summedUp copied).environment =
        .ok boot ∧
      openSlot root mainSlot (settings.missed library (routing.summedUp copied)).files =
        .ok output files ∧
      invocation = routing.invocation settings boot library output ∧
      opened = { settings.missed library (routing.summedUp copied) with files } := by
  have hget : ∀ {w w' mid : World}, (get : Run WeaveFailure World) w = .ok w' mid ↔ w' = w ∧ mid = w :=
    pure_eq_ok
  unfold prepare
  simp only [bind_eq_ok_iff, Run.log_eq_ok, Run.wrapping_eq_ok, route_eq_ok, assemble_eq_ok,
    Run.ofExcept_eq_ok, hget, pure_eq_ok]
  constructor
  · rintro ⟨library, _, hfinds, _, _, rfl, _, _, rfl, routing', _, ⟨verdicts, copied, hcopies, rfl, rfl⟩,
      _, _, ⟨rfl, rfl⟩, boot, _, ⟨hboots, rfl⟩, invocation', _, ⟨output, files, hopens, rfl, rfl⟩, h, rfl⟩
    obtain ⟨rfl, rfl⟩ := Prod.mk.inj h
    obtain rfl := neededLibrary_same hfinds
    exact ⟨library, verdicts, copied, boot, output, files, hfinds, hcopies, rfl, hboots, hopens, rfl, rfl⟩
  · rintro ⟨library, verdicts, copied, boot, output, files, hfinds, hcopies, rfl, hboots, hopens, rfl, rfl⟩
    exact ⟨library, w, hfinds, (), _, rfl, (), _, rfl, _, _, ⟨verdicts, copied, hcopies, rfl, rfl⟩,
      _, _, ⟨rfl, rfl⟩, boot, _, ⟨hboots, rfl⟩, _, _, ⟨output, files, hopens, rfl, rfl⟩, rfl, rfl⟩

theorem prepares_iff : Prepares settings root version input w routing invocation opened ↔
    settings.enabled = true ∧ ∃ cleared, clearSlots root w.files = .ok () cleared ∧
      prepare settings root input ({ w with files := cleared }.announced version input.incremental) =
        .ok (routing, invocation) opened := by
  constructor
  · intro h
    cases h with
    | intro enabled clears announces finds copies routes sums boots opens =>
      subst announces sums
      exact ⟨enabled, _, clears, prepare_eq_ok.2
        ⟨_, _, _, _, _, _, finds, copies, routes, boots, opens, rfl, rfl⟩⟩
  · rintro ⟨enabled, cleared, clears, h⟩
    obtain ⟨library, verdicts, copied, boot, output, files, finds, copies, routes, boots, opens, rfl, rfl⟩ :=
      prepare_eq_ok.1 h
    exact .intro enabled clears rfl finds copies routes rfl boots opens

theorem Prepares.toWeave (h : Prepares settings root version input w routing invocation opened) :
    routing.toWeave = (input.inputs.flatMap (·.artifacts)).filter
      fun a => !isExcluded a.path settings.excludeRules := by
  cases h with
  | intro enabled clears announces finds copies routes sums boots opens =>
    have hroute := route_eq_ok.2 ⟨_, _, copies, routes, rfl⟩
    exact toWeave_of_route hroute

/-- The slot of the woven classes is there, and logging leaves it there. -/
theorem Prepares.output_there (h : Prepares settings root version input w routing invocation opened)
    (level : LogLevel) (message : String) : ∃ place,
      (opened.told level message).files.look .followed invocation.output = .ok (place, .directory) := by
  cases h with
  | @intro _ files library _ _ _ routed _ output _ enabled clears announces finds copies routes sums
      boots opens =>
    have hopen : openSlot root mainSlot =
        (do ensureDirectory (slotPath root mainSlot); return slotPath root mainSlot) := rfl
    rw [hopen] at opens
    obtain ⟨_, _, hmade, hdone⟩ := bind_eq_ok opens
    obtain ⟨rfl, rfl⟩ := pure_eq_ok.1 hdone
    obtain ⟨place, hlook⟩ := look_of_ensureDirectory hmade
    have htold := keeps_log (I := Told files)
      (fun t bytes ht => trans_of Told ht (told_extendHeld t bytes))
      { settings.missed library routed with files } { level, logger := stepLogger, message }
      (refl_of Told files)
    exact ⟨place, look_directory_of_stays htold.stays hlook⟩

end

/-! ## What the weaver is told -/

/-- How a weave goes on by what the weaver answers. -/
def goOn (verbose : Bool) (routing : Routing) (invocation : Invocation)
    (answer : Run WeaverFailure (List Diagnostic)) : Run WeaveFailure Completion := do
  let diagnostics ← Run.wrapping .weaver answer
  let _ ← Run.wrapping .aborted (judgeReport verbose stepLogger diagnostics)
  return .woven routing invocation diagnostics

/-- The world after it was recorded what the weaver is told. -/
def World.recorded (w : World) (invocation : Invocation) : World :=
  { w with invocations := w.invocations ++ [invocation] }

/-- The weaver is told the invocation once, in the world `told`. How the weave ends goes by what it
answers, whatever that is. -/
def TellsOnce (settings : Settings) (root : Path) (version : Option String) (input : WeaveInput)
    (w : World) (routing : Routing) (invocation : Invocation) (told : World) : Prop :=
  ∀ run, weave settings root ⟨version, run⟩ input w =
    goOn settings.verbose routing invocation (run invocation) told

/-- The weaver is told nothing: however it would answer, the weave ends the same way. -/
def TellsNothing (settings : Settings) (root : Path) (version : Option String) (input : WeaveInput)
    (w : World) : Prop :=
  ∃ ending, ∀ run, weave settings root ⟨version, run⟩ input w = ending

section

variable {settings : Settings} {root : Path} {version : Option String} {input : WeaveInput}
  {routing : Routing} {invocation : Invocation} {w opened told : World}

theorem goOn_silent (verbose : Bool) : goOn verbose routing invocation (pure []) told =
    .ok (.woven routing invocation []) told := by
  cases verbose <;> rfl

theorem goOn_failed (verbose : Bool) (e : WeaverFailure) :
    goOn verbose routing invocation (throw e) told = .error (.weaver e) told := rfl

theorem TellsOnce.unique {routing' : Routing} {invocation' : Invocation} {told' : World}
    (h : TellsOnce settings root version input w routing invocation told)
    (h' : TellsOnce settings root version input w routing' invocation' told') :
    routing = routing' ∧ invocation = invocation' ∧ told = told' := by
  have hsilent := (h fun _ => pure []).symm.trans (h' fun _ => pure [])
  rw [goOn_silent, goOn_silent] at hsilent
  cases hsilent
  exact ⟨rfl, rfl, rfl⟩

/-- The one excludes the other, since a failure of the weaver is told from an answer. -/
theorem TellsOnce.not_tellsNothing
    (h : TellsOnce settings root version input w routing invocation told) :
    ¬ TellsNothing settings root version input w := by
  rintro ⟨ending, hending⟩
  have hsame := (hending fun _ => pure []).trans (hending fun _ => throw .noCommand).symm
  rw [h, h, goOn_silent, goOn_failed] at hsame
  cases hsame

theorem weave_of_cleared {weaver : Weaver} {cleared : FileTree} (enabled : settings.enabled = true)
    (clears : clearSlots root w.files = .ok () cleared) : weave settings root weaver input w =
      (prepare settings root input >>= fun p => conclude weaver settings.verbose p.1 p.2)
        ({ w with files := cleared }.announced weaver.version input.incremental) := by
  have hclears : Run.onFiles WeaveFailure.files (clearSlots root) w =
      .ok () { w with files := cleared } := Run.onFiles_eq_ok.2 ⟨clears, rfl⟩
  rw [weave_eq, bind_ok hclears, weaveCleared, if_pos enabled, weaveEnabled_eq]

/-- Where a step before the weaver fails, the weaver makes no difference. -/
theorem tellsNothing_of_not_prepares
    (h : ∀ routing invocation opened,
      ¬ Prepares settings root version input w routing invocation opened) :
    TellsNothing settings root version input w := by
  cases hclears : Run.onFiles WeaveFailure.files (clearSlots root) w with
  | error e w' => exact ⟨.error e w', fun run => by rw [weave_eq, bind_error hclears]⟩
  | ok u cleared =>
    cases henabled : settings.enabled with
    | false =>
      refine ⟨.ok .disabled (cleared.told .quiet "AspectJ weaving is disabled."), fun run => ?_⟩
      rw [weave_eq, bind_ok hclears, weaveCleared, if_neg (by simp [henabled])]
      rfl
    | true =>
      obtain ⟨hcleared, -⟩ := Run.onFiles_eq_ok.1 hclears
      cases hprepared : prepare settings root input
          ({ w with files := cleared.files }.announced version input.incremental) with
      | error e w' =>
        exact ⟨.error e w', fun run => by
          rw [weave_of_cleared henabled hcleared, bind_error hprepared]⟩
      | ok p opened =>
        exact absurd (prepares_iff.2 ⟨henabled, cleared.files, hcleared, hprepared⟩) (h p.1 p.2 opened)

theorem Prepares.weave_eq (h : Prepares settings root version input w routing invocation opened)
    (run : Invocation → Run WeaverFailure (List Diagnostic)) :
    weave settings root ⟨version, run⟩ input w =
      conclude ⟨version, run⟩ settings.verbose routing invocation opened := by
  obtain ⟨henabled, cleared, hclears, hprepared⟩ := prepares_iff.1 h
  rw [weave_of_cleared henabled hclears, bind_ok hprepared]

/-- Where something is left to be woven, the weaver is told. -/
theorem conclude_of_left (hsome : routing.toWeave.isEmpty = false) (weaver : Weaver) (verbose : Bool)
    (w : World) : conclude weaver verbose routing invocation w =
      goOn verbose routing invocation (weaver.run invocation)
        ((w.told .quiet "Weaving ...").recorded invocation) := by
  rw [conclude, hsome]
  unfold goOn runReported
  simp only [bind_assoc]
  rfl

theorem Prepares.tellsOnce (h : Prepares settings root version input w routing invocation opened)
    (hleft : ∃ a ∈ input.inputs.flatMap (·.artifacts),
      isExcluded a.path settings.excludeRules = false) :
    TellsOnce settings root version input w routing invocation
      ((opened.told .quiet "Weaving ...").recorded invocation) := by
  intro run
  have hsome : routing.toWeave.isEmpty = false := by
    obtain ⟨a, ha, hkept⟩ := hleft
    rw [h.toWeave, List.isEmpty_eq_false_iff_exists_mem]
    exact ⟨a, List.mem_filter.2 ⟨ha, by simp [hkept]⟩⟩
  rw [h.weave_eq, conclude_of_left hsome]

theorem Prepares.weave_nothing
    (h : Prepares settings root version input w routing invocation opened)
    (hnone : ∀ a ∈ input.inputs.flatMap (·.artifacts),
      isExcluded a.path settings.excludeRules = true)
    (run : Invocation → Run WeaverFailure (List Diagnostic)) :
    weave settings root ⟨version, run⟩ input w =
      .ok (.nothingToWeave routing invocation) (opened.told .quiet "Nothing to weave.") := by
  have hempty : routing.toWeave.isEmpty = true := by
    rw [h.toWeave, List.isEmpty_iff, List.filter_eq_nil_iff]
    exact fun a ha => by simp [hnone a ha]
  rw [h.weave_eq, conclude, if_pos hempty]
  rfl

/-- The weaver is told once or not at all, and once exactly where all steps before it went well and
something is left for it. -/
theorem tellsOnce_iff : TellsOnce settings root version input w routing invocation told ↔
    ∃ opened, Prepares settings root version input w routing invocation opened ∧
      (∃ a ∈ input.inputs.flatMap (·.artifacts), isExcluded a.path settings.excludeRules = false) ∧
      told = (opened.told .quiet "Weaving ...").recorded invocation := by
  constructor
  · intro h
    by_cases hprepares : ∃ routing invocation opened,
        Prepares settings root version input w routing invocation opened
    · obtain ⟨routing', invocation', opened, hprepares⟩ := hprepares
      by_cases hleft : ∃ a ∈ input.inputs.flatMap (·.artifacts),
          isExcluded a.path settings.excludeRules = false
      · obtain ⟨rfl, rfl, rfl⟩ := h.unique (hprepares.tellsOnce hleft)
        exact ⟨opened, hprepares, hleft, rfl⟩
      · simp only [not_exists, not_and, Bool.not_eq_false] at hleft
        exact absurd ⟨_, hprepares.weave_nothing hleft⟩ h.not_tellsNothing
    · simp only [not_exists] at hprepares
      exact absurd (tellsNothing_of_not_prepares hprepares) h.not_tellsNothing
  · rintro ⟨opened, hprepares, hleft, rfl⟩
    exact hprepares.tellsOnce hleft

theorem tellsOnce_or_nothing (settings : Settings) (root : Path) (version : Option String)
    (input : WeaveInput) (w : World) :
    (∃ routing invocation told,
      TellsOnce settings root version input w routing invocation told) ∨
    TellsNothing settings root version input w := by
  by_cases hprepares : ∃ routing invocation opened,
      Prepares settings root version input w routing invocation opened
  · obtain ⟨routing, invocation, opened, hprepares⟩ := hprepares
    by_cases hleft : ∃ a ∈ input.inputs.flatMap (·.artifacts),
        isExcluded a.path settings.excludeRules = false
    · exact .inl ⟨routing, invocation, _, hprepares.tellsOnce hleft⟩
    · simp only [not_exists, not_and, Bool.not_eq_false] at hleft
      exact .inr ⟨_, hprepares.weave_nothing hleft⟩
  · simp only [not_exists] at hprepares
    exact .inr (tellsNothing_of_not_prepares hprepares)

theorem invocation_of_goOn {verbose : Bool} {answer : Run WeaverFailure (List Diagnostic)}
    {completion : Completion} {w' : World}
    (h : goOn verbose routing invocation answer told = .ok completion w') :
    completion.invocation? = some invocation := by
  obtain ⟨_, _, -, h⟩ := bind_eq_ok h
  obtain ⟨_, _, -, h⟩ := bind_eq_ok h
  cases h
  rfl

end

/-! ## Incremental runs -/

/-- What is logged of an incremental run. -/
def incrementalNotice : String := "Incremental run requested; performing a full weave."

/-- What the weaver does to a world, and answers, does not go by what was logged. -/
def Weaver.IgnoresLog (weaver : Weaver) : Prop :=
  ∀ w₀ w₁ i, Respects (World.SameSince w₀ w₁) (weaver.run i)

section

variable {settings : Settings} {root : Path} {weaver : Weaver} {input : WeaveInput} {w : World}

/-- An incremental run is a full one, from the world in which its notice is logged. -/
theorem weave_incremental : weave settings root weaver { input with incremental := true } w =
    (do Run.onFiles WeaveFailure.files (clearSlots root)
        if settings.enabled then Run.log .debug stepLogger incrementalNotice
        weaveCleared settings root weaver { input with incremental := false }) w := by
  rw [weave_eq]
  cases hclears : Run.onFiles WeaveFailure.files (clearSlots root) w with
  | error e w' => rw [bind_error hclears, bind_error hclears]
  | ok u cleared =>
    rw [bind_ok hclears, bind_ok hclears]
    unfold weaveCleared
    cases settings.enabled <;> rfl

/-- With a weaver that ignores it, the notice is all that an incremental run has more. -/
theorem weave_incremental_alike (hweaver : weaver.IgnoresLog)
    (hsinks : Sink.file ∉ w.logging.sinks) :
    weave settings root weaver { input with incremental := true } w =
      weave settings root weaver { input with incremental := false } w ∨
    ∃ cleared, EndsAlike (World.SameSince { w with files := cleared }
        ({ w with files := cleared }.told .debug incrementalNotice))
      (weave settings root weaver { input with incremental := false } w)
      (weave settings root weaver { input with incremental := true } w) := by
  rw [weave_incremental, weave_eq]
  cases hclears : Run.onFiles WeaveFailure.files (clearSlots root) w with
  | error e w' => exact .inl (by rw [bind_error hclears, bind_error hclears])
  | ok u cleared =>
    rw [bind_ok hclears, bind_ok hclears]
    cases henabled : settings.enabled with
    | false => exact .inl rfl
    | true =>
      right
      obtain ⟨-, hcleared⟩ := Run.onFiles_eq_ok.1 hclears
      refine ⟨cleared.files, ?_⟩
      rw [← hcleared]
      have hlogging : cleared.logging = w.logging := by rw [hcleared]
      exact respects_weaveCleared (World.isBlind_sameSince _ _) (hweaver _ _) settings root _ _ _
        (World.sameSince_log (hlogging ▸ hsinks) _)

end

/-! ## The launch condition -/

/-- **What the weaver is told**, in a weave with any weaver of that version. It is told one
invocation or nothing. It is told one exactly where earlier outputs were removed, weaving is enabled,
every excluded artifact was copied, the boot class path was found, the slot of the woven classes was
opened and there is an artifact that no rule excludes; all of that is done before, and the slot is
there. The invocation is the one of the result.

A disabled weave removes earlier outputs and does nothing else to files. Where the steps before the
weaver go well and nothing is left to be woven, the weave succeeds with the slot of the woven classes
there. An incremental run is a full one with one more record in the log, for any weaver that ignores
the log. -/
theorem weave_tells_iff (settings : Settings) (root : Path) (version : Option String)
    (input : WeaveInput) (w : World) :
    ((∃ routing invocation told,
        TellsOnce settings root version input w routing invocation told) ∨
      TellsNothing settings root version input w) ∧
    (∀ routing invocation told,
      TellsOnce settings root version input w routing invocation told ↔
        ∃ opened, Prepares settings root version input w routing invocation opened ∧
          (∃ a ∈ input.inputs.flatMap (·.artifacts),
            isExcluded a.path settings.excludeRules = false) ∧
          told = (opened.told .quiet "Weaving ...").recorded invocation) ∧
    (∀ routing invocation told,
      TellsOnce settings root version input w routing invocation told →
        ¬ TellsNothing settings root version input w ∧
        (∃ place, told.files.look .followed invocation.output = .ok (place, .directory)) ∧
        ∀ run completion w', weave settings root ⟨version, run⟩ input w = .ok completion w' →
          completion.invocation? = some invocation) ∧
    (settings.enabled = false → ∀ run, weave settings root ⟨version, run⟩ input w =
      (do Run.onFiles WeaveFailure.files (clearSlots root)
          Run.log .quiet stepLogger "AspectJ weaving is disabled."
          return Completion.disabled) w) ∧
    (∀ routing invocation opened,
      Prepares settings root version input w routing invocation opened →
      (∀ a ∈ input.inputs.flatMap (·.artifacts),
        isExcluded a.path settings.excludeRules = true) →
      (∃ place, (opened.told .quiet "Nothing to weave.").files.look .followed invocation.output =
        .ok (place, .directory)) ∧
      ∀ run, weave settings root ⟨version, run⟩ input w =
        .ok (.nothingToWeave routing invocation) (opened.told .quiet "Nothing to weave.")) ∧
    (∀ run, weave settings root ⟨version, run⟩ { input with incremental := true } w =
      (do Run.onFiles WeaveFailure.files (clearSlots root)
          if settings.enabled then Run.log .debug stepLogger incrementalNotice
          weaveCleared settings root ⟨version, run⟩ { input with incremental := false }) w) ∧
    (∀ run, (⟨version, run⟩ : Weaver).IgnoresLog → Sink.file ∉ w.logging.sinks →
      weave settings root ⟨version, run⟩ { input with incremental := true } w =
        weave settings root ⟨version, run⟩ { input with incremental := false } w ∨
      ∃ cleared, EndsAlike (World.SameSince { w with files := cleared }
          ({ w with files := cleared }.told .debug incrementalNotice))
        (weave settings root ⟨version, run⟩ { input with incremental := false } w)
        (weave settings root ⟨version, run⟩ { input with incremental := true } w)) := by
  refine ⟨tellsOnce_or_nothing settings root version input w, fun _ _ _ => tellsOnce_iff, ?_, ?_, ?_,
    fun _ => weave_incremental, fun _ => weave_incremental_alike⟩
  · intro routing invocation told htells
    refine ⟨htells.not_tellsNothing, ?_, fun run completion w' h => ?_⟩
    · obtain ⟨opened, hprepares, -, rfl⟩ := tellsOnce_iff.1 htells
      exact hprepares.output_there _ _
    · rw [htells] at h
      exact invocation_of_goOn h
  · intro hdisabled run
    simp only [weave, hdisabled]
    rfl
  · intro routing invocation opened hprepares hnone
    exact ⟨hprepares.output_there _ _, hprepares.weave_nothing hnone⟩

/-- A weave of one directory, over a link among earlier outputs, tells the weaver once. -/
theorem weave_tells_of_folder :
    ∃ routing invocation told, TellsOnce {} rootBeside none
      { inputs := [⟨[⟨⟨.root, ["in"]⟩, "in", .directory⟩], []⟩] } { files := filesBeside }
      routing invocation told := by
  have hclear : clearSlots rootBeside filesBeside = .ok () filesBeside := by cbv
  have hopen : ∃ files, openSlot rootBeside mainSlot filesBeside =
      .ok (slotPath rootBeside mainSlot) files := by
    rw [openSlot_mainSlot]
    exact ⟨_, bind_ok openSlot_beside⟩
  obtain ⟨files, hopen⟩ := hopen
  exact ⟨_, _, _, ((weave_tells_iff {} rootBeside none _ _).2.1 _ _ _).2
    ⟨_, .intro rfl hclear rfl rfl (.kept rfl .nil) rfl rfl rfl hopen,
      ⟨_, List.mem_singleton_self _, rfl⟩, rfl⟩⟩

end WeaveStep
