import WeaveStep.Proofs.Files.View
import WeaveStep.Proofs.Weave.Report
import WeaveStep.Weave.Step

/-!
# What a weave does not look at

A weave looks at files through their view only, and it never looks at what was logged or printed.

* `World.IsBlind R`: the relation is kept by logging, and by changes to files that go by their view.
  A weave that goes on in one of two such worlds, with earlier outputs removed, ends as it does in the
  other (**`respects_weaveCleared`**), provided that the weaver itself does.
* `World.SameView`: the worlds differ at most in how their file trees list the entries.
* `World.SameSince`: on top of that they began to differ in what was logged and printed, and the same
  was logged from then on, to no file.
-/

namespace WeaveStep

/-! ## Worlds that nothing tells apart -/

namespace World

/-- The same but for the order in which the file tree lists its entries. -/
def SameView (w w' : World) : Prop := ∃ files, w.files.SameView files ∧ w' = { w with files }

theorem sameView_emit {w w' : World} (h : SameView w w') (r : LogRecord) (sink : Sink) :
    SameView (w.emit r sink) (w'.emit r sink) := by
  obtain ⟨files, hfiles, rfl⟩ := h
  cases sink with
  | records => exact ⟨files, hfiles, rfl⟩
  | console threshold detailed =>
    simp only [emit]
    split
    · exact ⟨files, hfiles, rfl⟩
    · exact ⟨files, hfiles, rfl⟩
  | file => exact ⟨_, hfiles.extendHeld _, rfl⟩

theorem sameView_log {w w' : World} (h : SameView w w') (r : LogRecord) :
    SameView (w.log r) (w'.log r) := by
  have hsinks : ∀ (sinks : List Sink) (w w' : World), SameView w w' →
      SameView (sinks.foldl (emit · r) w) (sinks.foldl (emit · r) w') := by
    intro sinks
    induction sinks with
    | nil => exact fun _ _ h => h
    | cons sink sinks ih => exact fun _ _ h => ih _ _ (sameView_emit h r sink)
  have hlogging : w'.logging = w.logging := by obtain ⟨files, -, rfl⟩ := h; rfl
  unfold log
  rw [hlogging]
  split
  · exact hsinks w.logging.sinks w w' h
  · exact h

/-- The world with more records, and more printed. -/
def saying (w : World) (records : List LogRecord) (output : String) : World :=
  { w with records := w.records ++ records, output := w.output ++ output }

/-- What was logged and printed from `w₀` on in the one world was so from `w₁` on in the other, and
but for the order in which the file tree lists its entries the rest is the same. No log goes to a
file. -/
def SameSince (w₀ w₁ w w' : World) : Prop :=
  Sink.file ∉ w.logging.sinks ∧ ∃ files records output, w.files.SameView files ∧
    w.records = w₀.records ++ records ∧ w.output = w₀.output ++ output ∧
    w' = { w with files, records := w₁.records ++ records, output := w₁.output ++ output }

theorem saying_saying (w : World) (records records' : List LogRecord) (output output' : String) :
    (w.saying records output).saying records' output' =
      w.saying (records ++ records') (output ++ output') := by
  simp [saying, String.append_assoc]

theorem saying_nothing (w : World) : w.saying [] "" = w := by
  simp [saying]

/-- What is logged to no file is added to the records and the output, the same in all worlds that log
alike. -/
theorem exists_log_eq {w : World} (h : Sink.file ∉ w.logging.sinks) (r : LogRecord) :
    ∃ records output, ∀ w' : World, w'.logging = w.logging → w'.timestamp = w.timestamp →
      w'.log r = w'.saying records output := by
  have hsinks : ∀ sinks : List Sink, Sink.file ∉ sinks → ∃ records output, ∀ w' : World,
      w'.timestamp = w.timestamp → sinks.foldl (emit · r) w' = w'.saying records output := by
    intro sinks
    induction sinks with
    | nil => exact fun _ => ⟨[], "", fun w' _ => w'.saying_nothing.symm⟩
    | cons sink sinks ih =>
      intro hfile
      have hemit : ∃ records output, ∀ w' : World, w'.timestamp = w.timestamp →
          w'.emit r sink = w'.saying records output := by
        cases sink with
        | records => exact ⟨[r], "", fun w' _ => by simp [emit, saying]⟩
        | console threshold detailed =>
          simp only [emit]
          split
          · refine ⟨[], w.shown detailed r ++ "\n", fun w' htime => ?_⟩
            simp [print, shown, saying, htime, String.append_assoc]
          · exact ⟨[], "", fun w' _ => w'.saying_nothing.symm⟩
        | file => simp at hfile
      obtain ⟨records, output, hemit⟩ := hemit
      obtain ⟨records', output', hrest⟩ := ih fun hmem => hfile (by simp [hmem])
      refine ⟨records ++ records', output ++ output', fun w' htime => ?_⟩
      rw [List.foldl_cons, hemit w' htime, ← saying_saying]
      exact hrest (w'.saying records output) htime
  unfold log
  by_cases hwanted : w.logging.threshold.rank ≤ r.level.rank
  · obtain ⟨records, output, hsinks⟩ := hsinks w.logging.sinks h
    refine ⟨records, output, fun w' hlogging htime => ?_⟩
    rw [if_pos (hlogging ▸ hwanted), hlogging, hsinks w' htime]
  · refine ⟨[], "", fun w' hlogging _ => ?_⟩
    rw [if_neg (hlogging ▸ hwanted), saying_nothing]

/-- A record more is all that two worlds differ in. -/
theorem sameSince_log {w : World} (h : Sink.file ∉ w.logging.sinks) (r : LogRecord) :
    SameSince w (w.log r) w (w.log r) := by
  obtain ⟨records, output, hlog⟩ := exists_log_eq h r
  rw [hlog w rfl rfl]
  exact ⟨h, w.files, [], "", .refl _, by simp, by simp, by simp [saying]⟩

/-- Logging keeps the relation, and so do changes to files, if they go by the view of the files. -/
structure IsBlind (R : World → World → Prop) : Prop where
  view : ∀ {w w'}, R w w' → w.files.SameView w'.files
  files : ∀ {w w' files files'}, R w w' → files.SameView files' →
    R { w with files := files } { w' with files := files' }
  log : ∀ {w w'}, R w w' → ∀ r, R (w.log r) (w'.log r)
  invocations : ∀ {w w'}, R w w' → ∀ i,
    R { w with invocations := w.invocations ++ [i] } { w' with invocations := w'.invocations ++ [i] }
  environment : ∀ {w w'}, R w w' → w'.environment = w.environment

theorem isBlind_sameView : IsBlind SameView where
  view := by
    rintro w _ ⟨files, hfiles, rfl⟩
    exact hfiles
  files := by
    rintro w _ files files' ⟨_, -, rfl⟩ h
    exact ⟨files', h, rfl⟩
  log h r := sameView_log h r
  invocations := by
    rintro w _ ⟨files, hfiles, rfl⟩ i
    exact ⟨files, hfiles, rfl⟩
  environment := by
    rintro w _ ⟨files, -, rfl⟩
    rfl

theorem isBlind_sameSince (w₀ w₁ : World) : IsBlind (SameSince w₀ w₁) where
  view := by
    rintro w _ ⟨-, files, _, _, hfiles, -, -, rfl⟩
    exact hfiles
  files := by
    rintro w _ files files' ⟨hsinks, _, records, output, -, hrecords, houtput, rfl⟩ h
    exact ⟨hsinks, files', records, output, h, hrecords, houtput, rfl⟩
  log := by
    rintro w _ ⟨hsinks, files, records, output, hfiles, hrecords, houtput, rfl⟩ r
    obtain ⟨records', output', hlog⟩ := exists_log_eq hsinks r
    have hother := hlog
      { w with files, records := w₁.records ++ records, output := w₁.output ++ output } rfl rfl
    rw [hlog w rfl rfl, hother]
    refine ⟨hsinks, files, records ++ records', output ++ output', hfiles, ?_, ?_, ?_⟩
    · simp [saying, hrecords]
    · simp [saying, houtput, String.append_assoc]
    · simp [saying, String.append_assoc]
  invocations := by
    rintro w _ ⟨hsinks, files, records, output, hfiles, hrecords, houtput, rfl⟩ i
    exact ⟨hsinks, files, records, output, hfiles, hrecords, houtput, rfl⟩
  environment := by
    rintro w _ ⟨-, files, _, _, -, -, -, rfl⟩
    rfl

end World

open World FileTree

/-- What the weaver does to a world, and answers, goes by the view of the files. -/
def Weaver.GoesByView (weaver : Weaver) : Prop := ∀ i, Respects World.SameView (weaver.run i)

section

variable {ε ε' α : Type}

/-- Two runs of actions on files, as runs on the world. -/
theorem EndsAlike.onFiles {act act' : FileTree.Action α} {w w' : World} {wrap : FileFailure → ε}
    (h : EndsAlike FileTree.SameView (act w.files) (act' w'.files))
    (hothers : w' = { w with files := w'.files }) :
    EndsAlike World.SameView (Run.onFiles wrap act w) (Run.onFiles wrap act' w') := by
  rw [hothers]
  unfold Run.onFiles
  dsimp only
  generalize act w.files = ending, act' w'.files = ending' at h ⊢
  cases h with
  | ok a hfiles => exact .ok a ⟨_, hfiles, rfl⟩
  | error e hfiles => exact .error _ ⟨_, hfiles, rfl⟩

variable {R : World → World → Prop}

theorem respects_wrapping {act : Run ε α} (wrap : ε → ε') (h : Respects R act) :
    Respects R (Run.wrapping wrap act) := by
  intro w w' hw
  have hends := h w w' hw
  unfold Run.wrapping
  generalize act w = ending, act w' = ending' at hends ⊢
  cases hends with
  | ok a hend => exact .ok a hend
  | error e hend => exact .error _ hend

theorem respects_ofExcept (wrap : ε → ε') (r : Except ε α) : Respects R (Run.ofExcept wrap r) := by
  cases r with
  | ok a => exact .pure a
  | error e => exact .throw _

variable (hR : IsBlind R)
include hR

theorem respects_log (level : LogLevel) (logger message : String) :
    Respects R (Run.log (ε := ε) level logger message) :=
  .modify fun _ _ h => hR.log h _

theorem respects_onFiles {act : FileTree.Action α} (wrap : FileFailure → ε)
    (h : Respects FileTree.SameView act) : Respects R (Run.onFiles wrap act) := by
  intro w w' hw
  have hends := h _ _ (hR.view hw)
  unfold Run.onFiles
  generalize act w.files = ending, act w'.files = ending' at hends ⊢
  cases hends with
  | ok a hfiles => exact .ok a (hR.files hw hfiles)
  | error e hfiles => exact .error _ (hR.files hw hfiles)

theorem respects_ask (wrap : FileFailure → ε) {f : FileTree → Except FileFailure α}
    (hf : ∀ t t', FileTree.SameView t t' → f t = f t') : Respects R (Run.ask wrap f) := by
  intro w w' hw
  unfold Run.ask
  rw [hf _ _ (hR.view hw)]
  cases f w'.files with
  | ok a => exact .ok a hw
  | error e => exact .error _ hw

end

/-! ## Slots and routes -/

theorem respects_clearSlots (root : Path) : Respects FileTree.SameView (clearSlots root) := by
  refine (respects_query fun _ _ h => ask_congr h _ root).bind fun found => ?_
  split
  · exact respects_removeTree root
  · exact .pure ()

theorem respects_openSlot (root : Path) (key : SlotKey) :
    Respects FileTree.SameView (openSlot root key) := by
  unfold openSlot
  dsimp only
  split
  · exact (respects_ensureDirectory _).bind fun _ => .pure _
  · exact (respects_ensureDirectory _).bind fun _ => .pure _

theorem respects_copyIntoSlot (root : Path) (a : Artifact) :
    Respects FileTree.SameView (copyIntoSlot root a) := by
  refine (respects_openSlot root _).bind fun slot => ?_
  split
  · exact (respects_copyTreeWithin _ _ _).bind fun _ => .pure _
  · exact (respects_copyFile _ _ _).bind fun _ => .pure _

section

variable {R : World → World → Prop} (hR : IsBlind R)
include hR

theorem respects_judge (root : Path) (rules : List ExcludeRule) (logger : String)
    (a : Artifact) : Respects R (judge root rules logger a) := by
  unfold judge
  split
  · exact (respects_log hR _ _ _).bind fun _ =>
      (respects_onFiles hR _ (respects_copyIntoSlot root a)).bind fun _ => .pure _
  · exact .pure _

theorem respects_route (root : Path) (rules : List ExcludeRule) (logger : String)
    (inputs referenced : List Bundle) :
    Respects R (route root rules logger inputs referenced) := by
  refine (Respects.mapM fun a _ => respects_judge hR root rules logger a).bind fun verdicts => ?_
  dsimp only
  split
  · exact (respects_log hR _ _ _).bind fun _ => .pure _
  · exact .pure _

end

/-! ## The class paths -/

theorem runtimeLibrary?_congr {t t' : FileTree} (h : FileTree.SameView t t')
    (entries : List String) (javaHome : Option String) :
    runtimeLibrary? t entries javaHome = runtimeLibrary? t' entries javaHome := by
  unfold runtimeLibrary? isFile?
  simp only [ask_congr h]

theorem bootClasspath_congr {t t' : FileTree} (h : FileTree.SameView t t') (settings : Settings)
    (environment : Environment) :
    bootClasspath t settings environment = bootClasspath t' settings environment := by
  unfold bootClasspath exists?
  simp only [ask_congr h, absolute_congr h]

section

variable {R : World → World → Prop} (hR : IsBlind R)
include hR

theorem respects_neededLibrary (settings : Settings) (javaClasspath : List String) :
    Respects R (neededLibrary settings javaClasspath) := by
  unfold neededLibrary
  split
  · refine Respects.get_bind (fun w w' h => ?_) fun w =>
      respects_ask hR id fun _ _ h => runtimeLibrary?_congr h _ _
    rw [World.setting?, World.setting?, hR.environment h]
  · exact .pure none

theorem respects_assemble (settings : Settings) (root : Path) (logger : String)
    (toWeave classpathOnly : List Path) (boot : List String) (library : Option String) :
    Respects R (assemble settings root logger toWeave classpathOnly boot library) := by
  have hopen : Respects R (Run.onFiles (ε := FileFailure) id (openSlot root mainSlot)) :=
    respects_onFiles hR id (respects_openSlot root mainSlot)
  unfold assemble
  split
  · exact (respects_log hR _ _ _).bind fun _ => hopen.bind fun _ => .pure _
  · exact hopen.bind fun _ => .pure _

end

/-! ## The weave -/

/-- A weave after earlier outputs were removed. -/
def weaveCleared (settings : Settings) (root : Path) (weaver : Weaver) (input : WeaveInput) :
    Run WeaveFailure Completion :=
  if settings.enabled then weaveEnabled settings root weaver input
  else do
    Run.log .quiet stepLogger "AspectJ weaving is disabled."
    return .disabled

theorem weave_eq (settings : Settings) (root : Path) (weaver : Weaver) (input : WeaveInput) :
    weave settings root weaver input =
      (Run.onFiles .files (clearSlots root) >>= fun _ =>
        weaveCleared settings root weaver input) := rfl

section

variable {R : World → World → Prop} (hR : IsBlind R)
include hR

theorem respects_judgeReport (verbose : Bool) (logger : String) (diagnostics : List Diagnostic) :
    Respects R (judgeReport verbose logger diagnostics) := by
  have hlogs : ∀ w w', R w w' → R (w.logAll verbose logger diagnostics)
      (w'.logAll verbose logger diagnostics) := by
    unfold World.logAll
    induction diagnostics with
    | nil => exact fun _ _ h => h
    | cons d diagnostics ih => exact fun _ _ h => ih _ _ (hR.log h _)
  intro w w' h
  rw [judgeReport_eq, judgeReport_eq]
  split
  · exact .error _ (hlogs w w' h)
  · exact .ok _ (hlogs w w' h)

variable {weaver : Weaver} (hweaver : ∀ i, Respects R (weaver.run i))
include hweaver

theorem respects_runReported (verbose : Bool) (invocation : Invocation) :
    Respects R (runReported weaver verbose invocation) := by
  refine Respects.bind (.modify fun _ _ h => hR.invocations h invocation) fun _ => ?_
  exact (respects_wrapping _ (hweaver invocation)).bind fun diagnostics =>
    (respects_wrapping _ (respects_judgeReport hR _ _ diagnostics)).bind fun _ => .pure _

theorem respects_weaveEnabled (settings : Settings) (root : Path) (input : WeaveInput) :
    Respects R (weaveEnabled settings root weaver input) := by
  unfold weaveEnabled
  extract_lets tell rest
  -- `rest` is what both branches end with
  have htell : ∀ message, Respects R (tell message) := fun _ => respects_log hR _ _ _
  have hrest : Respects R (rest ()) := by
    refine (htell _).bind fun _ => (respects_wrapping _ (respects_neededLibrary hR _ _)).bind
      fun library => (htell _).bind fun _ => (htell _).bind fun _ => ?_
    refine (respects_wrapping _ (respects_route hR _ _ _ _ _)).bind fun routing => ?_
    refine Respects.get_bind (fun w w' h => ?_) fun w => (respects_ofExcept _ _).bind fun boot => ?_
    · rw [bootClasspath_congr (hR.view h), hR.environment h]
    refine (respects_wrapping _ (respects_assemble hR _ _ _ _ _ _ _)).bind fun invocation => ?_
    split
    · exact (htell _).bind fun _ => .pure _
    · exact (htell _).bind fun _ => (respects_runReported hR hweaver _ _).bind fun _ => .pure _
  split
  · exact (respects_log hR _ _ _).bind fun _ => hrest
  · exact hrest

/-- Once earlier outputs are removed, a weave ends in one of two worlds that nothing tells apart as it does
in the other. -/
theorem respects_weaveCleared (settings : Settings) (root : Path) (input : WeaveInput) :
    Respects R (weaveCleared settings root weaver input) := by
  unfold weaveCleared
  split
  · exact respects_weaveEnabled hR hweaver settings root input
  · exact (respects_log hR _ _ _).bind fun _ => .pure _

end

end WeaveStep
