import WeaveStep.Proofs.CommandLine.Checks
import WeaveStep.Proofs.Fetch.Retries
import WeaveStep.Proofs.Weave.Beside

/-!
# The launch of a weave

What a weave goes by when its weaver is launched, and in which world that is.

* `Launching`: all that was found on the way to a launch. `l.IsOf o paths w`: it is what the weave that is
  begun in `w` comes to.
* `World.LaunchesIn w v command w'`: the command is launched in `v`, and that is the one launch between `w`
  and `w'`.
* **`launchesIn_execute`**: a program that comes to a launch launches that, and nothing else.
  `sameLaunches_execute`: one that comes to none launches nothing.
* `Launching.IsOf.directory_of_cleared`: at the launch, what lay among the outputs is gone.
* `worldEquipped`: a world in which weaves come to a launch (`comesTo_equipped`).
-/

namespace WeaveStep

open FileTree CommandLine World

/-! ## One launch -/

/-- The command is launched in `v`, and this is the one launch that was recorded since `w`. -/
def World.LaunchesIn (w v : World) (command : List String) (w' : World) : Prop :=
  ∃ launch after, (Run.attempt (Run.launch command) : Run WeaverFailure _) v = .ok launch after ∧
    w'.launches = w.launches ++ [launch]

section

variable {w w₁ w' w'' v : World} {command : List String}

theorem World.LaunchesIn.after (hsame : w.SameLaunches w₁) (h : LaunchesIn w₁ v command w') :
    LaunchesIn w v command w' := by
  rwa [LaunchesIn, hsame.launches] at h

theorem World.LaunchesIn.before (h : LaunchesIn w v command w') (hsame : w'.SameLaunches w'') :
    LaunchesIn w v command w'' := by
  obtain ⟨launch, after, hattempt, hlaunches⟩ := h
  exact ⟨launch, after, hattempt, hsame.launches.trans hlaunches⟩

end

/-! ## The weave -/

section

variable {settings : Settings} {root : Path} {version : Option String} {input : WeaveInput}
  {routing : Routing} {invocation : Invocation} {w told opened : World}

theorem sameLaunches_judgeReport (verbose : Bool) (diagnostics : List Diagnostic) :
    Always SameLaunches (judgeReport verbose stepLogger diagnostics) := by
  intro w
  unfold Yields
  rw [judgeReport_eq]
  have hlogged := w.sameLaunches_logAll verbose stepLogger diagnostics
  cases firstFatal? verbose diagnostics <;> exact hlogged

theorem launchesIn_runWeaver (command : List String) (i : Invocation) (w : World) :
    Yields (runWeaver command i) w fun _ w' =>
      LaunchesIn w (w.launching (command ++ i.arguments)) (command ++ i.arguments) w' := by
  obtain ⟨launch, after, hsame, hattempt, -, hrun⟩ := runWeaver_attempt command i w
  have hlaunches : after.launches = w.launches :=
    ((w.sameLaunches_launching _).trans hsame).launches
  have hrecorded : LaunchesIn w (w.launching (command ++ i.arguments)) (command ++ i.arguments)
      { after with launches := after.launches ++ [launch] } :=
    ⟨launch, after, hattempt, by rw [hlaunches]⟩
  have hanswer : Always SameLaunches (Run.ofExcept id (launchAnswer command launch) :
      Run WeaverFailure (List Diagnostic)) := .ofExcept _ _
  exact .of_eq hrun ((hanswer _).imp fun _ _ => hrecorded.before)

/-- A weave goes on from the launch without another one. -/
theorem launchesIn_goOn (verbose : Bool) (command : List String) :
    Yields (goOn verbose routing invocation (runWeaver command invocation)) told fun _ w' =>
      LaunchesIn told (told.launching (command ++ invocation.arguments))
        (command ++ invocation.arguments) w' := by
  have hrun := launchesIn_runWeaver command invocation told
  have hwrapped : Yields (Run.wrapping WeaveFailure.weaver (runWeaver command invocation)) told
      fun _ w' => LaunchesIn told (told.launching (command ++ invocation.arguments))
        (command ++ invocation.arguments) w' :=
    hrun.wrapping (fun _ _ h => h) fun _ _ h => h
  refine Yields.bind (fun diagnostics w₁ hok => ?_) fun _ _ herror => hwrapped.of_error herror
  have hlaunched := hwrapped.of_ok hok
  exact (sameLaunches_judgeReport verbose diagnostics).wrapping.yields_bind
    (fun _ _ hsame _ => hlaunched.before hsame) fun _ _ hsame => hlaunched.before hsame

theorem sameLaunches_announced (w : World) (version : Option String) (incremental : Bool) :
    w.SameLaunches (w.announced version incremental) := by
  unfold World.announced
  split
  · exact (w.sameLaunches_log _).trans (World.sameLaunches_log _ _)
  · exact w.sameLaunches_log _

theorem Prepares.sameLaunches (h : Prepares settings root version input w routing invocation opened) :
    w.SameLaunches opened := by
  obtain ⟨-, cleared, hclear, hprepared⟩ := prepares_iff.1 h
  have hcleared : w.SameLaunches { w with files := cleared } :=
    ⟨rfl, rfl, rfl, (sameDirectory_clearSlots root).of_ok hclear⟩
  exact hcleared.trans ((sameLaunches_announced _ _ _).trans ((sameLaunches_prepare _ _ _).of_ok hprepared))

/-- Nothing is launched by a weave if the weaver launches nothing. -/
theorem sameLaunches_weave {weaver : Weaver} (hweaver : ∀ i, Always SameLaunches (weaver.run i)) :
    Always SameLaunches (weave settings root weaver input) := by
  have htell : ∀ message, Always SameLaunches (Run.log (ε := WeaveFailure) .quiet stepLogger message) :=
    sameLaunches_log _ _
  have hreported : ∀ invocation, Always SameLaunches (runReported weaver settings.verbose invocation) := by
    intro invocation
    have hrecord : Always SameLaunches (modify fun w =>
        { w with invocations := w.invocations ++ [invocation] } : Run WeaveFailure Unit) :=
      .modify fun _ => ⟨rfl, rfl, rfl, rfl⟩
    exact hrecord.bind fun _ => (hweaver _).wrapping.bind fun _ =>
      (sameLaunches_judgeReport _ _).wrapping.bind fun _ => .pure _
  have hconclude : ∀ routing invocation,
      Always SameLaunches (conclude weaver settings.verbose routing invocation) := by
    intro routing invocation
    unfold conclude
    split
    · exact (htell _).bind fun _ => .pure _
    · exact (htell _).bind fun _ => (hreported _).bind fun _ => .pure _
  refine (sameLaunches_onFiles (sameDirectory_clearSlots root)).bind fun _ => ?_
  split
  · intro w
    have hfront := (sameLaunches_prepare settings root input).bind fun p => hconclude p.1 p.2
    exact .of_eq (weaveEnabled_eq weaver) ((hfront _).imp fun _ _ =>
      (sameLaunches_announced w weaver.version input.incremental).trans)
  · exact (htell _).bind fun _ => .pure _

/-- A weave that tells the weaver what to do launches it. -/
theorem TellsOnce.launchesIn (h : TellsOnce settings root version input w routing invocation told)
    (command : List String) : Yields (weave settings root (.ofCommand command version) input) w
      fun _ w' => LaunchesIn w (told.launching (command ++ invocation.arguments))
        (command ++ invocation.arguments) w' := by
  obtain ⟨opened, hprepares, -, rfl⟩ := tellsOnce_iff.1 h
  have hsame : w.SameLaunches ((opened.told .quiet "Weaving ...").recorded invocation) :=
    (hprepares.sameLaunches.trans (opened.sameLaunches_log _)).trans ⟨rfl, rfl, rfl, rfl⟩
  exact .of_eq (h _) ((launchesIn_goOn settings.verbose command).imp fun _ _ => .after hsame)

/-- A weave launches nothing, or it launches the weaver, and that it has told what to do. -/
theorem launches_weave (settings : Settings) (root : Path) (command : List String)
    (version : Option String) (input : WeaveInput) (w : World) :
    Yields (weave settings root (.ofCommand command version) input) w fun _ w' =>
      w.SameLaunches w' ∨ ∃ routing invocation told,
        TellsOnce settings root version input w routing invocation told ∧
        LaunchesIn w (told.launching (command ++ invocation.arguments))
          (command ++ invocation.arguments) w' := by
  rcases tellsOnce_or_nothing settings root version input w with ⟨routing, invocation, told, h⟩ | hnothing
  · exact (h.launchesIn command).imp fun _ _ hlaunches => .inr ⟨routing, invocation, told, h, hlaunches⟩
  · -- a weaver that launches nothing would make no difference
    have hsilent : Always SameLaunches (weave settings root ⟨version, fun _ => pure []⟩ input) :=
      sameLaunches_weave fun _ => .pure []
    obtain ⟨ending, hending⟩ := hnothing
    exact .of_eq ((hending _).trans (hending _).symm) ((hsilent w).imp fun _ _ => .inl)

end

/-! ## The command -/

/-- What a weave is given, with these bundles of artifacts. -/
def CommandLine.WeaveOptions.input (o : WeaveOptions) (inputs referenced : Bundle) : WeaveInput where
  inputs := [inputs]
  referenced := [referenced]
  javaClasspath := writtenClasspath o.javaClasspath

/-- What a weave has come to when its weaver is launched. -/
structure Launching where
  settings : Settings
  toolchain : Toolchain
  /-- The weaver's archive, in the world in which it was found or downloaded. -/
  archive : Path
  found : World
  java : String
  root : Path
  inputs : Bundle
  referenced : Bundle
  routing : Routing
  invocation : Invocation
  /-- The world in which the weaver is told what to do. -/
  told : World

namespace Launching

/-- The command that is launched. -/
def command (l : Launching) : List String :=
  [l.java, "-classpath", l.archive.text, Toolchain.mainClass] ++ l.invocation.arguments

/-- The world in which it is launched. -/
def world (l : Launching) : World := l.told.launching l.command

/-- This is what the weave that is begun in `w` comes to: the settings are found and then the toolchain,
which has the archive, and the weave into the root tells the weaver what to do. -/
structure IsOf (l : Launching) (o : WeaveOptions) (paths : WeavePaths) (w : World) : Prop where
  settings : findSettings o.settings o.project w = .ok l.settings w
  enabled : l.settings.enabled = true
  toolchain : findToolchain l.settings o.project (!o.quiet) w = .ok l.toolchain w
  archive : l.toolchain.ensureWeaver w = .ok l.archive l.found
  java : l.toolchain.findJava l.found = .ok l.java l.found
  root : l.found.files.absolute paths.output = .ok l.root
  inputs : Bundle.ofPaths l.found.files paths.inputs = .ok l.inputs
  referenced : Bundle.ofPaths l.found.files paths.referenced = .ok l.referenced
  tells : TellsOnce l.settings l.root (some l.settings.weaverVersion) (o.input l.inputs l.referenced) l.found l.routing
    l.invocation l.told

end Launching

section

variable {o : WeaveOptions} {paths : WeavePaths} {w w' : World} {l : Launching}

theorem eq_of_findJava {c : Toolchain} {java : String} (h : c.findJava w = .ok java w') : w' = w := by
  have hsame : Always (Eq (α := World)) c.findJava := by
    refine Always.get.bind fun w => ?_
    split
    · exact .pure _
    · exact .throw _
  exact (hsame.of_ok h).symm

theorem command_eq_ok {c : Toolchain} {command : List String} :
    c.command w = .ok command w' ↔ ∃ archive java, c.ensureWeaver w = .ok archive w' ∧
      c.findJava w' = .ok java w' ∧ command = [java, "-classpath", archive.text, Toolchain.mainClass] := by
  constructor
  · intro h
    obtain ⟨archive, w₁, harchive, h⟩ := bind_eq_ok h
    obtain ⟨java, w₂, hjava, h⟩ := bind_eq_ok h
    cases h
    obtain rfl := eq_of_findJava hjava
    exact ⟨archive, java, harchive, hjava, rfl⟩
  · rintro ⟨archive, java, harchive, hjava, rfl⟩
    exact (bind_ok harchive).trans (bind_ok hjava)

/-- A weave comes to one launch at most. -/
theorem Launching.IsOf.unique {l' : Launching} (h : l.IsOf o paths w) (h' : l'.IsOf o paths w) : l = l' := by
  obtain ⟨settings, enabled, toolchain, archive, java, root, inputs, referenced, tells⟩ := h
  obtain ⟨settings', enabled', toolchain', archive', java', root', inputs', referenced', tells'⟩ := h'
  cases l
  cases l'
  dsimp only at *
  obtain ⟨rfl, -⟩ := EStateM.Result.ok.inj (settings.symm.trans settings')
  obtain ⟨rfl, -⟩ := EStateM.Result.ok.inj (toolchain.symm.trans toolchain')
  obtain ⟨rfl, rfl⟩ := EStateM.Result.ok.inj (archive.symm.trans archive')
  obtain ⟨rfl, -⟩ := EStateM.Result.ok.inj (java.symm.trans java')
  obtain rfl := Except.ok.inj (root.symm.trans root')
  obtain rfl := Except.ok.inj (inputs.symm.trans inputs')
  obtain rfl := Except.ok.inj (referenced.symm.trans referenced')
  obtain ⟨rfl, rfl, rfl⟩ := tells.unique tells'
  rfl

/-- The toolchain is the one that the weave comes to. -/
theorem Launching.IsOf.eq_toolchain {c : Toolchain} (h : l.IsOf o paths w) (hequips : w.Equips o c w') :
    c = l.toolchain := by
  obtain ⟨settings, mid, hsettings, -, htoolchain⟩ := hequips
  obtain ⟨rfl, rfl⟩ := EStateM.Result.ok.inj (h.settings.symm.trans hsettings)
  exact (EStateM.Result.ok.inj (htoolchain.symm.trans h.toolchain)).1

/-- What is told of a completed weave is printed. -/
theorem says_completion (completion : Completion) :
    Says (match completion.invocation? with
      | none => Notice.warning "Weaving skipped: disabled in configuration"
      | some invocation => do
        Notice.success "Weave successful!"
        Run.print ""
        Run.print ("Output: " ++ invocation.output.text)
        Run.print ("Weave time: " ++ (← get).duration ++ "s") : Run CommandFailure Unit) () := by
  split
  · exact says_warning _
  · exact (says_success _).bind <| (says_print _).bind <| (says_print _).bind fun w =>
      says_print ("Weave time: " ++ w.duration ++ "s") w

theorem sameLaunches_ensureWeaver (c : Toolchain) : Always SameLaunches c.ensureWeaver :=
  Toolchain.always_ensureWeaver (fun _ _ => sameLaunches_log _ _ _) fun _ => sameLaunches_download _

/-- What a weave comes to is launched. -/
theorem Launching.IsOf.launchesIn_tryWeave (h : l.IsOf o paths w) :
    Yields (tryWeave o paths) w fun _ w' => LaunchesIn w l.world l.command w' := by
  have hsame : w.SameLaunches l.found := (sameLaunches_ensureWeaver _).of_ok h.archive
  have hcommand : Run.wrapping CommandFailure.toolchain l.toolchain.command w =
      .ok [l.java, "-classpath", l.archive.text, Toolchain.mainClass] l.found :=
    Run.wrapping_eq_ok.2 (command_eq_ok.2 ⟨_, _, h.archive, h.java, rfl⟩)
  have hweave := h.tells.launchesIn [l.java, "-classpath", l.archive.text, Toolchain.mainClass]
  have hwrapped : Yields (Run.wrapping CommandFailure.weave (weave l.settings l.root
      (.ofCommand [l.java, "-classpath", l.archive.text, Toolchain.mainClass]
        (some l.settings.weaverVersion)) (o.input l.inputs l.referenced))) l.found
      fun _ w' => LaunchesIn w l.world l.command w' :=
    hweave.wrapping (fun _ _ hw' => hw'.after hsame) fun _ _ hw' => hw'.after hsame
  unfold tryWeave
  refine yields_bind_of_ok h.settings ?_
  extract_lets rest
  rw [if_pos h.enabled]
  refine yields_bind_of_ok h.toolchain (yields_bind_of_ok hcommand ?_)
  refine yields_bind_of_ok (Run.ask_eq_ok.2 ⟨h.root, rfl⟩) ?_
  refine yields_bind_of_ok (Run.ask_eq_ok.2 ⟨h.inputs, rfl⟩) ?_
  refine yields_bind_of_ok (Run.ask_eq_ok.2 ⟨h.referenced, rfl⟩) ?_
  refine Yields.bind (fun completion w₁ hok => ?_) fun e w₁ herror => hwrapped.of_error herror
  obtain ⟨w', htold, hprinted⟩ := (says_completion completion).sameLaunches w₁
  exact .of_eq htold (yields_pure ((hwrapped.of_ok hok).before hprinted))

/-- Where a weave does not come to a launch, nothing is launched. -/
theorem sameLaunches_tryWeave (hnone : ∀ l : Launching, ¬l.IsOf o paths w) :
    Yields (tryWeave o paths) w fun _ w' => w.SameLaunches w' := by
  have hsame : ∀ {w' : World}, w = w' → w.SameLaunches w' := fun heq => heq ▸ refl_of SameLaunches w
  unfold tryWeave
  refine (always_findSettings (R := Eq) _ _).yields_bind (fun settings w₁ heq hsettings => ?_)
    fun _ _ => hsame
  subst heq
  extract_lets rest
  -- both branches go on with `rest`, with the command of a toolchain or with none
  have hrest : ∀ command (w₁ : World), (∀ root inputs referenced routing invocation told,
      w₁.files.absolute paths.output = .ok root → Bundle.ofPaths w₁.files paths.inputs = .ok inputs →
      Bundle.ofPaths w₁.files paths.referenced = .ok referenced →
      ¬TellsOnce settings root (some settings.weaverVersion) (o.input inputs referenced) w₁ routing invocation told) →
      Yields (rest command) w₁ fun _ w' => w₁.SameLaunches w' := by
    intro command w₁ hno
    refine (Always.ask (R := Eq) _ _).yields_bind (fun root w₂ heq hroot => ?_)
      fun _ _ heq => heq ▸ refl_of SameLaunches w₁
    subst heq
    refine (Always.ask (R := Eq) _ _).yields_bind (fun inputs w₂ heq hinputs => ?_)
      fun _ _ heq => heq ▸ refl_of SameLaunches w₁
    subst heq
    refine (Always.ask (R := Eq) _ _).yields_bind (fun referenced w₂ heq hreferenced => ?_)
      fun _ _ heq => heq ▸ refl_of SameLaunches w₁
    subst heq
    have hweave := (launches_weave settings root command (some settings.weaverVersion)
      (o.input inputs referenced)
      w₁).imp fun _ _ h => h.resolve_right fun ⟨_, _, _, htells, _⟩ =>
        hno root inputs referenced _ _ _ (Run.ask_eq_ok.1 hroot).1 (Run.ask_eq_ok.1 hinputs).1
          (Run.ask_eq_ok.1 hreferenced).1 htells
    have hwrapped : Yields (Run.wrapping CommandFailure.weave (weave settings root
        (.ofCommand command (some settings.weaverVersion)) (o.input inputs referenced))) w₁
        fun _ w' => w₁.SameLaunches w' := hweave.wrapping (fun _ _ h => h) fun _ _ h => h
    refine Yields.bind (fun completion w₂ hok => ?_) fun e w₂ herror => hwrapped.of_error herror
    obtain ⟨w', htold, hprinted⟩ := (says_completion completion).sameLaunches w₂
    exact .of_eq htold (yields_pure ((hwrapped.of_ok hok).trans hprinted))
  split
  · rename_i henabled
    refine (always_findToolchain (R := Eq) _ _ _).yields_bind (fun c w₁ heq hfound => ?_) fun _ _ => hsame
    subst heq
    refine (sameLaunches_command c).wrapping.yields_bind (fun command w₂ hsame₂ hcommand => ?_)
      fun _ _ h => h
    obtain ⟨archive, java, harchive, hjava, rfl⟩ := command_eq_ok.1 (Run.wrapping_eq_ok.1 hcommand)
    refine (hrest _ w₂ fun root inputs referenced routing invocation told hroot hinputs hreferenced htells =>
      hnone ⟨settings, c, archive, w₂, java, root, inputs, referenced, routing, invocation, told⟩
        ⟨hsettings, henabled, hfound, harchive, hjava, hroot, hinputs, hreferenced, htells⟩).imp
      fun _ _ => hsame₂.trans
  · rename_i hdisabled
    refine hrest [] w fun root inputs referenced routing invocation told _ _ _ htells => hdisabled ?_
    obtain ⟨opened, hprepares, -, -⟩ := tellsOnce_iff.1 htells
    exact (prepares_iff.1 hprepares).1

end

/-! ## Up to the launch -/

section

variable {o : WeaveOptions} {paths : WeavePaths} {w : World} {l : Launching} {q : Location}

theorem Launching.IsOf.told_world (h : l.IsOf o paths w) : ∃ opened,
    Prepares l.settings l.root (some l.settings.weaverVersion) (o.input l.inputs l.referenced) l.found
      l.routing l.invocation opened ∧ FileTree.Told opened.files l.world.files := by
  obtain ⟨opened, hprepares, -, htold⟩ := tellsOnce_iff.1 h.tells
  refine ⟨opened, hprepares, ?_⟩
  have hlogged : ∀ (v : World) r, Keeps (fun w : World => FileTree.Told opened.files w.files) v (v.log r) :=
    keeps_log fun t bytes ht => trans_of FileTree.Told ht (told_extendHeld t bytes)
  have hweaving : FileTree.Told opened.files l.told.files := by
    rw [htold]
    exact hlogged opened _ (refl_of FileTree.Told opened.files)
  exact hlogged l.told _ hweaving

/-- **What lies among the outputs is gone at the launch**, where no artifact is copied there. -/
theorem Launching.IsOf.directory_of_cleared (h : l.IsOf o paths w) {place : Location}
    (hroot : l.found.files.look .own l.root = .ok (place, .directory)) (hin : isWithin place q = true)
    (hnone : ∀ a ∈ l.inputs.artifacts, isExcluded a.path l.settings.excludeRules = false) {node : Node}
    (hnode : l.world.files.get? q = some node) : node = .directory := by
  let I (t : FileTree) : Prop := ∀ node, t.get? q = some node → node = .directory
  have hkept : ∀ {t t' : FileTree}, Kept t t' q → I t → I t' := by
    rintro t t' (hsame | ⟨-, old, new, executable, hold, -⟩) ht node hnode
    · exact ht node (hsame ▸ hnode)
    · cases ht _ hold
  have htell : ∀ t bytes, I t → I (t.extendHeld bytes) := fun t bytes => hkept (kept_extendHeld t bytes q)
  have hmade : Always (Keeps I) (openSlot l.root mainSlot) := by
    rw [openSlot_mainSlot]
    refine Always.bind (.ensureDirectory (R := Keeps I) (fun t t' p hmade ht node hnode => ?_) _)
      fun _ => .pure _
    obtain ⟨other, -, -, rfl⟩ := makeDirectory_eq_ok hmade
    rw [get?_set] at hnode
    split at hnode
    · exact (Option.some.inj hnode).symm
    · exact ht node hnode
  obtain ⟨opened, hprepares, htold⟩ := h.told_world
  obtain ⟨-, cleared, hclear, hprepared⟩ := prepares_iff.1 hprepares
  have hcleared : I cleared := by
    intro node hnode
    have hends : Cleared l.root l.found.files (.ok ()) cleared :=
      (cleared_clearSlots l.root l.found.files).of_ok hclear
    cases hends with
    | absent nothing =>
      obtain ⟨hlocate, hdirectory⟩ := look_eq_ok_iff.1 hroot
      exact absurd (look_eq_ok_iff.2 ⟨locate_followed_of_own hlocate (by simp [hdirectory]), hdirectory⟩)
        (nothing place .directory)
    | removed found =>
      rw [hroot] at found
      cases found
      rw [get?_removed, if_pos hin] at hnode
      cases hnode
  have hannounced : I (World.announced { l.found with files := cleared } (some l.settings.weaverVersion)
      (o.input l.inputs l.referenced).incremental).files :=
    keeps_log htell _ _ hcleared
  have hfront : Always (Keeps fun w : World => I w.files)
      (prepare l.settings l.root (o.input l.inputs l.referenced)) := by
    refine always_keeps_prepare htell (fun a ha hexcluded => ?_) hmade
    rw [hnone a (by simpa [WeaveOptions.input] using ha)] at hexcluded
    cases hexcluded
  exact hkept (htold.kept q) (hfront.of_ok hprepared hannounced) node hnode

/-- The launch is begun with what the weave was begun with. -/
theorem Launching.IsOf.sameLaunches_world (h : l.IsOf o paths w) : w.SameLaunches l.world := by
  obtain ⟨opened, hprepares, -, htold⟩ := tellsOnce_iff.1 h.tells
  have hfound : w.SameLaunches l.found := (sameLaunches_ensureWeaver _).of_ok h.archive
  have hweaving : l.found.SameLaunches l.told := by
    rw [htold]
    exact (hprepares.sameLaunches.trans (opened.sameLaunches_log _)).trans ⟨rfl, rfl, rfl, rfl⟩
  exact (hfound.trans hweaving).trans (l.told.sameLaunches_launching _)

end

/-! ## The program -/

/-- A command line to weave comes to a launch: its paths pass the checks and its log is set up, and the
weave that begins then comes to it. -/
structure World.ComesTo (w : World) (arguments : List String) (o : WeaveOptions) (paths : WeavePaths)
    (begun : World) (l : Launching) : Prop where
  here : w.files.currentPath = .ok ⟨.root, w.files.workingDirectory⟩
  call : w.call arguments = .ok (.weave o)
  passes : Passes ⟨.root, w.files.workingDirectory⟩ o w paths
  begins : w.Begins o begun
  launching : l.IsOf o paths begun

section

variable {o : WeaveOptions} {paths : WeavePaths} {w begun : World} {l : Launching}
  {arguments : List String}

theorem World.ComesTo.unique {o' : WeaveOptions} {paths' : WeavePaths} {begun' : World} {l' : Launching}
    (h : w.ComesTo arguments o paths begun l) (h' : w.ComesTo arguments o' paths' begun' l') : l = l' := by
  have hcall := h.call.symm.trans h'.call
  cases hcall
  have hpaths : paths = paths' := by
    have hsome := List.map_injective_iff.2 (Option.some_injective Path)
    have hinputs := hsome (h.passes.inputs.symm.trans h'.passes.inputs)
    have hreferenced := hsome (h.passes.referenced.symm.trans h'.passes.referenced)
    have houtput := h.passes.output.symm.trans h'.passes.output
    cases paths
    cases paths'
    simp_all
  obtain ⟨-, rfl⟩ := EStateM.Result.ok.inj (h.begins.symm.trans h'.begins)
  exact h.launching.unique (hpaths ▸ h'.launching)

theorem sameLaunches_fetchCommand (o : FetchOptions) : Always SameLaunches (fetchCommand o) := by
  have hfetch : Always SameLaunches (tryFetch o) := by
    refine (always_findSettings _ _).bind fun settings => (always_findToolchain _ _ _).bind fun c => ?_
    refine (sameLaunches_ensureWeaver c).wrapping.bind fun archive w => ?_
    have hsaid : Says (ε := CommandFailure) (do
        Notice.success ("AspectJ tools " ++ settings.weaverVersion ++ " ready")
        Run.print ("Jar: " ++ archive.text)) () := (says_success _).bind (says_print _)
    exact hsaid.yields fun _ => ⟨rfl, rfl, rfl, rfl⟩
  refine (sameLaunches_setUp _).bind fun _ w => ?_
  exact yields_concluding_of o.verbose (fun _ _ h => h.trans ⟨rfl, rfl, rfl, rfl⟩) (hfetch w)

/-- **A program that comes to a launch** launches that, and nothing else. -/
theorem launchesIn_execute (h : w.ComesTo arguments o paths begun l) :
    Yields (execute arguments) w fun _ w' => LaunchesIn w l.world l.command w' := by
  refine .of_eq ((execute_of_call h.here h.call).trans (checkedWeave_of_passes h.passes)) ?_
  have hsame : w.SameLaunches begun := (sameLaunches_setUp _).of_ok h.begins
  have hcommand : Yields (weaveCommand o paths) w fun _ w' => LaunchesIn w l.world l.command w' := by
    refine yields_bind_of_ok h.begins (yields_concluding_of o.verbose (fun _ _ hw' => ?_) ?_)
    · exact hw'.before ⟨rfl, rfl, rfl, rfl⟩
    · exact h.launching.launchesIn_tryWeave.imp fun _ _ => .after hsame
  exact hcommand.wrapping (fun _ _ hw' => hw') fun _ _ hw' => hw'

/-- Where the console is given, it is what the launch comes to. -/
theorem World.ComesTo.launches_of_console (h : w.ComesTo arguments o paths begun l) {run : ConsoleRun}
    (hrun : w.console = some run) :
    Yields (execute arguments) w fun _ w' => w'.launches = w.launches ++ [.ok run] := by
  refine (launchesIn_execute h).imp ?_
  rintro _ w' ⟨launch, after, hattempt, hlaunches⟩
  have hsame : w.SameLaunches l.world :=
    ((sameLaunches_setUp _).of_ok h.begins).trans h.launching.sameLaunches_world
  rw [Run.attempt, launch_of_console (hsame.console.trans hrun)] at hattempt
  obtain ⟨rfl, -⟩ := EStateM.Result.ok.inj hattempt
  exact hlaunches

/-- A program that comes to no launch launches nothing. -/
theorem sameLaunches_execute (hnone : ∀ o paths begun l, ¬w.ComesTo arguments o paths begun l) :
    Yields (execute arguments) w fun _ w' => w.SameLaunches w' := by
  cases hhere : w.files.currentPath with
  | error e => exact .of_eq (execute_lost hhere arguments) (yields_throw (refl_of SameLaunches w))
  | ok here =>
    obtain rfl := currentPath_eq hhere
    refine .of_eq (execute_eq hhere arguments) ?_
    split
    · rename_i answer _
      cases answer <;> exact ⟨rfl, rfl, rfl, rfl⟩
    · exact (sameLaunches_fetchCommand _).wrapping w
    · rename_i o hcall
      refine yields_checkedWeave (fun _ h => h.sameLaunches) (fun _ _ h => h.sameLaunches)
        fun paths hpasses => ?_
      have hcommand : Yields (weaveCommand o paths) w fun _ w' => w.SameLaunches w' := by
        refine (sameLaunches_setUp _).yields_bind (fun _ begun hsame hbegins => ?_) fun _ _ h => h
        refine yields_concluding_of o.verbose (fun _ _ h => h.trans ⟨rfl, rfl, rfl, rfl⟩) ?_
        exact (sameLaunches_tryWeave fun l hl => hnone o paths begun l
          ⟨hhere, hcall, hpasses, hbegins, hl⟩).imp fun _ _ => hsame.trans
      exact hcommand.wrapping (fun _ _ h => h) fun _ _ h => h

end

/-! ## A world with all that a launch needs -/

/-- Where the archive lies in a cache at the root. -/
def archiveEquipped : Location :=
  toolsAtRoot ++ [defaultWeaverVersion, "aspectjtools-" ++ defaultWeaverVersion ++ ".jar"]

/-- Files with a launcher, and something to be woven with the outputs of an earlier weave below it; and
these ones. -/
def filesEquipped (more : List (Location × Node)) : FileTree where
  entries := [([], .directory), (["bin"], .directory), (["bin", "java"], .file [] true), (["in"], .directory),
    (["in", "A.class"], .file [202] false), (["in", "out"], .directory),
    (["in", "out", "B.class"], .file [203] false)] ++ more
  workingDirectory := []

/-- A cache that has the archive. -/
def cacheEquipped : List (Location × Node) :=
  [(["c"], .directory), (["c", "tools"], .directory), (toolsAtRoot, .directory),
    (toolsAtRoot ++ [defaultWeaverVersion], .directory), (archiveEquipped, .file Download.archiveMark false)]

/-- A world with both, in which the console of the weaver is given. -/
def worldEquipped : World where
  files := filesEquipped cacheEquipped
  environment := [("PATH", "/bin"), ("ASPECTWEAVE_CACHE_DIR", "/c")]
  console := some ⟨0, []⟩

/-- What is asked for there: a weave into the directory with these names. -/
def equippedOptions (names : List String) : WeaveOptions where
  inputs := [some ⟨.root, ["in"]⟩]
  output := some ⟨.root, names⟩
  project := some ⟨.root, []⟩

theorem look_archiveEquipped : worldEquipped.files.look .followed ⟨.root, archiveEquipped⟩ =
    .ok (archiveEquipped, .file Download.archiveMark false) :=
  look_eq_ok_iff.2 ⟨locate_straight (isSayable_root (by decide) (by decide)) (by decide) (by decide)
    (by rintro text ⟨⟩), rfl⟩

theorem isTree_equipped : IsTree worldEquipped.files := isTree_of_entries rfl (by decide)

theorem not_link_equipped {q : Location} {text : String} :
    worldEquipped.files.get? q ≠ some (.link text) :=
  fun hlink => by simpa [worldEquipped, filesEquipped, cacheEquipped] using mem_entries_of_get? hlink

/-- The weave into the directory comes to a launch, with the archive from the cache, whatever the console
shows. -/
theorem comesTo_equipped (arguments : List String) {names : List String} {cleared opened : FileTree}
    (run : ConsoleRun)
    (hcall : worldEquipped.call arguments = .ok (.weave (equippedOptions names)))
    (hsafe : outputIsSafe ⟨.root, names⟩ [⟨.root, ["in"]⟩, ⟨.root, []⟩, ⟨.root, []⟩]
      { worldEquipped with console := some run } = .ok true { worldEquipped with console := some run })
    (hclear : clearSlots ⟨.root, names⟩ worldEquipped.files = .ok () cleared)
    (hopen : ensureDirectory (under ⟨.root, names⟩ mainNames) cleared = .ok () opened) :
    ∃ paths begun l, { worldEquipped with console := some run : World }.ComesTo arguments
        (equippedOptions names) paths begun l ∧
      l.found.files = worldEquipped.files ∧ l.archive = ⟨.root, archiveEquipped⟩ ∧
      l.root = ⟨.root, names⟩ ∧ l.settings = {} ∧ l.toolchain = .ofSettings {} cacheAtRoot true := by
  let w : World := { worldEquipped with console := some run }
  let begun : World := { w with logging := ⟨.info, [.console .info false]⟩ }
  let c : Toolchain := .ofSettings {} cacheAtRoot true
  let inputs : Bundle := ⟨[⟨⟨.root, ["in"]⟩, "in", .directory⟩], []⟩
  have hbegins : w.Begins (equippedOptions names) begun := rfl
  have hexist : inputsExist [⟨.root, ["in"]⟩] w = .ok true w := by cbv
  have hsettings : findSettings none (some ⟨.root, []⟩) begun = .ok {} begun := by cbv
  have htoolchain : findToolchain {} (some ⟨.root, []⟩) true begun = .ok c begun := by cbv
  have harchive : c.ensureWeaver begun = .ok ⟨.root, archiveEquipped⟩ begun := by
    have hpath : c.cachedArchive = ⟨.root, archiveEquipped⟩ :=
      cachedArchive_of_plain ⟨by decide, by decide⟩
    have hfile : begun.files.isFile? c.cachedArchive = .ok true := by
      rw [hpath]
      exact ask_eq_true.2 ⟨_, _, look_archiveEquipped, rfl⟩
    have hcached : c.ensureCached begun = .ok c.cachedArchive begun := by
      unfold Toolchain.ensureCached
      rw [bind_ok (Run.ask_eq_ok.2 ⟨hfile, rfl⟩)]
      rfl
    rw [← hpath]
    exact hcached
  have hjava : c.findJava begun = .ok "/bin/java" begun := by cbv
  have hinputs : Bundle.ofPaths begun.files [⟨.root, ["in"]⟩] = .ok inputs := by cbv
  have hslot : openSlot ⟨.root, names⟩ mainSlot cleared = .ok (slotPath ⟨.root, names⟩ mainSlot) opened := by
    rw [openSlot_mainSlot]
    exact bind_ok hopen
  have hprepares : Prepares {} ⟨.root, names⟩ (some defaultWeaverVersion)
      ((equippedOptions names).input inputs ⟨[], []⟩) begun _ _ _ :=
    .intro rfl hclear rfl rfl (.kept rfl .nil) rfl rfl rfl hslot
  have htells := hprepares.tellsOnce ⟨_, List.mem_singleton_self _, rfl⟩
  exact ⟨⟨[⟨.root, ["in"]⟩], [], ⟨.root, names⟩⟩, begun, ⟨{}, c, ⟨.root, archiveEquipped⟩, begun, "/bin/java",
    ⟨.root, names⟩, inputs, ⟨[], []⟩, _, _, _⟩, ⟨rfl, hcall, ⟨rfl, rfl, rfl, hexist, _, rfl, hsafe⟩, hbegins,
      ⟨hsettings, rfl, htoolchain, harchive, hjava, rfl, hinputs, rfl, htells⟩⟩, rfl, rfl, rfl, rfl, rfl⟩

/-- So does a weave into a directory beside all of it. -/
theorem comesTo_equipped_beside (run : ConsoleRun) :
    ∃ paths begun l, { worldEquipped with console := some run : World }.ComesTo
        ["weave", "-i", "/in", "-o", "/out"] (equippedOptions ["out"]) paths begun l ∧
      l.found.files = worldEquipped.files ∧ l.archive = ⟨.root, archiveEquipped⟩ ∧
      l.root = ⟨.root, ["out"]⟩ ∧ l.settings = {} ∧ l.toolchain = .ofSettings {} cacheAtRoot true := by
  have hsafe : outputIsSafe ⟨.root, ["out"]⟩ [⟨.root, ["in"]⟩, ⟨.root, []⟩, ⟨.root, []⟩]
      { worldEquipped with console := some run } = .ok true { worldEquipped with console := some run } := by
    cbv
  have hclear : clearSlots ⟨.root, ["out"]⟩ worldEquipped.files = .ok () worldEquipped.files := by cbv
  obtain ⟨opened, hopen⟩ : ∃ opened, ensureDirectory (under ⟨.root, ["out"]⟩ mainNames) worldEquipped.files =
      .ok () opened := by
    rw [mainNames_eq]
    exact ⟨_, by cbv⟩
  exact comesTo_equipped _ run rfl hsafe hclear hopen

end WeaveStep
