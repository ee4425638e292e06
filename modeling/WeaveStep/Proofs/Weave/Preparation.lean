import WeaveStep.CommandLine.Execute
import WeaveStep.Proofs.Fetch.Steps

/-!
# What comes before the launch

Checking the command line, setting up the log, loading the settings, finding the toolchain, with its
download, and routing the artifacts record no launch, whether they fail or not.
-/

namespace WeaveStep

open World FileTree CommandLine

/-! ## Slots and routes -/

theorem sameDirectory_clearSlots (root : Path) : Always SameDirectory (clearSlots root) := by
  refine (Always.query _).bind fun found => ?_
  split
  · exact always_removeTree root
  · exact .pure ()

theorem sameDirectory_openSlot (root : Path) (key : SlotKey) :
    Always SameDirectory (openSlot root key) := by
  unfold openSlot
  dsimp only
  split
  · exact (always_ensureDirectory _).bind fun _ => .pure _
  · exact (always_ensureDirectory _).bind fun _ => .pure _

theorem sameDirectory_copyIntoSlot (root : Path) (a : Artifact) :
    Always SameDirectory (copyIntoSlot root a) := by
  refine (sameDirectory_openSlot root _).bind fun slot => ?_
  split
  · exact (always_copyTreeWithin _ _ _).bind fun _ => .pure _
  · exact (always_copyFile _ _ _).bind fun _ => .pure _

theorem sameLaunches_judge (root : Path) (rules : List ExcludeRule) (logger : String)
    (a : Artifact) : Always SameLaunches (judge root rules logger a) := by
  unfold judge
  split
  · exact (sameLaunches_log _ _ _).bind fun _ =>
      (sameLaunches_onFiles (sameDirectory_copyIntoSlot root a)).bind fun _ => .pure _
  · exact .pure _

theorem sameLaunches_route (root : Path) (rules : List ExcludeRule) (logger : String)
    (inputs referenced : List Bundle) :
    Always SameLaunches (route root rules logger inputs referenced) := by
  refine (Always.mapM fun a _ => sameLaunches_judge root rules logger a).bind fun verdicts => ?_
  dsimp only
  split
  · exact (sameLaunches_log _ _ _).bind fun _ => .pure _
  · exact .pure _

theorem sameLaunches_neededLibrary (settings : Settings) (javaClasspath : List String) :
    Always SameLaunches (neededLibrary settings javaClasspath) := by
  unfold neededLibrary
  split
  · exact Always.get.bind fun _ => .ask _ _
  · exact .pure none

theorem sameLaunches_assemble (settings : Settings) (root : Path) (logger : String)
    (toWeave classpathOnly : List Path) (bootClasspath : List String) (library : Option String) :
    Always SameLaunches
      (assemble settings root logger toWeave classpathOnly bootClasspath library) := by
  have hopen : Always SameLaunches (Run.onFiles (ε := FileFailure) id (openSlot root mainSlot)) :=
    sameLaunches_onFiles (sameDirectory_openSlot root mainSlot)
  unfold assemble
  split
  · exact (sameLaunches_log _ _ _).bind fun _ => hopen.bind fun _ => .pure _
  · exact hopen.bind fun _ => .pure _

/-! ## The toolchain -/

theorem sameLaunches_download (d : Download) : Always SameLaunches (download d) :=
  Download.always_download (fun _ _ _ _ => ⟨rfl, rfl, rfl, rfl⟩)
    (sameLaunches_onFiles (always_ensureDirectory _))
    (fun _ _ _ => sameLaunches_onFiles (.change fun _ _ h => sameDirectory_write h))
    (fun _ _ => sameLaunches_onFiles (Download.always_discard fun _ _ h => sameDirectory_unlink h))
    fun _ _ => sameLaunches_onFiles (.change fun _ _ h => sameDirectory_move h)

theorem sameLaunches_command (c : Toolchain) : Always SameLaunches c.command :=
  Toolchain.always_command (fun _ _ => sameLaunches_log _ _ _) fun _ => sameLaunches_download _

/-! ## The command -/

section

variable {R : World → World → Prop} [IsPreorder World R]

theorem always_givenFor (use : PathUse) (p : GivenPath) : Always R (givenFor use p) := by
  cases p with
  | none => exact .throw _
  | some p => exact .pure p

theorem always_findSettings (given : Option GivenPath) (project : GivenPath) :
    Always R (findSettings given project) := by
  cases given with
  | none => exact (always_givenFor _ _).bind fun p => Always.get.bind fun w => .ofExcept _ _
  | some file => exact (always_givenFor _ _).bind fun p => Always.get.bind fun w => .ofExcept _ _

theorem always_findToolchain (settings : Settings) (project : GivenPath) (showProgress : Bool) :
    Always R (findToolchain settings project showProgress) :=
  (always_givenFor _ _).bind fun _ => Always.get.bind fun _ =>
    Always.bind (.ofExcept _ _) fun _ => .pure _

end

theorem sameDirectory_hold (p : Path) : Always SameDirectory (hold p) := by
  refine (Always.query _).bind fun place => Always.get.bind fun t => ?_
  have hmodify : Always SameDirectory
      (modify fun t => { t with held := some place } : Action Unit) := Always.modify fun _ => rfl
  split
  · exact (Always.change (R := SameDirectory) fun _ _ h => sameDirectory_write h).bind fun _ => hmodify
  · exact hmodify

/-- What is kept as sinks change and the file of the log is opened, setting up the log keeps. -/
theorem always_setUp {R : World → World → Prop} [IsPreorder World R] {o : LogOptions}
    (hlogging : ∀ (w : World) logging, R w { w with logging })
    (hopen : ∀ p, o.file = some p → Always R (Run.onFiles (ε := FileFailure) id (openLogFile p))) :
    Always R o.setUp := by
  have hset : ∀ logging : Logging,
      Always R (modify fun w => { w with logging } : Run FileFailure Unit) := fun logging =>
    Always.modify fun w => hlogging w logging
  unfold LogOptions.setUp
  refine (hset _).bind fun _ => ?_
  split
  · rename_i p hp
    exact (hopen p hp).bind fun _ => hset _
  · exact .pure ()

theorem sameLaunches_setUp (o : LogOptions) : Always SameLaunches o.setUp := by
  refine always_setUp (fun _ _ => ⟨rfl, rfl, rfl, rfl⟩) fun p _ => sameLaunches_onFiles ?_
  exact (always_ensureDirectory _).bind fun _ => (Always.query _).bind fun _ => sameDirectory_hold _

end WeaveStep
