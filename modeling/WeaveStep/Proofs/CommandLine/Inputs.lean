import WeaveStep.Proofs.CommandLine.Deletion
import WeaveStep.Proofs.CommandLine.Disabled
import WeaveStep.Proofs.CommandLine.Launching
import WeaveStep.Proofs.CommandLine.Reading

/-!
# What a command line leaves of its inputs

A weave that is commanded first makes itself ready: it opens the log and takes the weaver from the
cache. Then it changes its outputs only, if the weaver keeps to its own directory.

* `World.WritesAside w o place`: the log, with its backups, and the cache lie aside from the place.
* `FileTree.ChangesOutputs place root t t'`: what was done before the weave was done aside from the
  place, and the weave changed what lies at the root or below.
* **`changesOutputs_execute`**: so it is with every command line to weave.
* **`execute_keeps_inputs`**: the inputs stay, and what is seen below them by a way beside the outputs is
  seen there still.

Outputs may lie among the inputs, and then they are removed from them (`not_execute_keeps_inputs`).
-/

namespace WeaveStep

open FileTree CommandLine World

/-! ## Paths on a command line -/

section

variable {t : FileTree} {p q : Path}

theorem directory_of_currentPath (h : t.currentPath = .ok p) :
    t.get? t.workingDirectory = some .directory := by
  unfold currentPath at h
  split at h
  · assumption
  · cases h

theorem exists_absolute {here : Path} (hhere : t.currentPath = .ok here) (p : Path) :
    ∃ q, t.absolute p = .ok q := by
  unfold absolute
  split
  · exact ⟨p, rfl⟩
  · rw [hhere]
    exact ⟨_, rfl⟩

theorem isName_of_absolute (htree : IsTree t) (hstart : t.get? t.workingDirectory = some .directory)
    {text : String} (h : t.absolute (.ofString text) = .ok q) :
    ∀ name ∈ q.parts, Path.isName name = true := by
  intro name hname
  rcases parts_of_absolute h hname with hname | hname
  · exact (List.mem_filter.1 hname).2
  · obtain ⟨hblank, hdot, -⟩ := htree.isEntryName (by simp [hstart]) name hname
    simp [Path.isName, hblank, hdot]

theorem eq_map_ofString {paths : List Path} {values : List (Option String)}
    (h : paths.map some = values.map writtenPath) :
    ∃ texts : List String, paths = texts.map .ofString := by
  induction paths generalizing values with
  | nil => exact ⟨[], rfl⟩
  | cons p paths ih =>
    cases values with
    | nil => cases h
    | cons value values =>
      obtain ⟨hp, hpaths⟩ := List.cons.inj h
      obtain ⟨text, -, rfl⟩ := Option.map_eq_some_iff.1 hp.symm
      obtain ⟨texts, rfl⟩ := ih hpaths
      exact ⟨text :: texts, rfl⟩

end

/-! ## Making ready -/

/-- The archive of a toolchain and its temporary file are no links, if the toolchain takes its archive
from the cache. -/
def Toolchain.CachesNoLink (c : Toolchain) (t : FileTree) : Prop :=
  c.archive = none → MeetsNoLink t c.cachedArchive ∧
    ∀ temporary, c.asDownload.temporary? = some temporary → MeetsNoLink t temporary

section

variable {t : FileTree} {place : Location} {p here : Path}

/-- A log is opened aside from the place if its path leads aside. -/
theorem keeps_readied_openLogFile (hhere : t.currentPath = .ok here)
    (hlog : ∀ whole, t.absolute p = .ok whole → LeadsAside t place whole.collapsed) :
    Always (Keeps (ReadiedAside place t)) (openLogFile p) := by
  refine (keeps_readied_ensureDirectory _).bind fun _ => .keeps_of fun t₁ h₁ => ?_
  refine (Always.query (R := Eq) _).yields_bind (fun whole t₂ hsame hwhole => ?_)
    fun e t₂ hsame => hsame ▸ h₁
  obtain ⟨hwhole, rfl⟩ := query_eq_ok hwhole
  exact (keeps_readied_hold (hlog whole
    (absolute_of_sameDirectory h₁.workingDirectory hhere hwhole))).keeps h₁

theorem keeps_readied_setUp {o : LogOptions} (hhere : t.currentPath = .ok here)
    (hlog : ∀ p whole, o.file = some p → t.absolute p = .ok whole →
      LeadsAside t place whole.collapsed) :
    Always (Keeps fun w : World => ReadiedAside place t w.files) o.setUp :=
  always_setUp (R := Keeps fun w : World => ReadiedAside place t w.files) (fun _ _ h => h) fun p hp =>
    always_keeps_onFiles _ (keeps_readied_openLogFile hhere fun whole => hlog p whole hp)

/-- A toolchain is told aside, if its cache takes the archive aside and its files are no links. -/
theorem keeps_readied_command {c : Toolchain} (haside : c.CachesAside t place)
    (hlinks : c.CachesNoLink t) :
    Always (Keeps fun w : World => ReadiedAside place t w.files) c.command := by
  refine Toolchain.always_command (R := Keeps fun w : World => ReadiedAside place t w.files)
    (fun _ _ => always_keeps_log (fun _ bytes h => h.extendHeld bytes) _ _ _) fun harchive => ?_
  obtain ⟨htarget, htemporary⟩ := haside harchive
  obtain ⟨hlink, hlinks⟩ := hlinks harchive
  refine Download.always_download (fun _ _ _ _ h => h)
    (always_keeps_onFiles _ (keeps_readied_ensureDirectory _)) (fun temporary hsome content => ?_)
    (fun temporary hsome => ?_) fun temporary hsome => ?_
  · exact always_keeps_onFiles _ (keeps_readied_write (htemporary _ hsome) content)
  · exact always_keeps_onFiles _ (Download.always_discard fun _ _ hremoved h =>
      h.unlink (htemporary _ hsome) (hlinks _ hsome) hremoved)
  · exact always_keeps_onFiles _ (.change fun _ _ hmoved h =>
      h.move (htemporary _ hsome) htarget (hlinks _ hsome) hlink hmoved)

end

/-! ## The command -/

/-- First everything is made ready aside from the place, and then only what lies where the root does, or
below, is changed. -/
def FileTree.ChangesOutputs (place : Location) (root : Path) (t t' : FileTree) : Prop :=
  ∃ mid, ReadiedAside place t mid ∧ ChangesAmong (IsOutput mid root) mid t'

theorem FileTree.ReadiedAside.changesOutputs {t t' : FileTree} {place : Location} (root : Path)
    (h : ReadiedAside place t t') : ChangesOutputs place root t t' :=
  ⟨t', h, refl_of (ChangesAmong _) t'⟩

/-- In worlds that a weave comes to from `w`, what its toolchain launches changes only what lies in the
directory that it is told to fill. -/
def World.EquipsKeepers (w : World) (o : WeaveOptions) (root : Path) : Prop :=
  ∀ c w₁ command w₂, w.Equips o c w₁ → c.command w₁ = .ok command w₂ → w₂.LaunchKeepsToOutput root command

section

variable {o : WeaveOptions} {paths : WeavePaths} {t : FileTree} {w : World} {root here : Path}
  {place : Location}

/-- Where the console is given, nothing is launched. -/
theorem equipsKeepers_of_console {run : ConsoleRun} (h : w.console = some run) :
    w.EquipsKeepers o root := by
  rintro c w₁ command w₂ ⟨settings, mid, hsettings, -, htoolchain⟩ hcommand v i place hsame - -
  have hmid := (always_findSettings (R := SameLaunches) _ _).of_ok hsettings
  have hw₁ := (always_findToolchain (R := SameLaunches) _ _ _).of_ok htoolchain
  have hw₂ := (sameLaunches_command c).of_ok hcommand
  have hconsole : v.console = some run := by
    rw [hsame.console, hw₂.console, hw₁.console, hmid.console, h]
  have hlaunch : Run.launch (command ++ i.arguments) v = .ok run v := by
    unfold Run.launch
    rw [hconsole]
  exact yields_of_eq_ok hlaunch (refl_of (ChangesAmong _) v.files)

/-- A weave makes itself ready aside from the place, and changes its outputs only. -/
theorem changesOutputs_tryWeave (hhere : t.currentPath = .ok here)
    (hslash : ∀ name ∈ t.workingDirectory, '/' ∉ name.toList)
    (hroot : t.absolute paths.output = .ok root) (hparts : ∀ name ∈ root.parts, Path.isName name = true)
    (hsteady : IsSteady t root) (hwritten : ∃ texts : List String, paths.inputs = texts.map .ofString)
    (hcache : ∀ c w₁, w.Equips o c w₁ → c.CachesAside t place ∧ c.CachesNoLink t)
    (hweaver : w.EquipsKeepers o root) (h : ReadiedAside place t w.files) :
    Yields (tryWeave o paths) w fun _ w' => ChangesOutputs place root t w'.files := by
  have hsame : ∀ {w'}, w = w' → ChangesOutputs place root t w'.files := by
    rintro _ rfl
    exact h.changesOutputs root
  unfold tryWeave
  refine (always_findSettings (R := Eq) _ _).yields_bind (fun settings w₁ heq hsettings => ?_)
    fun _ _ => hsame
  subst heq
  extract_lets rest
  -- both branches go on with `rest`, with the command of a toolchain or with none
  have hrest : ∀ command w₁, ReadiedAside place t w₁.files →
      (settings.enabled = true → w₁.LaunchKeepsToOutput root command) →
      Yields (rest command) w₁ fun _ w' => ChangesOutputs place root t w'.files := by
    intro command w₁ h₁ hkeeps
    have hends : ∀ {w'}, w₁ = w' → ChangesOutputs place root t w'.files := by
      rintro _ rfl
      exact h₁.changesOutputs root
    refine (Always.ask (R := Eq) _ _).yields_bind (fun root' w₂ heq hask => ?_) fun _ _ => hends
    subst heq
    have habsolute := absolute_of_sameDirectory h₁.workingDirectory hhere (Run.ask_eq_ok.1 hask).1
    obtain rfl : root = root' := Except.ok.inj (hroot.symm.trans habsolute)
    refine (Always.ask (R := Eq) _ _).yields_bind (fun inputs w₂ heq hinputs => ?_) fun _ _ => hends
    subst heq
    refine (Always.ask (R := Eq) _ _).yields_bind (fun referenced w₂ heq _ => ?_) fun _ _ => hends
    subst heq
    obtain ⟨texts, htexts⟩ := hwritten
    have hbundle := (Run.ask_eq_ok.1 hinputs).1
    rw [htexts] at hbundle
    let weaver : Weaver := .ofCommand command (some settings.weaverVersion)
    have hkeepsTo : settings.enabled = true → weaver.KeepsToOutput root w₁ := fun henabled =>
      keepsToOutput_ofCommand (hkeeps henabled)
    have hweave := changesAmong_weave settings (isAbsolute_of_absolute hroot) hparts
      { inputs := [inputs], referenced := [referenced], javaClasspath := writtenClasspath o.javaClasspath }
      h₁.isTree (h₁.workingDirectory ▸ hslash) (areWritten_singleton texts hbundle)
      (hsteady.of_sameLinks h₁.toSameLinks) hkeepsTo
    have hwrapped : Yields (Run.wrapping CommandFailure.weave (weave settings root
        (.ofCommand command (some settings.weaverVersion))
        { inputs := [inputs], referenced := [referenced],
          javaClasspath := writtenClasspath o.javaClasspath })) w₁
        fun _ w' => ChangesOutputs place root t w'.files :=
      hweave.wrapping (fun _ _ hw' => ⟨_, h₁, hw'⟩) fun _ _ hw' => ⟨_, h₁, hw'⟩
    refine Yields.bind (fun completion w₂ hok => ?_) fun e w₂ herror => hwrapped.of_error herror
    have hw₂ := hwrapped.of_ok hok
    -- what is told at the end is no more than printed
    have htold : ∀ {act : Run CommandFailure Unit}, Says act () →
        Yields act w₂ fun _ w' => ChangesOutputs place root t w'.files := fun hsays =>
      hsays.yields fun _ => hw₂
    split
    · exact htold (says_warning _)
    · refine htold ((says_success _).bind <| (says_print _).bind <| (says_print _).bind fun w => ?_)
      exact says_print ("Weave time: " ++ w.duration ++ "s") w
  split
  · rename_i henabled
    refine (always_findToolchain (R := Eq) _ _ _).yields_bind (fun c w₁ heq hfound => ?_) fun _ _ => hsame
    subst heq
    have hequips : w.Equips o c w := ⟨settings, w, hsettings, henabled, hfound⟩
    obtain ⟨haside, hlinks⟩ := hcache c w hequips
    have hcommand : Always (Keeps fun w : World => ReadiedAside place t w.files)
        (Run.wrapping CommandFailure.toolchain c.command) :=
      (keeps_readied_command haside hlinks).wrapping
    refine hcommand.yields_bind (fun command w₂ hkept hok => ?_) fun e w₂ hkept =>
      (hkept h).changesOutputs root
    exact hrest command w₂ (hkept h) fun _ =>
      hweaver c w command w₂ hequips (Run.wrapping_eq_ok.1 hok)
  · rename_i hdisabled
    exact hrest [] w h fun henabled => absurd henabled hdisabled

/-- The files of a log: the one that is written, and the backups that it is renamed to in turn once it has
grown too large. -/
def logFiles (p : Path) : List Path := p :: [".1", ".2", ".3"].map fun ending => .ofString (p.text ++ ending)

/-- What the program writes besides the outputs lies aside from the place: the file held open, the log with
its backups, and the cache of the toolchain, whose files are no links. No log is renamed in this model, but
a place where its backups may come to lie is none that is spared. -/
structure World.WritesAside (w : World) (o : WeaveOptions) (place : Location) : Prop where
  held : ∀ q, w.files.held = some q → isWithin place q = false
  log : ∀ p whole, o.log = some p → w.files.absolute p = .ok whole →
    ∀ file ∈ logFiles whole.collapsed, LeadsAside w.files place file
  cache : ∀ w₁ c w₂, w.Begins o w₁ → w₁.Equips o c w₂ →
    c.CachesAside w.files place ∧ c.CachesNoLink w.files

theorem changesOutputs_weaveCommand (hhere : w.files.currentPath = .ok here) (htree : IsTree w.files)
    (hslash : ∀ name ∈ w.files.workingDirectory, '/' ∉ name.toList)
    (hroot : w.files.absolute paths.output = .ok root)
    (hparts : ∀ name ∈ root.parts, Path.isName name = true) (hsteady : IsSteady w.files root)
    (hwritten : ∃ texts : List String, paths.inputs = texts.map .ofString)
    (hweaver : ∀ w₁, w.Begins o w₁ → w₁.EquipsKeepers o root) (haside : w.WritesAside o place) :
    Yields (weaveCommand o paths) w fun _ w' => ChangesOutputs place root w.files w'.files := by
  have hfirst := ReadiedAside.refl htree (directory_of_currentPath hhere) haside.held
  unfold weaveCommand
  have hlog := fun p whole hp hwhole => haside.log p whole hp hwhole _ List.mem_cons_self
  refine (keeps_readied_setUp hhere hlog).yields_bind (fun _ w₁ hkept hbegins => ?_)
    fun e w₁ hkept => (hkept hfirst).changesOutputs root
  exact yields_concluding _ (changesOutputs_tryWeave hhere hslash hroot hparts hsteady hwritten
    (fun c w₂ => haside.cache w₁ c w₂ hbegins) (hweaver w₁ hbegins) (hkept hfirst))

end

/-! ## The program -/

/-- The root of the outputs of a weave. -/
def World.OutputRoot (w : World) (o : WeaveOptions) (root : Path) : Prop :=
  ∃ output, o.output = some output ∧ w.files.absolute output = .ok root

section

variable {o : WeaveOptions} {w : World} {place q : Location}

/-- **A command line to weave** changes nothing, or every check of it holds, and then it changes its outputs
only, aside from any place where the log and the cache lie aside. -/
theorem changesOutputs_execute (arguments : List String) (htree : IsTree w.files)
    (hslash : ∀ name ∈ w.files.workingDirectory, '/' ∉ name.toList)
    (hcall : w.call arguments = .ok (.weave o))
    (hsteady : ∀ root, w.OutputRoot o root → IsSteady w.files root)
    (hweaver : ∀ root, w.OutputRoot o root → ∀ w₁, w.Begins o w₁ → w₁.EquipsKeepers o root) :
    Yields (execute arguments) w fun _ w' => w'.files = w.files ∨
      ∃ paths root, Passes ⟨.root, w.files.workingDirectory⟩ o w paths ∧ w.OutputRoot o root ∧
        ∀ place, w.WritesAside o place → ChangesOutputs place root w.files w'.files := by
  have hprinted : ∀ {w'}, OnlyPrints w w' → w'.files = w.files := by
    rintro _ ⟨output, errors, rfl⟩
    rfl
  cases hhere : w.files.currentPath with
  | error e => exact .of_eq (execute_lost hhere arguments) (yields_throw (.inl rfl))
  | ok here =>
    refine .of_eq (execute_of_call hhere hcall) ?_
    obtain rfl := currentPath_eq hhere
    refine yields_checkedWeave (fun _ h => .inl (hprinted h)) (fun _ _ h => .inl (hprinted h))
      fun paths hpasses => ?_
    obtain ⟨hinputs, -, value, hvalue⟩ := Call.read_written hcall
    obtain ⟨text, -, htext⟩ := Option.map_eq_some_iff.1 (hvalue.symm.trans hpasses.output)
    obtain ⟨values, hvalues⟩ := hinputs
    have hwritten := eq_map_ofString (hpasses.inputs.symm.trans hvalues)
    obtain ⟨root, hroot⟩ := exists_absolute hhere paths.output
    have houtput : w.OutputRoot o root := ⟨paths.output, hpasses.output, hroot⟩
    have hparts : ∀ name ∈ root.parts, Path.isName name = true :=
      isName_of_absolute htree (directory_of_currentPath hhere) (htext ▸ hroot)
    have hcommand : Yields (weaveCommand o paths) w fun _ w' =>
        ∀ place, w.WritesAside o place → ChangesOutputs place root w.files w'.files :=
      yields_forall fun place => yields_forall fun haside => changesOutputs_weaveCommand hhere htree hslash hroot
        hparts (hsteady root houtput) hwritten (hweaver root houtput) haside
    exact hcommand.wrapping (fun _ _ h => .inr ⟨paths, root, hpasses, houtput, h⟩)
      fun _ _ h => .inr ⟨paths, root, hpasses, houtput, h⟩

/-- The outputs lie at the place, or may come to lie there before the weave begins. -/
def World.MayPut (w : World) (o : WeaveOptions) (place : Location) : Prop :=
  ∃ root, w.OutputRoot o root ∧ MayLieAt w.files root place

/-- The check in front of a weave sees where the output and the path lead: a resolution sees every link
on their ways, and the root comes to lie nowhere but where it lies. -/
structure World.Compares (w : World) (o : WeaveOptions) (p : Path) : Prop where
  output : ∀ output, o.output = some output → IsTraced w.files output
  path : IsTraced w.files p
  root : ∀ root place, w.OutputRoot o root → MayLieAt w.files root place → LiesAt w.files root place

/-- A path that passes the check does not lead to where the root lies, or below. -/
theorem Passes.not_isWithin {here root p : Path} {paths : WeavePaths} {node : Node}
    (h : Passes here o w paths) (htree : IsTree w.files) (hroot : w.files.absolute paths.output = .ok root)
    (hp : p ∈ paths.inputs ++ paths.referenced) (houtput : IsTraced w.files paths.output)
    (hpath : IsTraced w.files p) (hlook : w.files.look .followed p = .ok (q, node))
    (hlies : LiesAt w.files root place) : isWithin place q = false := by
  obtain ⟨project, -, hsafe⟩ := h.safe
  obtain ⟨above, w₁, habove, hspares⟩ := bind_eq_ok hsafe
  obtain ⟨habove, rfl⟩ := Run.ask_eq_ok.1 habove
  have hfinds : Finds w₁.files above _ (.ok true) := (yields_spares paths.output above _ w₁).of_ok hspares
  obtain ⟨below, hbelow, hbeside⟩ := hfinds p (List.mem_append_left _ hp)
  rw [Bool.eq_false_iff]
  intro hin
  cases hlies with
  | found hlocate =>
    exact not_isPrefix_of_safe htree houtput hpath hroot habove hbelow hbeside hlook hlocate
      (List.isPrefixOf_iff_prefix.1 hin)
  | missing hmissing =>
    have hnone := hmissing.nothing htree (isWithin_trans (isWithin_take _ _) hin)
    rw [(look_eq_ok_iff.1 hlook).2] at hnone
    cases hnone

/-- What lies beside the outputs stays. -/
theorem FileTree.ChangesOutputs.kept {t t' : FileTree} {root : Path} {node : Node}
    (h : ChangesOutputs q root t t') (hnode : t.get? q = some node)
    (hbeside : ∀ place, MayLieAt t root place → isWithin place q = false) : t'.get? q = some node := by
  obtain ⟨mid, hready, hamong⟩ := h
  refine hamong.kept ?_ hready.held_ne (hready.kept hnode)
  rintro ⟨place, hlies, hin⟩
  rw [hbeside place ⟨mid, hready.toSameLinks, hlies⟩] at hin
  cases hin

/-- What a path leads to by a way beside the outputs, it still leads to. -/
theorem FileTree.ChangesOutputs.look {t t' : FileTree} {root p : Path} {node : Node}
    (h : ChangesOutputs q root t t') (hlook : t.look .followed p = .ok (q, node))
    (hbeside : ∀ place, MayLieAt t root place → (t.without place).look .followed p = .ok (q, node)) :
    t'.look .followed p = .ok (q, node) := by
  obtain ⟨mid, hready, hamong⟩ := h
  exact look_of_changesAmong hready.toSameLinks (hready.kept (look_eq_ok_iff.1 hlook).2) hamong
    hready.held_ne hlook hbeside

/-- **A weave spares its inputs**, whether it fails or not, if its output leads up only from what is there
and the weaver keeps to its own directory. A file that is seen at an input or below it stays where it is,
if it does not lie at the outputs or below; the input itself stays in any case, as far as the check
can see. And where the way to a file does not lead through the outputs either, it is seen by that way
still. -/
theorem execute_keeps_inputs (arguments : List String) (htree : IsTree w.files)
    (hslash : ∀ name ∈ w.files.workingDirectory, '/' ∉ name.toList)
    (hcall : w.call arguments = .ok (.weave o))
    (hsteady : ∀ root, w.OutputRoot o root → IsSteady w.files root)
    (hweaver : ∀ root, w.OutputRoot o root → ∀ w₁, w.Begins o w₁ → w₁.EquipsKeepers o root) :
    Yields (execute arguments) w fun _ w' =>
      ∀ p, some p ∈ o.inputs ++ o.referenced → ∀ names q node,
        w.files.look .followed (under p names) = .ok (q, node) → w.WritesAside o q →
        ((names = [] ∧ w.Compares o p ∨ ∀ place, w.MayPut o place → isWithin place q = false) →
          w'.files.get? q = some node) ∧
        ((∀ place, w.MayPut o place →
            (w.files.without place).look .followed (under p names) = .ok (q, node)) →
          w'.files.look .followed (under p names) = .ok (q, node)) := by
  refine (changesOutputs_execute arguments htree hslash hcall hsteady hweaver).imp fun _ w' h => ?_
  intro p hp names q node hlook haside
  have hnode := (look_eq_ok_iff.1 hlook).2
  rcases h with hsame | ⟨paths, root, hpasses, houtput, hchanges⟩
  · rw [hsame]
    exact ⟨fun _ => hnode, fun _ => hlook⟩
  have hchanged := hchanges q haside
  refine ⟨fun hbeside => hchanged.kept hnode fun place hlies => ?_, fun hbeside =>
    hchanged.look hlook fun place hlies => hbeside place ⟨root, houtput, hlies⟩⟩
  rcases hbeside with ⟨rfl, hcompares⟩ | hbeside
  · have hgiven : p ∈ paths.inputs ++ paths.referenced := by
      rw [hpasses.inputs, hpasses.referenced] at hp
      simpa using hp
    obtain ⟨output, hsome, hroot⟩ := houtput
    obtain rfl : output = paths.output := Option.some.inj (hsome.symm.trans hpasses.output)
    have hwhole : under p [] = p := by simp [under]
    rw [hwhole] at hlook
    exact hpasses.not_isWithin htree hroot hgiven (hcompares.output _ hsome) hcompares.path hlook
      (hcompares.root root place ⟨_, hsome, hroot⟩ hlies)
  · exact hbeside place ⟨root, houtput, hlies⟩

end

/-! ## Inputs with the outputs among them -/

/-- The cache of the equipped world lies beside its inputs. -/
theorem writesAside_equipped {arguments : List String} {o : WeaveOptions} {paths : WeavePaths} {begun : World}
    {l : Launching} (hcomes : worldEquipped.ComesTo arguments o paths begun l) (hlog : o.log = none)
    (htoolchain : l.toolchain = .ofSettings {} cacheAtRoot true) (names : List String) :
    worldEquipped.WritesAside o ("in" :: names) := by
  refine ⟨fun q hheld => (by cases hheld), fun _ _ hsome => (by simp [hlog] at hsome), ?_⟩
  intro w₁ c w₂ hbegins hequips
  obtain ⟨-, rfl⟩ := EStateM.Result.ok.inj (hcomes.begins.symm.trans hbegins)
  obtain rfl := (hcomes.launching.eq_toolchain hequips).trans htoolchain
  let archive := "aspectjtools-" ++ defaultWeaverVersion ++ ".jar"
  have hplain : IsPlainName defaultWeaverVersion := ⟨by decide, by decide⟩
  have hpath : (Toolchain.ofSettings {} cacheAtRoot true).cachedArchive =
      ⟨.root, toolsAtRoot ++ [defaultWeaverVersion, archive]⟩ := cachedArchive_of_plain hplain
  have haside : ∀ last, IsEntryName last → LeadsAside worldEquipped.files ("in" :: names)
      ⟨.root, toolsAtRoot ++ [defaultWeaverVersion, last]⟩ := by
    intro last hlast
    refine leadsAside_of_straight (fun name hname => ?_) (fun _ _ _ => not_link_equipped) rfl
    simp only [toolsAtRoot, List.cons_append, List.nil_append, List.mem_cons, List.not_mem_nil,
      or_false] at hname
    rcases hname with rfl | rfl | rfl | rfl | rfl
    · decide
    · decide
    · decide
    · exact hplain.entry
    · exact hlast
  refine ⟨fun _ => ⟨hpath ▸ haside archive (by decide), fun temporary htemporary => ?_⟩, fun _ =>
    ⟨meetsNoLink_of_noLinks fun _ _ => not_link_equipped, fun _ _ => meetsNoLink_of_noLinks fun _ _ =>
      not_link_equipped⟩⟩
  have htarget : (Toolchain.ofSettings {} cacheAtRoot true).asDownload.target =
      ⟨.root, toolsAtRoot ++ [defaultWeaverVersion, archive]⟩ := hpath
  rw [Download.temporary?_eq (by simp [htarget]), htarget] at htemporary
  cases htemporary
  exact haside (archive ++ ".tmp") (Download.isEntryName_temporary archive)

/-- A weave into a directory among its inputs removes what an earlier one left there, and leaves the inputs
beside it. -/
theorem execute_keeps_inputs_nested :
    worldEquipped.files.get? ["in", "out", "B.class"] = some (.file [203] false) ∧
    Yields (execute ["weave", "-i", "/in", "-o", "/in/out"]) worldEquipped fun _ w' =>
      (∃ l : Launching, worldEquipped.LaunchesIn l.world l.command w' ∧ ∀ content executable,
        l.world.files.get? ["in", "out", "B.class"] ≠ some (.file content executable)) ∧
      w'.files.get? ["in"] = some .directory ∧
      w'.files.look .followed ⟨.root, ["in", "A.class"]⟩ = .ok (["in", "A.class"], .file [202] false) := by
  refine ⟨rfl, ?_⟩
  let root : Path := ⟨.root, ["in", "out"]⟩
  have hcall : worldEquipped.call ["weave", "-i", "/in", "-o", "/in/out"] =
      .ok (.weave (equippedOptions ["in", "out"])) := rfl
  have hsafe : outputIsSafe root [⟨.root, ["in"]⟩, ⟨.root, []⟩, ⟨.root, []⟩] worldEquipped =
      .ok true worldEquipped := by cbv
  obtain ⟨cleared, opened, hclear, hopen⟩ : ∃ cleared opened,
      clearSlots root worldEquipped.files = .ok () cleared ∧
      ensureDirectory (under root mainNames) cleared = .ok () opened := by
    rw [mainNames_eq]
    exact ⟨_, _, by cbv, by cbv⟩
  obtain ⟨paths, begun, l, hcomes, hfound, -, hrootOf, hdefaults, htoolchain⟩ :=
    comesTo_equipped _ ⟨0, []⟩ hcall hsafe hclear hopen
  -- what the outputs of the earlier weave come to at the launch
  have hplace : l.found.files.look .own l.root = .ok (["in", "out"], .directory) := by
    rw [hfound, hrootOf]
    cbv
  have hgone : ∀ content executable,
      l.world.files.get? ["in", "out", "B.class"] ≠ some (.file content executable) := by
    intro content executable hthere
    cases hcomes.launching.directory_of_cleared hplace (by decide) (by simp [hdefaults, isExcluded]) hthere
  -- what the inputs beside them come to
  have hroot : ∀ {found}, worldEquipped.OutputRoot (equippedOptions ["in", "out"]) found → found = root := by
    rintro found ⟨output, houtput, habsolute⟩
    cases houtput
    cases habsolute
    rfl
  have hlies : LiesAt worldEquipped.files root ["in", "out"] := .found (by cbv)
  have hput : ∀ {place}, worldEquipped.MayPut (equippedOptions ["in", "out"]) place →
      place = ["in", "out"] := by
    rintro place ⟨found, houtput, hmay⟩
    obtain rfl := hroot houtput
    exact hmay.eq_of_liesAt isTree_equipped hlies
  have hsteady : IsSteady worldEquipped.files root := ⟨[], ["in", "out"], [], rfl, look_start rfl rfl, by decide⟩
  have hkept := execute_keeps_inputs _ isTree_equipped (by simp [worldEquipped, filesEquipped]) hcall
    (fun found houtput => hroot houtput ▸ hsteady) fun found _ w₁ hbegins =>
      equipsKeepers_of_console ((sameLaunches_setUp _).of_ok hbegins).console
  refine (hkept.and (launchesIn_execute hcomes)).imp ?_
  rintro _ w' ⟨hw', hlaunches⟩
  refine ⟨⟨l, hlaunches, hgone⟩, ?_⟩
  have haside := writesAside_equipped hcomes rfl htoolchain
  have htraced : ∀ p : Path, p.isAbsolute = true → IsTraced worldEquipped.files p := fun p =>
    isTraced_of_absolute isTree_equipped fun _ _ hlink => absurd hlink not_link_equipped
  have hinput := hw' ⟨.root, ["in"]⟩ (by simp [equippedOptions])
  constructor
  · refine (hinput [] ["in"] .directory (by cbv) (haside _)).1 (.inl ⟨rfl, ?_⟩)
    exact ⟨fun output houtput => by cases houtput; exact htraced _ rfl, htraced _ rfl,
      fun found place houtput hmay => by
        obtain rfl := hroot houtput
        rw [hmay.eq_of_liesAt isTree_equipped hlies]
        exact hlies⟩
  · refine (hinput ["A.class"] ["in", "A.class"] (.file [202] false) (by cbv) (haside _)).2 fun place hmay => ?_
    rw [hput hmay]
    cbv

/-- Files with inputs, below which the outputs of an earlier weave lie, and with these settings. -/
def filesNested (settings : List UInt8) : FileTree where
  entries := [([], .directory), (["classes"], .directory), (["classes", "A.class"], .file [202] false),
    (["classes", "out"], .directory), (["classes", "out", "B.class"], .file [203] false),
    (["aspectj.ini"], .file settings false)]
  workingDirectory := []

/-- A world with these files, where weaving is disabled. -/
def worldDisabled : World where
  files := filesNested (Text.utf8Bytes disabledText)

/-- What is asked for there. -/
def disabledOptions : WeaveOptions where
  inputs := [some ⟨.relative, ["classes"]⟩]
  output := some ⟨.relative, ["classes", "out"]⟩
  project := some ⟨.root, []⟩

theorem call_disabled : worldDisabled.call ["weave", "-i", "classes", "-o", "classes/out"] =
    .ok (.weave disabledOptions) := rfl

theorem findSettings_disabled {w : World} (hfiles : w.files = worldDisabled.files) :
    findSettings none (some ⟨.root, []⟩) w = .ok { enabled := false } w := by
  have hread : ∀ bytes, (filesNested bytes).read ⟨.root, ["aspectj.ini"]⟩ = .ok bytes := by
    intro bytes
    cbv
  have hown : Settings.loadOwn w.files ⟨.root, []⟩ = .ok { enabled := false } := by
    rw [hfiles]
    exact loadOwn_disabled (hread _)
  exact Run.ofExcept_eq_ok.2 ⟨hown, rfl⟩

/-- The outputs are removed from the inputs in which they lie. -/
theorem execute_disabled : Yields (execute ["weave", "-i", "classes", "-o", "classes/out"]) worldDisabled
    fun r w' => r = .ok 0 ∧ w'.files.get? ["classes", "out", "B.class"] = none := by
  let here : Path := ⟨.root, []⟩
  let paths : WeavePaths := ⟨[⟨.relative, ["classes"]⟩], [], ⟨.relative, ["classes", "out"]⟩⟩
  let begun : World := { worldDisabled with logging := ⟨.info, [.console .info false]⟩ }
  have hpasses : Passes here disabledOptions worldDisabled paths := by
    have hexist : ∀ bytes, inputsExist [⟨.relative, ["classes"]⟩]
        { files := filesNested bytes } = .ok true { files := filesNested bytes } := by
      intro bytes
      cbv
    have hsafe : ∀ bytes, outputIsSafe ⟨.relative, ["classes", "out"]⟩ [⟨.relative, ["classes"]⟩, here, here]
        { files := filesNested bytes } = .ok true { files := filesNested bytes } := by
      intro bytes
      cbv
    exact ⟨rfl, rfl, rfl, hexist _, here, rfl, hsafe _⟩
  have hcleared : ∀ bytes, ∃ cleared,
      clearSlots ⟨.root, ["classes", "out"]⟩ (filesNested bytes) = .ok () cleared ∧
        cleared.held = none ∧ cleared.get? ["classes", "out", "B.class"] = none := by
    intro bytes
    exact ⟨_, by cbv, rfl, rfl⟩
  obtain ⟨inputs, hinputs⟩ : ∃ inputs, Bundle.ofPaths begun.files paths.inputs = .ok inputs :=
    ⟨_, by cbv⟩
  obtain ⟨cleared, hclear, hheld, hgone⟩ := hcleared (Text.utf8Bytes disabledText)
  have hweave : Yields (tryWeave disabledOptions paths) begun fun r w' => r = .ok () ∧ w'.files = cleared :=
    tryWeave_disabled (findSettings_disabled rfl) rfl rfl hinputs rfl hclear hheld
  have htold : Yields (concluding false (tryWeave disabledOptions paths) : Run FileFailure Nat) begun
      fun r w' => r = .ok 0 ∧ w'.files = cleared := by
    unfold Yields concluding
    cases hrun : tryWeave disabledOptions paths begun with
    | ok _ w' => exact ⟨rfl, (hweave.of_ok hrun).2⟩
    | error e w' => cases (hweave.of_error hrun).1
  have hcommand : Yields (weaveCommand disabledOptions paths) worldDisabled
      fun r w' => r = .ok 0 ∧ w'.files = cleared := yields_bind_of_ok rfl htold
  have hexecute := (execute_of_call rfl call_disabled).trans (checkedWeave_of_passes hpasses)
  refine .of_eq hexecute (hcommand.wrapping (fun _ _ h => ?_) fun _ _ h => by cases h.1)
  rw [Except.ok.inj h.1, h.2]
  exact ⟨rfl, hgone⟩

/-- **Outputs among the inputs are removed**: with no more than what is asked of the weaver, the log and the
cache, a weave does not spare all its inputs. -/
theorem not_execute_keeps_inputs :
    ¬ ∀ (arguments : List String) {w : World} {o : WeaveOptions}, IsTree w.files →
      (∀ name ∈ w.files.workingDirectory, '/' ∉ name.toList) →
      w.call arguments = .ok (.weave o) →
      (∀ root, w.OutputRoot o root → IsSteady w.files root) →
      (∀ root, w.OutputRoot o root → ∀ w₁, w.Begins o w₁ → w₁.EquipsKeepers o root) →
      Yields (execute arguments) w fun r w' => r ≠ .ok refusedCode →
        ∀ p, some p ∈ o.inputs ++ o.referenced → ∀ names q node,
          w.files.look .followed (under p names) = .ok (q, node) → w.WritesAside o q →
          w'.files.look .followed (under p names) = .ok (q, node) := by
  intro h
  have hunequipped : ∀ {w₁ c w₂}, worldDisabled.Begins disabledOptions w₁ →
      ¬w₁.Equips disabledOptions c w₂ := by
    rintro w₁ c w₂ hbegins ⟨settings, mid, hfound, henabled, -⟩
    have hfiles : w₁.files = worldDisabled.files := by
      have hbegun : worldDisabled.Begins disabledOptions
          { worldDisabled with logging := ⟨.info, [.console .info false]⟩ } := rfl
      obtain ⟨-, rfl⟩ := EStateM.Result.ok.inj (hbegun.symm.trans hbegins)
      rfl
    have hsettings : findSettings none (some ⟨.root, []⟩) w₁ = .ok settings mid := hfound
    rw [findSettings_disabled hfiles] at hsettings
    cases hsettings
    cases henabled
  have htree : IsTree worldDisabled.files := isTree_of_entries rfl (by decide)
  have hsteady : ∀ root, worldDisabled.OutputRoot disabledOptions root →
      IsSteady worldDisabled.files root := by
    rintro root ⟨output, houtput, habsolute⟩
    cases houtput
    cases habsolute
    exact ⟨[], ["classes", "out"], [], rfl, look_start rfl rfl, by decide⟩
  have hspared := h _ htree (by simp [worldDisabled, filesNested]) call_disabled hsteady
    fun _ _ _ hbegins _ _ _ _ hequips => absurd hequips (hunequipped hbegins)
  obtain ⟨r, w', ⟨hdone, hgone⟩, hkept⟩ := execute_disabled.exists_and hspared
  have hlook : ∀ bytes,
      (filesNested bytes).look .followed ⟨.relative, ["classes", "out", "B.class"]⟩ =
        .ok (["classes", "out", "B.class"], .file [203] false) := by
    intro bytes
    cbv
  have haside : worldDisabled.WritesAside disabledOptions ["classes", "out", "B.class"] :=
    ⟨fun q hq => by simp [worldDisabled, filesNested] at hq, fun _ _ hlog => (by cases hlog),
      fun _ _ _ hbegins hequips => absurd hequips (hunequipped hbegins)⟩
  have hthere := hkept (by simp [hdone, refusedCode]) ⟨.relative, ["classes"]⟩ List.mem_cons_self
    ["out", "B.class"] _ _ (hlook _) haside
  rw [(look_eq_ok_iff.1 hthere).2] at hgone
  cases hgone

end WeaveStep
