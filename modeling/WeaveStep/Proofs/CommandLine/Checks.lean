import Mathlib
import WeaveStep.Proofs.CommandLine.Guard
import WeaveStep.Proofs.Files.Aside
import WeaveStep.Proofs.Weave.Preparation

/-!
# Checks before anything is deleted

* `execute_refused`: a refused command line does nothing but print.
* `Unequipped o w`: the settings of a weave are missing or invalid, or its toolchain cannot be had.
* **`execute_checks_first`**: in neither case is anything changed that lies at the output root or below
  it, where the log and the cache lie aside.
-/

namespace WeaveStep

open FileTree CommandLine World

/-! ## Refused command lines -/

section

variable {w w' : World}

theorem code_ne_refused (ending : CommandFailure.Ending) : ending.code ≠ refusedCode := by
  cases ending <;> decide

/-- What does not go by the output holds still when a failure was told. -/
theorem yields_concluding_of {ε : Type} {P : World → Prop} (verbose : Bool)
    {act : Run CommandFailure Unit} (hprinted : ∀ w output, P w → P { w with output })
    (h : Yields act w fun _ w' => P w') :
    Yields (concluding verbose act : Run ε Nat) w fun _ w' => P w' := by
  unfold Yields concluding
  cases hact : act w with
  | ok _ w' => exact h.of_ok hact
  | error e w' =>
    have hfailed : P w' := h.of_error hact
    obtain ⟨output, htell⟩ := says_tell (ε := ε) verbose e w'
    dsimp only
    rw [htell]
    exact hprinted w' output hfailed

/-- What a command leaves of the files stays while its failure is told. -/
theorem yields_concluding {ε : Type} {P : FileTree → Prop} (verbose : Bool)
    {act : Run CommandFailure Unit} (h : Yields act w fun _ w' => P w'.files) :
    Yields (concluding verbose act : Run ε Nat) w fun _ w' => P w'.files :=
  yields_concluding_of (P := fun w => P w.files) verbose (fun _ _ hw => hw) h

theorem not_refused_concluding {ε : Type} (verbose : Bool) (act : Run CommandFailure Unit) :
    Yields (concluding verbose act : Run ε Nat) w fun r _ => r ≠ .ok refusedCode := by
  unfold Yields concluding
  cases act w with
  | ok _ w' => exact fun h => by cases h
  | error e w' =>
    obtain ⟨output, htell⟩ := says_tell (ε := ε) verbose e w'
    dsimp only
    rw [htell]
    exact fun h => code_ne_refused _ (Except.ok.inj h)

theorem not_refused_logged (o : LogOptions) (verbose : Bool) (act : Run CommandFailure Unit) :
    Yields (Run.wrapping ProgramFailure.files (do o.setUp; concluding verbose act)) w
      fun r _ => r ≠ .ok refusedCode := by
  have hlogged : Yields (do o.setUp; concluding verbose act : Run FileFailure Nat) w
      fun r _ => r ≠ .ok refusedCode :=
    Yields.bind (fun _ _ _ => not_refused_concluding verbose act) fun _ _ _ h => by cases h
  exact hlogged.wrapping (fun _ _ h heq => h (by rw [Except.ok.inj heq])) fun _ _ _ h => by cases h

/-- **A refused command line** does nothing but print: no file is changed, nothing is asked for and
nothing is launched. -/
theorem execute_refused (arguments : List String) :
    Yields (execute arguments) w fun r w' => r = .ok refusedCode → OnlyPrints w w' := by
  have hnot : ∀ {o : LogOptions} {verbose act}, Yields (Run.wrapping ProgramFailure.files
      (do o.setUp; concluding verbose act)) w fun r w' => r = .ok refusedCode → OnlyPrints w w' :=
    fun {o verbose act} => (not_refused_logged o verbose act).imp fun _ _ h heq => absurd heq h
  unfold execute
  refine (Always.ask _ _).yields_bind (fun here w₁ (hsame : OnlyPrints w w₁) hask => ?_)
    fun e w' _ h => by cases h
  obtain ⟨-, rfl⟩ := Run.ask_eq_ok.1 hask
  refine yields_bind_of_ok rfl ?_
  split
  · rename_i answer _
    cases answer with
    | page text => exact fun _ => ⟨_, _, rfl⟩
    | misuse usage program message => exact fun _ => ⟨_, _, rfl⟩
  · exact hnot
  · exact yields_checkedWeave (fun _ h _ => h) (fun _ _ h _ => h) fun _ _ => hnot

end

/-! ## Before the weave -/

/-- What was done to files was done aside from the place, with every path leading on, and so is the
file that takes the log. -/
structure World.WorksAside (place : Location) (t : FileTree) (w : World) : Prop where
  aside : ChangesAside place t w.files
  held : Sink.file ∈ w.logging.sinks → ∀ q, w.files.held = some q → isWithin place q = false

section

variable {place : Location} {t : FileTree} {p : Path} {ε α : Type}

theorem World.WorksAside.log {w : World} (h : WorksAside place t w) (r : LogRecord) :
    WorksAside place t (w.log r) := by
  let I (w' : World) : Prop := WorksAside place t w' ∧ w'.logging = w.logging
  suffices hkept : Keeps I w (w.log r) from (hkept ⟨h, rfl⟩).1
  refine rel_log fun w' sink hsink => ?_
  rintro ⟨hw', hlogging⟩
  cases sink with
  | records => exact ⟨⟨hw'.aside, hw'.held⟩, hlogging⟩
  | console threshold detailed =>
    simp only [emit]
    split
    · exact ⟨⟨hw'.aside, hw'.held⟩, hlogging⟩
    · exact ⟨hw', hlogging⟩
  | file =>
    have hheld := hw'.held (hlogging ▸ hsink)
    refine ⟨⟨trans_of (ChangesAside place) hw'.aside (changesAside_extendHeld hheld _), ?_⟩, hlogging⟩
    intro _ q hq
    exact hheld q ((held_extendHeld _ _).symm.trans hq)

/-- An action on files that keeps to changes aside, and holds the same file open. -/
theorem always_worksAside_onFiles {act : FileTree.Action α} {wrap : FileFailure → ε}
    (haside : Always (Keeps (ChangesAside place t)) act) (hheld : Always SameHeld act) :
    Always (Keeps (WorksAside place t)) (Run.onFiles wrap act) := by
  intro w
  have hfiles := haside w.files
  have hsame := hheld w.files
  unfold Yields at hfiles hsame ⊢
  unfold Run.onFiles
  cases hact : act w.files <;>
  · rw [hact] at hfiles hsame
    exact fun hw => ⟨hfiles hw.aside, fun hsink q hq => hw.held hsink q (hsame ▸ hq)⟩

theorem always_worksAside_log (level : LogLevel) (logger message : String) :
    Always (Keeps (WorksAside place t)) (Run.log (ε := ε) level logger message) :=
  .modify fun _ h => h.log _

theorem worksAside_ensureDirectory (wrap : FileFailure → ε) (p : Path) :
    Always (Keeps (WorksAside place t)) (Run.onFiles wrap (ensureDirectory p)) :=
  always_worksAside_onFiles (keeps_aside_ensureDirectory p) (always_sameHeld_ensureDirectory p)

theorem worksAside_write (wrap : FileFailure → ε) (hp : LeadsAside t place p) (content : List UInt8) :
    Always (Keeps (WorksAside place t)) (Run.onFiles wrap (change (·.write p content))) :=
  always_worksAside_onFiles (keeps_aside_write hp content) (always_sameHeld_write p content)

/-- A file is held open aside from the place if its path leads aside. -/
theorem aside_of_hold {t' : FileTree} (hp : LeadsAside t place p) (h : hold p t = .ok () t') :
    ChangesAside place t t' ∧ ∀ q, t'.held = some q → isWithin place q = false := by
  obtain ⟨q, _, hplace, hrest⟩ := bind_eq_ok h
  obtain ⟨hlocate, rfl⟩ := query_eq_ok hplace
  obtain ⟨_, _, hget, hrest⟩ := bind_eq_ok hrest
  cases hget
  have hoff : isWithin place q = false := hp.locate hlocate
  have hheld : ∀ {t mid : FileTree}, ChangesAside place t mid →
      (modify fun t => { t with held := some q } : Action Unit) mid = .ok () t' →
      ChangesAside place t t' ∧ ∀ q, t'.held = some q → isWithin place q = false := by
    rintro t mid ⟨⟨hdirectory, hlink, hdirectories⟩, hwithin⟩ hmodified
    cases hmodified
    refine ⟨⟨⟨hdirectory, hlink, hdirectories⟩, hwithin⟩, fun other hother => ?_⟩
    cases hother
    exact hoff
  split at hrest
  · obtain ⟨_, mid, hwrite, hrest⟩ := bind_eq_ok hrest
    exact hheld ((keeps_aside_write hp []).of_ok hwrite (refl_of (ChangesAside place) _)) hrest
  · exact hheld (refl_of (ChangesAside place) _) hrest

/-- The log is set up aside from a place if its path leads aside. -/
theorem worksAside_setUp {o : LogOptions} {w w₁ : World} {here : Path}
    (hhere : w.files.currentPath = .ok here)
    (hlog : ∀ p q, o.file = some p → w.files.absolute p = .ok q →
      LeadsAside w.files place q.collapsed)
    (h : o.setUp w = .ok () w₁) : WorksAside place w.files w₁ := by
  unfold LogOptions.setUp at h
  obtain ⟨_, w', hmodified, h⟩ := bind_eq_ok h
  cases hmodified
  cases hfile : o.file with
  | none =>
    rw [hfile] at h
    cases h
    exact ⟨refl_of (ChangesAside place) w.files, fun hsink => by simp at hsink⟩
  | some p =>
    rw [hfile] at h
    obtain ⟨_, w', hopened, h⟩ := bind_eq_ok h
    cases h
    obtain ⟨hopened, -⟩ := Run.onFiles_eq_ok.1 hopened
    obtain ⟨_, made, hmade, hopened⟩ := bind_eq_ok hopened
    have haside := (keeps_aside_ensureDirectory _).of_ok hmade (refl_of (ChangesAside place) w.files)
    obtain ⟨whole, _, hwhole, hheld⟩ := bind_eq_ok hopened
    obtain ⟨hwhole, rfl⟩ := query_eq_ok hwhole
    have hleads := hlog p whole hfile
      (absolute_of_sameDirectory haside.workingDirectory hhere hwhole)
    obtain ⟨hafter, hheld⟩ := aside_of_hold (hleads.of_sameLinks haside.toSameLinks) hheld
    exact ⟨trans_of (ChangesAside place) haside hafter, fun _ => hheld⟩

/-! ## The toolchain -/

theorem keepsWithin_discard {w : World} (hp : LeadsAside t place p) (h : WorksAside place t w) :
    Yields (Download.discard p) w.files fun _ files => KeepsWithin place t files :=
  Download.yields_discard_of (fun _ hunlink => trans_of (KeepsWithin place) h.aside.within
    (keepsWithin_unlink (hp.of_sameLinks h.aside.toSameLinks) hunlink)) fun _ _ _ => h.aside.within

variable {d : Download}

/-- What is received is received aside; after a fault a file was removed aside. -/
theorem yields_receiveOrDiscard_aside {w : World} (hp : LeadsAside t place p)
    (h : WorksAside place t w) :
    Yields (d.receiveOrDiscard p) w fun r w' =>
      KeepsWithin place t w'.files ∧ ((∃ digest, r = .ok digest) → WorksAside place t w') := by
  have hreceive : Always (Keeps (WorksAside place t)) (d.receive p) :=
    Download.always_receive (R := Keeps (WorksAside place t)) (fun w _ _ _ hw => ⟨hw.aside, hw.held⟩)
      fun content => worksAside_write _ hp content
  unfold Yields Download.receiveOrDiscard
  cases hr : d.receive p w with
  | ok digest w' =>
    have hw' := hreceive.of_ok hr h
    exact ⟨hw'.aside.within, fun _ => hw'⟩
  | error why w' =>
    have hw' := hreceive.of_error hr h
    have hplain : ∀ {r : Except DownloadFailure String}, r = .error why →
        KeepsWithin place t w'.files ∧ ((∃ digest, r = .ok digest) → WorksAside place t w') :=
      fun _ => ⟨hw'.aside.within, fun _ => hw'⟩
    cases why with
    | fault fault =>
      dsimp only
      by_cases htransfer : fault.kind.isTransfer = true
      · rw [if_pos htransfer]
        have hdiscard := keepsWithin_discard hp hw'
        cases hd : Download.discard p w'.files with
        | ok _ files => exact ⟨hdiscard.of_ok hd, fun ⟨_, heq⟩ => by cases heq⟩
        | error e files => exact ⟨hdiscard.of_error hd, fun ⟨_, heq⟩ => by cases heq⟩
      · rw [if_neg htransfer]
        exact hplain rfl
    | _ => exact hplain rfl

/-- A download whose target and temporary file lie aside is made aside. -/
theorem keepsWithin_download {w : World} (htarget : LeadsAside t place d.target)
    (htemporary : ∀ temporary, d.temporary? = some temporary → LeadsAside t place temporary)
    (h : WorksAside place t w) : Yields (download d) w fun _ w' => KeepsWithin place t w'.files := by
  unfold download
  refine (worksAside_ensureDirectory _ _).keeps_bind h (fun _ w₁ h₁ => ?_) fun _ _ h₁ => h₁.aside.within
  split
  · rename_i temporary hsome
    have hp := htemporary temporary hsome
    refine Yields.bind (fun digest w₂ hreceived => ?_) fun e w₂ hfailed =>
      ((yields_receiveOrDiscard_aside hp h₁).of_error hfailed).1
    have h₂ := ((yields_receiveOrDiscard_aside hp h₁).of_ok hreceived).2 ⟨digest, rfl⟩
    refine (Always.ask _ _).keeps_bind h₂ (fun content w₃ h₃ => ?_) fun _ _ h₃ => h₃.aside.within
    split
    · have hdiscard : Yields (Run.onFiles DownloadFailure.files (Download.discard temporary)) w₃
          fun _ w' => KeepsWithin place t w'.files :=
        (keepsWithin_discard hp h₃).onFiles (fun _ _ hfiles => hfiles) fun _ _ hfiles => hfiles
      exact Yields.bind (fun _ _ hok => hdiscard.of_ok hok) fun _ _ herror => hdiscard.of_error herror
    · have hways := h₃.aside.toSameLinks
      have hmove : Yields (change (·.move temporary d.target)) w₃.files fun _ files =>
          KeepsWithin place t files :=
        yields_change (fun _ hmoved => trans_of (KeepsWithin place) h₃.aside.within
          (keepsWithin_move (hp.of_sameLinks hways) (htarget.of_sameLinks hways) hmoved))
          fun _ _ => h₃.aside.within
      have hmoved : Yields (Run.onFiles DownloadFailure.files (change (·.move temporary d.target))) w₃
          fun _ w' => KeepsWithin place t w'.files :=
        hmove.onFiles (fun _ _ hfiles => hfiles) fun _ _ hfiles => hfiles
      exact Yields.bind (fun _ _ hok => hmoved.of_ok hok) fun _ _ herror => hmoved.of_error herror
  · exact h₁.aside.within

/-- A toolchain is told aside, whether there is one or not, if its cache takes the archive aside. -/
theorem keepsWithin_command {c : Toolchain} {w : World}
    (hcache : c.archive = none → LeadsAside t place c.cachedArchive ∧
      ∀ temporary, c.asDownload.temporary? = some temporary → LeadsAside t place temporary)
    (h : WorksAside place t w) : Yields c.command w fun _ w' => KeepsWithin place t w'.files := by
  have hcached : c.archive = none → Yields c.ensureCached w fun _ w' => KeepsWithin place t w'.files := by
    intro hnone
    unfold Toolchain.ensureCached
    refine (Always.ask _ _).keeps_bind h (fun found w₁ h₁ => ?_) fun _ _ h₁ => h₁.aside.within
    split
    · exact (always_worksAside_log _ _ _).keeps_bind h₁ (fun _ _ h₂ => yields_pure h₂.aside.within)
        fun _ _ h₂ => h₂.aside.within
    · refine (always_worksAside_log _ _ _).keeps_bind h₁ (fun _ w₂ h₂ => ?_)
        fun _ _ h₂ => h₂.aside.within
      obtain ⟨htarget, htemporary⟩ := hcache hnone
      have hdownload : Yields (download c.asDownload) w₂ fun _ w' => KeepsWithin place t w'.files :=
        keepsWithin_download (d := c.asDownload) htarget htemporary h₂
      exact hdownload.wrapping (fun _ _ hw => hw) fun _ _ hw => hw
  have hensured : Yields c.ensureWeaver w fun _ w' => KeepsWithin place t w'.files := by
    unfold Toolchain.ensureWeaver
    cases hgiven : c.archive with
    | none => exact hcached hgiven
    | some archive =>
      refine (Always.ask _ _).keeps_bind h (fun found w₁ h₁ => ?_) fun _ _ h₁ => h₁.aside.within
      split
      · exact yields_pure h₁.aside.within
      · exact yields_throw h₁.aside.within
  have hjava : Always (Eq (α := World)) c.findJava := by
    refine Always.get.bind fun w => ?_
    split
    · exact .pure _
    · exact .throw _
  refine Yields.bind (fun archive w₁ hok => ?_) fun e w₁ herror => hensured.of_error herror
  have hw₁ : KeepsWithin place t w₁.files := hensured.of_ok hok
  exact hjava.yields_bind (fun _ _ heq _ => by rw [← heq]; exact hw₁) fun _ _ heq => by rwa [← heq]

end

/-! ## The weave -/

/-- The toolchain that a weave goes by is found in `w`, where its log is set up. -/
def World.Equips (w : World) (o : WeaveOptions) (c : Toolchain) (w' : World) : Prop :=
  ∃ settings w₁, findSettings o.settings o.project w = .ok settings w₁ ∧ settings.enabled = true ∧
    findToolchain settings o.project (!o.quiet) w₁ = .ok c w'

/-- The settings of a weave are missing or invalid, or its toolchain cannot be had: the cache, the
weaver's archive or the Java launcher. -/
inductive Unequipped (o : WeaveOptions) (w : World) : Prop
  | settings {why : CommandFailure} {w' : World}
    (fails : findSettings o.settings o.project w = .error why w')
  | cache {settings : Settings} {why : CommandFailure} {w₁ w' : World}
    (finds : findSettings o.settings o.project w = .ok settings w₁)
    (enabled : settings.enabled = true)
    (fails : findToolchain settings o.project (!o.quiet) w₁ = .error why w')
  | command {c : Toolchain} {why : ToolchainFailure} {w₁ w' : World} (equips : w.Equips o c w₁)
    (fails : c.command w₁ = .error why w')

/-- The archive of a toolchain and its temporary file lie aside from the place, if the toolchain takes
its archive from the cache. -/
def Toolchain.CachesAside (c : Toolchain) (t : FileTree) (place : Location) : Prop :=
  c.archive = none → LeadsAside t place c.cachedArchive ∧
    ∀ temporary, c.asDownload.temporary? = some temporary → LeadsAside t place temporary

section

variable {place : Location} {t : FileTree} {o : WeaveOptions} {w : World}

/-- A weave that is not equipped ends before it begins, and with no change at the place. -/
theorem keepsWithin_tryWeave (paths : WeavePaths) (h : WorksAside place t w)
    (hcache : ∀ c w', w.Equips o c w' → c.CachesAside t place) (hfails : Unequipped o w) :
    Yields (tryWeave o paths) w fun _ w' => KeepsWithin place t w'.files := by
  unfold tryWeave
  cases hfails with
  | settings fails =>
    have hsame : w = _ := (always_findSettings (R := Eq) _ _).of_error fails
    exact yields_bind_of_error fails (hsame ▸ h.aside.within)
  | cache finds enabled fails =>
    refine yields_bind_of_ok finds ?_
    extract_lets rest
    obtain rfl : w = _ := (always_findSettings (R := Eq) _ _).of_ok finds
    have hsame : w = _ := (always_findToolchain (R := Eq) _ _ _).of_error fails
    rw [if_pos enabled]
    exact yields_bind_of_error fails (hsame ▸ h.aside.within)
  | command equips fails =>
    have haside := hcache _ _ equips
    obtain ⟨settings, w₁, finds, enabled, toolchain⟩ := equips
    refine yields_bind_of_ok finds ?_
    extract_lets rest
    obtain rfl : w = _ := (always_findSettings (R := Eq) _ _).of_ok finds
    rw [if_pos enabled]
    refine yields_bind_of_ok toolchain ?_
    obtain rfl : w = _ := (always_findToolchain (R := Eq) _ _ _).of_ok toolchain
    exact yields_bind_of_error (Run.wrapping_error CommandFailure.toolchain fails)
      ((keepsWithin_command haside h).of_error fails)

end

/-! ## The program -/

/-- The call that arguments write in this world. -/
def World.call (w : World) (arguments : List String) : Except Answer Call :=
  Call.read (terminalColumns w.environment) ⟨.root, w.files.workingDirectory⟩ arguments

/-- The world in which a weave begins: its log is set up. -/
def World.Begins (w : World) (o : WeaveOptions) (w₁ : World) : Prop :=
  LogOptions.setUp { verbose := o.verbose, quiet := o.quiet, file := o.log } w = .ok () w₁

/-- Where there is a working directory, the program does what its arguments ask for. -/
theorem execute_eq {w : World} {here : Path} (hhere : w.files.currentPath = .ok here)
    (arguments : List String) : execute arguments w =
      (match w.call arguments with
      | .error answer => say answer
      | .ok (.fetch o) => Run.wrapping ProgramFailure.files (fetchCommand o)
      | .ok (.weave o) => checkedWeave here o : Run ProgramFailure Nat) w := by
  obtain rfl := currentPath_eq hhere
  have hget : (get : Run ProgramFailure World) w = .ok w w := rfl
  unfold execute
  rw [bind_ok (Run.ask_eq_ok.2 ⟨hhere, rfl⟩), bind_ok hget]
  rfl

theorem execute_of_call {arguments : List String} {o : WeaveOptions} {w : World} {here : Path}
    (hhere : w.files.currentPath = .ok here) (hcall : w.call arguments = .ok (.weave o)) :
    execute arguments w = checkedWeave here o w := by
  rw [execute_eq hhere, hcall]

/-- Without a working directory, the program fails. -/
theorem execute_lost {w : World} {e : FileFailure} (hlost : w.files.currentPath = .error e)
    (arguments : List String) : execute arguments w = .error (.files e) w := by
  have hask : Run.ask ProgramFailure.files (·.currentPath) w = .error (.files e) w := by
    rw [Run.ask, hlost]
  exact bind_error hask

theorem keepsWithin_weaveCommand {o : WeaveOptions} {w w₁ : World} {place : Location} {here : Path}
    (paths : WeavePaths) (hhere : w.files.currentPath = .ok here) (hbegins : w.Begins o w₁)
    (hlog : ∀ p q, o.log = some p → w.files.absolute p = .ok q →
      LeadsAside w.files place q.collapsed)
    (hcache : ∀ c w', w₁.Equips o c w' → c.CachesAside w.files place) (hfails : Unequipped o w₁) :
    Yields (weaveCommand o paths) w fun _ w' => KeepsWithin place w.files w'.files := by
  have hweave := keepsWithin_tryWeave paths (worksAside_setUp hhere hlog hbegins) hcache hfails
  exact yields_bind_of_ok hbegins (yields_concluding (P := KeepsWithin place w.files) o.verbose hweave)

/-- **Nothing is deleted before everything was checked.** A run that ends with exit code 2 has done
nothing but print: no file is changed, nothing was asked for and nothing launched. A weave whose
settings are missing or invalid, or whose toolchain cannot be had, leaves every entry at its output
root, or below it, as it was, where its log and its cache lie aside. -/
theorem execute_checks_first (arguments : List String) (w : World) :
    Yields (execute arguments) w (fun r w' => r = .ok refusedCode → OnlyPrints w w') ∧
    ∀ o w₁, w.call arguments = .ok (.weave o) → w.Begins o w₁ → Unequipped o w₁ →
      ∀ output last place, o.output = some output → w.files.locate last output = .ok place →
      (∀ p q, o.log = some p → w.files.absolute p = .ok q →
        LeadsAside w.files place q.collapsed) →
      (∀ c w', w₁.Equips o c w' → c.CachesAside w.files place) →
      Yields (execute arguments) w fun _ w' => ∀ q node, isWithin place q = true →
        w.files.get? q = some node → w'.files.get? q = some node := by
  refine ⟨execute_refused arguments, ?_⟩
  intro o w₁ hcall hbegins hfails output last place _ _ hlog hcache
  have hsame : ∀ {w'}, OnlyPrints w w' → KeepsWithin place w.files w'.files := by
    rintro _ ⟨output, errors, rfl⟩
    exact refl_of (KeepsWithin place) w.files
  suffices hkept : Yields (execute arguments) w fun _ w' => KeepsWithin place w.files w'.files from hkept
  unfold execute
  refine (Always.ask _ _).yields_bind (fun here w₂ _ hask => ?_) fun e w' h => hsame h
  obtain ⟨hhere, rfl⟩ := Run.ask_eq_ok.1 hask
  refine yields_bind_of_ok rfl ?_
  obtain rfl := currentPath_eq hhere
  have hread : Call.read _ _ _ = w₂.call arguments := rfl
  rw [hread, hcall]
  refine yields_checkedWeave (fun _ => hsame) (fun _ _ => hsame) fun paths _ => ?_
  exact (keepsWithin_weaveCommand paths hhere hbegins hlog hcache hfails).wrapping (fun _ _ h => h)
    fun _ _ h => h

/-- The settings that are asked for are missing; there are outputs of an earlier weave, and a log is
written beside them. -/
theorem execute_checks_missing_settings :
    Yields (execute ["weave", "-o", "out", "-c", "none.ini", "--log-file", "log"])
      { files := ⟨[([], .directory), (["out"], .directory), (["out", "A.class"], .file [202] false)],
        [], none⟩ }
      fun _ w' => w'.files.get? ["out", "A.class"] = some (.file [202] false) := by
  let w : World :=
    { files := ⟨[([], .directory), (["out"], .directory), (["out", "A.class"], .file [202] false)],
      [], none⟩ }
  let o : WeaveOptions :=
    { output := some (.ofString "out"), settings := some (some (.ofString "none.ini"))
      log := some (.ofString "log"), project := some ⟨.root, []⟩ }
  let w₁ : World :=
    { files := ⟨[(["log"], .file [] false), ([], .directory), (["out"], .directory),
        (["out", "A.class"], .file [202] false)], [], some ["log"]⟩
      logging := ⟨.debug, [.console .info false, .file]⟩ }
  have hcall : w.call ["weave", "-o", "out", "-c", "none.ini", "--log-file", "log"] =
      .ok (.weave o) := rfl
  have hbegins : w.Begins o w₁ := by unfold World.Begins; cbv
  have hfails : findSettings o.settings o.project w₁ = .error (.settings (.missing "none.ini")) w₁ := by
    cbv
  have hlocate : w.files.locate .own (.ofString "out") = .ok ["out"] := by cbv
  have hlog : LeadsAside w.files ["out"] ⟨.root, ["log"]⟩ :=
    leadsAside_of_straight (by decide)
      (fun _ _ _ hlink => by simpa [w] using mem_entries_of_get? hlink) (by decide)
  have hkept := (execute_checks_first _ w).2 o w₁ hcall hbegins (.settings hfails) _ _ _ rfl hlocate
    (fun p q hp hq => by cases hp; cases hq; exact hlog) fun c w' hequips => by
      obtain ⟨settings, w₂, hfinds, -⟩ := hequips
      rw [hfails] at hfinds
      cases hfinds
  exact hkept.imp fun _ _ h => h _ _ rfl rfl

end WeaveStep
