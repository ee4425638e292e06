import WeaveStep.Fetch.Toolchain
import WeaveStep.Proofs.Fetch.Download
import WeaveStep.Proofs.Files.Awaits
import WeaveStep.Proofs.Weave.Slots

/-!
# Calls for the weaver, one after the other

* **`Download.yields_of_awaits`**: a download to where nothing lies leaves it so if it fails.
* **`yields_ensureWeaver_of_awaits`**, **`yields_ensureWeaver_of_holds`**: what one call does without
  an archive in the cache, and with one.
* `Toolchain.calls`: calls made one after the other, each with the worlds before and after it.
* **`calls_settle`**: calls fail and leave no archive, up to the first one that does not fail; the
  archive that one brings is given by all that follow.
-/

namespace WeaveStep

open FileTree Text

/-! ## A download to where nothing lies -/

namespace Download

variable {d : Download} {temporary : Path} {w : World}

/-- **Fetching** changes only the temporary file if it fails. If not, what lies at the target is not
held open. -/
theorem yields_fetch_further (hready : Ready d temporary w.files) :
    Yields (d.fetch temporary) w fun result w' =>
      match result with
      | .ok _ => HeldElsewhere temporary w.files → ∃ body, Holds d.target body w'.files
      | .error _ => OnlyAt temporary w.files w'.files := by
  have hreceive := yields_receiveOrDiscard (d := d) hready.temporaryFile (.refl temporary w.files)
  refine Yields.bind (fun digest w₁ hreceived => ?_) fun e w₁ hfails => (hreceive.of_error hfails).1
  obtain ⟨hw₁, response, -, -, ⟨place, executable, hthere⟩, rfl⟩ := hreceive.of_ok hreceived
  have hready₁ := hready.of_onlyAt hw₁
  have hread : Run.ask DownloadFailure.files (·.read temporary) w₁ =
      .ok (response.pieces d.chunkSize).1.flatten w₁ := by
    rw [Run.ask_eq_ok]
    exact ⟨read_of_look hthere, rfl⟩
  refine yields_bind_of_ok hread ?_
  cases d.rejection? (response.pieces d.chunkSize).1.flatten _ with
  | some why =>
    have hdiscard := yields_discarding hready₁.temporaryFile
    refine Yields.bind (fun _ w₂ h => ?_) fun e w₂ h => ?_
    · exact yields_bind_of_error rfl (hw₁.trans (hdiscard.of_ok h).1)
    · exact hw₁.trans (hdiscard.of_error h).1
  | none =>
    refine Yields.bind (fun _ w₂ h helsewhere => ?_) fun e w₂ h => ?_
    · obtain ⟨hmoved, -⟩ := Run.onFiles_eq_ok.1 h
      exact ⟨_, holds_of_move hready₁.targetFile hready₁.apart hthere
        (change_eq_ok hmoved) (hw₁.heldElsewhere helsewhere)⟩
    · rw [((yields_moving hready₁ hthere).of_error h).1]
      exact hw₁

/-- Once the directory is there, the download can begin. -/
theorem ready_of_awaits {t : FileTree} {within : Location} (h : Awaits d.target t)
    (hname : Path.isName d.target.name = true)
    (hwithin : t.look .followed d.target.parent = .ok (within, .directory)) :
    Ready d (temporaryOf d.target) t where
  targetFile := h.atMostFile
  temporaryFile := h.temporary
  apart := by
    have happart := entries_apart hwithin hname
    rwa [parent_entry_name (parts_ne_nil h.start h.atMostFile)] at happart

/-- **A download** to where nothing lies leaves it so if it fails. If not, there is a file then, which
is not held open. -/
theorem yields_of_awaits (hnames : ∀ name ∈ d.target.parts, Path.isName name = true)
    (h : Awaits d.target w.files) :
    Yields (download d) w fun result w' =>
      match result with
      | .ok _ => ∃ body, Holds d.target body w'.files
      | .error _ => Awaits d.target w'.files := by
  have hparts := parts_ne_nil h.start h.atMostFile
  have hself := parent_entry_name hparts
  have hsame := yields_ensureParent hparts h.isTree h.start hnames h.steady
  have hstays := yields_ensureDirectory (p := d.target.parent) h.isTree h.start
  have hawaits : ∀ {t' : FileTree}, (∀ name, name = d.target.name ∨ IsEntryName name →
        SameAt (d.target.parent.entry name) w.files t') →
      IsTree t' ∧ Stays w.files t' ∧ t'.held = w.files.held → Awaits d.target t' := by
    rintro t' hsame ⟨htree, hstays, hheld⟩
    exact h.of_stays htree hstays hheld (hself ▸ hsame _ (.inl rfl))
      (hsame _ (.inr (isEntryName_temporary _)))
  have hmake : Yields (ensureDirectory d.target.parent) w.files fun result t' =>
      Awaits d.target t' ∧
        (result = .ok () → ∃ within, t'.look .followed d.target.parent = .ok (within, .directory)) :=
    yields_of_cases
      (fun _ _ hmade => ⟨hawaits (hsame.of_ok hmade) (hstays.of_ok hmade),
        fun _ => look_of_ensureDirectory hmade⟩)
      fun _ _ hfails => ⟨hawaits (hsame.of_error hfails) (hstays.of_error hfails), fun h => by cases h⟩
  have hfiles : Yields (Run.onFiles DownloadFailure.files (ensureDirectory d.target.parent)) w
      fun result w' => Awaits d.target w'.files ∧
        (result = .ok () →
          ∃ within, w'.files.look .followed d.target.parent = .ok (within, .directory)) :=
    hmake.onFiles (fun _ _ h => ⟨h.1, fun _ => h.2 rfl⟩) fun _ _ h => ⟨h.1, fun h => by cases h⟩
  refine Yields.bind (fun _ w₁ hmade => ?_) fun e w₁ hmade => (hfiles.of_error hmade).1
  obtain ⟨h₁, hthere⟩ := hfiles.of_ok hmade
  obtain ⟨within, hwithin⟩ := hthere rfl
  have hready := ready_of_awaits h₁ (isName_name hparts hnames) hwithin
  rw [temporary?_eq hparts]
  refine (yields_fetch_further hready).imp fun result w' hfetch => ?_
  cases result with
  | ok _ => exact hfetch h₁.heldElsewhere
  | error e => exact h₁.of_onlyAt hfetch (hfetch.sameAt hready.apart)

end Download

/-! ## One call -/

namespace World

/-- Something may have been told, and nothing was asked for. -/
structure Told (w w' : World) : Prop where
  files : w.files.Told w'.files
  exchanges : w'.exchanges = w.exchanges
  requests : w'.requests = w.requests

instance : IsPreorder World Told where
  refl _ := ⟨refl_of FileTree.Told _, rfl, rfl⟩
  trans _ _ _ h h' := ⟨trans_of FileTree.Told h.files h'.files, h'.exchanges.trans h.exchanges,
    h'.requests.trans h.requests⟩

theorem told_log (w : World) (r : LogRecord) : w.Told (w.log r) := by
  refine rel_log fun w' sink _ => ?_
  cases sink with
  | records => exact ⟨refl_of FileTree.Told _, rfl, rfl⟩
  | console threshold detailed =>
    simp only [emit]
    split
    · exact ⟨refl_of FileTree.Told _, rfl, rfl⟩
    · exact refl_of Told w'
  | file => exact ⟨told_extendHeld _ _, rfl, rfl⟩

end World

namespace Toolchain

variable {c : Toolchain} {w : World} {t : FileTree} {body : List UInt8}

theorem isInstalled_eq (harchive : c.archive = none) : c.isInstalled t = t.isFile? c.cachedArchive := by
  rw [isInstalled, harchive]
  rfl

theorem ensureWeaver_eq (harchive : c.archive = none) : c.ensureWeaver = c.ensureCached := by
  rw [ensureWeaver, harchive]

/-- There is no archive in the cache, and none is taken for one. -/
structure Lacks (c : Toolchain) (t : FileTree) : Prop where
  nothing : ∀ entry, t.look .own c.cachedArchive ≠ .ok entry
  notInstalled : c.isInstalled t = .ok false ∨
    c.isInstalled t = .error (.refusal .nameTooLong c.cachedArchive.text)

theorem lacks_of_awaits (harchive : c.archive = none) (h : Awaits c.cachedArchive t) : c.Lacks t where
  nothing := h.nothing
  notInstalled := by
    rw [isInstalled_eq harchive]
    exact isFile?_of_nothing h.nothing

/-- **Without an archive in the cache**, a call gives the one that it downloads, or leaves none. -/
theorem yields_ensureWeaver_of_awaits (harchive : c.archive = none)
    (hnames : ∀ name ∈ c.cachedArchive.parts, Path.isName name = true)
    (h : Awaits c.cachedArchive w.files) :
    Yields c.ensureWeaver w fun result w' =>
      match result with
      | .ok p => p = c.cachedArchive ∧ ∃ response,
        w.exchanges = .answered response :: w'.exchanges ∧
          c.asDownload.Accepts response.body ∧ Holds c.cachedArchive response.body w'.files
      | .error _ => Awaits c.cachedArchive w'.files := by
  rw [ensureWeaver_eq harchive, ensureCached]
  rcases isFile?_of_nothing h.nothing with hno | hno
  · refine yields_bind_of_ok (Run.ask_eq_ok.2 ⟨hno, rfl⟩) ?_
    have hlog : Always World.Told (Run.log (ε := ToolchainFailure) .info logger
        ("Downloading AspectJ tools " ++ c.version ++ "...")) := .modify fun w => w.told_log _
    refine hlog.yields_bind (fun _ w₁ htold _ => ?_) fun e w₁ htold => h.of_told htold.files
    have h₁ : Awaits c.asDownload.target w₁.files := h.of_told htold.files
    have hparts := Download.parts_ne_nil h₁.start h₁.atMostFile
    have hfurther := Download.yields_of_awaits hnames h₁
    have hsettles := Download.yields_settles (d := c.asDownload) ⟨h₁.isTree, h₁.start, hnames, h₁.steady,
      h₁.atMostFile, fun temporary htemporary => by
        rw [Download.temporary?_eq hparts] at htemporary
        cases htemporary
        exact h₁.temporary⟩
    rw [← htold.exchanges]
    have hboth : Yields (download c.asDownload) w₁ fun result w' => match result with
        | .ok p => p = c.cachedArchive ∧ ∃ response,
          w₁.exchanges = .answered response :: w'.exchanges ∧
            c.asDownload.Accepts response.body ∧ Holds c.cachedArchive response.body w'.files
        | .error _ => Awaits c.cachedArchive w'.files := by
      refine yields_of_cases (fun p w' hdone => ?_) fun e w' hfails => hfurther.of_error hfails
      obtain ⟨rfl, -, response, hanswered, hread, haccepts⟩ := hsettles.of_ok hdone
      refine ⟨rfl, response, hanswered, haccepts, ?_⟩
      obtain ⟨body, hholds⟩ := hfurther.of_ok hdone
      rw [hholds.read] at hread
      cases hread
      exact hholds
    exact hboth.wrapping (fun _ _ hdone => hdone) fun _ _ hfails => hfails
  · have hasked : Run.ask ToolchainFailure.files (·.isFile? c.cachedArchive) w =
        .error (.files (.refusal .nameTooLong c.cachedArchive.text)) w := by rw [Run.ask, hno]
    exact yields_bind_of_error hasked h

/-- **With an archive in the cache**, a call gives it and asks no server. -/
theorem yields_ensureWeaver_of_holds (harchive : c.archive = none)
    (h : Holds c.cachedArchive body w.files) :
    Yields c.ensureWeaver w fun result w' =>
      result = .ok c.cachedArchive ∧ w.Told w' := by
  rw [ensureWeaver_eq harchive, ensureCached]
  refine yields_bind_of_ok (Run.ask_eq_ok.2 ⟨h.isFile?, rfl⟩) ?_
  exact yields_bind_of_ok rfl ⟨rfl, w.told_log _⟩

/-! ## Many calls -/

/-- A call for the weaver: how it ended, and the worlds before and after it. -/
structure Call where
  toolchain : Toolchain
  before : World
  result : Except ToolchainFailure Path
  after : World

/-- Calls for the weaver made one after the other. -/
def calls : List Toolchain → World → List Call
  | [], _ => []
  | c :: cs, w =>
    match c.ensureWeaver w with
    | .ok p w' => ⟨c, w, .ok p, w'⟩ :: calls cs w'
    | .error e w' => ⟨c, w, .error e, w'⟩ :: calls cs w'

namespace Call

/-- The call fails, and there is no archive before or after it. -/
structure Fails (k : Call) : Prop where
  result : ∃ e, k.result = .error e
  before : k.toolchain.Lacks k.before.files
  after : k.toolchain.Lacks k.after.files

/-- The call gives the archive, which was not there and is now: the whole body that was delivered to
this call, and that it accepts. -/
structure Fetches (k : Call) : Prop where
  result : k.result = .ok k.toolchain.cachedArchive
  before : k.toolchain.Lacks k.before.files
  after : k.toolchain.isInstalled k.after.files = .ok true
  delivered : ∃ response, k.before.exchanges = .answered response :: k.after.exchanges ∧
    k.toolchain.asDownload.Accepts response.body ∧
    k.after.files.read k.toolchain.cachedArchive = .ok response.body

/-- The call gives what an earlier one gave, with nothing asked for in between. -/
structure Repeats (k first : Call) : Prop where
  result : k.result = first.result
  requests : k.after.requests = first.after.requests
  exchanges : k.after.exchanges = first.after.exchanges
  after : k.toolchain.isInstalled k.after.files = .ok true
  content : k.after.files.read k.toolchain.cachedArchive =
    first.after.files.read first.toolchain.cachedArchive

end Call

/-- The toolchain has this cache and this version, and no archive of its own. -/
structure Shares (c : Toolchain) (cache : Cache) (version : String) : Prop where
  cache : c.cache = cache
  version : c.version = version
  archive : c.archive = none

/-- Where the archive of a version lies in a cache. -/
def archiveIn (cache : Cache) (version : String) : Path :=
  ({ cache, version } : Toolchain).cachedArchive

variable {cs : List Toolchain} {cache : Cache} {version : String}

theorem Shares.cachedArchive (h : c.Shares cache version) :
    c.cachedArchive = archiveIn cache version := by
  obtain ⟨rfl, rfl, -⟩ := h
  rfl

theorem isName_archiveIn (hroot : ∀ name ∈ cache.root.parts, Path.isName name = true) :
    ∀ name ∈ (archiveIn cache version).parts, Path.isName name = true := by
  have hchild : ∀ (p : Path) (s : String), (∀ name ∈ p.parts, Path.isName name = true) →
      ∀ name ∈ (p.child s).parts, Path.isName name = true := by
    intro p s hp name hname
    have hwritten : ∀ name ∈ (Path.ofString s).parts, Path.isName name = true := fun _ h =>
      List.of_mem_filter h
    unfold Path.child Path.join at hname
    split at hname
    · exact hwritten name hname
    · exact (List.mem_append.1 hname).elim (hp name) (hwritten name)
  have hhash := (Digest.isPlainName_shortOf publisher).entry
  refine hchild _ _ (hchild _ _ fun name hname => ?_)
  simp only [Cache.toolsDirectory, Path.entry, List.mem_append, List.mem_singleton] at hname
  rcases hname with (hname | rfl) | rfl
  · exact hroot name hname
  · decide
  · simp [Path.isName, hhash.1, hhash.2.1]

/-- With an archive in the cache, every call gives it. -/
theorem calls_repeat {first : Call} (hcs : ∀ c ∈ cs, c.Shares cache version)
    (hresult : first.result = .ok (archiveIn cache version))
    (hcontent : first.after.files.read first.toolchain.cachedArchive = .ok body)
    (h : Holds (archiveIn cache version) body w.files)
    (hrequests : w.requests = first.after.requests) (hexchanges : w.exchanges = first.after.exchanges) :
    ∀ k ∈ calls cs w, k.Repeats first := by
  induction cs generalizing w with
  | nil => simp [calls]
  | cons c cs ih =>
    have hc := hcs c (by simp)
    have hstep := yields_ensureWeaver_of_holds hc.archive (hc.cachedArchive ▸ h)
    rw [calls]
    cases hcall : c.ensureWeaver w with
    | error e w' => cases (hstep.of_error hcall).1
    | ok p w' =>
      obtain ⟨hp, htold⟩ := hstep.of_ok hcall
      cases hp
      have h' := h.of_told htold.files
      rintro k (_ | ⟨_, hk⟩)
      · refine ⟨?_, htold.requests.trans hrequests, htold.exchanges.trans hexchanges, ?_, ?_⟩
        · rw [hresult, hc.cachedArchive]
        · rw [isInstalled_eq hc.archive, hc.cachedArchive]
          exact h'.isFile?
        · rw [hcontent, hc.cachedArchive]
          exact h'.read
      · exact ih (fun c hc => hcs c (by simp [hc])) h' (htold.requests.trans hrequests)
          (htold.exchanges.trans hexchanges) k hk

end Toolchain

open Toolchain in
/-- **Calls settle**: whatever the server does and however many calls there are, they fail and leave no
archive, up to the first one that does not fail. That one gives the archive it downloaded, and all
that follow give it again, as it is, and ask no server. -/
theorem calls_settle {cs : List Toolchain} {cache : Cache} {version : String} {w : World}
    (hcs : ∀ c ∈ cs, c.Shares cache version)
    (hroot : ∀ name ∈ cache.root.parts, Path.isName name = true)
    (h : Awaits (archiveIn cache version) w.files) :
    ∃ failed given, calls cs w = failed ++ given ∧ (∀ k ∈ failed, k.Fails) ∧
      (given = [] ∨ ∃ first later, given = first :: later ∧ first.Fetches ∧
        ∀ k ∈ later, k.Repeats first) := by
  induction cs generalizing w with
  | nil => exact ⟨[], [], rfl, by simp, .inl rfl⟩
  | cons c cs ih =>
    have hc := hcs c (by simp)
    have hlater : ∀ c ∈ cs, c.Shares cache version := fun c hc => hcs c (by simp [hc])
    have hnames : ∀ name ∈ c.cachedArchive.parts, Path.isName name = true := by
      rw [hc.cachedArchive]
      exact isName_archiveIn hroot
    have hawaits : Awaits c.cachedArchive w.files := hc.cachedArchive ▸ h
    have hstep := yields_ensureWeaver_of_awaits hc.archive hnames hawaits
    have hbefore := lacks_of_awaits hc.archive hawaits
    rw [calls]
    cases hcall : c.ensureWeaver w with
    | error e w' =>
      have hafter : Awaits c.cachedArchive w'.files := hstep.of_error hcall
      obtain ⟨failed, given, hcalls, hfailed, hgiven⟩ := ih hlater (hc.cachedArchive ▸ hafter)
      refine ⟨⟨c, w, .error e, w'⟩ :: failed, given, by simp [hcalls], ?_, hgiven⟩
      rintro k (_ | ⟨_, hk⟩)
      · exact ⟨⟨e, rfl⟩, hbefore, lacks_of_awaits hc.archive hafter⟩
      · exact hfailed k hk
    | ok p w' =>
      obtain ⟨rfl, response, hanswered, haccepts, hholds⟩ := hstep.of_ok hcall
      refine ⟨[], _, rfl, by simp, .inr ⟨_, _, rfl, ?_, ?_⟩⟩
      · refine ⟨rfl, hbefore, ?_, response, hanswered, haccepts, hholds.read⟩
        rw [isInstalled_eq hc.archive]
        exact hholds.isFile?
      · refine calls_repeat hlater ?_ hholds.read (hc.cachedArchive ▸ hholds) rfl rfl
        rw [hc.cachedArchive]

theorem shortOf_publisher : Digest.shortOf Toolchain.publisher = "918635bae02680b7" := by
  decide +kernel

/-- A cache at the root. -/
def cacheAtRoot : Cache := ⟨⟨.root, []⟩, ⟨.root, ["c"]⟩⟩

/-- Where the tools of the publisher are kept there. -/
def toolsAtRoot : Location := ["c", "tools", "918635bae02680b7"]

theorem cachedArchive_atRoot (version : String) :
    Toolchain.archiveIn cacheAtRoot version = (Path.child ⟨.root, toolsAtRoot⟩ version).child
      ("aspectjtools-" ++ version ++ ".jar") := by
  simp only [Toolchain.archiveIn, Toolchain.cachedArchive, Cache.toolPath, shortOf_publisher]
  rfl

/-- A version without slashes is a directory, and its archive a file in it. -/
theorem cachedArchive_of_plain {version : String} (h : IsPlainName version) :
    Toolchain.archiveIn cacheAtRoot version =
      ⟨.root, toolsAtRoot ++ [version, "aspectjtools-" ++ version ++ ".jar"]⟩ := by
  have hend : ".jar".length = 4 := rfl
  have hname : IsPlainName ("aspectjtools-" ++ version ++ ".jar") := by
    refine ⟨isEntryName_of_length ?_, by simp [h.noSlash]⟩
    rw [String.length_append]
    omega
  rw [cachedArchive_atRoot, h.child, hname.child]
  simp [Path.entry]

/-- The directories down to these tools, with more entries below. -/
def treeOfTools (below : List (Location × Node)) : FileTree where
  entries := [([], .directory), (["c"], .directory), (["c", "tools"], .directory),
    (toolsAtRoot, .directory)] ++ below.map fun e => (toolsAtRoot ++ e.1, e.2)
  workingDirectory := []

/-- Where an archive belongs. -/
def plainPath : Path := ⟨.root, toolsAtRoot ++ ["1.9", "aspectjtools-1.9.jar"]⟩

theorem cachedArchive_plain : Toolchain.archiveIn cacheAtRoot "1.9" = plainPath :=
  cachedArchive_of_plain ⟨by decide, by decide⟩

/-- Where it is received. -/
def receivedPlace : Location := toolsAtRoot ++ ["1.9", "aspectjtools-1.9.jar.tmp"]

theorem temporaryOf_plainPath : temporaryOf plainPath = ⟨.root, receivedPlace⟩ := by decide

theorem isSayable_plain : IsSayable plainPath ∧ IsSayable ⟨.root, receivedPlace⟩ :=
  ⟨isSayable_root (by decide) (by decide), isSayable_root (by decide) (by decide)⟩

section

variable {below : List (Location × Node)}

/-- The directory of a version is found where it is. -/
theorem look_versionFolder : (treeOfTools ((["1.9"], .directory) :: below)).look .followed
    ⟨.root, toolsAtRoot ++ ["1.9"]⟩ = .ok (toolsAtRoot ++ ["1.9"], .directory) := by
  have hsay : IsSayable ⟨.root, toolsAtRoot ++ ["1.9"]⟩ := isSayable_root (by decide) (by decide)
  refine look_eq_ok_iff.2 ⟨locate_straight hsay (by decide) (fun n hn => ?_) (by rintro text ⟨⟩), rfl⟩
  have hlength : n < 4 := hn
  interval_cases n <;> rfl

/-- So are the archive in it and the file that is received. -/
theorem locate_inVersion (last : LastName) {names : List String}
    (hnames : names = plainPath.parts ∨ names = receivedPlace)
    (hplain : ∀ text, (treeOfTools ((["1.9"], .directory) :: below)).get? names ≠ some (.link text)) :
    (treeOfTools ((["1.9"], .directory) :: below)).locate last ⟨.root, names⟩ = .ok names := by
  have hsay : IsSayable ⟨.root, names⟩ := by
    rcases hnames with rfl | rfl
    · exact isSayable_plain.1
    · exact isSayable_plain.2
  refine locate_straight hsay (by rcases hnames with rfl | rfl <;> decide) (fun n hn => ?_) hplain
  have hlength : n < 5 := by rcases hnames with rfl | rfl <;> exact hn
  rcases hnames with rfl | rfl <;> interval_cases n <;> rfl

/-- No archive is found where none is. -/
theorem isFile?_plainPath
    (hnone : (treeOfTools ((["1.9"], .directory) :: below)).get? plainPath.parts = none) :
    (treeOfTools ((["1.9"], .directory) :: below)).isFile? plainPath = .ok false := by
  have hlook : (treeOfTools ((["1.9"], .directory) :: below)).look .followed plainPath = _ :=
    look_of_none (locate_inVersion .followed (.inl rfl) fun text h => by cases hnone.symm.trans h) hnone
  rw [isFile?, ask, stat, hlook]
  rfl

end

/-- What an earlier download left. -/
def worldWithLeftover : World where
  files := treeOfTools [(["1.9"], .directory),
    (["1.9", "aspectjtools-1.9.jar.tmp"], .file [0x50, 0x4b] false)]
  exchanges := [.refused ⟨.connection, "reset"⟩, .answered { body := [1, 2] },
    .answered { body := [0x50, 0x4b, 0x03, 0x04, 0x00] }]

/-- A server that cannot be reached, then sends something that is no archive, and then an archive: four
calls beside what an earlier download left behind. -/
theorem calls_settle_after_failures :
    ∃ failed given, Toolchain.calls (List.replicate 4 { cache := cacheAtRoot, version := "1.9" })
      worldWithLeftover = failed ++ given ∧ (∀ k ∈ failed, k.Fails) ∧
      (given = [] ∨ ∃ first later, given = first :: later ∧ first.Fetches ∧
        ∀ k ∈ later, k.Repeats first) := by
  have hshares : ∀ c ∈ List.replicate 4 ({ cache := cacheAtRoot, version := "1.9" } : Toolchain),
      c.Shares cacheAtRoot "1.9" := by
    intro c hc
    obtain rfl := List.eq_of_mem_replicate hc
    exact ⟨rfl, rfl, rfl⟩
  refine calls_settle hshares (by decide) ?_
  rw [cachedArchive_plain]
  have hnone : worldWithLeftover.files.look .own plainPath = .error (.refusal .noEntry plainPath.text) :=
    look_of_none (locate_inVersion .own (.inl rfl) (by rintro text ⟨⟩)) rfl
  have hbeside : worldWithLeftover.files.look .own (temporaryOf plainPath) =
      .ok (receivedPlace, .file [0x50, 0x4b] false) := by
    rw [temporaryOf_plainPath]
    exact look_eq_ok_iff.2 ⟨locate_inVersion .own (.inr rfl) (by rintro text ⟨⟩), rfl⟩
  refine ⟨isTree_of_entries rfl (by decide), rfl,
    ⟨toolsAtRoot ++ ["1.9"], ["aspectjtools-1.9.jar"], _, rfl, look_versionFolder, by decide⟩, ?_, ?_, ?_⟩
  · intro entry hlook
    rw [hnone] at hlook
    cases hlook
  · intro q node hlook
    rw [hbeside] at hlook
    cases hlook
    rfl
  · intro q hq
    cases hq

/-! ## Where an archive is missing, and comes to be there -/

/-- A version with a name that is too long. -/
def longVersion : String := String.ofList (List.replicate 256 'x')

theorem not_mem_replicate {c : Char} (h : c ≠ 'x') (n : Nat) :
    c ∉ (String.ofList (List.replicate n 'x')).toList := by
  rw [String.toList_ofList]
  exact fun hmem => h (List.eq_of_mem_replicate hmem)

theorem isPlainName_longVersion : IsPlainName longVersion := by
  have hlength : longVersion.length = 256 := (String.length_ofList ..).trans (List.length_replicate ..)
  have hslash : '/' ∉ longVersion.toList := not_mem_replicate (by decide) 256
  exact ⟨isEntryName_of_length (by omega), hslash⟩

/-- The path of an archive with a name that is too long. -/
def longPath : Path := ⟨.root, toolsAtRoot ++ [longVersion, "aspectjtools-" ++ longVersion ++ ".jar"]⟩

theorem cachedArchive_longVersion :
    Toolchain.cachedArchive { cache := cacheAtRoot, version := longVersion } = longPath :=
  cachedArchive_of_plain isPlainName_longVersion

theorem locate_longPath {last : LastName} (hlast : last ≠ .made) :
    (treeOfTools []).locate last longPath = .error (.refusal .nameTooLong longPath.text) := by
  have hversion : '\x00' ∉ longVersion.toList := not_mem_replicate (by decide) 256
  have hnull : longPath.text.contains '\x00' = false := by
    rw [String.contains_char_eq]
    simp only [longPath, Path.text, toolsAtRoot, Anchor.text, List.cons_append, List.nil_append,
      String.toList_append, String.toList_intercalate, List.map_cons, List.map_nil,
      List.intercalate_cons_cons, List.intercalate_singleton, List.mem_append, hversion, false_or,
      or_false]
    decide
  have hshort : ¬ pathBytesLimit ≤ longPath.text.utf8ByteSize := by decide +kernel
  have hwalk : (treeOfTools []).walk last maxLinks [] longPath.parts = .error .nameTooLong := by
    have hparts : longPath.parts = "c" :: "tools" :: "918635bae02680b7" :: longVersion ::
        ["aspectjtools-" ++ longVersion ++ ".jar"] := rfl
    have hrest : ∀ names : List String, last = .made → names ≠ [] → names.all (· = "") = false :=
      fun _ h => absurd h hlast
    rw [hparts, walk_entry rfl (by decide) rfl rfl (by decide) (hrest _),
      walk_entry rfl (by decide) rfl rfl (by decide) (hrest _),
      walk_entry rfl (by decide) rfl rfl (by decide) (hrest _)]
    exact walk_long rfl isPlainName_longVersion.entry hlast (by decide +kernel)
  have hstart : (treeOfTools []).startOf longPath = [] := rfl
  rw [locate, locateNames, hnull, if_neg (by decide), if_neg hshort, hstart, hwalk]
  rfl

/-- Where the archive belongs that leads up from a version and down again. -/
def upPath : Path := ⟨.root, toolsAtRoot ++ ["x", "..", "a", "aspectjtools-x", "..", "a.jar"]⟩

/-- A world with a file at the end of that. -/
def worldWithOther : World where
  files := treeOfTools [(["a"], .directory), (["a", "a.jar"], .file [1] false)]
  logging := { sinks := [] }

/-- An archive that breaks off. -/
def brokenResponse : Response where
  body := [0x50, 0x4b, 0x03, 0x04]
  fails := some (2, ⟨.system, "disk"⟩)

/-- A world with a link in place of the archive, to where a download is received. The system fails
while the file is. -/
def worldWithLink : World where
  files := treeOfTools [(["1.9"], .directory),
    (["1.9", "aspectjtools-1.9.jar"], .link "aspectjtools-1.9.jar.tmp")]
  logging := { sinks := [] }
  exchanges := [.answered brokenResponse]

/-- The download to where the link leads. -/
def linkedDownload : Download where
  url := Toolchain.downloadUrl { cache := cacheAtRoot, version := "1.9" }
  target := plainPath

/-- The files of a world once the file is received so far. -/
def filesReceived (content : List UInt8) : FileTree where
  entries := (receivedPlace, .file content false) :: worldWithLink.files.entries
  workingDirectory := []

/-- A file lies where the link leads, or it can be made there. -/
theorem way_linked {t : FileTree} (last : LastName)
    (ht : t = worldWithLink.files ∨ ∃ content, t = filesReceived content) :
    Way t last maxLinks [] receivedPlace receivedPlace ∧
      Way t .followed maxLinks [] plainPath.parts receivedPlace := by
  have hfolder : ∀ n < 5, t.get? (receivedPlace.take n) = some .directory := by
    intro n hn
    rcases ht with rfl | ⟨content, rfl⟩ <;> interval_cases n <;> rfl
  have hplain : ∀ n < 5, ∀ text, t.get? (receivedPlace.take n) ≠ some (.link text) :=
    fun n hn text hlink => by cases (hfolder n hn).symm.trans hlink
  have hnolink : ∀ text, t.get? receivedPlace ≠ some (.link text) := by
    rintro text hlink
    rcases ht with rfl | ⟨content, rfl⟩ <;> cases hlink
  have hlink : t.get? (toolsAtRoot ++ ["1.9", "aspectjtools-1.9.jar"]) =
      some (.link "aspectjtools-1.9.jar.tmp") := by
    rcases ht with rfl | ⟨content, rfl⟩ <;> rfl
  have hstep : ∀ {name names}, name ∈ receivedPlace ++ plainPath.parts → IsStep .followed name names := by
    intro name names hname
    have hentry : ∀ name ∈ receivedPlace ++ plainPath.parts,
        IsEntryName name ∧ name.utf8ByteSize ≤ maxNameBytes := by decide
    exact isStep_followed (hentry name hname).1 (hentry name hname).2
  have hstraight : t.walk last maxLinks [] receivedPlace = .ok receivedPlace :=
    walk_straight (by decide) hfolder hnolink
  have hbeside : Way t .followed 39 (toolsAtRoot ++ ["1.9"]) ["aspectjtools-1.9.jar.tmp"] receivedPlace :=
    .down (hfolder 4 (by decide)) (hstep (by decide)) hnolink .done
  refine ⟨walk_eq_ok_iff.1 hstraight, ?_⟩
  exact .down (hfolder 0 (by decide)) (hstep (by decide)) (hplain 1 (by decide))
    (.down (hfolder 1 (by decide)) (hstep (by decide)) (hplain 2 (by decide))
    (.down (hfolder 2 (by decide)) (hstep (by decide)) (hplain 3 (by decide))
    (.down (hfolder 3 (by decide)) (hstep (by decide)) (hplain 4 (by decide))
    (.follow (hfolder 4 (by decide)) (hstep (by decide)) hlink (by simp)
      ((way_of_link_beside (by decide)).2 hbeside)))))

theorem locate_linked {t : FileTree}
    (ht : t = worldWithLink.files ∨ ∃ content, t = filesReceived content) :
    t.locate .made (temporaryOf plainPath) = .ok receivedPlace ∧
      t.locate .followed plainPath = .ok receivedPlace := by
  have hstart : ∀ {names}, t.startOf ⟨.root, names⟩ = [] := by
    intro names
    rcases ht with rfl | ⟨content, rfl⟩ <;> rfl
  obtain ⟨hplain, hreceived⟩ := isSayable_plain
  rw [temporaryOf_plainPath]
  exact ⟨locate_eq_ok_iff.2 ⟨hreceived, hstart ▸ (way_linked _ ht).1⟩,
    locate_eq_ok_iff.2 ⟨hplain, hstart ▸ (way_linked .own ht).2⟩⟩

theorem stat_linked (content : List UInt8) :
    worldWithLink.files.stat plainPath = .error (.refusal .noEntry plainPath.text) ∧
      (filesReceived content).stat plainPath = .ok (.file content false) := by
  constructor
  · rw [stat, look, (locate_linked (.inl rfl)).2]
    rfl
  · rw [stat, look, (locate_linked (.inr ⟨content, rfl⟩)).2]
    rfl

/-- What is told of that. -/
def linkedProgress : Progress where
  description := "Downloading aspectjtools-1.9.jar"
  total := 0
  disabled := true
  updates := [2]

/-- The world in which the download broke off. -/
def worldBrokenOff : World where
  files := filesReceived [0x50, 0x4b]
  logging := { sinks := [] }
  requests := [⟨linkedDownload.url, some 30⟩]
  progress := [linkedProgress]

theorem tell_linkedDownload (w : World) : linkedDownload.tell 0 [[0x50, 0x4b]] w =
    .ok () { w with progress := w.progress ++ [linkedProgress] } := by
  have hname : (Address.ofString linkedDownload.url).toOption.map
      (fun address => (Path.ofString address.path).name) = some "aspectjtools-1.9.jar" := by
    decide +kernel
  obtain ⟨address, hsome, hname⟩ := Option.map_eq_some_iff.1 hname
  have haddress : Address.ofString linkedDownload.url = .ok address := by
    cases hof : Address.ofString linkedDownload.url <;> rw [hof] at hsome <;> cases hsome
    rfl
  rw [Download.tell, haddress]
  refine (bind_ok rfl).trans ?_
  rw [hname]
  rfl

theorem receive_linkedDownload : linkedDownload.receive (temporaryOf plainPath) worldWithLink =
    .error (.fault ⟨.system, "disk"⟩) worldBrokenOff := by
  have hpieces : brokenResponse.pieces linkedDownload.chunkSize =
      ([[0x50, 0x4b]], some ⟨.system, "disk"⟩) := by cbv
  have hrequest : Run.wrapping DownloadFailure.fault
      (request linkedDownload.url linkedDownload.timeout) worldWithLink =
      .ok brokenResponse { worldWithLink with exchanges := [], requests := worldBrokenOff.requests } := rfl
  have hstatus : brokenResponse.statusFault? linkedDownload.url = none := rfl
  have hlength : brokenResponse.length = .ok 0 := rfl
  have hwrite : ∀ (w : World) content,
      w.files = worldWithLink.files ∨ (∃ content, w.files = filesReceived content) →
      Run.onFiles DownloadFailure.files (FileTree.change (·.write (temporaryOf plainPath) content)) w =
        .ok () { w with files := filesReceived content } := by
    intro w content hw
    have hwritten : w.files.write (temporaryOf plainPath) content = .ok (filesReceived content) := by
      have hplace := (locate_linked hw).1
      rcases hw with hw | ⟨old, hw⟩
      · rw [hw] at hplace ⊢
        exact write_of_free hplace rfl content
      · rw [hw] at hplace ⊢
        exact write_of_file hplace rfl content
    rw [Run.onFiles, FileTree.change, hwritten]
  unfold Download.receive
  refine (bind_ok hrequest).trans ?_
  simp only [hstatus, hlength, hpieces]
  refine (bind_ok rfl).trans ?_
  refine (bind_ok (hwrite { worldWithLink with
    exchanges := [], requests := worldBrokenOff.requests } [] (.inl rfl))).trans ?_
  refine (bind_ok (tell_linkedDownload _)).trans ?_
  refine (bind_ok (hwrite { worldBrokenOff with files := filesReceived [] } _
    (.inr ⟨[], rfl⟩))).trans ?_
  rfl

theorem download_linkedDownload :
    download linkedDownload worldWithLink = .error (.fault ⟨.system, "disk"⟩) worldBrokenOff := by
  have hdirectory : worldWithLink.files.look .followed plainPath.parent =
      .ok (toolsAtRoot ++ ["1.9"], .directory) := look_versionFolder
  have hmake : Run.onFiles DownloadFailure.files (ensureDirectory plainPath.parent) worldWithLink =
      .ok () worldWithLink := by
    rw [Run.onFiles, ensureDirectory_of_look hdirectory]
  refine (bind_ok hmake).trans ?_
  rw [Download.temporary?_eq (by decide)]
  refine bind_error ?_
  rw [Download.receiveOrDiscard]
  have hreceive : linkedDownload.receive (linkedDownload.target.parent.entry
    (linkedDownload.target.name ++ ".tmp")) worldWithLink = _ := receive_linkedDownload
  rw [hreceive]
  rfl

theorem isInstalled_longVersion :
    Toolchain.isInstalled { cache := cacheAtRoot, version := longVersion } (treeOfTools []) =
      .error (.refusal .nameTooLong longPath.text) := by
  rw [Toolchain.isInstalled_eq rfl, cachedArchive_longVersion, isFile?, ask, stat, look,
    locate_longPath (by decide)]
  rfl

theorem cachedArchive_upPath :
    Toolchain.cachedArchive { cache := cacheAtRoot, version := "x/../a" } = upPath :=
  (cachedArchive_atRoot _).trans (by decide)

theorem ensureWeaver_upPath : ∃ e w',
    Toolchain.ensureWeaver { cache := cacheAtRoot, version := "x/../a" } worldWithOther = .error e w' ∧
      w'.files.exists? upPath = .ok true := by
  let c : Toolchain := { cache := cacheAtRoot, version := "x/../a" }
  let after : FileTree := { worldWithOther.files with
    entries := (toolsAtRoot ++ ["a", "aspectjtools-x"], .directory) ::
      (toolsAtRoot ++ ["x"], .directory) :: worldWithOther.files.entries }
  have hpath : c.cachedArchive = upPath := cachedArchive_upPath
  have hfails : c.ensureWeaver worldWithOther =
      .error (.flawed (.notDownloaded (.transfer c.downloadUrl ⟨.connection, "offline"⟩)))
        { worldWithOther with files := after, requests := [⟨c.downloadUrl, some 30⟩] } := by
    rw [Toolchain.ensureWeaver_eq rfl, Toolchain.ensureCached, Toolchain.asDownload, hpath]
    cbv
  exact ⟨_, _, hfails, by cbv⟩

theorem ensureWeaver_linked : ∃ e w',
    Toolchain.ensureWeaver { cache := cacheAtRoot, version := "1.9" } worldWithLink = .error e w' ∧
      w'.files.exists? plainPath = .ok true := by
  let c : Toolchain := { cache := cacheAtRoot, version := "1.9" }
  have hpath : c.cachedArchive = plainPath := cachedArchive_plain
  have hdownload : c.asDownload = linkedDownload := by
    rw [Toolchain.asDownload, hpath]
    rfl
  have hasked : Run.ask ToolchainFailure.files (·.isFile? plainPath) worldWithLink =
      .ok false worldWithLink := by
    rw [Run.ask_eq_ok, isFile?, ask, (stat_linked []).1]
    exact ⟨rfl, rfl⟩
  have hthere : worldBrokenOff.files.exists? plainPath = .ok true := by
    have hstat : worldBrokenOff.files.stat plainPath = _ := (stat_linked [0x50, 0x4b]).2
    rw [exists?, ask, hstat]
  refine ⟨.download (.fault ⟨.system, "disk"⟩), worldBrokenOff, ?_, hthere⟩
  rw [Toolchain.ensureWeaver_eq rfl, Toolchain.ensureCached, hpath, hdownload]
  exact (bind_ok hasked).trans
    ((bind_ok rfl).trans (Run.wrapping_error _ download_linkedDownload))

/-- An archive that is missing may not be told to be; it may come to be there by a call that fails, if
its path leads up from what is missing; and so it may where a link lies. -/
theorem not_missing_until_given :
    (¬ ∀ (c : Toolchain) {t : FileTree}, c.archive = none → IsTree t →
      (∀ entry, t.look .own c.cachedArchive ≠ .ok entry) → c.isInstalled t = .ok false) ∧
    (¬ ∀ (c : Toolchain) {w w' : World} {e : ToolchainFailure}, c.archive = none → IsTree w.files →
      (∀ entry, w.files.look .own c.cachedArchive ≠ .ok entry) → c.ensureWeaver w = .error e w' →
      w'.files.exists? c.cachedArchive = .ok false) ∧
    (¬ ∀ (c : Toolchain) {w w' : World} {e : ToolchainFailure}, c.archive = none → IsTree w.files →
      IsSteady w.files c.cachedArchive → w.files.exists? c.cachedArchive = .ok false →
      c.ensureWeaver w = .error e w' → w'.files.exists? c.cachedArchive = .ok false) := by
  refine ⟨fun h => ?_, fun h => ?_, fun h => ?_⟩
  · have hasked := h { cache := cacheAtRoot, version := longVersion } (t := treeOfTools []) rfl
      (isTree_of_entries rfl (by decide)) fun entry hfound => by
        rw [cachedArchive_longVersion, look, locate_longPath (by decide)] at hfound
        cases hfound
    rw [isInstalled_longVersion] at hasked
    cases hasked
  · have hbefore : worldWithOther.files.look .own upPath = .error
        (.refusal .noEntry "/c/tools/918635bae02680b7/x/../a/aspectjtools-x/../a.jar") := by cbv
    obtain ⟨e, w', hfails, hthere⟩ := ensureWeaver_upPath
    have hmissing := h _ rfl (isTree_of_entries rfl (by decide)) (fun entry hfound => by
      rw [cachedArchive_upPath, hbefore] at hfound
      cases hfound) hfails
    rw [cachedArchive_upPath, hthere] at hmissing
    cases hmissing
  · have hbefore : worldWithLink.files.exists? plainPath = .ok false := by
      rw [exists?, ask, (stat_linked []).1]
      rfl
    obtain ⟨e, w', hfails, hthere⟩ := ensureWeaver_linked
    have hpath : Toolchain.cachedArchive { cache := cacheAtRoot, version := "1.9" } = plainPath :=
      cachedArchive_plain
    have hsteady : IsSteady worldWithLink.files plainPath :=
      ⟨toolsAtRoot ++ ["1.9"], ["aspectjtools-1.9.jar"], _, rfl, look_versionFolder, by decide⟩
    rw [← hpath] at hbefore hsteady hthere
    have hmissing := h { cache := cacheAtRoot, version := "1.9" } rfl
      (isTree_of_entries rfl (by decide)) hsteady hbefore hfails
    have hboth := hthere.symm.trans hmissing
    cases hboth

end WeaveStep
