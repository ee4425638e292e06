import WeaveStep.Proofs.Fetch.DeclaredLength
import WeaveStep.Proofs.Fetch.Endings
import WeaveStep.Proofs.Fetch.FreeWay

/-!
# The checksum of the weaver's archive

A toolchain may know the checksum that its archive has to have. It goes by that where it downloads the
archive, and nowhere else.

* `Toolchain.yields_ensureWeaver_found`: an archive that is found is given, whatever it holds.
* `Toolchain.yields_ensureWeaver_fetched`: one that is not found is downloaded, and what is given then
  was delivered as a whole and accepted, if nothing was in the way of the download.
* **`ensureWeaver_checks_what_it_fetches`**: both, for an archive that is given, one in the cache, and
  none. So an archive with another checksum may be given (`not_ensureWeaver_checks_what_it_finds`).
-/

namespace WeaveStep

open FileTree Text

/-- A file has the checksum if its content does, however it is read. -/
theorem hasChecksum_of_read {t : FileTree} {p : Path} {content : List UInt8} {expected : String}
    {size : Option Nat} (hread : t.read p = .ok content) (hsize : size ≠ some 0)
    (hsame : smallLetters (Digest.ofBytes content) = smallLetters expected) :
    hasChecksum t p expected size = .ok true := by
  have hall := flatten_piecesOf hsize content
  unfold hasChecksum
  rw [hread]
  simp only [bind, Except.bind, pure, Except.pure, hall, hsame, decide_true]

namespace Toolchain

variable {c : Toolchain} {w : World}

/-- **An archive that is found** is given as it is. No server is asked, and its content is not read. -/
theorem yields_ensureWeaver_found (hfound : c.isInstalled w.files = .ok true) :
    Yields c.ensureWeaver w fun result w' =>
      result = .ok (c.archive.getD c.cachedArchive) ∧ w.Told w' := by
  unfold isInstalled at hfound
  unfold ensureWeaver
  cases harchive : c.archive with
  | some archive =>
    rw [harchive] at hfound
    refine yields_bind_of_ok (Run.ask_eq_ok.2 ⟨hfound, rfl⟩) ?_
    exact ⟨rfl, refl_of World.Told w⟩
  | none =>
    rw [harchive] at hfound
    refine yields_bind_of_ok (Run.ask_eq_ok.2 ⟨hfound, rfl⟩) ?_
    exact yields_bind_of_ok rfl ⟨rfl, w.told_log _⟩

/-- The last name of the archive in the cache is one, whatever the version. -/
theorem isName_cachedArchive : Path.isName c.cachedArchive.name = true := by
  obtain ⟨front, last, hsplit⟩ := exists_splitAt_eq_append '/' ("aspectjtools-" ++ c.version)
  have hpieces : splitAt '/' c.archiveName = front ++ [last ++ ".jar"] :=
    splitAt_append hsplit (splitAt_of_not_mem (by decide))
  have hname : Path.isName (last ++ ".jar") = true := by
    obtain ⟨hempty, hdot, -⟩ : IsEntryName (last ++ ".jar") := isEntryName_of_length (by
      rw [String.length_append, show ".jar".length = 4 from rfl]
      omega)
    simp [Path.isName, hempty, hdot]
  have hparts : (Path.ofString c.archiveName).parts = front.filter Path.isName ++ [last ++ ".jar"] := by
    simp [Path.ofString, hpieces, hname]
  unfold cachedArchive Path.child Path.join
  split <;> simpa [Path.name, hparts] using hname

/-- **An archive that is not found** is downloaded into the cache, and it was delivered and accepted if
nothing was in its way once the directory was made. -/
theorem yields_ensureWeaver_fetched (hfound : c.isInstalled w.files ≠ .ok true)
    (hway : c.archive = none → c.isInstalled w.files = .ok false → ∀ made,
      ensureDirectory c.cachedArchive.parent w.files = .ok () made → c.asDownload.HasFreeWay made) :
    Yields c.ensureWeaver w fun result w' => ∀ p, result = .ok p →
      p = c.cachedArchive ∧ ∃ response, c.asDownload.Delivers w w' response := by
  unfold ensureWeaver
  cases harchive : c.archive with
  | some archive =>
    have hinstalled : c.isInstalled w.files = w.files.isFile? archive := by
      rw [isInstalled, harchive]
      rfl
    rw [hinstalled] at hfound
    refine Yields.bind (fun found w₁ hask => ?_) fun e w₁ _ p h => by cases h
    obtain ⟨hask, rfl⟩ := Run.ask_eq_ok.1 hask
    cases found with
    | true => exact absurd hask hfound
    | false => exact fun p h => by cases h
  | none =>
    have hinstalled := isInstalled_eq (t := w.files) harchive
    have hway := hway harchive
    rw [hinstalled] at hfound hway
    unfold ensureCached
    refine Yields.bind (fun found w₁ hask => ?_) fun e w₁ _ p h => by cases h
    obtain ⟨hask, rfl⟩ := Run.ask_eq_ok.1 hask
    cases found with
    | true => exact absurd hask hfound
    | false =>
      have htold := w₁.told_log
        ⟨.info, logger, "Downloading AspectJ tools " ++ c.version ++ "...", none⟩
      have hway := Download.hasFreeWay_of_told (d := c.asDownload) (hway hask) htold.files
      refine yields_bind_of_ok rfl (yields_of_cases (fun p w' hdone => ?_) fun e w' _ => ?_)
      · obtain ⟨rfl, response, hdelivers⟩ := Download.delivers_of_download (d := c.asDownload)
          (fun _ => isName_cachedArchive) hway (Run.wrapping_eq_ok.1 hdone)
        exact fun p hp => ⟨(Except.ok.inj hp).symm, response, htold.exchanges ▸ hdelivers.answered,
          hdelivers.content, hdelivers.accepted⟩
      · exact fun p hp => by cases hp

end Toolchain

/-- **A checksum counts for what is downloaded.** An archive that is found, be it the one that the
toolchain is given or the one in its cache, is given again, whatever it holds. Where none is found, the
archive that is given is the one that the server delivered, and it has the checksum, if nothing was in the
way of the download once its directory was made. -/
theorem ensureWeaver_checks_what_it_fetches (c : Toolchain) {w : World} {expected : String}
    (hchecksum : c.checksum = some expected) (hexpected : expected ≠ "")
    (hway : c.archive = none → c.isInstalled w.files = .ok false → ∀ made,
      ensureDirectory c.cachedArchive.parent w.files = .ok () made → c.asDownload.HasFreeWay made) :
    Yields c.ensureWeaver w fun result w' =>
      (c.isInstalled w.files = .ok true →
        result = .ok (c.archive.getD c.cachedArchive) ∧ w.Told w') ∧
      (c.isInstalled w.files ≠ .ok true → ∀ p, result = .ok p →
        p = c.cachedArchive ∧ (∃ response, c.asDownload.Delivers w w' response) ∧
          ∀ size, size ≠ some 0 → hasChecksum w'.files p expected size = .ok true) := by
  by_cases hfound : c.isInstalled w.files = .ok true
  · exact (Toolchain.yields_ensureWeaver_found hfound).imp fun result w' h =>
      ⟨fun _ => h, fun hnone => absurd hfound hnone⟩
  · refine (Toolchain.yields_ensureWeaver_fetched hfound hway).imp fun result w' h =>
      ⟨fun hthere => absurd hthere hfound, fun _ p hp => ?_⟩
    obtain ⟨rfl, response, hdelivers⟩ := h p hp
    refine ⟨rfl, ⟨response, hdelivers⟩, fun size hsize => ?_⟩
    exact hasChecksum_of_read hdelivers.content hsize
      (hdelivers.accepted.checksum expected hchecksum hexpected)

/-- A toolchain that knows the checksum of an archive which is nothing but its mark. -/
def toolchainWithChecksum : Toolchain where
  cache := cacheAtRoot
  version := "1.9"
  checksum := some (Digest.ofBytes Download.archiveMark)

theorem cachedArchive_withChecksum : toolchainWithChecksum.cachedArchive = plainPath :=
  cachedArchive_plain

theorem checksum_ne_empty : Digest.ofBytes Download.archiveMark ≠ "" := by
  intro heq
  have hlength := Digest.length_ofBytes Download.archiveMark
  rw [heq] at hlength
  cases hlength

/-- A world with a directory for that archive, and a server that has it. -/
def worldToFetchFrom : World where
  files := treeOfTools [(["1.9"], .directory)]
  logging := { sinks := [] }
  exchanges := [.answered wholeResponse]

theorem isInstalled_toFetchFrom :
    toolchainWithChecksum.isInstalled worldToFetchFrom.files = .ok false := by
  rw [Toolchain.isInstalled_eq rfl, cachedArchive_withChecksum]
  exact isFile?_plainPath rfl

theorem hasPlace_toFetchFrom : toolchainWithChecksum.asDownload.HasPlace worldToFetchFrom.files := by
  have htarget : toolchainWithChecksum.asDownload.target = plainPath := cachedArchive_withChecksum
  have hdirectory : worldToFetchFrom.files.look .followed ⟨.root, toolsAtRoot ++ ["1.9"]⟩ =
      .ok (toolsAtRoot ++ ["1.9"], .directory) := look_versionFolder
  have hfree : ∀ {name}, IsEntryName name → worldToFetchFrom.files.get?
      (toolsAtRoot ++ ["1.9"] ++ [name]) = none →
      AtMostFile worldToFetchFrom.files ⟨.root, toolsAtRoot ++ ["1.9", name]⟩ := by
    intro name hname hnone
    refine atMostFile_entry hdirectory hname fun node hnode => ?_
    rw [hnone] at hnode
    cases hnode
  have hbeside := Download.temporary?_eq (d := toolchainWithChecksum.asDownload)
    (by rw [htarget]; decide)
  refine ⟨isTree_of_entries rfl (by decide), ?_, ?_, ?_, ?_, fun temporary htemporary => ?_⟩
  · rw [htarget]
    rfl
  · rw [htarget]
    decide
  · rw [htarget]
    exact ⟨toolsAtRoot ++ ["1.9"], ["aspectjtools-1.9.jar"], _, rfl, hdirectory, by decide⟩
  · rw [htarget]
    exact hfree (by decide) (by decide)
  · rw [htarget] at hbeside
    rw [hbeside] at htemporary
    cases htemporary
    exact hfree (by decide) (by decide)

/-- Its files once so much of the archive is received. -/
def filesFetched (content : List UInt8) : FileTree where
  entries := (receivedPlace, .file content false) :: worldToFetchFrom.files.entries
  workingDirectory := []

/-- The archive and its temporary file are found where they belong, all along. -/
theorem locate_fetched {t : FileTree} {names : List String} (last : LastName)
    (ht : t ∈ [worldToFetchFrom.files, filesFetched [], filesFetched Download.archiveMark])
    (hnames : names = receivedPlace ∨ names = plainPath.parts) :
    t.locate last ⟨.root, names⟩ = .ok names := by
  have hsayable : IsSayable ⟨.root, names⟩ := by
    rcases hnames with rfl | rfl
    · exact isSayable_plain.2
    · exact isSayable_plain.1
  have hplain : ∀ n ∈ names, IsEntryName n ∧ n.utf8ByteSize ≤ maxNameBytes := by
    rcases hnames with rfl | rfl <;> decide
  simp only [List.mem_cons, List.not_mem_nil, or_false] at ht
  refine locate_straight hsayable hplain ?_ ?_
  · rcases ht with rfl | rfl | rfl <;> rcases hnames with rfl | rfl <;> decide
  · rintro text hlink
    rcases ht with rfl | rfl | rfl <;> rcases hnames with rfl | rfl <;> cases hlink

/-- The temporary file is made, takes the archive, and is moved to the archive's place. -/
theorem writes_fetched :
    worldToFetchFrom.files.write ⟨.root, receivedPlace⟩ [] = .ok (filesFetched []) ∧
      (filesFetched []).write ⟨.root, receivedPlace⟩ Download.archiveMark =
        .ok (filesFetched Download.archiveMark) ∧
      (filesFetched Download.archiveMark).read ⟨.root, receivedPlace⟩ = .ok Download.archiveMark ∧
      ∃ t, (filesFetched Download.archiveMark).move ⟨.root, receivedPlace⟩ plainPath = .ok t := by
  have hown : (filesFetched Download.archiveMark).look .own ⟨.root, receivedPlace⟩ =
      .ok (receivedPlace, .file Download.archiveMark false) :=
    look_eq_ok_iff.2 ⟨locate_fetched .own (by simp) (.inl rfl), rfl⟩
  have hgoal : (filesFetched Download.archiveMark).locate .own plainPath = .ok plainPath.parts :=
    locate_fetched .own (by simp) (.inr rfl)
  exact ⟨write_of_free (locate_fetched .made (by simp) (.inl rfl)) rfl [],
    write_of_file (locate_fetched .made (by simp) (.inl rfl)) rfl Download.archiveMark,
    read_of_look hown, exists_move hown (by simp) hgoal (by decide) (by rintro ⟨⟩)⟩

/-- The archive that the server has is received, accepted and moved into the cache. -/
theorem download_archiveMark :
    ∃ w', download toolchainWithChecksum.asDownload worldToFetchFrom = .ok plainPath w' := by
  have htarget : toolchainWithChecksum.asDownload.target = plainPath := cachedArchive_withChecksum
  have hbeside : toolchainWithChecksum.asDownload.temporary? = some ⟨.root, receivedPlace⟩ := by
    rw [Download.temporary?_eq (by rw [htarget]; decide), htarget]
    rfl
  have hdirectory : worldToFetchFrom.files.look .followed plainPath.parent =
      .ok (toolsAtRoot ++ ["1.9"], .directory) := look_versionFolder
  have hmade : ensureDirectory toolchainWithChecksum.asDownload.target.parent worldToFetchFrom.files =
      .ok () worldToFetchFrom.files := by
    rw [htarget]
    exact ensureDirectory_of_look hdirectory
  obtain ⟨address, haddress⟩ : ∃ address,
      Address.ofString toolchainWithChecksum.asDownload.url = .ok address := ⟨_, rfl⟩
  have hsize : toolchainWithChecksum.asDownload.chunkSize = some 8192 := rfl
  have hchecksum : toolchainWithChecksum.asDownload.checksum = some (Digest.ofBytes Download.archiveMark) :=
    rfl
  obtain ⟨hempty, hwrite, hread, t, hmove⟩ := writes_fetched
  rw [← htarget] at hmove
  obtain ⟨w', hdownload, -⟩ := Download.download_wholeResponse (w := worldToFetchFrom) (by simp [hsize])
    haddress (fun expected hexpected => Option.some.inj (hchecksum.symm.trans hexpected)) rfl hmade hbeside
    hempty hwrite hread hmove
  exact ⟨w', htarget ▸ hdownload⟩

theorem ensureWeaver_archiveMark :
    ∃ w', toolchainWithChecksum.ensureWeaver worldToFetchFrom = .ok plainPath w' := by
  obtain ⟨w', hdownload⟩ := download_archiveMark
  have hasked : Run.ask ToolchainFailure.files (·.isFile? plainPath) worldToFetchFrom =
      .ok false worldToFetchFrom := by
    rw [← cachedArchive_withChecksum]
    exact Run.ask_eq_ok.2 ⟨isInstalled_toFetchFrom, rfl⟩
  refine ⟨w', ?_⟩
  rw [Toolchain.ensureWeaver_eq rfl, Toolchain.ensureCached, cachedArchive_withChecksum]
  exact (bind_ok hasked).trans ((bind_ok rfl).trans (Run.wrapping_eq_ok.2 hdownload))

/-- The archive that the server has is fetched, is given and has the checksum. -/
theorem ensureWeaver_checks_archiveMark :
    ∃ w', toolchainWithChecksum.ensureWeaver worldToFetchFrom = .ok plainPath w' ∧
      (∃ response, toolchainWithChecksum.asDownload.Delivers worldToFetchFrom w' response) ∧
      hasChecksum w'.files plainPath (Digest.ofBytes Download.archiveMark) none = .ok true := by
  obtain ⟨w', hgiven⟩ := ensureWeaver_archiveMark
  have hmissing : toolchainWithChecksum.isInstalled worldToFetchFrom.files ≠ .ok true := by
    rw [isInstalled_toFetchFrom]
    simp
  obtain ⟨-, hfetched⟩ := (ensureWeaver_checks_what_it_fetches toolchainWithChecksum rfl checksum_ne_empty
    fun _ _ _ hmade => hasPlace_toFetchFrom.hasFreeWay hmade).of_ok hgiven
  obtain ⟨-, hdelivers, hsame⟩ := hfetched hmissing plainPath rfl
  exact ⟨w', hgiven, hdelivers, hsame none (by simp)⟩

/-- A toolchain that asks for a checksum that no archive has. -/
def toolchainWithWrongChecksum : Toolchain := { toolchainWithChecksum with checksum := some "0" }

/-- A world with an archive in the cache. -/
def worldWithOtherArchive : World where
  files := treeOfTools [(["1.9"], .directory), (["1.9", "aspectjtools-1.9.jar"], .file [1] false)]

/-- An archive that is found may have another checksum than the toolchain asks for, in its cache or
where it is given. -/
theorem not_ensureWeaver_checks_what_it_finds :
    (¬ ∀ (c : Toolchain) {w w' : World} {p : Path} {expected : String}, c.archive = none →
      c.checksum = some expected → expected ≠ "" → c.ensureWeaver w = .ok p w' →
      hasChecksum w'.files p expected none = .ok true) ∧
    ¬ ∀ (c : Toolchain) {w w' : World} {p : Path} {expected : String}, c.archive = some p →
      c.checksum = some expected → expected ≠ "" → c.ensureWeaver w = .ok p w' →
      hasChecksum w'.files p expected none = .ok true := by
  have hlook : worldWithOtherArchive.files.look .followed plainPath =
      .ok (plainPath.parts, .file [1] false) :=
    look_eq_ok_iff.2 ⟨locate_inVersion .followed (.inl rfl) (by rintro text ⟨⟩), rfl⟩
  have hfile : worldWithOtherArchive.files.isFile? plainPath = .ok true := by
    rw [isFile?, ask, stat, hlook]
    rfl
  have hother : ∀ {w' : World}, worldWithOtherArchive.Told w' →
      hasChecksum w'.files plainPath "0" none ≠ .ok true := by
    intro w' htold hsame
    have hkept : w'.files.look .followed plainPath = _ := (htold.files.look_iff (by decide)).2 hlook
    have hread : w'.files.read plainPath = .ok [1] := by
      rw [FileTree.read, stat, hkept]
      rfl
    have hdiffers : smallLetters (Digest.ofBytes [1]) ≠ smallLetters "0" := by
      rw [Digest.smallLetters_ofBytes, smallLetters_eq_self (s := "0") (by simp [IsSmall])]
      intro heq
      have hlength := Digest.length_ofBytes [1]
      rw [heq] at hlength
      cases hlength
    have hall : (piecesOf none [1]).flatten = [1] := rfl
    rw [hasChecksum, hread] at hsame
    simp only [bind, Except.bind, pure, Except.pure, hall] at hsame
    exact hdiffers (of_decide_eq_true (Except.ok.inj hsame))
  have hpath : toolchainWithWrongChecksum.cachedArchive = plainPath := cachedArchive_plain
  refine ⟨fun h => ?_, fun h => ?_⟩
  · have hfound : toolchainWithWrongChecksum.isInstalled worldWithOtherArchive.files = .ok true := by
      rw [Toolchain.isInstalled_eq rfl, hpath, hfile]
    have hends := Toolchain.yields_ensureWeaver_found hfound
    cases hdone : toolchainWithWrongChecksum.ensureWeaver worldWithOtherArchive with
    | error e w' => cases (hends.of_error hdone).1
    | ok p w' =>
      obtain ⟨hp, htold⟩ := hends.of_ok hdone
      have hp : p = plainPath := (Except.ok.inj hp).trans hpath
      exact hother htold (hp ▸ h toolchainWithWrongChecksum rfl rfl (by decide) hdone)
  · let given : Toolchain := { toolchainWithWrongChecksum with archive := some plainPath }
    have hends := Toolchain.yields_ensureWeaver_found (c := given) (w := worldWithOtherArchive) hfile
    cases hdone : given.ensureWeaver worldWithOtherArchive with
    | error e w' => cases (hends.of_error hdone).1
    | ok p w' =>
      obtain ⟨hp, htold⟩ := hends.of_ok hdone
      cases hp
      exact hother htold (h given rfl rfl (by decide) hdone)

end WeaveStep
