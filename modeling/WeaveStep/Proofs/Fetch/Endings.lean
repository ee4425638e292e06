import WeaveStep.Proofs.Fetch.Retries
import WeaveStep.Proofs.Files.Writable

/-!
# How a download can end

Where the destination can be written, a download does not fail by its files: it gives its target, it
is turned down, or it stumbles over what the server tells.

* `Download.HasRoom d t`: the directory of the target is there or can be made, a file can be written
  beside the target then, and no directory lies at the target.
* `Download.Stumbles d exchanges e`: what the server answers first is no error, but the length it tells
  is no number, or the address that was asked for is none. This is the failure `e` of the download.
* `Download.yields_receive_room`, `yields_receiveOrDiscard_room`, `yields_fetch_room`: step by step,
  there is no other way to fail.
* **`download_fails_only_by_length`**: nor is there for the whole download and for the toolchain that
  needs one, whose address is never refused (`Toolchain.exists_address`). Both do fail by the length
  (`not_download_fails_only_as_told`).
-/

namespace WeaveStep

open FileTree Text

/-- What goes wrong in the exchange is a fault of its transfer. -/
def Exchange.FailsInTransfer : Exchange → Prop
  | .refused fault => fault.kind.isTransfer = true
  | .answered r => ∀ n fault, r.fails = some (n, fault) → fault.kind.isTransfer = true

theorem Response.isTransfer_of_statusFault? {r : Response} {url : String} {fault : Fault}
    (h : r.statusFault? url = some fault) : fault.kind.isTransfer = true := by
  unfold statusFault? at h
  split at h
  · cases h
    rfl
  · split at h <;> cases h
    rfl

/-- A delivery breaks off by the fault that the exchange has. -/
theorem Response.fails_of_pieces {r : Response} {size : Option Nat} {fault : Fault}
    (h : (r.pieces size).2 = some fault) : ∃ n, r.fails = some (n, fault) := by
  unfold pieces at h
  split at h
  · cases h
  · rename_i n why hfails
    dsimp only at h
    split at h <;> cases h
    exact ⟨n, hfails⟩

theorem request_eq_error {url : String} {timeout : Option Int} {fault : Fault} {w w' : World}
    (h : request url timeout w = .error fault w') : w'.files = w.files ∧
      (w.exchanges = [] ∧ fault.kind = .connection ∨
        ∃ later, w.exchanges = .refused fault :: later) := by
  unfold request at h
  dsimp only at h
  split at h
  · cases h
    exact ⟨rfl, .inl ⟨‹_›, rfl⟩⟩
  · cases h
    exact ⟨rfl, .inr ⟨_, ‹_›⟩⟩
  · cases h

/-! ## Ways to fail -/

/-- The action gives a value where there is nothing to stumble over; where there is, it fails by that,
and its other failures are those that it tells of. -/
def EndsWell {ε α : Type} (isTold stumbles : ε → Prop) : Except ε α → Prop
  | .ok _ => ∀ e, ¬ stumbles e
  | .error e => (isTold e ∧ ∀ e', ¬ stumbles e') ∨ stumbles e

theorem EndsWell.error_iff {ε α : Type} {isTold stumbles : ε → Prop} {result : Except ε α} {e : ε}
    (h : EndsWell isTold stumbles result) (hunique : ∀ e e', stumbles e → stumbles e' → e = e')
    (he : ¬ isTold e) : result = .error e ↔ stumbles e := by
  constructor
  · rintro rfl
    exact h.resolve_left fun htold => he htold.1
  · intro hstumbles
    cases result with
    | ok a => exact absurd hstumbles (h e)
    | error e' =>
      obtain ⟨-, hsteady⟩ | hstumbles' := h
      · exact absurd hstumbles (hsteady e)
      · rw [hunique e' e hstumbles' hstumbles]

/-- The download was turned down. -/
def DownloadFailure.IsRejected (e : DownloadFailure) : Prop := ∃ why, e = .rejected why

/-- The toolchain was found flawed. -/
def ToolchainFailure.IsFlawed (e : ToolchainFailure) : Prop := ∃ why, e = .flawed why

namespace Download

variable {d : Download} {temporary : Path} {t t' : FileTree} {w : World}
  {exchanges : List Exchange} {e e' : DownloadFailure}

/-! ## Room for a download -/

/-- A file can be written beside the target, and no directory lies at the target. -/
structure Fits (d : Download) (temporary : Path) (t : FileTree) : Prop where
  beside : d.temporary? = some temporary
  writable : t.IsWritable temporary
  notUp : d.target.name ≠ ".."
  free : ∀ place, t.look .own d.target ≠ .ok (place, .directory)

/-- The directory of the target is there or can be made, and then the download fits there. -/
def HasRoom (d : Download) (t : FileTree) : Prop :=
  ∃ made temporary, ensureDirectory d.target.parent t = .ok () made ∧ d.Fits temporary made

theorem Fits.of_sameWays (h : d.Fits temporary t) (hsame : SameWays t t') : d.Fits temporary t' where
  beside := h.beside
  writable := h.writable.of_sameWays hsame
  notUp := h.notUp
  free place hlook := h.free place (hsame.symm.look_directory hlook)

/-- What was told takes no room. -/
theorem HasRoom.of_told (h : d.HasRoom t) (htold : FileTree.Told t t') : d.HasRoom t' := by
  obtain ⟨made, temporary, hmade, hfits⟩ := h
  have halike := Told.respects_ensureDirectory d.target.parent t t' htold
  rw [hmade] at halike
  generalize hmade' : ensureDirectory d.target.parent t' = ending at halike
  cases halike with
  | ok _ h' => exact ⟨_, temporary, hmade', hfits.of_sameWays h'.sameWays⟩

/-- The target leads somewhere. -/
theorem Fits.exists_locate (h : d.Fits temporary t) : ∃ q, t.locate .own d.target = .ok q := by
  have hparts : d.target.parts ≠ [] := by
    intro hnil
    have hbeside := h.beside
    rw [temporary?, Path.withName?, if_pos hnil] at hbeside
    cases hbeside
  have hbeside := h.beside
  rw [temporary?_eq hparts] at hbeside
  obtain ⟨place, hlocate, -⟩ := isWritable_iff.1 h.writable
  rw [← Option.some.inj hbeside] at hlocate
  obtain ⟨q, hq⟩ := exists_locate_of_longer hlocate
  rw [parent_entry_name hparts] at hq
  exact ⟨q, hq⟩

/-! ## What a download stumbles over -/

/-- The first answer of the server is no error, but the download fails by what it tells. -/
inductive Stumbles (d : Download) (exchanges : List Exchange) : DownloadFailure → Prop
  | length {r : Response} {later : List Exchange} {why : IntegerFailure}
    (answered : exchanges = .answered r :: later) (status : r.statusFault? d.url = none)
    (length : r.length = .error why) : Stumbles d exchanges (.badLength why)
  | address {r : Response} {later : List Exchange} {total : Int} {why : AddressFailure}
    (answered : exchanges = .answered r :: later) (status : r.statusFault? d.url = none)
    (length : r.length = .ok total) (address : Address.ofString d.url = .error why) :
    Stumbles d exchanges (.badAddress why)

theorem Stumbles.unique (h : d.Stumbles exchanges e) (h' : d.Stumbles exchanges e') : e = e' := by
  cases h with
  | length answered status length =>
    cases h' with
    | length answered' status' length' => simp_all
    | address answered' status' length' address' => simp_all
  | address answered status length address =>
    cases h' with
    | length answered' status' length' => simp_all
    | address answered' status' length' address' => simp_all

/-! ## Receiving -/

theorem yields_writing (hwritable : w.files.IsWritable temporary) (content : List UInt8) :
    Yields (Run.onFiles DownloadFailure.files (FileTree.change (·.write temporary content))) w
      fun result w' => result = .ok () ∧ w'.exchanges = w.exchanges ∧
        w.files.write temporary content = .ok w'.files := by
  obtain ⟨t', hwrite⟩ := hwritable content
  unfold Yields
  rw [Run.onFiles, FileTree.change, hwrite]
  exact ⟨rfl, rfl, rfl⟩

/-- What was received can be taken up: it is there to be read and to be moved. -/
structure Landed (temporary : Path) (t : FileTree) : Prop where
  read : ∃ content, t.read temporary = .ok content
  there : ∃ q node, t.look .own temporary = .ok (q, node) ∧ node ≠ .directory

/-- **Receiving** fails by the transfer only, or the download stumbles. -/
theorem yields_receive_room (hwritable : w.files.IsWritable temporary)
    (hserver : ∀ x ∈ w.exchanges, x.FailsInTransfer) :
    Yields (d.receive temporary) w fun result w' => SameWays w.files w'.files ∧
      match result with
      | .ok _ => Landed temporary w'.files ∧ ∀ e, ¬ d.Stumbles w.exchanges e
      | .error e => (∃ fault, e = .fault fault ∧ fault.kind.isTransfer = true ∧
          ∀ e', ¬ d.Stumbles w.exchanges e') ∨ d.Stumbles w.exchanges e := by
  refine Yields.bind (fun response w₁ hrequest => ?_) fun e w₁ hrequest => ?_
  · obtain ⟨hfiles, hanswered⟩ := (yields_request _ _).of_ok hrequest
    have hways₁ : SameWays w.files w₁.files := hfiles ▸ .refl _
    have hwritable₁ := hwritable.of_sameWays hways₁
    have hlater : ∀ fault, (response.pieces d.chunkSize).2 = some fault →
        fault.kind.isTransfer = true := by
      intro fault hbreaks
      obtain ⟨n, hfails⟩ := Response.fails_of_pieces hbreaks
      exact hserver (.answered response) (by simp [hanswered]) n fault hfails
    dsimp only
    cases hstatus : response.statusFault? d.url with
    | some fault =>
      refine yields_bind_of_error rfl ⟨hways₁, .inl ⟨fault, rfl, ?_, fun e' hstumbles => ?_⟩⟩
      · exact Response.isTransfer_of_statusFault? hstatus
      · cases hstumbles <;> simp_all
    | none =>
      cases hlength : response.length with
      | error why =>
        exact yields_bind_of_error rfl ⟨hways₁, .inr (.length hanswered hstatus hlength)⟩
      | ok total =>
        refine yields_bind_of_ok rfl ?_
        refine Yields.bind (fun _ w₂ hempty => ?_) fun e w₂ hempty => ?_
        · obtain ⟨-, -, hwrite₂⟩ := (yields_writing hwritable₁ _).of_ok hempty
          have hways₂ := hways₁.trans (sameWays_write hwrite₂)
          cases haddress : Address.ofString d.url with
          | error why =>
            refine yields_bind_of_error ?_ ⟨hways₂, .inr (.address hanswered hstatus hlength haddress)⟩
            rw [tell, haddress]
            rfl
          | ok address =>
            obtain ⟨w₃, htell, hfiles₃⟩ : ∃ w₃, d.tell total (response.pieces d.chunkSize).1 w₂ =
                .ok () w₃ ∧ w₃.files = w₂.files := by
              rw [tell, haddress]
              exact ⟨_, rfl, rfl⟩
            have hways₃ : SameWays w.files w₃.files := hfiles₃ ▸ hways₂
            have hwriting := yields_writing (hwritable.of_sameWays hways₃)
              (response.pieces d.chunkSize).1.flatten
            have hsteady : ∀ e, ¬ d.Stumbles w.exchanges e := by
              intro e hstumbles
              cases hstumbles <;> simp_all
            refine yields_bind_of_ok htell (Yields.bind (fun _ w₄ hwrite => ?_) fun e w₄ hwrite => ?_)
            · obtain ⟨-, -, hwrite₄⟩ := hwriting.of_ok hwrite
              have hways₄ := hways₃.trans (sameWays_write hwrite₄)
              cases hbreaks : (response.pieces d.chunkSize).2 with
              | some fault =>
                exact yields_bind_of_error rfl
                  ⟨hways₄, .inl ⟨fault, rfl, hlater fault hbreaks, hsteady⟩⟩
              | none =>
                exact ⟨hways₄, ⟨exists_read_of_write hwrite₄, exists_look_of_write hwrite₄⟩, hsteady⟩
            · cases (hwriting.of_error hwrite).1
        · cases ((yields_writing hwritable₁ _).of_error hempty).1
  · obtain ⟨why, hwhy, rfl⟩ := Run.wrapping_eq_error.1 hrequest
    obtain ⟨hfiles, hends⟩ := request_eq_error hwhy
    refine ⟨hfiles ▸ .refl _, .inl ⟨why, rfl, ?_, fun e' hstumbles => ?_⟩⟩
    · obtain ⟨-, hkind⟩ | ⟨later, hrefused⟩ := hends
      · rw [hkind]
        rfl
      · exact hserver (.refused why) (by simp [hrefused])
    · cases hstumbles <;> simp_all

/-! ## Discarding and moving -/

/-- What can be written can be discarded. -/
theorem exists_discard (h : t.IsWritable temporary) : ∃ t', discard temporary t = .ok () t' := by
  unfold discard
  obtain ⟨t', hunlink⟩ | ⟨e, hunlink, hmissing⟩ := exists_unlink h
  · exact ⟨t', by rw [hunlink]⟩
  · exact ⟨t, by rw [hunlink]; exact if_pos hmissing⟩

/-- A fault of the transfer turns the download down. -/
theorem yields_receiveOrDiscard_room (hwritable : w.files.IsWritable temporary)
    (hserver : ∀ x ∈ w.exchanges, x.FailsInTransfer) :
    Yields (d.receiveOrDiscard temporary) w fun result w' =>
      EndsWell DownloadFailure.IsRejected (d.Stumbles w.exchanges) result ∧
      ∀ digest, result = .ok digest → SameWays w.files w'.files ∧ Landed temporary w'.files := by
  have hreceive := yields_receive_room (d := d) hwritable hserver
  unfold Yields receiveOrDiscard
  cases hr : d.receive temporary w with
  | ok digest w' =>
    obtain ⟨hways, hlanded, hsteady⟩ := hreceive.of_ok hr
    exact ⟨hsteady, fun _ _ => ⟨hways, hlanded⟩⟩
  | error e w' =>
    obtain ⟨hways, ⟨fault, rfl, htransfer, hsteady⟩ | hstumbles⟩ := hreceive.of_error hr
    · obtain ⟨t', hdiscard⟩ := exists_discard (hwritable.of_sameWays hways)
      dsimp only
      rw [if_pos htransfer, hdiscard]
      exact ⟨.inl ⟨⟨_, rfl⟩, hsteady⟩, fun _ h => by cases h⟩
    · cases hstumbles with
      | length answered status length =>
        exact ⟨.inr (.length answered status length), fun _ h => by cases h⟩
      | address answered status length address =>
        exact ⟨.inr (.address answered status length address), fun _ h => by cases h⟩

/-- **Once the directory is there**, the download gives its target, is turned down or stumbles. -/
theorem yields_fetch_room (hfits : d.Fits temporary w.files)
    (hserver : ∀ x ∈ w.exchanges, x.FailsInTransfer) :
    Yields (d.fetch temporary) w fun result _ =>
      EndsWell DownloadFailure.IsRejected (d.Stumbles w.exchanges) result := by
  have hreceive := yields_receiveOrDiscard_room (d := d) hfits.writable hserver
  refine Yields.bind (fun digest w₁ hreceived => ?_) fun e w₁ hfails => (hreceive.of_error hfails).1
  obtain ⟨hsteady, hlanded⟩ := hreceive.of_ok hreceived
  obtain ⟨hways, ⟨content, hread⟩, q, node, hthere, hnode⟩ := hlanded digest rfl
  have hfits₁ := hfits.of_sameWays hways
  refine yields_bind_of_ok (Run.ask_eq_ok.2 ⟨hread, rfl⟩) ?_
  cases d.rejection? content digest with
  | some why =>
    obtain ⟨t', hdiscard⟩ := exists_discard hfits₁.writable
    have hdiscarded : Run.onFiles DownloadFailure.files (discard temporary) w₁ =
        .ok () { w₁ with files := t' } := Run.onFiles_eq_ok.2 ⟨hdiscard, rfl⟩
    exact yields_bind_of_ok hdiscarded (yields_bind_of_error rfl (.inl ⟨⟨why, rfl⟩, hsteady⟩))
  | none =>
    obtain ⟨goal, hgoal⟩ := hfits₁.exists_locate
    obtain ⟨t', hmove⟩ := exists_move hthere hnode hgoal hfits₁.notUp fun hdirectory =>
      hfits₁.free goal (look_eq_ok_iff.2 ⟨hgoal, hdirectory⟩)
    have hmoved : Run.onFiles DownloadFailure.files (FileTree.change (·.move temporary d.target)) w₁ =
        .ok () { w₁ with files := t' } := by
      rw [Run.onFiles_eq_ok, FileTree.change, hmove]
      exact ⟨rfl, rfl⟩
    exact yields_bind_of_ok hmoved hsteady

/-- **With room for it**, a download gives its target, is turned down or stumbles. -/
theorem yields_download_room (hroom : d.HasRoom w.files)
    (hserver : ∀ x ∈ w.exchanges, x.FailsInTransfer) :
    Yields (download d) w fun result _ =>
      EndsWell DownloadFailure.IsRejected (d.Stumbles w.exchanges) result := by
  obtain ⟨made, temporary, hmade, hfits⟩ := hroom
  have hfirst : Run.onFiles DownloadFailure.files (ensureDirectory d.target.parent) w =
      .ok () { w with files := made } := Run.onFiles_eq_ok.2 ⟨hmade, rfl⟩
  refine yields_bind_of_ok hfirst ?_
  rw [hfits.beside]
  exact yields_fetch_room hfits hserver

end Download

/-! ## The toolchain -/

namespace Toolchain

variable {c : Toolchain} {w : World}

/-- The weaver is asked for at the publisher's address, whatever version is wanted. -/
theorem exists_address (c : Toolchain) : ∃ address, Address.ofString c.downloadUrl = .ok address := by
  have htext : c.downloadUrl.toList = "https://repo1.maven.org/".toList ++
      ("maven2/org/aspectj/aspectjtools" ++ "/" ++ c.version ++ "/" ++ c.archiveName).toList := by
    simp [downloadUrl, publisher, String.toList_append]
  unfold Address.ofString
  rw [htext]
  generalize ("maven2/org/aspectj/aspectjtools" ++ "/" ++ c.version ++ "/" ++ c.archiveName).toList =
    rest
  exact ⟨_, rfl⟩

/-- The toolchain cannot be told whether the archive is there, or it is downloaded, and the length that
the server tells of it is no number. -/
inductive Stumbles (c : Toolchain) (w : World) : ToolchainFailure → Prop
  | asked {why : FileFailure} (asked : c.isInstalled w.files = .error why) : Stumbles c w (.files why)
  | length {r : Response} {later : List Exchange} {why : IntegerFailure} (cached : c.archive = none)
    (missing : c.isInstalled w.files = .ok false) (answered : w.exchanges = .answered r :: later)
    (status : r.statusFault? c.downloadUrl = none) (length : r.length = .error why) :
    Stumbles c w (.download (.badLength why))

theorem Stumbles.unique {e e' : ToolchainFailure} (h : c.Stumbles w e) (h' : c.Stumbles w e') :
    e = e' := by
  cases h with
  | asked asked => cases h' <;> simp_all
  | length cached missing answered status length => cases h' <;> simp_all

/-- Where the archive is to be downloaded, the toolchain stumbles where the download does. -/
theorem stumbles_iff (cached : c.archive = none) (missing : c.isInstalled w.files = .ok false)
    (e : ToolchainFailure) :
    c.Stumbles w e ↔ ∃ why, e = .download why ∧ c.asDownload.Stumbles w.exchanges why := by
  constructor
  · intro h
    cases h with
    | asked asked => simp_all
    | length cached missing answered status length => exact ⟨_, rfl, .length answered status length⟩
  · rintro ⟨why, rfl, h⟩
    cases h with
    | length answered status length => exact .length cached missing answered status length
    | address answered status length address =>
      obtain ⟨_, haddress⟩ := c.exists_address
      have hurl : c.asDownload.url = c.downloadUrl := rfl
      rw [hurl, haddress] at address
      cases address

theorem endsWell_wrapping (cached : c.archive = none) (missing : c.isInstalled w.files = .ok false)
    {result : Except DownloadFailure Path}
    (h : EndsWell DownloadFailure.IsRejected (c.asDownload.Stumbles w.exchanges) result) :
    EndsWell ToolchainFailure.IsFlawed (c.Stumbles w) (result.mapError ToolchainFailure.ofDownload) := by
  have hsteady : (∀ e, ¬ c.asDownload.Stumbles w.exchanges e) → ∀ e, ¬ c.Stumbles w e := by
    intro hno e hstumbles
    obtain ⟨why, -, hwhy⟩ := (stumbles_iff cached missing e).1 hstumbles
    exact hno why hwhy
  cases result with
  | ok p => exact hsteady h
  | error e =>
    obtain ⟨⟨why, rfl⟩, hno⟩ | hstumbles := h
    · exact .inl ⟨⟨_, rfl⟩, hsteady hno⟩
    · refine .inr ((stumbles_iff cached missing _).2 ⟨e, ?_, hstumbles⟩)
      cases hstumbles <;> rfl

/-- **A toolchain** gives its archive, fails as one that is flawed, or stumbles. -/
theorem yields_ensureWeaver_room (hroom : c.archive = none → c.asDownload.HasRoom w.files)
    (hserver : ∀ x ∈ w.exchanges, x.FailsInTransfer) :
    Yields c.ensureWeaver w fun result _ => EndsWell ToolchainFailure.IsFlawed (c.Stumbles w) result := by
  have hthere : c.isInstalled w.files = .ok true → ∀ e, ¬ c.Stumbles w e := by
    intro hinstalled e hstumbles
    cases hstumbles <;> simp_all
  unfold ensureWeaver
  cases harchive : c.archive with
  | some archive =>
    have hinstalled : c.isInstalled w.files = w.files.isFile? archive := by
      rw [isInstalled, harchive]
      rfl
    have hgiven : ∀ found, c.isInstalled w.files = .ok found → ∀ e, ¬ c.Stumbles w e := by
      intro found hfound e hstumbles
      cases hstumbles with
      | asked asked =>
        rw [hfound] at asked
        cases asked
      | length cached =>
        rw [harchive] at cached
        cases cached
    dsimp only
    cases hask : w.files.isFile? archive with
    | error why =>
      have hasked : Run.ask ToolchainFailure.files (·.isFile? archive) w = .error (.files why) w := by
        rw [Run.ask, hask]
      exact yields_bind_of_error hasked (.inr (.asked (hinstalled.trans hask)))
    | ok found =>
      refine yields_bind_of_ok (Run.ask_eq_ok.2 ⟨hask, rfl⟩) ?_
      have hsteady := hgiven found (hinstalled.trans hask)
      cases found with
      | true => exact hsteady
      | false => exact .inl ⟨⟨_, rfl⟩, hsteady⟩
  | none =>
    have hinstalled := isInstalled_eq (t := w.files) harchive
    unfold ensureCached
    dsimp only
    cases hask : w.files.isFile? c.cachedArchive with
    | error why =>
      have hasked : Run.ask ToolchainFailure.files (·.isFile? c.cachedArchive) w =
          .error (.files why) w := by rw [Run.ask, hask]
      exact yields_bind_of_error hasked (.inr (.asked (hinstalled.trans hask)))
    | ok found =>
      refine yields_bind_of_ok (Run.ask_eq_ok.2 ⟨hask, rfl⟩) ?_
      cases found with
      | true => exact yields_bind_of_ok rfl (hthere (hinstalled.trans hask))
      | false =>
        refine yields_bind_of_ok rfl ?_
        have htold := w.told_log ⟨.info, logger, "Downloading AspectJ tools " ++ c.version ++ "...", none⟩
        have hdownload := Download.yields_download_room
          ((hroom harchive).of_told htold.files) (htold.exchanges ▸ hserver)
        rw [htold.exchanges] at hdownload
        have hmissing := hinstalled.trans hask
        exact hdownload.wrapping (fun p _ h => c.endsWell_wrapping harchive hmissing h)
          fun e _ h => c.endsWell_wrapping harchive hmissing h

end Toolchain

/-- **No other way to fail.** Where there is room for it and the server does nothing worse than to break
off a transfer, a download fails otherwise than by being turned down exactly where it stumbles over
what the first answer tells; and the toolchain otherwise than as flawed where that cannot be told to be
installed, or where the length of its archive, which it downloads, is told as no number. -/
theorem download_fails_only_by_length (d : Download) (c : Toolchain) {w : World}
    (hserver : ∀ x ∈ w.exchanges, x.FailsInTransfer) (hroom : d.HasRoom w.files)
    (hcache : c.archive = none → c.asDownload.HasRoom w.files) :
    (Yields (download d) w fun result _ => ∀ e, ¬ e.IsRejected →
      (result = .error e ↔ d.Stumbles w.exchanges e)) ∧
    Yields c.ensureWeaver w fun result _ => ∀ e, ¬ e.IsFlawed →
      (result = .error e ↔ c.Stumbles w e) := by
  have hdownload := Download.yields_download_room hroom hserver
  have htoolchain := Toolchain.yields_ensureWeaver_room hcache hserver
  refine ⟨hdownload.imp fun result _ hends e he => ?_, htoolchain.imp fun result _ hends e he => ?_⟩
  · exact hends.error_iff (fun _ _ h h' => h.unique h') he
  · exact hends.error_iff (fun _ _ h h' => h.unique h') he

/-- An archive of which the server tells no number as its length. -/
def oddResponse : Response where
  body := Download.archiveMark
  headers := [("Content-Length", "odd")]

/-- A world with such a server, and a directory for the archive. -/
def worldWithOddLength : World where
  files := treeOfTools [(["1.9"], .directory)]
  exchanges := [.answered oddResponse]

theorem hasRoom_oddLength : linkedDownload.HasRoom worldWithOddLength.files := by
  have hdirectory : worldWithOddLength.files.look .followed plainPath.parent =
      .ok (toolsAtRoot ++ ["1.9"], .directory) := look_versionFolder
  have hempty : worldWithOddLength.files.get? receivedPlace = none := by decide
  have hmade : worldWithOddLength.files.locate .made (temporaryOf plainPath) = .ok receivedPlace := by
    rw [temporaryOf_plainPath]
    exact locate_inVersion .made (.inr rfl) (by rintro text ⟨⟩)
  have hfree : worldWithOddLength.files.look .own plainPath = .error (.refusal .noEntry plainPath.text) :=
    look_of_none (locate_inVersion .own (.inl rfl) (by rintro text ⟨⟩)) rfl
  refine ⟨_, temporaryOf plainPath, ensureDirectory_of_look hdirectory, ?_⟩
  refine ⟨Download.temporary?_eq (by decide), isWritable_iff.2 ⟨_, hmade, ?_⟩, by decide,
    fun place h => ?_⟩
  · rw [hempty]
    exact ⟨by simp, by simp⟩
  · have hnone := hfree.symm.trans h
    cases hnone

theorem asDownload_plain :
    Toolchain.asDownload { cache := cacheAtRoot, version := "1.9" } = linkedDownload := by
  have hpath : Toolchain.cachedArchive { cache := cacheAtRoot, version := "1.9" } = plainPath :=
    cachedArchive_plain
  rw [Toolchain.asDownload, hpath]
  rfl

theorem failsInTransfer_oddLength : ∀ x ∈ worldWithOddLength.exchanges, x.FailsInTransfer := by
  intro x hx
  obtain rfl := List.mem_singleton.1 hx
  intro n fault hfails
  cases hfails

/-- A download and a toolchain that go wrong by the length alone. -/
theorem download_fails_by_oddLength :
    (Yields (download linkedDownload) worldWithOddLength fun result _ => ∀ e, ¬ e.IsRejected →
      (result = .error e ↔ linkedDownload.Stumbles worldWithOddLength.exchanges e)) ∧
    Yields (Toolchain.ensureWeaver { cache := cacheAtRoot, version := "1.9" }) worldWithOddLength
      fun result _ => ∀ e, ¬ e.IsFlawed → (result = .error e ↔
        Toolchain.Stumbles { cache := cacheAtRoot, version := "1.9" } worldWithOddLength e) :=
  download_fails_only_by_length linkedDownload { cache := cacheAtRoot, version := "1.9" }
    failsInTransfer_oddLength hasRoom_oddLength fun _ => asDownload_plain ▸ hasRoom_oddLength

/-- A length that is no number is not told as a failure of the download, or as one of the toolchain. -/
theorem not_download_fails_only_as_told :
    (¬ ∀ (d : Download) {w : World}, (∀ x ∈ w.exchanges, x.FailsInTransfer) → d.HasRoom w.files →
      Yields (download d) w fun result _ => ∀ e, result = .error e → e.IsRejected) ∧
    ¬ ∀ (c : Toolchain) {w : World}, (∀ x ∈ w.exchanges, x.FailsInTransfer) →
      c.asDownload.HasRoom w.files →
      Yields c.ensureWeaver w fun result _ => ∀ e, result = .error e → e.IsFlawed := by
  have hlength : oddResponse.length = .error (.notInteger "odd") :=
    (Response.length_of_headers rfl).trans (by decide)
  refine ⟨fun h => ?_, fun h => ?_⟩
  · have hclaim := h linkedDownload failsInTransfer_oddLength hasRoom_oddLength
    have hends := Download.yields_download_room hasRoom_oddLength failsInTransfer_oddLength
    have hnumber : ¬ DownloadFailure.IsRejected (.badLength (.notInteger "odd")) := by
      rintro ⟨why, hwhy⟩
      cases hwhy
    have hfails := hends.imp fun _ _ h => (h.error_iff (fun _ _ h h' => h.unique h') hnumber).2
      (.length rfl rfl hlength)
    cases hdone : download linkedDownload worldWithOddLength with
    | ok p w' => cases hfails.of_ok hdone
    | error e w' => exact hnumber (hclaim.of_error hdone _ (hfails.of_error hdone))
  · let c : Toolchain := { cache := cacheAtRoot, version := "1.9" }
    have hroom : c.asDownload.HasRoom worldWithOddLength.files :=
      asDownload_plain ▸ hasRoom_oddLength
    have hclaim := h c failsInTransfer_oddLength hroom
    have hends := Toolchain.yields_ensureWeaver_room (c := c) (fun _ => hroom) failsInTransfer_oddLength
    have hnumber : ¬ ToolchainFailure.IsFlawed (.download (.badLength (.notInteger "odd"))) := by
      rintro ⟨why, hwhy⟩
      cases hwhy
    have hmissing : c.isInstalled worldWithOddLength.files = .ok false := by
      have hpath : c.cachedArchive = plainPath := cachedArchive_plain
      rw [Toolchain.isInstalled_eq rfl, hpath]
      exact isFile?_plainPath rfl
    have hfails := hends.imp fun _ _ h => (h.error_iff (fun _ _ h h' => h.unique h') hnumber).2
      (.length rfl hmissing rfl rfl hlength)
    cases hdone : c.ensureWeaver worldWithOddLength with
    | ok p w' => cases hfails.of_ok hdone
    | error e w' => exact hnumber (hclaim.of_error hdone _ (hfails.of_error hdone))

end WeaveStep
