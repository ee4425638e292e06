import WeaveStep.Proofs.Fetch.Alike
import WeaveStep.Proofs.Fetch.Download
import WeaveStep.Proofs.Files.Writable

/-!
# The length that a server tells

A response may tell how long its body is. A download reads that length, and shows its progress by it,
but it goes by nothing except the body that arrives.

* `World.SameButTold`: two worlds differ in nothing but what is left to be answered and the progress
  that was shown.
* `Download.endsAlike_receive`: what is received is the same for every length that the server tells.
* **`download_goes_by_body`**: so is what becomes of the whole download. A body that breaks off early
  is taken like a whole one if it begins like an archive (`not_download_refuses_short`).
-/

namespace WeaveStep

open FileTree Text

/-- The worlds differ in nothing but what is left to be answered and the progress that was shown. -/
def World.SameButTold (w w' : World) : Prop :=
  ∃ exchanges progress, w' = { w with exchanges, progress }

theorem World.sharesFiles_sameButTold : SharesFiles SameButTold where
  same := by
    rintro w _ ⟨exchanges, progress, rfl⟩
    rfl
  change := by
    rintro w _ ⟨exchanges, progress, rfl⟩ files
    exact ⟨exchanges, progress, rfl⟩

open World (sharesFiles_sameButTold)

namespace Download

variable {d : Download} {temporary : Path} {w w' : World} {r : Response}
  {headers : List (String × String)} {later later' : List Exchange} {total total' : Int}

/-- Whatever length it is told, the progress is all that shows it. -/
theorem endsAlike_tell (total total' : Int) (pieces : List (List UInt8))
    (h : w.SameButTold w') :
    EndsAlike World.SameButTold (d.tell total pieces w) (d.tell total' pieces w') := by
  obtain ⟨exchanges, progress, rfl⟩ := h
  unfold tell
  cases Address.ofString d.url with
  | error why => exact .error _ ⟨exchanges, progress, rfl⟩
  | ok address => exact .ok () ⟨exchanges, _, rfl⟩

/-- **Receiving** a body does not go by the length that is told of it. -/
theorem endsAlike_receive (h : w.SameButTold w') (hanswer : w.exchanges = .answered r :: later)
    (hanswer' : w'.exchanges = .answered { r with headers } :: later')
    (hlength : r.length = .ok total)
    (hlength' : ({ r with headers } : Response).length = .ok total') :
    EndsAlike World.SameButTold (d.receive temporary w) (d.receive temporary w') := by
  refine endsAlike_receive_of_tell sharesFiles_sameButTold d.chunkSize ?_ hanswer hanswer'
    hlength hlength' rfl rfl rfl (endsAlike_tell total total' _)
  obtain ⟨exchanges, progress, rfl⟩ := h
  exact ⟨later', progress, rfl⟩

/-- **The whole download** does not, either. -/
theorem endsAlike_download (h : w.SameButTold w') (hanswer : w.exchanges = .answered r :: later)
    (hanswer' : w'.exchanges = .answered { r with headers } :: later')
    (hlength : r.length = .ok total)
    (hlength' : ({ r with headers } : Response).length = .ok total') :
    EndsAlike World.SameButTold (download d w) (download d w') := by
  refine endsAlike_download_of_receive sharesFiles_sameButTold d.chunkSize h
    fun temporary files => ?_
  exact endsAlike_receive (sharesFiles_sameButTold.change h files) hanswer hanswer' hlength hlength'

end Download

/-- **A download goes by the body.** Where the server answers and tells a length that can be read, a
download that fails leaves its target as it was, and it does fail if the body that arrived is turned
down; if it succeeds, the target holds that body, whichever part that is of what the server told of.
With any other headers, or none, that tell a length the download ends in the same way. -/
theorem download_goes_by_body (d : Download) {w : World} {r : Response} {later : List Exchange}
    {total : Int} (htree : IsTree w.files)
    (hstart : w.files.get? (w.files.startOf d.target) = some .directory)
    (hnames : ∀ name ∈ d.target.parts, Path.isName name = true)
    (hsteady : IsSteady w.files d.target)
    (htarget : AtMostFile w.files d.target)
    (htemporary : ∀ temporary, d.temporary? = some temporary → AtMostFile w.files temporary)
    (hanswer : w.exchanges = .answered r :: later) (hlength : r.length = .ok total) :
    (∀ e w', download d w = .error e w' → SameAt d.target w.files w'.files) ∧
    (¬ d.Accepts r.body → ∃ e w', download d w = .error e w') ∧
    (∀ p w', download d w = .ok p w' →
      w'.files.read d.target = .ok r.body ∧ d.Accepts r.body) ∧
    ∀ headers total', ({ r with headers } : Response).length = .ok total' →
      EndsAlike World.SameButTold (download d w)
        (download d { w with exchanges := .answered { r with headers } :: later }) := by
  have hready := Download.yields_ready htree hstart hnames hsteady htarget htemporary
  have hends : Yields (download d) w fun result w' => match result with
      | .ok _ => w'.files.read d.target = .ok r.body ∧ d.Accepts r.body
      | .error _ => SameAt d.target w.files w'.files := by
    refine Yields.bind (fun _ w₁ h => ?_) fun e w₁ h => (hready.of_error h).2.1
    obtain ⟨hexchanges, hsame, temporary, hbeside, hready⟩ := hready.of_ok h
    rw [hbeside]
    refine (Download.yields_fetch hready hbeside).imp fun result w' hsettles => ?_
    have hsettles := hsettles.before hexchanges hsame
    cases result with
    | ok p =>
      obtain ⟨-, -, response, hanswered, hread, haccepts⟩ := hsettles
      rw [hanswer] at hanswered
      cases hanswered
      exact ⟨hread, haccepts⟩
    | error e =>
      cases e with
      | rejected why => exact hsettles.1
      | _ => exact hsettles
  refine ⟨fun e w' h => hends.of_error h, fun hrefused => ?_, fun p w' h => hends.of_ok h,
    fun headers total' hlength' =>
      Download.endsAlike_download ⟨_, w.progress, rfl⟩ hanswer rfl hlength hlength'⟩
  cases h : download d w with
  | ok p w' => exact absurd (hends.of_ok h).2 hrefused
  | error e w' => exact ⟨e, w', rfl⟩

/-! ## A short body -/

theorem Download.keep_of_written (total : Int) {d : Download} {temporary : Path} {w : World}
    {r : Response} {address : Address} {pieces : List (List UInt8)} {t t' : FileTree}
    (haddress : Address.ofString d.url = .ok address)
    (hpieces : r.pieces d.chunkSize = (pieces, none))
    (hempty : w.files.write temporary [] = .ok t)
    (hwrite : t.write temporary pieces.flatten = .ok t') :
    ∃ progress, d.keep temporary r total w =
      .ok (Digest.ofBytes pieces.flatten) { w with files := t', progress } := by
  have hfirst : Run.onFiles DownloadFailure.files (change (·.write temporary [])) w =
      .ok () { w with files := t } :=
    Run.onFiles_eq_ok.2 ⟨change_ok hempty, rfl⟩
  have htell : ∃ progress, d.tell total pieces { w with files := t } =
      .ok () { w with files := t, progress } := by
    unfold tell
    rw [haddress]
    exact ⟨_, rfl⟩
  obtain ⟨progress, htell⟩ := htell
  have hsecond : Run.onFiles DownloadFailure.files (change (·.write temporary pieces.flatten))
      { w with files := t, progress } = .ok () { w with files := t', progress } :=
    Run.onFiles_eq_ok.2 ⟨change_ok hwrite, rfl⟩
  refine ⟨progress, ?_⟩
  rw [keep, bind_ok hfirst, hpieces, bind_ok htell, bind_ok hsecond]
  rfl

theorem Download.receive_of_written {d : Download} {temporary : Path} {w : World} {r : Response}
    {later : List Exchange} {total : Int} {address : Address} {pieces : List (List UInt8)}
    {t t' : FileTree} (hanswer : w.exchanges = .answered r :: later)
    (hlength : r.length = .ok total) (hstatus : r.statusFault? d.url = none)
    (haddress : Address.ofString d.url = .ok address)
    (hpieces : r.pieces d.chunkSize = (pieces, none))
    (hempty : w.files.write temporary [] = .ok t)
    (hwrite : t.write temporary pieces.flatten = .ok t') :
    ∃ w', d.receive temporary w = .ok (Digest.ofBytes pieces.flatten) w' ∧ w'.files = t' := by
  obtain ⟨_, hkeep⟩ := keep_of_written total
    (w := { w with requests := w.requests ++ [⟨d.url, d.timeout⟩], exchanges := later })
    haddress hpieces hempty hwrite
  rw [receive_of_answered hanswer hlength, take, hstatus]
  exact ⟨_, hkeep, rfl⟩

theorem Download.fetch_of_received {d : Download} {temporary : Path} {w w' : World} {digest : String}
    {content : List UInt8} {t : FileTree} (hreceive : d.receive temporary w = .ok digest w')
    (hread : w'.files.read temporary = .ok content)
    (haccept : d.rejection? content digest = none)
    (hmove : w'.files.move temporary d.target = .ok t) :
    d.fetch temporary w = .ok d.target { w' with files := t } := by
  have hkept : d.receiveOrDiscard temporary w = .ok digest w' := by rw [receiveOrDiscard, hreceive]
  have hchecked : Run.ask DownloadFailure.files (·.read temporary) w' = .ok content w' := by
    rw [Run.ask_eq_ok]
    exact ⟨hread, rfl⟩
  have hmoved : Run.onFiles DownloadFailure.files (change (·.move temporary d.target)) w' =
      .ok () { w' with files := t } :=
    Run.onFiles_eq_ok.2 ⟨change_ok hmove, rfl⟩
  rw [fetch, bind_ok hkept, bind_ok hchecked, haccept]
  exact bind_ok hmoved

/-- A body that is written, read back, accepted and moved is downloaded. -/
theorem Download.download_of_written {d : Download} {temporary : Path} {w : World} {r : Response}
    {later : List Exchange} {total : Int} {address : Address} {pieces : List (List UInt8)}
    {content : List UInt8} {ready t t' moved : FileTree}
    (hmade : ensureDirectory d.target.parent w.files = .ok () ready)
    (hbeside : d.temporary? = some temporary) (hanswer : w.exchanges = .answered r :: later)
    (hlength : r.length = .ok total) (hstatus : r.statusFault? d.url = none)
    (haddress : Address.ofString d.url = .ok address)
    (hpieces : r.pieces d.chunkSize = (pieces, none))
    (hempty : ready.write temporary [] = .ok t) (hwrite : t.write temporary pieces.flatten = .ok t')
    (hread : t'.read temporary = .ok content)
    (haccept : d.rejection? content (Digest.ofBytes pieces.flatten) = none)
    (hmove : t'.move temporary d.target = .ok moved) :
    ∃ w', download d w = .ok d.target w' ∧ w'.files = moved := by
  obtain ⟨w', hreceive, rfl⟩ := receive_of_written (w := { w with files := ready }) hanswer hlength
    hstatus haddress hpieces hempty hwrite
  have hmade : Run.onFiles DownloadFailure.files (ensureDirectory d.target.parent) w =
      .ok () { w with files := ready } := Run.onFiles_eq_ok.2 ⟨hmade, rfl⟩
  have hfetch := fetch_of_received hreceive hread haccept hmove
  rw [download, bind_ok hmade, hbeside]
  exact ⟨_, hfetch, rfl⟩

/-- A response that has an archive which is nothing but its mark. -/
def wholeResponse : Response where
  body := Download.archiveMark

/-- That archive is downloaded in pieces of any size, where it can be written and moved. -/
theorem Download.download_wholeResponse {d : Download} {temporary : Path} {w : World}
    {later : List Exchange} {address : Address} {made t t' moved : FileTree}
    (hsize : d.chunkSize ≠ some 0) (haddress : Address.ofString d.url = .ok address)
    (hchecksum : ∀ expected, d.checksum = some expected → Digest.ofBytes archiveMark = expected)
    (hanswer : w.exchanges = .answered wholeResponse :: later)
    (hmade : ensureDirectory d.target.parent w.files = .ok () made)
    (hbeside : d.temporary? = some temporary) (hempty : made.write temporary [] = .ok t)
    (hwrite : t.write temporary archiveMark = .ok t') (hread : t'.read temporary = .ok archiveMark)
    (hmove : t'.move temporary d.target = .ok moved) :
    ∃ w', download d w = .ok d.target w' ∧ w'.files = moved := by
  have hnone : (wholeResponse.pieces d.chunkSize).2 = none := rfl
  have hall : (wholeResponse.pieces d.chunkSize).1.flatten = archiveMark :=
    wholeResponse.flatten_pieces hsize hnone
  have haccepts : d.Accepts archiveMark := by
    refine ⟨List.prefix_rfl, fun expected hexpected _ => ?_⟩
    rw [hchecksum expected hexpected]
  have hrejection : d.rejection? archiveMark
      (Digest.ofBytes (wholeResponse.pieces d.chunkSize).1.flatten) = none := by
    rw [hall]
    exact rejection?_of_accepts haccepts
  rw [← hall] at hwrite
  exact download_of_written hmade hbeside hanswer rfl rfl haddress (Prod.ext rfl hnone) hempty hwrite
    hread hrejection hmove

/-- A response that breaks off after four of ten bytes. -/
def shortResponse : Response where
  body := Download.archiveMark
  headers := [("Content-Length", "10")]

theorem length_shortResponse : shortResponse.length = .ok 10 :=
  (Response.length_of_headers rfl).trans (by cbv)

/-- A download of an archive. -/
def archiveAlone : Download where
  url := "http://maven/weaver.jar"
  target := ⟨.root, ["weaver.jar"]⟩

/-- A world with an archive, of which the server sends another one that breaks off. -/
def worldWithShortBody : World where
  files := { entries := [([], .directory), (["weaver.jar"], .file [1] false)], workingDirectory := [] }
  exchanges := [.answered shortResponse]

/-- Its files with such a temporary one. -/
def filesWithShortBody (content : List UInt8) : FileTree where
  entries := (["weaver.jar.tmp"], .file content false) :: worldWithShortBody.files.entries
  workingDirectory := []

/-- The temporary file. -/
def temporaryAlone : Path := ⟨.root, ["weaver.jar.tmp"]⟩

/-- The temporary file is made, takes the content, and is moved to the archive's place. -/
theorem writes_temporaryAlone (content : List UInt8) :
    worldWithShortBody.files.write temporaryAlone [] = .ok (filesWithShortBody []) ∧
      (filesWithShortBody []).write temporaryAlone content = .ok (filesWithShortBody content) ∧
      (filesWithShortBody content).read temporaryAlone = .ok content ∧
      ∃ t, (filesWithShortBody content).move temporaryAlone archiveAlone.target = .ok t := by
  have hfree : worldWithShortBody.files.locate .made temporaryAlone = .ok ["weaver.jar.tmp"] := by cbv
  have htaken : (filesWithShortBody []).locate .made temporaryAlone = .ok ["weaver.jar.tmp"] := by cbv
  have hown : (filesWithShortBody content).look .own temporaryAlone =
      .ok (["weaver.jar.tmp"], .file content false) := by cbv
  have hgoal : (filesWithShortBody content).locate .own archiveAlone.target = .ok ["weaver.jar"] := by
    cbv
  exact ⟨write_of_free hfree rfl [], write_of_file htaken rfl content, by cbv,
    exists_move hown (by simp) hgoal (by decide) (by rintro ⟨⟩)⟩

/-- The short body is received and accepted, and the move goes well. -/
theorem download_shortBody :
    ∃ w', download archiveAlone worldWithShortBody = .ok archiveAlone.target w' := by
  have hmade : ensureDirectory archiveAlone.target.parent worldWithShortBody.files =
      .ok () worldWithShortBody.files := by cbv
  have haddress : ∃ address, Address.ofString archiveAlone.url = .ok address := ⟨_, rfl⟩
  have hpieces : shortResponse.pieces archiveAlone.chunkSize = ([Download.archiveMark], none) := by
    cbv
  obtain ⟨hempty, hwrite, hread, _, hmove⟩ := writes_temporaryAlone Download.archiveMark
  have haccept : ∀ digest, archiveAlone.rejection? Download.archiveMark digest = none := fun _ => rfl
  have hbeside : archiveAlone.temporary? = some temporaryAlone := rfl
  obtain ⟨_, haddress⟩ := haddress
  obtain ⟨w', hdownload, -⟩ := Download.download_of_written hmade hbeside rfl length_shortResponse
    (by decide) haddress hpieces hempty hwrite hread (haccept _) hmove
  exact ⟨w', hdownload⟩

theorem atMostFile_beside {name : String} (hname : IsEntryName name)
    (hfile : IsFileOrNone (worldWithShortBody.files.get? [name])) :
    AtMostFile worldWithShortBody.files ⟨.root, [name]⟩ := by
  have hroot : worldWithShortBody.files.look .followed ⟨.root, []⟩ = .ok ([], .directory) :=
    look_start rfl rfl
  exact atMostFile_entry hroot hname hfile

/-- What a download of the archive asks of the world. -/
theorem shortBody_isSteady : IsSteady worldWithShortBody.files archiveAlone.target ∧
    AtMostFile worldWithShortBody.files archiveAlone.target ∧
    ∀ temporary, archiveAlone.temporary? = some temporary →
      AtMostFile worldWithShortBody.files temporary := by
  refine ⟨⟨[], _, [], rfl, look_start rfl rfl, by decide⟩, ?_, fun temporary htemporary => ?_⟩
  · refine atMostFile_beside (by simp [IsEntryName]) ?_
    rintro node ⟨⟩
    rfl
  · cases htemporary
    refine atMostFile_beside (Download.isEntryName_temporary _) ?_
    rintro node ⟨⟩

/-- The archive that breaks off is taken, as it is where no length is told. -/
theorem download_goes_by_shortBody : ∃ p w', download archiveAlone worldWithShortBody = .ok p w' ∧
    w'.files.read archiveAlone.target = .ok Download.archiveMark ∧
    EndsAlike World.SameButTold (download archiveAlone worldWithShortBody)
      (download archiveAlone
        { worldWithShortBody with exchanges := [.answered { shortResponse with headers := [] }] }) := by
  obtain ⟨hsteady, htarget, htemporary⟩ := shortBody_isSteady
  obtain ⟨-, -, hholds, halike⟩ := download_goes_by_body archiveAlone (w := worldWithShortBody)
    (isTree_of_entries rfl (by decide)) rfl (by decide) hsteady htarget htemporary rfl
    length_shortResponse
  obtain ⟨w', hdownload⟩ := download_shortBody
  exact ⟨_, w', hdownload, (hholds _ _ hdownload).1, halike [] 0 rfl⟩

/-- A body that is shorter than the server told may replace what lay at the target. -/
theorem not_download_refuses_short :
    ¬ ∀ (d : Download) (w : World) (r : Response) (later : List Exchange) (total : Int),
      IsTree w.files → w.files.get? (w.files.startOf d.target) = some .directory →
      (∀ name ∈ d.target.parts, Path.isName name = true) → IsSteady w.files d.target →
      AtMostFile w.files d.target →
      (∀ temporary, d.temporary? = some temporary → AtMostFile w.files temporary) →
      w.exchanges = .answered r :: later → r.length = .ok total → (r.body.length : Int) < total →
      ∃ e w', download d w = .error e w' ∧ SameAt d.target w.files w'.files := by
  intro h
  obtain ⟨hsteady, htarget, htemporary⟩ := shortBody_isSteady
  obtain ⟨e, w', hfails, -⟩ := h archiveAlone worldWithShortBody shortResponse [] 10
    (isTree_of_entries rfl (by decide)) rfl (by decide) hsteady htarget htemporary rfl
    length_shortResponse (by decide)
  obtain ⟨_, hdownload⟩ := download_shortBody
  rw [hdownload] at hfails
  cases hfails

end WeaveStep
