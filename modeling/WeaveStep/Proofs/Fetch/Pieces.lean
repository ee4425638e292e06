import WeaveStep.Proofs.Fetch.Alike
import WeaveStep.Proofs.Fetch.Checksums
import WeaveStep.Proofs.Fetch.DeclaredLength

/-!
# How many bytes are read at a time

A download, and the check of a file against a checksum, read a number of bytes at a time.

* `Response.IsWhole`: the delivery does not break off before the end of the body.
* `World.SameButSteps`: two worlds differ only in the steps in which progress was shown, and not in
  what it comes to.
* `ShowsBody`: the progress that a download shows comes to the body's length.
* **`download_alike_in_pieces`**: none of this goes by how many bytes are read at a time. A target that
  the temporary file was a link to is lost in any case (`not_hasChecksum_through_link`), and so is one on
  the way to its own directory (`not_hasChecksum_through_target`).
-/

namespace WeaveStep

open FileTree Text

/-! ## Pieces of a whole body -/

/-- The delivery breaks off, if it does, only after the end of the body. -/
def Response.IsWhole (r : Response) : Prop := ∀ n fault, r.fails = some (n, fault) → r.body.length < n

theorem Response.IsWhole.pieces {r : Response} (h : r.IsWhole) {size : Option Nat}
    (hsize : size ≠ some 0) : (r.pieces size).2 = none ∧ (r.pieces size).1.flatten = r.body := by
  have hwhole : (r.pieces size).2 = none := by
    unfold Response.pieces
    split
    · rfl
    · rename_i n fault hfails
      have hlong := h n fault hfails
      exact if_neg fun hbreaks => by omega
  exact ⟨hwhole, r.flatten_pieces hsize hwhole⟩

/-- The bars say the same and come to the same. -/
structure Progress.SameSum (bar bar' : Progress) : Prop where
  description : bar'.description = bar.description
  total : bar'.total = bar.total
  disabled : bar'.disabled = bar.disabled
  sum : bar'.updates.sum = bar.updates.sum

/-- The worlds differ in nothing but the steps in which progress was shown. -/
def World.SameButSteps (w w' : World) : Prop :=
  ∃ progress, List.Forall₂ Progress.SameSum w.progress progress ∧ w' = { w with progress }

theorem some_ne_some_zero {n : Nat} (h : n ≠ 0) : some n ≠ some 0 := fun heq => h (Option.some.inj heq)

theorem World.SameButSteps.refl (w : World) : w.SameButSteps w :=
  ⟨w.progress, List.forall₂_same.2 fun _ _ => ⟨rfl, rfl, rfl, rfl⟩, rfl⟩

theorem World.sharesFiles_sameButSteps : SharesFiles SameButSteps where
  same := by
    rintro w _ ⟨progress, -, rfl⟩
    rfl
  change := by
    rintro w _ ⟨progress, hprogress, rfl⟩ files
    exact ⟨progress, hprogress, rfl⟩

/-- No progress was shown. -/
def World.SameProgress (w w' : World) : Prop := w'.progress = w.progress

instance : IsPreorder World World.SameProgress where
  refl _ := rfl
  trans _ _ _ h h' := h'.trans h

theorem sameProgress_onFiles {ε α : Type} (wrap : FileFailure → ε) (act : FileTree.Action α) :
    Always World.SameProgress (Run.onFiles wrap act) :=
  .onFiles (P := fun _ _ => True)
    (fun _ => yields_of_cases (fun _ _ _ => trivial) fun _ _ _ => trivial) fun _ _ _ => rfl

open World (sharesFiles_sameButSteps)

namespace Download

variable {d : Download} {temporary : Path} {w w' : World} {r : Response} {later : List Exchange}
  {total : Int}

/-! ## Downloads in pieces of two sizes -/

/-- The same bytes come to the same, in whatever pieces. -/
theorem endsAlike_tell_pieces (size : Option Nat) (total : Int) {pieces pieces' : List (List UInt8)}
    (hbytes : pieces'.flatten = pieces.flatten) (h : w.SameButSteps w') :
    EndsAlike World.SameButSteps (d.tell total pieces w) ((d.inPieces size).tell total pieces' w') := by
  have hsum : (pieces'.map (·.length)).sum = (pieces.map (·.length)).sum := by
    rw [← List.length_flatten, ← List.length_flatten, hbytes]
  obtain ⟨progress, hprogress, rfl⟩ := h
  unfold tell
  simp only [url_inPieces]
  cases Address.ofString d.url with
  | error why => exact .error _ ⟨progress, hprogress, rfl⟩
  | ok address =>
    refine .ok () ⟨_, List.rel_append hprogress (.cons ?_ .nil), rfl⟩
    exact ⟨rfl, rfl, rfl, hsum⟩

/-- **A body that is sent as a whole** is downloaded alike in pieces of two sizes. -/
theorem endsAlike_download_pieces {size size' : Option Nat} (hsize : size ≠ some 0)
    (hsize' : size' ≠ some 0) (hanswer : w.exchanges = .answered r :: later)
    (hlength : r.length = .ok total) (hwhole : r.IsWhole) :
    EndsAlike World.SameButSteps (download (d.inPieces size) w) (download (d.inPieces size') w) := by
  obtain ⟨hnone, hbytes⟩ := hwhole.pieces hsize
  obtain ⟨hnone', hbytes'⟩ := hwhole.pieces hsize'
  have hsame := hbytes'.trans hbytes.symm
  rw [← inPieces_inPieces d size size']
  refine endsAlike_download_of_receive sharesFiles_sameButSteps size' (.refl w)
    fun temporary files => ?_
  exact endsAlike_receive_of_tell sharesFiles_sameButSteps size' (.refl _) hanswer hanswer hlength
    hlength rfl hsame (hnone'.trans hnone.symm) (endsAlike_tell_pieces size' total hsame)

/-! ## What progress comes to -/

/-- The progress that is shown comes to the length of the body, unless the download fails before the
body arrives. -/
def ShowsBody {α : Type} (w : World) (body : List UInt8) (result : Except DownloadFailure α)
    (w' : World) : Prop :=
  (∃ bar, w'.progress = w.progress ++ [bar] ∧ bar.updates.sum = body.length) ∨
    w'.progress = w.progress ∧
      ((∃ why, result = .error (.files why)) ∨ ∃ why, result = .error (.badAddress why))

section

variable {α β : Type} {body : List UInt8}

theorem ShowsBody.of_error {e : DownloadFailure}
    (h : ShowsBody w body (.error e : Except DownloadFailure α) w') :
    ShowsBody w body (.error e : Except DownloadFailure β) w' := by
  rcases h with hbar | ⟨hnone, ⟨why, h⟩ | ⟨why, h⟩⟩
  · exact .inl hbar
  · cases h
    exact .inr ⟨hnone, .inl ⟨why, rfl⟩⟩
  · cases h
    exact .inr ⟨hnone, .inr ⟨why, rfl⟩⟩

/-- What follows shows no more. -/
theorem ShowsBody.yields {mid : World} {act : Run DownloadFailure β} {a : α}
    (h : ShowsBody w body (.ok a) mid) (hact : Always World.SameProgress act) :
    Yields act mid (ShowsBody w body) := by
  rcases h with ⟨bar, hbar, hsum⟩ | ⟨-, ⟨_, h⟩ | ⟨_, h⟩⟩
  · exact (hact mid).imp fun _ w' hsame => .inl ⟨bar, hsame.trans hbar, hsum⟩
  · cases h
  · cases h

theorem yields_keep_shows (hsize : d.chunkSize ≠ some 0) (hwhole : r.IsWhole) :
    Yields (d.keep temporary r total) w (ShowsBody w r.body) := by
  obtain ⟨hnone, hbytes⟩ := hwhole.pieces hsize
  have hsum : ((r.pieces d.chunkSize).1.map (·.length)).sum = r.body.length := by
    rw [← List.length_flatten, hbytes]
  unfold keep
  refine Yields.bind (fun _ w₁ hempty => ?_) fun e w₁ hempty => ?_
  · obtain ⟨-, hw₁⟩ := Run.onFiles_eq_ok.1 hempty
    have hnew : Yields (d.tell total (r.pieces d.chunkSize).1) w₁ (ShowsBody w r.body) := by
      unfold tell
      cases Address.ofString d.url with
      | error why => exact yields_bind_of_error rfl (.inr ⟨by rw [hw₁], .inr ⟨why, rfl⟩⟩)
      | ok address => exact yields_bind_of_ok rfl (.inl ⟨_, by rw [hw₁], hsum⟩)
    refine Yields.bind (fun _ w₂ htell => (hnew.of_ok htell).yields ?_) fun e w₂ htell =>
      (hnew.of_error htell).of_error
    refine (sameProgress_onFiles _ _).bind fun _ => ?_
    rw [hnone]
    exact .pure _
  · obtain ⟨why, files, -, rfl, rfl⟩ := Run.onFiles_eq_error.1 hempty
    exact .inr ⟨rfl, .inl ⟨why, rfl⟩⟩

theorem yields_receive_shows (hsize : d.chunkSize ≠ some 0) (hwhole : r.IsWhole)
    (hanswer : w.exchanges = .answered r :: later) (hstatus : r.statusFault? d.url = none)
    (hlength : r.length = .ok total) : Yields (d.receive temporary) w (ShowsBody w r.body) := by
  unfold Yields
  rw [receive_of_answered hanswer hlength, take, hstatus]
  exact yields_keep_shows hsize hwhole

theorem yields_receiveOrDiscard_shows (h : Yields (d.receive temporary) w (ShowsBody w body)) :
    Yields (d.receiveOrDiscard temporary) w (ShowsBody w body) := by
  unfold Yields receiveOrDiscard
  cases hr : d.receive temporary w with
  | ok digest w' => exact h.of_ok hr
  | error e w' =>
    have hshows := h.of_error hr
    cases e with
    | fault fault =>
      have hbar := hshows.resolve_right (by rintro ⟨-, ⟨_, h⟩ | ⟨_, h⟩⟩ <;> cases h)
      dsimp only
      cases fault.kind.isTransfer with
      | false => exact .inl hbar
      | true => cases discard temporary w'.files <;> exact .inl hbar
    | _ => exact hshows

theorem yields_fetch_shows (h : Yields (d.receive temporary) w (ShowsBody w body)) :
    Yields (d.fetch temporary) w (ShowsBody w body) := by
  have hreceive := yields_receiveOrDiscard_shows h
  refine Yields.bind (fun digest w₁ hreceived => (hreceive.of_ok hreceived).yields ?_) fun e w₁ hfails =>
    (hreceive.of_error hfails).of_error
  refine Always.bind (.ask _ _) fun content => ?_
  cases d.rejection? content digest with
  | some why => exact (sameProgress_onFiles _ _).bind fun _ => .throw _
  | none => exact (sameProgress_onFiles _ _).bind fun _ => .pure _

/-- **Progress comes to the body's length** wherever the body arrives. -/
theorem yields_download_shows (hsize : d.chunkSize ≠ some 0) (hwhole : r.IsWhole)
    (hanswer : w.exchanges = .answered r :: later) (hstatus : r.statusFault? d.url = none)
    (hlength : r.length = .ok total) : Yields (download d) w (ShowsBody w r.body) := by
  refine Yields.bind (fun _ w₁ hmade => ?_) fun e w₁ hmade => ?_
  · obtain ⟨-, hw₁⟩ := Run.onFiles_eq_ok.1 hmade
    rw [hw₁]
    cases d.temporary? with
    | none => exact .inr ⟨rfl, .inl ⟨_, rfl⟩⟩
    | some temporary =>
      exact yields_fetch_shows (yields_receive_shows hsize hwhole hanswer hstatus hlength)
  · obtain ⟨why, files, -, rfl, rfl⟩ := Run.onFiles_eq_error.1 hmade
    exact .inr ⟨rfl, .inl ⟨why, rfl⟩⟩

end

end Download

/-- However many bytes are read at a time, a file has the same checksum. -/
theorem hasChecksum_pieces {size size' : Option Nat} (hsize : size ≠ some 0) (hsize' : size' ≠ some 0)
    (t : FileTree) (p : Path) (expected : String) :
    hasChecksum t p expected size = hasChecksum t p expected size' := by
  unfold hasChecksum
  simp only [flatten_piecesOf hsize, flatten_piecesOf hsize']

/-- **How many bytes are read at a time makes no difference.** A body that is sent as a whole is
downloaded alike in pieces of two sizes: with the same outcome and the same files, and with progress that
comes to the same, which is the length of the body as soon as that arrives. A file has a checksum or not
in pieces of any size. So has the target of a download that succeeded, for the checksum that the download
was to have, if nothing was in its way once the directory was made. -/
theorem download_alike_in_pieces (d : Download) {n m : Nat} (hn : n ≠ 0) (hm : m ≠ 0) :
    (∀ {w : World} {r : Response} {later : List Exchange} {total : Int},
      w.exchanges = .answered r :: later → r.statusFault? d.url = none → r.length = .ok total →
      r.IsWhole →
        EndsAlike World.SameButSteps (download (d.inPieces (some n)) w)
          (download (d.inPieces (some m)) w) ∧
        Yields (download (d.inPieces (some n))) w (Download.ShowsBody w r.body) ∧
        Yields (download (d.inPieces (some m))) w (Download.ShowsBody w r.body)) ∧
    (∀ t p expected, hasChecksum t p expected (some n) = hasChecksum t p expected (some m)) ∧
    ∀ {w w' : World} {p : Path} {expected : String},
      (∀ name ∈ d.target.parts, Path.isName name = true) →
      (∀ ready, ensureDirectory d.target.parent w.files = .ok () ready → d.HasFreeWay ready) →
      d.checksum = some expected → expected ≠ "" → download d w = .ok p w' →
        hasChecksum w'.files d.target expected (some n) = .ok true := by
  have hn := some_ne_some_zero hn
  have hm := some_ne_some_zero hm
  refine ⟨fun hanswer hstatus hlength hwhole => ⟨?_, ?_, ?_⟩, hasChecksum_pieces hn hm, ?_⟩
  · exact Download.endsAlike_download_pieces hn hm hanswer hlength hwhole
  · exact Download.yields_download_shows hn hwhole hanswer hstatus hlength
  · exact Download.yields_download_shows hm hwhole hanswer hstatus hlength
  · intro w w' p expected hnames hway hchecksum hexpected h
    obtain ⟨-, response, hdelivers⟩ := Download.delivers_of_download
      (fun hparts => Download.isName_name hparts hnames) hway h
    exact hasChecksum_of_read hdelivers.content hn
      (hdelivers.accepted.checksum expected hchecksum hexpected)

/-! ## An archive and its checksum -/

/-- A download of an archive which is nothing but its mark, and which is to have the checksum of that. -/
def checkedArchive : Download :=
  { archiveAlone with checksum := some (Digest.ofBytes Download.archiveMark) }

theorem target_checkedArchive (size : Option Nat) :
    (checkedArchive.inPieces size).target = archiveAlone.target := rfl

theorem checksum_checkedArchive (size : Option Nat) :
    (checkedArchive.inPieces size).checksum = some (Digest.ofBytes Download.archiveMark) := rfl

theorem isWhole_wholeResponse : wholeResponse.IsWhole := fun _ _ h => by cases h

/-- The files of a world with another archive, and perhaps something beside it. -/
def filesToCheck (beside : List (Location × Node)) : FileTree where
  entries := beside ++ [([], .directory), (["weaver.jar"], .file [1] false)]
  workingDirectory := []

/-- The world with these files, and a server that has the archive. -/
def worldToCheck (beside : List (Location × Node)) : World where
  files := filesToCheck beside
  exchanges := [.answered wholeResponse]

/-- The same download to another target. -/
def checkedTo (target : Path) : Download := { checkedArchive with target }

/-- What the server has is taken in pieces of any size, where it can be written and moved. -/
theorem download_checkedTo {target temporary : Path} {size : Option Nat} (hsize : size ≠ some 0)
    {w : World} {made t t' t'' : FileTree} (hanswer : w.exchanges = [.answered wholeResponse])
    (hmade : ensureDirectory target.parent w.files = .ok () made)
    (hbeside : (checkedTo target).temporary? = some temporary) (hempty : made.write temporary [] = .ok t)
    (hwrite : t.write temporary Download.archiveMark = .ok t')
    (hread : t'.read temporary = .ok Download.archiveMark) (hmove : t'.move temporary target = .ok t'') :
    ∃ w', download ((checkedTo target).inPieces size) w = .ok target w' ∧ w'.files = t'' := by
  obtain ⟨address, haddress⟩ : ∃ address, Address.ofString archiveAlone.url = .ok address := ⟨_, rfl⟩
  exact Download.download_wholeResponse (d := (checkedTo target).inPieces size) hsize haddress
    (fun expected hexpected => Option.some.inj hexpected) hanswer hmade hbeside hempty hwrite hread hmove

/-- The archive that the server has takes the other one's place, in single bytes as in threes, and it has
its checksum. -/
theorem download_alike_in_pieces_archive :
    EndsAlike World.SameButSteps (download (checkedArchive.inPieces (some 1)) (worldToCheck []))
      (download (checkedArchive.inPieces (some 3)) (worldToCheck [])) ∧
    ∃ w', download (checkedArchive.inPieces (some 3)) (worldToCheck []) =
        .ok archiveAlone.target w' ∧
      Download.ShowsBody (worldToCheck []) Download.archiveMark (.ok archiveAlone.target) w' ∧
      hasChecksum w'.files archiveAlone.target (Digest.ofBytes Download.archiveMark) (some 1) =
        .ok true := by
  have hroot : (filesToCheck []).look .followed ⟨.root, []⟩ = .ok ([], .directory) := look_start rfl rfl
  have hmade : ensureDirectory archiveAlone.target.parent (filesToCheck []) =
      .ok () (filesToCheck []) := ensureDirectory_of_look hroot
  have hnone : (filesToCheck []).look .own temporaryAlone =
      .error (.refusal .noEntry "/weaver.jar.tmp") := by cbv
  have hplace : AtMostFile (filesToCheck []) (Path.entry ⟨.root, []⟩ "weaver.jar") := by
    refine atMostFile_entry hroot (by decide) ?_
    rintro node ⟨⟩
    rfl
  have hway : (checkedArchive.inPieces (some 3)).HasFreeWay (filesToCheck []) := by
    refine ⟨fun temporary htemporary q text hlook => ?_, hplace.isFoundApart⟩
    cases htemporary
    cases hnone.symm.trans hlook
  obtain ⟨halike, -, hleft⟩ := download_alike_in_pieces (checkedArchive.inPieces (some 3)) one_ne_zero
    three_ne_zero
  obtain ⟨hends, -, hshows⟩ := halike (w := worldToCheck []) rfl (by decide) rfl isWhole_wholeResponse
  obtain ⟨hempty, hwrite, hread, t, hmove⟩ := writes_temporaryAlone Download.archiveMark
  obtain ⟨w', hdownload, -⟩ := download_checkedTo (some_ne_some_zero three_ne_zero)
    (w := worldToCheck []) rfl hmade rfl hempty hwrite hread hmove
  refine ⟨hends, w', hdownload, hshows.of_ok hdownload, ?_⟩
  refine hleft (by decide) (fun ready hready => ?_) (checksum_checkedArchive _) checksum_ne_empty hdownload
  rw [target_checkedArchive] at hready
  have hsame : (.ok () (filesToCheck []) : EStateM.Result FileFailure FileTree Unit) = .ok () ready :=
    hmade.symm.trans hready
  cases hsame
  exact hway

/-! ## A temporary file that is a link -/

/-- The target has this content, and the temporary file is a link to it. -/
structure LinksToTarget (content : List UInt8) (t : FileTree) : Prop where
  root : t.get? [] = some .directory
  link : t.get? ["weaver.jar.tmp"] = some (.link "weaver.jar")
  target : t.get? ["weaver.jar"] = some (.file content false)

namespace LinksToTarget

variable {content : List UInt8} {t : FileTree} {last : LastName}

theorem noLink_target (h : LinksToTarget content t) (text : String) :
    t.get? ["weaver.jar"] ≠ some (.link text) := by
  simp [h.target]

theorem isStep_archive (last : LastName) {name : String}
    (hname : name ∈ ["weaver.jar", "weaver.jar.tmp"]) :
    IsStep last name [] := by
  obtain rfl | rfl : name = "weaver.jar" ∨ name = "weaver.jar.tmp" := by simpa using hname
  · exact ⟨by decide, by decide, by simp, by decide⟩
  · exact ⟨by decide, by decide, by simp, by decide⟩

theorem isSayable_archive : IsSayable archiveAlone.target ∧ IsSayable temporaryAlone :=
  ⟨isSayable_root (by decide) (by decide), isSayable_root (by decide) (by decide)⟩

theorem locate_target (h : LinksToTarget content t) (last : LastName) :
    t.locate last archiveAlone.target = .ok ["weaver.jar"] :=
  locate_eq_ok_iff.2 ⟨isSayable_archive.1,
    .down h.root (isStep_archive last (by simp)) h.noLink_target .done⟩

theorem locate_temporary (h : LinksToTarget content t) (hlast : last ≠ .own) :
    t.locate last temporaryAlone = .ok ["weaver.jar"] := by
  refine locate_eq_ok_iff.2 ⟨isSayable_archive.2, .follow h.root (isStep_archive last (by simp)) h.link
    (fun hboth => hlast hboth.2) ?_⟩
  exact (way_of_link_beside (by decide)).2
    (.down h.root (isStep_archive last (by simp)) h.noLink_target .done)

theorem look_own_temporary (h : LinksToTarget content t) :
    t.look .own temporaryAlone = .ok (["weaver.jar.tmp"], .link "weaver.jar") :=
  look_eq_ok_iff.2 ⟨locate_eq_ok_iff.2 ⟨isSayable_archive.2,
    .own h.root (isStep_archive .own (by simp)) h.link rfl⟩, h.link⟩

/-- What is written to the link is written to the target. -/
theorem write (h : LinksToTarget content t) (new : List UInt8) :
    ∃ t', t.write temporaryAlone new = .ok t' ∧ LinksToTarget new t' := by
  refine ⟨t.set ["weaver.jar"] (.file new false), ?_, ?_, ?_, ?_⟩
  · exact write_of_file (h.locate_temporary (by decide)) h.target new
  · rw [get?_set, if_neg (by decide), h.root]
  · rw [get?_set, if_neg (by decide), h.link]
  · rw [get?_set, if_pos rfl]

theorem read (h : LinksToTarget content t) : t.read temporaryAlone = .ok content := by
  rw [FileTree.read, stat, look_eq_ok_iff.2 ⟨h.locate_temporary (by decide), h.target⟩]
  rfl

/-- The link is moved over its own target, and is a link to itself. -/
theorem move (h : LinksToTarget content t) :
    ∃ t', t.move temporaryAlone archiveAlone.target = .ok t' ∧
      t'.get? ["weaver.jar"] = some (.link "weaver.jar") := by
  obtain ⟨t', hmove⟩ := exists_move h.look_own_temporary (by simp) (h.locate_target .own) (by decide)
    (by simp [h.target])
  refine ⟨t', hmove, ?_⟩
  obtain ⟨_, _, _, hlook, hgoal, -, -, -, hmoved⟩ := move_eq_ok hmove
  obtain ⟨rfl, rfl⟩ := Prod.mk.inj (Except.ok.inj (hlook.symm.trans h.look_own_temporary))
  obtain rfl := Except.ok.inj (hgoal.symm.trans (h.locate_target .own))
  obtain ⟨hsame, -⟩ | ⟨-, rfl⟩ := hmoved
  · exact absurd hsame (by decide)
  · rw [get?_relocate h.link, if_pos rfl]

end LinksToTarget

section

variable {t : FileTree} {budget : Nat} {here place : Location} {name : String}

/-- A way over a link to itself comes back to the link. -/
theorem back_of_link_to_itself (hname : IsEntryName name) (hslash : '/' ∉ name.toList)
    (hlink : t.get? (here ++ [name]) = some (.link name)) (h : Way t .followed budget here [name] place) :
    ∃ less, budget = less + 1 ∧ Way t .followed less here [name] place := by
  cases h with
  | stay _ blank => simp_all [IsEntryName]
  | up => simp_all [IsEntryName]
  | own _ _ _ own => cases own
  | down _ _ plain => exact absurd hlink (plain _)
  | @follow less _ _ _ _ _ _ _ link _ way =>
    obtain rfl := Node.link.inj (Option.some.inj (hlink.symm.trans link))
    exact ⟨less, rfl, (way_of_link_beside hslash).1 way⟩

/-- A link to itself leads nowhere. -/
theorem not_way_of_link_to_itself (hname : IsEntryName name) (hslash : '/' ∉ name.toList)
    (hlink : t.get? (here ++ [name]) = some (.link name)) :
    ¬ Way t .followed budget here [name] place := by
  induction budget with
  | zero =>
    intro h
    obtain ⟨less, hless, -⟩ := back_of_link_to_itself hname hslash hlink h
    omega
  | succ budget ih =>
    intro h
    obtain ⟨less, hless, hback⟩ := back_of_link_to_itself hname hslash hlink h
    obtain rfl : budget = less := by omega
    exact ih hback

end

/-- **A target that the temporary file was a link to** is lost in a download that succeeds. -/
theorem not_hasChecksum_through_link :
    ¬ ∀ (d : Download) {w w' : World} {p : Path} {expected : String},
      (∀ name ∈ d.target.parts, Path.isName name = true) → d.checksum = some expected →
      expected ≠ "" → download d w = .ok p w' →
        ∀ n, n ≠ 0 → hasChecksum w'.files d.target expected (some n) = .ok true := by
  intro h
  have hmade : ensureDirectory archiveAlone.target.parent
      (filesToCheck [(["weaver.jar.tmp"], .link "weaver.jar")]) =
      .ok () (filesToCheck [(["weaver.jar.tmp"], .link "weaver.jar")]) :=
    ensureDirectory_of_look (look_start rfl rfl)
  have hlinks : LinksToTarget [1] (filesToCheck [(["weaver.jar.tmp"], .link "weaver.jar")]) :=
    ⟨rfl, rfl, rfl⟩
  obtain ⟨t, hempty, hlinks⟩ := hlinks.write []
  obtain ⟨t', hwrite, hlinks⟩ := hlinks.write Download.archiveMark
  obtain ⟨t'', hmove, hitself⟩ := hlinks.move
  obtain ⟨w', hdownload, hfiles⟩ := download_checkedTo (some_ne_some_zero one_ne_zero)
    (w := worldToCheck [(["weaver.jar.tmp"], .link "weaver.jar")]) rfl hmade rfl hempty hwrite hlinks.read
    hmove
  have hsum := h (checkedArchive.inPieces (some 1)) (by decide) (checksum_checkedArchive _)
    checksum_ne_empty hdownload 1 one_ne_zero
  rw [hfiles] at hsum
  obtain ⟨content, hread, -⟩ := except_bind_eq_ok.1 hsum
  obtain ⟨_, hstat, -⟩ := except_bind_eq_ok.1 hread
  obtain ⟨q, hlook⟩ := stat_eq_ok_iff.1 hstat
  exact not_way_of_link_to_itself (by simp [IsEntryName]) (by decide) hitself
    (locate_eq_ok_iff.1 (look_eq_ok_iff.1 hlook).1).2

/-! ## A target on the way to itself -/

/-- A path over a link, up again, and to that link. -/
def pathAround : Path := ⟨.root, ["a", "..", "a"]⟩

/-- The temporary file beside it. -/
def temporaryAround : Path := ⟨.root, ["a", "..", "a.tmp"]⟩

/-- The files with that link, and perhaps something beside it. -/
def filesAround (beside : List (Location × Node)) : FileTree where
  entries := beside ++ [([], .directory), (["a"], .link "b"), (["b"], .directory)]
  workingDirectory := []

/-- The temporary file is made, takes the content, and is moved over the link. -/
theorem writes_temporaryAround (content : List UInt8) :
    (filesAround []).write temporaryAround [] = .ok (filesAround [(["a.tmp"], .file [] false)]) ∧
      (filesAround [(["a.tmp"], .file [] false)]).write temporaryAround content =
        .ok (filesAround [(["a.tmp"], .file content false)]) ∧
      (filesAround [(["a.tmp"], .file content false)]).read temporaryAround = .ok content ∧
      (filesAround [(["a.tmp"], .file content false)]).move temporaryAround pathAround =
        .ok ((filesAround [(["a.tmp"], .file content false)]).relocate ["a.tmp"] ["a"]) := by
  have hfree : (filesAround []).locate .made temporaryAround = .ok ["a.tmp"] := by cbv
  have htaken : (filesAround [(["a.tmp"], .file [] false)]).locate .made temporaryAround =
      .ok ["a.tmp"] := by cbv
  exact ⟨write_of_free hfree rfl [], write_of_file htaken rfl content, by cbv, by cbv⟩

/-- **A target whose directory is reached through it** is lost in a download that succeeds: the way ends at
what was moved there. So it is not enough that the temporary file is no link. -/
theorem not_hasChecksum_through_target :
    ¬ ∀ (d : Download) {w w' : World} {p : Path} {expected : String},
      (∀ name ∈ d.target.parts, Path.isName name = true) →
      (∀ made, ensureDirectory d.target.parent w.files = .ok () made →
        ∀ temporary, d.temporary? = some temporary → ∀ q text, made.look .own temporary ≠ .ok (q, .link text)) →
      d.checksum = some expected → expected ≠ "" → download d w = .ok p w' →
        ∀ n, n ≠ 0 → hasChecksum w'.files d.target expected (some n) = .ok true := by
  intro h
  have hdirectory : (filesAround []).look .followed pathAround.parent = .ok ([], .directory) := by cbv
  have hmade := ensureDirectory_of_look hdirectory
  have hnone : (filesAround []).look .own temporaryAround =
      .error (.refusal .noEntry "/a/../a.tmp") := by cbv
  obtain ⟨hempty, hwrite, hread, hmove⟩ := writes_temporaryAround Download.archiveMark
  obtain ⟨w', hdownload, hfiles⟩ := download_checkedTo (some_ne_some_zero one_ne_zero)
    (w := { files := filesAround [], exchanges := [.answered wholeResponse] }) rfl hmade rfl hempty hwrite
    hread hmove
  have hsum := h ((checkedTo pathAround).inPieces (some 1)) (by decide) (fun made hready => ?_) rfl
    checksum_ne_empty hdownload 1 one_ne_zero
  · have hlost : w'.files.read pathAround = .error (.refusal .notDirectory "/a/../a") := by
      rw [hfiles]
      cbv
    obtain ⟨content, hthere, -⟩ := except_bind_eq_ok.1 hsum
    cases hlost.symm.trans hthere
  · have hsame : (.ok () (filesAround []) : EStateM.Result FileFailure FileTree Unit) = .ok () made :=
      hmade.symm.trans hready
    cases hsame
    rintro temporary ⟨⟩ q text hlook
    cases hnone.symm.trans hlook

end WeaveStep
