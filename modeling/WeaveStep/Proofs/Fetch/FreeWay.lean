import WeaveStep.Proofs.Fetch.Download
import WeaveStep.Proofs.Files.Writable

/-!
# What a download leaves at its target

A download may succeed also where more than a file lies at its target or beside it.

* `Download.HasFreeWay d t`: nothing is in the way of a download whose directory is made. That is so
  wherever there is a place for it (`Download.HasPlace.hasFreeWay`).
* `Download.receive_eq_ok`: what is received was delivered as a whole and written to the temporary file.
* **`Download.delivers_of_download`**: what a download leaves at its target is the body that was delivered,
  and it was accepted, if nothing was in its way.
-/

namespace WeaveStep

open FileTree

/-- Nothing is in the way of a download whose directory is made: its temporary file is no link, and its
target is not on the way to its own directory. -/
structure Download.HasFreeWay (d : Download) (t : FileTree) : Prop where
  noLink : ∀ temporary, d.temporary? = some temporary → ∀ q text,
    t.look .own temporary ≠ .ok (q, .link text)
  apart : IsFoundApart t d.target

/-- What lies at the target is the body that a server delivered, and the download accepts it. -/
structure Download.Delivers (d : Download) (w w' : World) (response : Response) : Prop where
  answered : w.exchanges = .answered response :: w'.exchanges
  content : w'.files.read d.target = .ok response.body
  accepted : d.Accepts response.body

namespace Download

variable {d : Download} {temporary : Path} {t t' made : FileTree} {w w' : World}

theorem HasFreeWay.of_sameWays (h : d.HasFreeWay t) (hways : SameWays t t') : d.HasFreeWay t' where
  noLink temporary hbeside q text hlook := h.noLink temporary hbeside q text (hways.symm.look_link hlook)
  apart := h.apart.of_sameWays hways

/-- The way is free once the directory is made, also after something was told. -/
theorem hasFreeWay_of_told
    (h : ∀ made, ensureDirectory d.target.parent t = .ok () made → d.HasFreeWay made)
    (htold : FileTree.Told t t') :
    ∀ made, ensureDirectory d.target.parent t' = .ok () made → d.HasFreeWay made := by
  intro made hmade
  have halike := Told.respects_ensureDirectory d.target.parent t t' htold
  rw [hmade] at halike
  generalize hbefore : ensureDirectory d.target.parent t = ending at halike
  cases halike with
  | ok _ hkept => exact (h _ hbefore).of_sameWays hkept.sameWays

/-- Where there is a place for a download, its way is free once the directory is made. -/
theorem HasPlace.hasFreeWay (h : d.HasPlace t) (hmade : ensureDirectory d.target.parent t = .ok () made) :
    d.HasFreeWay made := by
  have hmakes : Run.onFiles DownloadFailure.files (ensureDirectory d.target.parent) { files := t } =
      .ok () { files := made } := Run.onFiles_eq_ok.2 ⟨hmade, rfl⟩
  obtain ⟨-, -, temporary, hbeside, hready⟩ := (yields_ready (w := { files := t }) h.isTree h.start h.names
    h.steady h.target h.temporary).of_ok hmakes
  refine ⟨fun temporary' hbeside' q text hlook => ?_, ?_⟩
  · obtain rfl := Option.some.inj (hbeside.symm.trans hbeside')
    cases hready.temporaryFile q _ hlook
  · rw [← parent_entry_name (parts_ne_nil_of_temporary? hbeside)]
    refine AtMostFile.isFoundApart ?_
    rw [parent_entry_name (parts_ne_nil_of_temporary? hbeside)]
    exact hready.targetFile

theorem write_of_onFiles {content : List UInt8}
    (h : Run.onFiles DownloadFailure.files (change (·.write temporary content)) w = .ok () w') :
    w.files.write temporary content = .ok w'.files ∧ w'.exchanges = w.exchanges := by
  obtain ⟨hchange, hw'⟩ := Run.onFiles_eq_ok.1 h
  exact ⟨change_eq_ok hchange, by rw [hw']⟩

/-- What is received was delivered as a whole, and it was written to the temporary file. -/
theorem receive_eq_ok {digest : String} (h : d.receive temporary w = .ok digest w') :
    ∃ response emptied, w.exchanges = .answered response :: w'.exchanges ∧
      (response.pieces d.chunkSize).2 = none ∧ w.files.write temporary [] = .ok emptied ∧
      emptied.write temporary (response.pieces d.chunkSize).1.flatten = .ok w'.files ∧
      digest = Digest.ofBytes (response.pieces d.chunkSize).1.flatten := by
  obtain ⟨response, w₁, hrequest, hrest⟩ := bind_eq_ok h
  obtain ⟨hfiles, hanswered⟩ := (yields_request _ _).of_ok hrequest
  dsimp only at hanswered hrest
  cases hstatus : response.statusFault? d.url with
  | some fault =>
    rw [hstatus] at hrest
    cases hrest
  | none =>
    rw [hstatus] at hrest
    obtain ⟨total, w₂, hlength, hrest⟩ := bind_eq_ok hrest
    obtain ⟨_, w₃, hempty, hrest⟩ := bind_eq_ok hrest
    obtain ⟨_, w₄, htell, hrest⟩ := bind_eq_ok hrest
    obtain ⟨_, w₅, hwrite, hrest⟩ := bind_eq_ok hrest
    obtain ⟨-, hw₂⟩ := Run.ofExcept_eq_ok.1 hlength
    obtain ⟨hsame, hkept, -⟩ := (yields_tell _ _).of_ok htell
    obtain ⟨hempty, hkept₃⟩ := write_of_onFiles hempty
    obtain ⟨hwrite, hkept₅⟩ := write_of_onFiles hwrite
    rw [hw₂, hfiles] at hempty
    rw [hsame] at hwrite
    cases hfault : (response.pieces d.chunkSize).2 with
    | some fault =>
      rw [hfault] at hrest
      cases hrest
    | none =>
      rw [hfault] at hrest
      cases hrest
      exact ⟨response, _, by rw [hanswered, hkept₅, hkept, hkept₃, hw₂], hfault, hempty, hwrite, rfl⟩

theorem receive_of_receiveOrDiscard {digest : String}
    (h : d.receiveOrDiscard temporary w = .ok digest w') : d.receive temporary w = .ok digest w' := by
  unfold receiveOrDiscard at h
  cases hr : d.receive temporary w with
  | ok digest' w₁ =>
    rw [hr] at h
    exact h
  | error e w₁ =>
    rw [hr] at h
    cases e with
    | fault fault =>
      dsimp only at h
      split at h
      · split at h <;> cases h
      · cases h
    | _ => cases h

theorem delivers_of_fetch {p : Path} (hname : d.target.parts ≠ [] → Path.isName d.target.name = true)
    (hbeside : d.temporary? = some temporary) (hway : d.HasFreeWay w.files)
    (h : d.fetch temporary w = .ok p w') : p = d.target ∧ ∃ response, d.Delivers w w' response := by
  obtain ⟨digest, w₁, hreceived, hrest⟩ := bind_eq_ok h
  obtain ⟨response, emptied, hanswered, hwhole, hempty, hwrite, rfl⟩ :=
    receive_eq_ok (receive_of_receiveOrDiscard hreceived)
  obtain ⟨found, w₂, hasked, hrest⟩ := bind_eq_ok hrest
  obtain ⟨hread, hw₂⟩ := Run.ask_eq_ok.1 hasked
  rw [hw₂] at hrest
  cases hrejection : d.rejection? found (Digest.ofBytes (response.pieces d.chunkSize).1.flatten) with
  | some why =>
    rw [hrejection] at hrest
    obtain ⟨_, _, -, hrest⟩ := bind_eq_ok hrest
    cases hrest
  | none =>
    rw [hrejection] at hrest
    obtain ⟨_, w₃, hmoved, hrest⟩ := bind_eq_ok hrest
    cases hrest
    obtain ⟨hmove, hw'⟩ := Run.onFiles_eq_ok.1 hmoved
    have hmove := change_eq_ok hmove
    have hparts : d.target.parts ≠ [] := parts_ne_nil_of_temporary? hbeside
    obtain ⟨_, _, _, -, -, hup, -⟩ := move_eq_ok hmove
    have hentry := isEntryName_of_isName (hname hparts) hup
    have hway := hway.of_sameWays (sameWays_write hempty)
    have hapart := hway.apart
    have htarget : d.target.parent.entry d.target.name = d.target := parent_entry_name hparts
    rw [← htarget] at hapart hmove
    -- what took nothing is read as empty, and that is no archive
    rcases read_of_write_move hwrite (hway.noLink temporary hbeside) hentry hapart hmove with
      hnothing | ⟨hall, hthere⟩
    · obtain rfl := Except.ok.inj (hread.symm.trans hnothing)
      exact absurd hrejection (rejection?_nil _)
    · obtain rfl := Except.ok.inj (hread.symm.trans hall)
      rw [htarget, flatten_pieces_of_accepted hwhole hrejection] at hthere
      rw [flatten_pieces_of_accepted hwhole hrejection] at hrejection
      exact ⟨rfl, response, by rw [hanswered, hw'], hthere, accepts_of_rejection? hrejection⟩

/-- **What a download leaves at its target** was delivered and accepted, if nothing was in its way. -/
theorem delivers_of_download {p : Path} (hname : d.target.parts ≠ [] → Path.isName d.target.name = true)
    (hway : ∀ made, ensureDirectory d.target.parent w.files = .ok () made → d.HasFreeWay made)
    (h : download d w = .ok p w') : p = d.target ∧ ∃ response, d.Delivers w w' response := by
  obtain ⟨_, w₁, hmade, hrest⟩ := bind_eq_ok h
  obtain ⟨hmade, hw₁⟩ := Run.onFiles_eq_ok.1 hmade
  have hkept : w₁.exchanges = w.exchanges := by rw [hw₁]
  cases hbeside : d.temporary? with
  | none =>
    rw [hbeside] at hrest
    cases hrest
  | some temporary =>
    rw [hbeside] at hrest
    obtain ⟨rfl, response, hdelivers⟩ := delivers_of_fetch hname hbeside (hway _ hmade) hrest
    exact ⟨rfl, response, hkept ▸ hdelivers.answered, hdelivers.content, hdelivers.accepted⟩

end Download

end WeaveStep
