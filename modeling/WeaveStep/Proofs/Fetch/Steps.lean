import WeaveStep.Fetch.Toolchain
import WeaveStep.Proofs.World

/-!
# A download step by step

What the single steps of a download leave as it was, receiving the temporary file does
(`Download.always_receive`), and so do the whole download (**`Download.always_download`**) and the
toolchain (**`Toolchain.always_command`**). Discarding the temporary file removes a file or changes
nothing (`Download.yields_discard_of`).
-/

namespace WeaveStep

open FileTree

/-- A length that is told is the integer that its header spells. -/
theorem Response.length_of_headers {r : Response} {text : String}
    (h : r.headers = [("Content-Length", text)]) : r.length = Text.readInteger text := by
  have hname : Text.smallLetters "Content-Length" = "content-length" := by decide +kernel
  rw [Response.length, h]
  simp [hname]

namespace Download

/-- What asking a server, telling of progress and writing the temporary file leave as it was, receiving
does. -/
theorem always_receive {R : World → World → Prop} [IsPreorder World R]
    (hasked : ∀ (w : World) exchanges requests progress,
      R w { w with exchanges, requests, progress })
    {d : Download} {temporary : Path}
    (hwrite : ∀ content,
      Always R (Run.onFiles DownloadFailure.files (change (·.write temporary content)))) :
    Always R (d.receive temporary) := by
  have hrequest : Always R (request d.url d.timeout) := by
    intro w
    unfold Yields request
    rcases w.exchanges with _ | ⟨_ | _, later⟩ <;> exact hasked w _ _ _
  have htell : ∀ total pieces, Always R (d.tell total pieces) := fun total pieces =>
    Always.bind (.ofExcept _ _) fun _ => .modify fun w => hasked w _ _ _
  refine hrequest.wrapping.bind fun response => ?_
  dsimp only
  cases response.statusFault? d.url with
  | some fault => exact .throw_bind _ _
  | none =>
    refine Always.bind (.ofExcept _ _) fun total => (hwrite _).bind fun _ => ?_
    refine (htell _ _).bind fun _ => (hwrite _).bind fun _ => ?_
    cases (response.pieces d.chunkSize).2 with
    | some fault => exact .throw_bind _ _
    | none => exact .pure _

/-- A file is removed, or nothing is changed. -/
theorem yields_discard_of {t : FileTree} {p : Path}
    {Q : Except FileFailure Unit → FileTree → Prop}
    (removed : ∀ t', t.unlink p = .ok t' → Q (.ok ()) t')
    (left : ∀ e, t.unlink p = .error e → ∀ r, Q r t) : Yields (discard p) t Q := by
  unfold Yields discard
  cases hunlink : t.unlink p with
  | ok t' => exact removed t' hunlink
  | error e =>
    cases hmissing : e.isMissing with
    | true => simpa only [hmissing, if_true] using left e hunlink (.ok ())
    | false => simpa only [hmissing, Bool.false_eq_true, if_false] using left e hunlink (.error e)

theorem always_discard {P : FileTree → FileTree → Prop} [IsPreorder FileTree P] {p : Path}
    (hunlink : ∀ t t', t.unlink p = .ok t' → P t t') : Always P (discard p) := fun t =>
  yields_discard_of (hunlink t) fun _ _ _ => refl_of P t

section

variable {R : World → World → Prop} [IsPreorder World R]

theorem always_receiveOrDiscard {d : Download} {temporary : Path}
    (hreceive : Always R (d.receive temporary))
    (hdiscard : Always R (Run.onFiles DownloadFailure.files (discard temporary))) :
    Always R (d.receiveOrDiscard temporary) := by
  intro w
  have hw := hreceive w
  unfold Yields receiveOrDiscard
  cases hr : d.receive temporary w with
  | ok digest w' => exact hw.of_ok hr
  | error why w' =>
    have hw' := hw.of_error hr
    cases why with
    | fault fault =>
      dsimp only
      by_cases htransfer : fault.kind.isTransfer = true
      · rw [if_pos htransfer]
        have hw'' := hdiscard w'
        cases hd : discard temporary w'.files with
        | ok _ files => exact trans_of R hw' (hw''.of_ok (by rw [Run.onFiles, hd]))
        | error e files => exact trans_of R hw' (hw''.of_error (by rw [Run.onFiles, hd]))
      · rw [if_neg htransfer]
        exact hw'
    | _ => exact hw'

/-- **A download** leaves as it was what its steps do. -/
theorem always_download (hasked : ∀ (w : World) exchanges requests progress,
      R w { w with exchanges, requests, progress })
    {d : Download}
    (hdirectory : Always R (Run.onFiles DownloadFailure.files (ensureDirectory d.target.parent)))
    (hwrite : ∀ temporary, d.temporary? = some temporary → ∀ content,
      Always R (Run.onFiles DownloadFailure.files (change (·.write temporary content))))
    (hdiscard : ∀ temporary, d.temporary? = some temporary →
      Always R (Run.onFiles DownloadFailure.files (discard temporary)))
    (hmove : ∀ temporary, d.temporary? = some temporary →
      Always R (Run.onFiles DownloadFailure.files (change (·.move temporary d.target)))) :
    Always R (download d) := by
  refine hdirectory.bind fun _ => ?_
  split
  · rename_i temporary hsome
    refine (always_receiveOrDiscard (always_receive hasked (hwrite temporary hsome))
      (hdiscard temporary hsome)).bind fun digest => Always.bind (.ask _ _) fun content => ?_
    split
    · exact (hdiscard temporary hsome).bind fun _ => .throw _
    · exact (hmove temporary hsome).bind fun _ => .pure _
  · exact .throw _

end

end Download

namespace Toolchain

variable {R : World → World → Prop} [IsPreorder World R] {c : Toolchain}

theorem always_ensureWeaver
    (hlog : ∀ level message, Always R (Run.log (ε := ToolchainFailure) level logger message))
    (hdownload : c.archive = none → Always R (download c.asDownload)) : Always R c.ensureWeaver := by
  unfold ensureWeaver
  cases harchive : c.archive with
  | some archive =>
    refine Always.bind (.ask _ _) fun found => ?_
    split
    · exact .pure _
    · exact .throw _
  | none =>
    refine Always.bind (.ask _ _) fun found => ?_
    split
    · exact (hlog _ _).bind fun _ => .pure _
    · exact (hlog _ _).bind fun _ => (hdownload harchive).wrapping

/-- **A toolchain** leaves as it was what logging does, and its download if it may need one. -/
theorem always_command
    (hlog : ∀ level message, Always R (Run.log (ε := ToolchainFailure) level logger message))
    (hdownload : c.archive = none → Always R (download c.asDownload)) : Always R c.command := by
  refine (always_ensureWeaver hlog hdownload).bind fun archive => Always.bind ?_ fun java => .pure _
  refine Always.get.bind fun w => ?_
  split
  · exact .pure _
  · exact .throw _

end Toolchain

end WeaveStep
