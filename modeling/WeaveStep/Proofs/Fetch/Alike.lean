import WeaveStep.Proofs.Alike
import WeaveStep.Proofs.World
import WeaveStep.Fetch.Download

/-!
# Downloads that end alike

Two downloads may differ in how many bytes they read at a time (`Download.inPieces`), and in worlds
that differ in anything but their files (`World.SharesFiles`). All they can tell apart is what they
receive: if they receive alike, they end alike (**`Download.endsAlike_download_of_receive`**). An answer
is received by `Download.take` and, where its status is no error, by `Download.keep`
(`Download.receive_of_answered`); two are received alike if the progress told of them is
(`Download.endsAlike_receive_of_tell`).
-/

namespace WeaveStep

open FileTree

variable {ε α : Type} {R : World → World → Prop} {w w' : World}

/-! ## Worlds with the same files -/

/-- Worlds that are related have the same files, and are still related when they change alike. -/
structure World.SharesFiles (R : World → World → Prop) : Prop where
  same : ∀ {w w'}, R w w' → w'.files = w.files
  change : ∀ {w w'}, R w w' → ∀ files, R { w with files } { w' with files }

namespace World.SharesFiles

variable (hR : SharesFiles R)
include hR

theorem respects_onFiles (wrap : FileFailure → ε) (act : FileTree.Action α) :
    Respects R (Run.onFiles wrap act) := by
  intro w w' h
  unfold Run.onFiles
  rw [hR.same h]
  cases act w.files with
  | ok a files => exact .ok a (hR.change h files)
  | error e files => exact .error _ (hR.change h files)

theorem respects_ask (wrap : FileFailure → ε) (f : FileTree → Except FileFailure α) :
    Respects R (Run.ask wrap f) := by
  intro w w' h
  unfold Run.ask
  rw [hR.same h]
  cases f w.files with
  | ok a => exact .ok a h
  | error e => exact .error _ h

end World.SharesFiles

namespace Download

/-- The same download, reading that many bytes at a time. -/
def inPieces (d : Download) (size : Option Nat) : Download := { d with chunkSize := size }

@[simp] theorem url_inPieces (d : Download) (size : Option Nat) : (d.inPieces size).url = d.url := rfl

@[simp] theorem timeout_inPieces (d : Download) (size : Option Nat) :
    (d.inPieces size).timeout = d.timeout := rfl

@[simp] theorem chunkSize_inPieces (d : Download) (size : Option Nat) :
    (d.inPieces size).chunkSize = size := rfl

@[simp] theorem target_inPieces (d : Download) (size : Option Nat) :
    (d.inPieces size).target = d.target := rfl

@[simp] theorem temporary?_inPieces (d : Download) (size : Option Nat) :
    (d.inPieces size).temporary? = d.temporary? := rfl

theorem inPieces_inPieces (d : Download) (size size' : Option Nat) :
    (d.inPieces size).inPieces size' = d.inPieces size' := rfl

/-! ## What is received -/

/-- Receives the body of a response into the temporary file. -/
def keep (d : Download) (temporary : Path) (r : Response) (total : Int) :
    Run DownloadFailure String := do
  Run.onFiles .files (FileTree.change (·.write temporary []))
  d.tell total (r.pieces d.chunkSize).1
  Run.onFiles .files (FileTree.change (·.write temporary (r.pieces d.chunkSize).1.flatten))
  if let some fault := (r.pieces d.chunkSize).2 then throw (.fault fault)
  return Digest.ofBytes (r.pieces d.chunkSize).1.flatten

/-- What is done with a response that was answered. -/
def take (d : Download) (temporary : Path) (r : Response) (total : Int) :
    Run DownloadFailure String :=
  match r.statusFault? d.url with
  | some fault => throw (.fault fault)
  | none => d.keep temporary r total

theorem receive_of_answered {d : Download} {temporary : Path} {r : Response} {later : List Exchange}
    {total : Int} (hanswer : w.exchanges = .answered r :: later)
    (hlength : r.length = .ok total) : d.receive temporary w =
      d.take temporary r total
        { w with requests := w.requests ++ [⟨d.url, d.timeout⟩], exchanges := later } := by
  have hrequest : Run.wrapping DownloadFailure.fault (request d.url d.timeout) w =
      .ok r { w with requests := w.requests ++ [⟨d.url, d.timeout⟩], exchanges := later } := by
    rw [Run.wrapping_eq_ok, request]
    dsimp only
    rw [hanswer]
  unfold receive take
  rw [bind_ok hrequest, hlength]
  cases r.statusFault? d.url with
  | some fault => rfl
  | none => rfl

variable {d : Download} {temporary : Path} (hR : World.SharesFiles R) {size : Option Nat}
include hR

/-- Two bodies of the same bytes are received alike where the progress that is told of them is. -/
theorem endsAlike_keep {r r' : Response} {total total' : Int} (h : R w w')
    (hbytes : (r'.pieces size).1.flatten = (r.pieces d.chunkSize).1.flatten)
    (hfault : (r'.pieces size).2 = (r.pieces d.chunkSize).2)
    (htell : ∀ {mid mid'}, R mid mid' → EndsAlike R (d.tell total (r.pieces d.chunkSize).1 mid)
      ((d.inPieces size).tell total' (r'.pieces size).1 mid')) :
    EndsAlike R (d.keep temporary r total w) ((d.inPieces size).keep temporary r' total' w') := by
  unfold keep
  simp only [chunkSize_inPieces, hbytes, hfault]
  refine (hR.respects_onFiles _ _ w w' h).bind_both fun _ mid mid' hmid => ?_
  refine (htell hmid).bind fun _ => ?_
  refine (hR.respects_onFiles _ _).bind fun _ => ?_
  cases (r.pieces d.chunkSize).2 with
  | some fault => exact .throw_bind _ _
  | none => exact .pure _

/-- Two answers are received alike where they have the same status, their bodies are of the same bytes
and the progress that is told of them is alike. -/
theorem endsAlike_receive_of_tell (size : Option Nat) {r r' : Response}
    {later later' : List Exchange} {total total' : Int}
    (hasked : R { w with requests := w.requests ++ [⟨d.url, d.timeout⟩], exchanges := later }
      { w' with requests := w'.requests ++ [⟨d.url, d.timeout⟩], exchanges := later' })
    (hanswer : w.exchanges = .answered r :: later) (hanswer' : w'.exchanges = .answered r' :: later')
    (hlength : r.length = .ok total) (hlength' : r'.length = .ok total')
    (hstatus : r'.statusFault? d.url = r.statusFault? d.url)
    (hbytes : (r'.pieces size).1.flatten = (r.pieces d.chunkSize).1.flatten)
    (hfault : (r'.pieces size).2 = (r.pieces d.chunkSize).2)
    (htell : ∀ {mid mid'}, R mid mid' → EndsAlike R (d.tell total (r.pieces d.chunkSize).1 mid)
      ((d.inPieces size).tell total' (r'.pieces size).1 mid')) :
    EndsAlike R (d.receive temporary w) ((d.inPieces size).receive temporary w') := by
  rw [receive_of_answered hanswer hlength, receive_of_answered hanswer' hlength']
  unfold take
  simp only [url_inPieces, timeout_inPieces, hstatus]
  cases r.statusFault? d.url with
  | some fault => exact .error _ hasked
  | none => exact endsAlike_keep hR hasked hbytes hfault htell

/-! ## From what is received on -/

theorem endsAlike_receiveOrDiscard
    (h : EndsAlike R (d.receive temporary w) ((d.inPieces size).receive temporary w')) :
    EndsAlike R (d.receiveOrDiscard temporary w) ((d.inPieces size).receiveOrDiscard temporary w') := by
  unfold receiveOrDiscard
  generalize d.receive temporary w = ending, (d.inPieces size).receive temporary w' = ending' at h ⊢
  cases h with
  | ok digest h => exact .ok digest h
  | @error e mid mid' h =>
    cases e with
    | fault fault =>
      dsimp only
      rw [hR.same h]
      cases fault.kind.isTransfer with
      | false => exact .error _ h
      | true =>
        cases discard temporary mid.files with
        | ok _ files => exact .error _ (hR.change h files)
        | error e files => exact .error _ (hR.change h files)
    | _ => exact .error _ h

theorem endsAlike_fetch
    (h : EndsAlike R (d.receive temporary w) ((d.inPieces size).receive temporary w')) :
    EndsAlike R (d.fetch temporary w) ((d.inPieces size).fetch temporary w') := by
  refine (endsAlike_receiveOrDiscard hR h).bind fun digest => ?_
  refine (hR.respects_ask _ _).bind fun content => ?_
  cases d.rejection? content digest with
  | some why => exact (hR.respects_onFiles _ _).bind fun _ => .throw _
  | none => exact (hR.respects_onFiles _ _).bind fun _ => .pure _

/-- **Downloads that receive alike end alike**, whatever directory they make first. -/
theorem endsAlike_download_of_receive (size : Option Nat) (h : R w w')
    (hreceive : ∀ temporary files, EndsAlike R (d.receive temporary { w with files })
      ((d.inPieces size).receive temporary { w' with files })) :
    EndsAlike R (download d w) (download (d.inPieces size) w') := by
  unfold download
  simp only [target_inPieces, temporary?_inPieces]
  cases hmade : ensureDirectory d.target.parent w.files with
  | error e files =>
    have hfirst : Run.onFiles DownloadFailure.files (ensureDirectory d.target.parent) w =
        .error (.files e) { w with files } := Run.onFiles_eq_error.2 ⟨e, files, hmade, rfl, rfl⟩
    have hsecond : Run.onFiles DownloadFailure.files (ensureDirectory d.target.parent) w' =
        .error (.files e) { w' with files } :=
      Run.onFiles_eq_error.2 ⟨e, files, (hR.same h).symm ▸ hmade, rfl, rfl⟩
    rw [bind_error hfirst, bind_error hsecond]
    exact .error _ (hR.change h files)
  | ok _ files =>
    have hfirst : Run.onFiles DownloadFailure.files (ensureDirectory d.target.parent) w =
        .ok () { w with files } := Run.onFiles_eq_ok.2 ⟨hmade, rfl⟩
    have hsecond : Run.onFiles DownloadFailure.files (ensureDirectory d.target.parent) w' =
        .ok () { w' with files } := Run.onFiles_eq_ok.2 ⟨(hR.same h).symm ▸ hmade, rfl⟩
    rw [bind_ok hfirst, bind_ok hsecond]
    cases d.temporary? with
    | none => exact .error _ (hR.change h files)
    | some temporary => exact endsAlike_fetch hR (hreceive temporary files)

end Download

end WeaveStep
