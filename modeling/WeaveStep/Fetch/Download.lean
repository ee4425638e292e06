import WeaveStep.Digest
import WeaveStep.Fetch.Address
import WeaveStep.Text.Integer
import WeaveStep.Text.LetterCase
import WeaveStep.World

/-! # Downloads

A class archive is downloaded into a temporary file beside its target and takes the target's place
only after every check: it has to begin like an archive and, where a checksum is given, to have it.

* `Response.pieces`: the pieces in which a body arrives, and how the delivery breaks off.
* `download`: the whole download. What the server does wrong, or a body that is turned down, is a
  `Rejection`, after which no temporary file is left.
* `hasChecksum`: whether a file has a given checksum. -/

namespace WeaveStep

open Text

/-- What is to be downloaded, and how. -/
structure Download where
  url : String
  target : Path
  checksum : Option String := none
  showProgress : Bool := true
  /-- How many bytes are read at a time, if not all. -/
  chunkSize : Option Nat := some 8192
  /-- How many seconds the server may take. -/
  timeout : Option Int := some 30

/-! ## Failures -/

/-- Whether a fault is one of the transfer. -/
def FaultKind.isTransfer : FaultKind → Bool
  | system | interrupt => false
  | _ => true

/-- Why a download is turned down. -/
inductive Rejection
  | transfer (url : String) (why : Fault)
  | notArchive (url : String)
  | mismatch (url expected actual : String)
  deriving Repr

namespace Rejection

/-- The text of a failure. -/
def message : Rejection → String
  | transfer url why => "Failed to download " ++ url ++ ": " ++ why.message
  | notArchive url => "Downloaded file from " ++ url ++ " is not a jar"
  | mismatch url expected actual =>
    "Checksum mismatch for " ++ url ++ "\nExpected: " ++ expected ++ "\nGot: " ++ actual

/-- The name of the kind of failure. -/
def kind : Rejection → String
  | mismatch _ _ _ => "ChecksumError"
  | _ => "DownloadError"

/-- The kind of failure behind this one. -/
def origin : Rejection → Option String
  | transfer _ why => some why.kind.name
  | _ => none

end Rejection

/-- Why a download failed. -/
inductive DownloadFailure
  | rejected (why : Rejection)
  /-- The length that the server tells is no number. -/
  | badLength (why : IntegerFailure)
  | badAddress (why : AddressFailure)
  | files (why : FileFailure)
  | fault (why : Fault)
  /-- The temporary file cannot be removed after a fault. -/
  | leftover (earlier : Fault) (why : FileFailure)
  deriving Repr

namespace DownloadFailure

/-- The text of a failure. -/
def message : DownloadFailure → String
  | rejected why => why.message
  | badLength why => why.message
  | badAddress why => why.message
  | files why => why.message
  | fault why => why.message
  | leftover _ why => why.message

/-- The name of the kind of failure. -/
def kind : DownloadFailure → String
  | rejected why => why.kind
  | badLength _ | badAddress _ => "ValueError"
  | files why => why.kind
  | fault why => why.kind.name
  | leftover _ why => why.kind

end DownloadFailure

/-! ## Responses -/

/-- The bytes in the pieces of one reading. -/
def piecesOf (size : Option Nat) (bytes : List UInt8) : List (List UInt8) :=
  match size with
  | none => if bytes.isEmpty then [] else [bytes]
  | some 0 => []
  | some (n + 1) => blocks n bytes

/-- Bytes cut into chunks of these lengths and a last one. -/
def chunksOf : List Nat → List UInt8 → List (List UInt8)
  | [], bytes => [bytes]
  | n :: lengths, bytes => bytes.take n :: chunksOf lengths (bytes.drop n)

/-- The pieces in which a body arrives, and the fault that ends the delivery. No piece goes past the
end of a chunk, or past the byte at which the delivery breaks off. -/
def Response.pieces (r : Response) (size : Option Nat) : List (List UInt8) × Option Fault :=
  let received (bytes : List UInt8) := (chunksOf r.chunks bytes).flatMap (piecesOf size)
  match r.fails with
  | none => (received r.body, none)
  | some (n, fault) =>
    (received (r.body.take n),
      if n ≤ r.body.length ∧ (n = 0 ∨ size ≠ some 0) then some fault else none)

/-- The fault that the status of a response says, where it was asked for at `url`. -/
def Response.statusFault? (r : Response) (url : String) : Option Fault :=
  let fault (side : String) : Fault :=
    ⟨.status, toString r.status ++ " " ++ side ++ " Error: " ++ r.reason ++ " for url: " ++
      r.url.getD url⟩
  if 400 ≤ r.status ∧ r.status < 500 then some (fault "Client")
  else if 500 ≤ r.status ∧ r.status < 600 then some (fault "Server")
  else none

/-- The length a response tells; of several headers of that name, the last one counts. -/
def Response.length (r : Response) : Except IntegerFailure Int :=
  match (r.headers.filter fun h => smallLetters h.1 = "content-length").getLast? with
  | some (_, text) => readInteger text
  | none => .ok 0

/-- Asks a server for a file. Once no exchange is left, no server can be reached. -/
def request (url : String) (timeout : Option Int) : Run Fault Response := fun w =>
  let w : World := { w with requests := w.requests ++ [⟨url, timeout⟩] }
  match w.exchanges with
  | [] => .error ⟨.connection, "offline"⟩ w
  | .refused fault :: later => .error fault { w with exchanges := later }
  | .answered response :: later => .ok response { w with exchanges := later }

/-! ## Downloading -/

namespace Download

/-- The temporary file beside the target. -/
def temporary? (d : Download) : Option Path := d.target.withName? (d.target.name ++ ".tmp")

/-- Shows the progress of a delivery in pieces. -/
def tell (d : Download) (total : Int) (pieces : List (List UInt8)) : Run DownloadFailure Unit := do
  let address ← Run.ofExcept .badAddress (Address.ofString d.url)
  let bar : Progress := {
    description := "Downloading " ++ (Path.ofString address.path).name
    total
    disabled := !d.showProgress || total = 0
    updates := pieces.map (·.length) }
  modify fun w => { w with progress := w.progress ++ [bar] }

/-- Receives a file into the temporary one and gives the digest of its bytes. -/
def receive (d : Download) (temporary : Path) : Run DownloadFailure String := do
  let response ← Run.wrapping .fault (request d.url d.timeout)
  if let some fault := response.statusFault? d.url then throw (.fault fault)
  let total ← Run.ofExcept .badLength response.length
  Run.onFiles .files (FileTree.change (·.write temporary []))
  let (pieces, fault) := response.pieces d.chunkSize
  d.tell total pieces
  Run.onFiles .files (FileTree.change (·.write temporary pieces.flatten))
  if let some fault := fault then throw (.fault fault)
  return Digest.ofBytes pieces.flatten

/-- Removes a file unless it is missing. -/
def discard (p : Path) : FileTree.Action Unit := fun t =>
  match t.unlink p with
  | .ok t' => .ok () t'
  | .error e => if e.isMissing then .ok () t else .error e t

/-- Receives a file; after a fault of the transfer the temporary file is removed. -/
def receiveOrDiscard (d : Download) (temporary : Path) : Run DownloadFailure String := fun w =>
  match d.receive temporary w with
  | .error (.fault fault) w =>
    if fault.kind.isTransfer then
      match discard temporary w.files with
      | .ok _ files => .error (.rejected (.transfer d.url fault)) { w with files }
      | .error e files => .error (.leftover fault e) { w with files }
    else .error (.fault fault) w
  | result => result

/-- How a class archive begins. -/
def archiveMark : List UInt8 := [0x50, 0x4b, 0x03, 0x04]

/-- Why a received file is turned down, if it is. -/
def rejection? (d : Download) (content : List UInt8) (digest : String) : Option Rejection :=
  if content.take archiveMark.length ≠ archiveMark then some (.notArchive d.url)
  else
    match given? d.checksum with
    | some expected =>
      if smallLetters digest ≠ smallLetters expected then some (.mismatch d.url expected digest)
      else none
    | none => none

/-- Receives a file, checks it and moves it over the target, whose directory is there. -/
def fetch (d : Download) (temporary : Path) : Run DownloadFailure Path := do
  let digest ← d.receiveOrDiscard temporary
  let content ← Run.ask .files (·.read temporary)
  if let some why := d.rejection? content digest then
    Run.onFiles .files (discard temporary)
    throw (.rejected why)
  Run.onFiles .files (FileTree.change (·.move temporary d.target))
  return d.target

end Download

/-- Downloads a file and gives its path. -/
def download (d : Download) : Run DownloadFailure Path := do
  Run.onFiles .files (FileTree.ensureDirectory d.target.parent)
  let some temporary := d.temporary? | throw (.files (.noName d.target.text))
  d.fetch temporary

/-! ## Checksums -/

/-- Whether the file at a path has the checksum, when so many bytes are read at a time. -/
def hasChecksum (t : FileTree) (p : Path) (expected : String) (chunkSize : Option Nat) :
    Except FileFailure Bool := do
  let content ← t.read p
  let digest := Digest.ofBytes (piecesOf chunkSize content).flatten
  return smallLetters digest = smallLetters expected

end WeaveStep
