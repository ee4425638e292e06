import Mathlib
import WeaveStep.Proofs.Fetch.Steps
import WeaveStep.Proofs.Files.CopyFrame
import WeaveStep.Proofs.Files.Growth
import WeaveStep.Proofs.Files.OneFile
import WeaveStep.Proofs.Text.Utf8

/-!
# A download is whole, or it leaves its target as it was

A download goes into a temporary file beside its target and is moved over the target only once it
was checked.

* `Download.Ready d temporary t`: at the target and at the temporary file there is at most a file,
  and they do not lie at one place. From then on only the temporary file changes, up to the move.
* `yields_receive`, `yields_receiveOrDiscard`: what is received is in the temporary file; where the
  download is turned down for its transfer, that file is gone.
* `Download.Settles`: what a download promises, for each way it can end.
* **`Download.yields_settles`**, **`download_settles`**: a download keeps that, whatever the server does.
  Its target must not lead up from something that is missing (`not_download_settles_up_from_missing`).
-/

namespace WeaveStep

open FileTree Text

/-! ## Pieces of a body -/

theorem flatten_chunksOf (lengths : List Nat) (bytes : List UInt8) :
    (chunksOf lengths bytes).flatten = bytes := by
  induction lengths generalizing bytes with
  | nil => simp [chunksOf]
  | cons n lengths ih => simp [chunksOf, ih]

theorem flatten_piecesOf {size : Option Nat} (hsize : size ≠ some 0) (bytes : List UInt8) :
    (piecesOf size bytes).flatten = bytes := by
  unfold piecesOf
  split
  · split <;> simp_all
  · exact absurd rfl hsize
  · exact flatten_blocks _ _

theorem flatten_received {size : Option Nat} (hsize : size ≠ some 0) (lengths : List Nat)
    (bytes : List UInt8) : ((chunksOf lengths bytes).flatMap (piecesOf size)).flatten = bytes := by
  have hpieces : ∀ chunks : List (List UInt8),
      (chunks.flatMap (piecesOf size)).flatten = chunks.flatten := by
    intro chunks
    induction chunks with
    | nil => rfl
    | cons chunk chunks ih => simp [ih, flatten_piecesOf hsize]
  rw [hpieces, flatten_chunksOf]

/-- However it is cut, a delivery that does not break off gives the whole body, unless no bytes are
read at all. -/
theorem Response.flatten_pieces {r : Response} {size : Option Nat} (hsize : size ≠ some 0)
    (hwhole : (r.pieces size).2 = none) : (r.pieces size).1.flatten = r.body := by
  unfold Response.pieces at hwhole ⊢
  split at hwhole
  · exact flatten_received hsize _ _
  · simp only [hsize, ne_eq, not_false_eq_true, or_true, and_true] at hwhole
    split at hwhole
    · cases hwhole
    · rename_i n _ _ hbeyond
      rw [flatten_received hsize, List.take_of_length_le (by omega)]

/-- If no bytes are read at all, nothing arrives. -/
theorem Response.flatten_pieces_zero (r : Response) : (r.pieces (some 0)).1.flatten = [] := by
  have hpieces : piecesOf (some 0) = fun _ => [] := rfl
  unfold Response.pieces
  split <;> simp [hpieces]

namespace Download

variable {d : Download} {temporary : Path} {t t' : FileTree} {w : World}

/-! ## The two files -/

/-- At the target and at the temporary file there is at most a file, and they lie apart. -/
structure Ready (d : Download) (temporary : Path) (t : FileTree) : Prop where
  targetFile : AtMostFile t d.target
  temporaryFile : AtMostFile t temporary
  apart : ∀ q, t.locate .own d.target = .ok q → t.locate .own temporary ≠ .ok q

theorem parent_entry_name {p : Path} (h : p.parts ≠ []) : p.parent.entry p.name = p := by
  obtain ⟨anchor, parts⟩ := p
  obtain ⟨above, name, rfl⟩ := (List.eq_nil_or_concat parts).resolve_left h
  simp [Path.entry, Path.parent, Path.name]

theorem isName_name {p : Path} (hparts : p.parts ≠ [])
    (hnames : ∀ name ∈ p.parts, Path.isName name = true) : Path.isName p.name = true :=
  hnames _ (by simp [Path.name, List.getLast?_eq_some_getLast hparts])

theorem temporary?_eq (h : d.target.parts ≠ []) :
    d.temporary? = some (d.target.parent.entry (d.target.name ++ ".tmp")) := by
  rw [temporary?, Path.withName?, if_neg h]
  rfl

theorem parts_ne_nil_of_temporary? (h : d.temporary? = some temporary) : d.target.parts ≠ [] := by
  intro hnil
  rw [temporary?, Path.withName?, if_pos hnil] at h
  cases h

theorem length_tmp (name : String) : (name ++ ".tmp").length = name.length + 4 := by
  rw [String.length_append]
  rfl

theorem isEntryName_temporary (name : String) : IsEntryName (name ++ ".tmp") :=
  isEntryName_of_length (by
    rw [length_tmp]
    omega)

/-- A file and the temporary one beside it lie apart. -/
theorem entries_apart {base : Path} {within : Location} {name : String}
    (hbase : t.look .followed base = .ok (within, .directory)) (hname : Path.isName name = true)
    (q : Location) (hq : t.locate .own (base.entry name) = .ok q) :
    t.locate .own (base.entry (name ++ ".tmp")) ≠ .ok q := by
  intro hq'
  have htemporary := locate_own_entry hbase (isEntryName_temporary name) hq'
  by_cases hup : name = ".."
  · subst hup
    obtain ⟨mid, budget, hmid, hway⟩ := locate_above hq (by simp)
    rw [show (⟨base.anchor, base.parts⟩ : Path) = base from rfl, hbase] at hmid
    cases hmid
    have hlength : q.length ≤ within.length := by
      cases hway with
      | stay _ blank => simp at blank
      | up _ way =>
        cases way
        simp
      | own _ step | follow _ step | down _ step => exact absurd rfl step.notUp
    rw [htemporary, List.length_append, List.length_singleton] at hlength
    omega
  · have hsame := locate_own_entry hbase (isEntryName_of_isName hname hup) hq
    have hnames := (List.cons.inj (List.append_cancel_left (hsame.symm.trans htemporary))).1
    have hlength := length_tmp name
    rw [← hnames] at hlength
    omega

/-! ## The directory of the target -/

/-- A path that starts in a directory and leads to no directory has a name. -/
theorem parts_ne_nil {p : Path} (hstart : t.get? (t.startOf p) = some .directory)
    (hfile : AtMostFile t p) : p.parts ≠ [] := by
  intro hnil
  cases hfile _ _ (look_start hstart hnil)

/-- Where the directory of a path is not there, something on the way to it is missing, or none can
be made. -/
theorem missing_or_placeless {p : Path} (hparts : p.parts ≠ []) (htree : IsTree t)
    (hstart : t.get? (t.startOf p) = some .directory)
    (hsteady : IsSteady t p)
    (hnone : ∀ within, t.look .followed p.parent ≠ .ok (within, .directory)) :
    p.name ≠ ".." ∧
      ((∃ front rest base, MissingAt t p.parent front rest base) ∨ Placeless p.parent t) := by
  obtain ⟨anchor, parts⟩ := p
  obtain ⟨above, name, rfl⟩ := (List.eq_nil_or_concat parts).resolve_left hparts
  rw [List.concat_eq_append] at *
  have habove : Path.parent ⟨anchor, above ++ [name]⟩ = ⟨anchor, above⟩ := by simp [Path.parent]
  have hname : Path.name ⟨anchor, above ++ [name]⟩ = name := by simp [Path.name]
  rw [habove] at hnone ⊢
  rw [hname]
  obtain ⟨front, rest, place, hwhole, hfront, hup⟩ := hsteady
  rcases List.eq_nil_or_concat rest with rfl | ⟨init, last, rfl⟩
  · -- the directory is there if its entry is one
    rw [List.append_nil] at hwhole
    rw [← hwhole] at hfront
    obtain ⟨within, -, hwithin, -⟩ := locate_above (look_eq_ok_iff.1 hfront).1 (by simp)
    exact absurd hwithin (hnone within)
  · rw [List.concat_eq_append, ← List.append_assoc] at hwhole
    obtain ⟨rfl, hlast⟩ := List.append_inj' hwhole rfl
    obtain rfl : name = last := by simpa using hlast
    refine ⟨fun heq => hup (by simp [heq]), ?_⟩
    by_cases hmissing : ∃ front' rest base, MissingAt t ⟨anchor, front ++ init⟩ front' rest base
    · exact .inl hmissing
    · exact .inr ⟨htree, hstart, ⟨front, init, place, rfl, hfront, fun hmem => hup (by simp [hmem])⟩,
        fun front' rest base h => hmissing ⟨front', rest, base, h⟩, hnone⟩

/-- **Making the directory** of the target leaves what lies in it as it was, even if it fails. -/
theorem yields_ensureParent {p : Path} (hparts : p.parts ≠ []) (htree : IsTree t)
    (hstart : t.get? (t.startOf p) = some .directory)
    (hnames : ∀ name ∈ p.parts, Path.isName name = true)
    (hsteady : IsSteady t p) :
    Yields (ensureDirectory p.parent) t fun _ t' =>
      ∀ name, name = p.name ∨ IsEntryName name → SameAt (p.parent.entry name) t t' := by
  by_cases hfound : ∃ within, t.look .followed p.parent = .ok (within, .directory)
  · obtain ⟨within, hfound⟩ := hfound
    exact yields_of_eq_ok (ensureDirectory_of_look hfound) fun _ _ _ => Iff.rfl
  obtain ⟨hup, ⟨front, rest, base, hmissing⟩ | hplaceless⟩ :=
    missing_or_placeless hparts htree hstart hsteady fun within h => hfound ⟨within, h⟩
  · have hentry : IsEntryName p.name := isEntryName_of_isName (isName_name hparts hnames) hup
    refine ((hmissing.always_opens htree).keeps hmissing.opensUpTo).imp fun _ t' hopens name hname => ?_
    have hname : IsEntryName name := hname.elim (fun heq => heq ▸ hentry) id
    obtain ⟨more, left, rfl, hopens⟩ := hopens
    have hbefore := hmissing.entry hname
    rw [List.append_assoc] at hbefore
    have hafter := hbefore.of_opens htree (by simp) hopens
    exact fun entry => iff_of_false (hafter.not_look entry) (hbefore.not_look entry)
  · have hnames : ∀ name ∈ p.parent.parts, Path.isName name = true := fun name hname =>
      hnames name (List.dropLast_subset _ hname)
    obtain ⟨e, he⟩ := ensureDirectory_of_placeless hplaceless hnames []
    have hunder : under p.parent [] = p.parent := by simp [under]
    rw [hunder] at he
    exact yields_of_eq_error he fun _ _ _ => Iff.rfl

/-- The temporary file is not there. -/
def LeavesNothing (d : Download) (t : FileTree) : Prop :=
  ∀ temporary, d.temporary? = some temporary → ∀ entry, t.look .own temporary ≠ .ok entry

/-! ## Receiving -/

/-- A change to the temporary file. -/
theorem yields_discard (h : AtMostFile t temporary) :
    Yields (discard temporary) t fun result t' => OnlyAt temporary t t' ∧
      (result = .ok () → ∀ entry, t'.look .own temporary ≠ .ok entry) := by
  refine yields_discard_of (fun t' hunlink => ?_) fun e hunlink _ => ?_
  · obtain ⟨honly, hgone⟩ := onlyAt_unlink h hunlink
    exact ⟨honly, fun _ => hgone⟩
  · refine ⟨OnlyAt.refl temporary t, fun _ => ?_⟩
    rintro ⟨q, node⟩ hlook
    -- a file that is there would have been removed
    have hfile := h q node hlook
    rw [unlink, hlook] at hunlink
    cases node with
    | directory => cases hfile
    | _ => cases hunlink

theorem yields_write (hfile : AtMostFile t temporary) (hw : OnlyAt temporary t w.files)
    (content : List UInt8) :
    Yields (Run.onFiles DownloadFailure.files (FileTree.change (·.write temporary content))) w
      fun result w' => w'.exchanges = w.exchanges ∧ OnlyAt temporary t w'.files ∧
        match result with
        | .ok _ => ∃ place executable,
          w'.files.look .own temporary = .ok (place, .file content executable)
        | .error e => ∃ why, e = .files why := by
  have hchange : Yields (FileTree.change (·.write temporary content)) w.files fun result t' =>
      OnlyAt temporary t t' ∧ (result = .ok () → ∃ place executable,
        t'.look .own temporary = .ok (place, .file content executable)) := by
    refine yields_change (fun t' hwrite => ?_) fun e _ => ⟨hw, fun h => by cases h⟩
    obtain ⟨honly, q, executable, hlocate, hnode⟩ :=
      onlyAt_write (hw.ways.atMostFile hfile) hwrite
    exact ⟨hw.trans honly, fun _ => ⟨q, executable,
      look_eq_ok_iff.2 ⟨honly.ways.locate hlocate, hnode⟩⟩⟩
  exact hchange.onFiles (fun _ files h => ⟨rfl, h.1, h.2 rfl⟩) fun e files h => ⟨rfl, h.1, e, rfl⟩

theorem yields_request (url : String) (timeout : Option Int) :
    Yields (Run.wrapping DownloadFailure.fault (request url timeout)) w fun result w' =>
      w'.files = w.files ∧ match result with
        | .ok response => w.exchanges = .answered response :: w'.exchanges
        | .error e => ∃ fault, e = .fault fault := by
  have hrequest : Yields (request url timeout) w fun result w' =>
      w'.files = w.files ∧ ∀ response, result = .ok response →
        w.exchanges = .answered response :: w'.exchanges := by
    unfold Yields request
    dsimp only
    cases hex : w.exchanges with
    | nil => exact ⟨rfl, fun _ h => by cases h⟩
    | cons exchange later =>
      cases exchange with
      | refused fault => exact ⟨rfl, fun _ h => by cases h⟩
      | answered response => exact ⟨rfl, fun _ h => by cases h; rfl⟩
  exact hrequest.wrapping (fun response _ h => ⟨h.1, h.2 response rfl⟩) fun fault _ h =>
    ⟨h.1, fault, rfl⟩

theorem yields_tell (total : Int) (pieces : List (List UInt8)) :
    Yields (d.tell total pieces) w fun result w' => w'.files = w.files ∧
      w'.exchanges = w.exchanges ∧ ∀ e, result = .error e → ∃ why, e = .badAddress why := by
  unfold tell
  cases haddress : Address.ofString d.url with
  | ok address => exact yields_bind_of_ok rfl ⟨rfl, rfl, fun _ h => by cases h⟩
  | error why => exact yields_bind_of_error rfl ⟨rfl, rfl, fun _ h => by cases h; exact ⟨why, rfl⟩⟩

/-- What was received lies in the temporary file. -/
structure Received (d : Download) (temporary : Path) (w w' : World) (digest : String)
    (response : Response) : Prop where
  answered : w.exchanges = .answered response :: w'.exchanges
  whole : (response.pieces d.chunkSize).2 = none
  there : ∃ place executable, w'.files.look .own temporary =
    .ok (place, .file (response.pieces d.chunkSize).1.flatten executable)
  digest : digest = Digest.ofBytes (response.pieces d.chunkSize).1.flatten

/-- **Receiving** changes only the temporary file, and it turns nothing down by itself. -/
theorem yields_receive (hfile : AtMostFile t temporary) (hw : OnlyAt temporary t w.files) :
    Yields (d.receive temporary) w fun result w' => OnlyAt temporary t w'.files ∧
      match result with
      | .ok digest => ∃ response, Received d temporary w w' digest response
      | .error e => ∀ why, e ≠ .rejected why := by
  refine Yields.bind (fun response w₁ hrequest => ?_) fun e w₁ hrequest => ?_
  · obtain ⟨hfiles, hanswered⟩ := (yields_request _ _).of_ok hrequest
    have hw₁ : OnlyAt temporary t w₁.files := hfiles ▸ hw
    dsimp only
    cases response.statusFault? d.url with
    | some fault => exact yields_bind_of_error rfl ⟨hw₁, fun _ h => by cases h⟩
    | none =>
      cases response.length with
      | error why => exact yields_bind_of_error rfl ⟨hw₁, fun _ h => by cases h⟩
      | ok total =>
        refine yields_bind_of_ok rfl (Yields.bind (fun _ w₂ hempty => ?_) fun e w₂ hempty => ?_)
        · obtain ⟨hsame₂, hw₂, -⟩ := (yields_write hfile hw₁ _).of_ok hempty
          refine Yields.bind (fun _ w₃ htell => ?_) fun e w₃ htell => ?_
          · obtain ⟨hfiles₃, hsame₃, -⟩ := (yields_tell _ _).of_ok htell
            have hw₃ : OnlyAt temporary t w₃.files := hfiles₃ ▸ hw₂
            refine Yields.bind (fun _ w₄ hwrite => ?_) fun e w₄ hwrite => ?_
            · obtain ⟨hsame₄, hw₄, hthere⟩ := (yields_write hfile hw₃ _).of_ok hwrite
              cases hwhole : (response.pieces d.chunkSize).2 with
              | some fault => exact yields_bind_of_error rfl ⟨hw₄, fun _ h => by cases h⟩
              | none =>
                refine ⟨hw₄, response, ?_, hwhole, hthere, rfl⟩
                rw [hsame₄, hsame₃, hsame₂]
                exact hanswered
            · obtain ⟨-, hw₄, why, rfl⟩ := (yields_write hfile hw₃ _).of_error hwrite
              exact ⟨hw₄, fun _ h => by cases h⟩
          · obtain ⟨hfiles₃, -, hfails⟩ := (yields_tell _ _).of_error htell
            obtain ⟨why, rfl⟩ := hfails e rfl
            exact ⟨hfiles₃ ▸ hw₂, fun _ h => by cases h⟩
        · obtain ⟨-, hw₂, why, rfl⟩ := (yields_write hfile hw₁ _).of_error hempty
          exact ⟨hw₂, fun _ h => by cases h⟩
  · obtain ⟨hfiles, fault, rfl⟩ := (yields_request _ _).of_error hrequest
    exact ⟨hfiles ▸ hw, fun _ h => by cases h⟩

/-- A download that is turned down for its transfer leaves no temporary file. -/
theorem yields_receiveOrDiscard (hfile : AtMostFile t temporary) (hw : OnlyAt temporary t w.files) :
    Yields (d.receiveOrDiscard temporary) w fun result w' => OnlyAt temporary t w'.files ∧
      match result with
      | .ok digest => ∃ response, Received d temporary w w' digest response
      | .error e => ∀ why, e = .rejected why →
        ∀ entry, w'.files.look .own temporary ≠ .ok entry := by
  have hreceive := yields_receive (d := d) hfile hw
  unfold Yields receiveOrDiscard
  cases hr : d.receive temporary w with
  | ok digest w' => exact hreceive.of_ok hr
  | error e w' =>
    obtain ⟨hw', hfails⟩ := hreceive.of_error hr
    have hdiscard := yields_discard (hw'.ways.atMostFile hfile)
    cases e with
    | fault fault =>
      dsimp only
      by_cases htransfer : fault.kind.isTransfer = true
      · rw [if_pos htransfer]
        cases hd : discard temporary w'.files with
        | ok _ files =>
          obtain ⟨honly, hgone⟩ := hdiscard.of_ok hd
          exact ⟨hw'.trans honly, fun _ _ => hgone rfl⟩
        | error e files => exact ⟨hw'.trans (hdiscard.of_error hd).1, fun _ h => by cases h⟩
      · rw [if_neg htransfer]
        exact ⟨hw', fun _ h => by cases h⟩
    | rejected why => exact absurd rfl (hfails why)
    | _ => exact ⟨hw', fun _ h => by cases h⟩

/-! ## The whole download -/

/-- A body that begins like an archive and has the checksum that is asked for, up to letter case. -/
structure Accepts (d : Download) (body : List UInt8) : Prop where
  isArchive : archiveMark <+: body
  checksum : ∀ expected, d.checksum = some expected → expected ≠ "" →
    smallLetters (Digest.ofBytes body) = smallLetters expected

/-- What a download promises: the body that was delivered lies at the target, and it was accepted, or
what lies at the target is what it was. The temporary file is gone, unless the download failed
otherwise than by being turned down. -/
def Settles (d : Download) (w : World) (result : Except DownloadFailure Path) (w' : World) : Prop :=
  match result with
  | .ok p => p = d.target ∧ d.LeavesNothing w'.files ∧
    ∃ response, w.exchanges = .answered response :: w'.exchanges ∧
      w'.files.read d.target = .ok response.body ∧ d.Accepts response.body
  | .error (.rejected _) => SameAt d.target w.files w'.files ∧ d.LeavesNothing w'.files
  | .error _ => SameAt d.target w.files w'.files

theorem Settles.of_error {e : DownloadFailure} {w' : World} (hsame : SameAt d.target w.files w'.files)
    (hnothing : ∀ why, e = .rejected why → d.LeavesNothing w'.files) : d.Settles w (.error e) w' := by
  unfold Settles
  cases e with
  | rejected why => exact ⟨hsame, hnothing why rfl⟩
  | _ => exact hsame

theorem Settles.before {w₁ w' : World} {result : Except DownloadFailure Path}
    (hexchanges : w₁.exchanges = w.exchanges) (hsame : SameAt d.target w.files w₁.files)
    (h : d.Settles w₁ result w') : d.Settles w result w' := by
  unfold Settles at h ⊢
  rw [hexchanges] at h
  split at h
  · exact h
  · exact ⟨hsame.trans h.1, h.2⟩
  · exact hsame.trans h

theorem accepts_of_rejection? {content : List UInt8}
    (h : d.rejection? content (Digest.ofBytes content) = none) : d.Accepts content := by
  unfold rejection? at h
  split at h
  · cases h
  rename_i hmark
  refine ⟨List.prefix_iff_eq_take.2 (not_not.1 hmark).symm, fun expected hexpected hne => ?_⟩
  have hgiven : given? d.checksum = some expected := by simp [given?, hexpected, hne]
  rw [hgiven] at h
  dsimp only at h
  split at h
  · cases h
  · exact not_not.1 ‹_›

theorem rejection?_of_accepts {content : List UInt8} (h : d.Accepts content) :
    d.rejection? content (Digest.ofBytes content) = none := by
  have hmark : content.take archiveMark.length = archiveMark :=
    (List.prefix_iff_eq_take.1 h.isArchive).symm
  unfold rejection?
  rw [if_neg (not_not.2 hmark)]
  cases hgiven : given? d.checksum with
  | none => rfl
  | some expected =>
    obtain ⟨hchecksum, hne⟩ : d.checksum = some expected ∧ expected ≠ "" := by
      simpa [given?, Option.filter_eq_some_iff] using hgiven
    simp [h.checksum expected hchecksum hne]

theorem rejection?_nil (digest : String) : d.rejection? [] digest ≠ none := by
  simp [rejection?, archiveMark]

/-- A body that is taken was delivered as a whole. -/
theorem flatten_pieces_of_accepted {r : Response} {digest : String}
    (hwhole : (r.pieces d.chunkSize).2 = none)
    (h : d.rejection? (r.pieces d.chunkSize).1.flatten digest = none) :
    (r.pieces d.chunkSize).1.flatten = r.body := by
  refine r.flatten_pieces (fun hzero => ?_) hwhole
  rw [hzero, r.flatten_pieces_zero] at h
  exact rejection?_nil digest h

theorem yields_discarding (h : AtMostFile w.files temporary) :
    Yields (Run.onFiles DownloadFailure.files (discard temporary)) w fun result w' =>
      OnlyAt temporary w.files w'.files ∧ match result with
        | .ok _ => ∀ entry, w'.files.look .own temporary ≠ .ok entry
        | .error e => ∃ why, e = .files why :=
  (yields_discard h).onFiles (fun _ _ h => ⟨h.1, h.2 rfl⟩) fun e _ h => ⟨h.1, e, rfl⟩

theorem yields_moving (hready : Ready d temporary w.files) {place : Location}
    {content : List UInt8} {executable : Bool}
    (hthere : w.files.look .own temporary = .ok (place, .file content executable)) :
    Yields (Run.onFiles DownloadFailure.files (FileTree.change (·.move temporary d.target))) w
      fun result w' => match result with
        | .ok _ => w'.exchanges = w.exchanges ∧ w'.files.read d.target = .ok content ∧
          ∀ entry, w'.files.look .own temporary ≠ .ok entry
        | .error e => w'.files = w.files ∧ ∃ why, e = .files why := by
  have hmove : Yields (FileTree.change (·.move temporary d.target)) w.files fun result t' =>
      match result with
        | .ok _ => t'.read d.target = .ok content ∧ ∀ entry, t'.look .own temporary ≠ .ok entry
        | .error _ => t' = w.files :=
    yields_change (fun _ h => move_file hready.targetFile hready.apart hthere h)
      fun _ _ => rfl
  exact hmove.onFiles (fun _ _ h => ⟨rfl, h⟩) fun e _ h => ⟨h, e, rfl⟩

theorem Ready.of_onlyAt (h : Ready d temporary t) (honly : OnlyAt temporary t t') :
    Ready d temporary t' where
  targetFile := honly.ways.atMostFile h.targetFile
  temporaryFile := honly.ways.atMostFile h.temporaryFile
  apart q hq hq' := h.apart q (honly.ways.symm.locate hq) (honly.ways.symm.locate hq')

/-- **Once the directory is there**, only the temporary file changes until it is moved. -/
theorem yields_fetch (hready : Ready d temporary w.files) (htemporary : d.temporary? = some temporary) :
    Yields (d.fetch temporary) w (d.Settles w) := by
  have hsame : ∀ {t'}, OnlyAt temporary w.files t' → SameAt d.target w.files t' := fun h =>
    h.sameAt hready.apart
  have hnothing : ∀ {t' : FileTree}, (∀ entry, t'.look .own temporary ≠ .ok entry) →
      d.LeavesNothing t' := by
    intro t' hgone temporary' htemporary'
    rw [htemporary] at htemporary'
    cases htemporary'
    exact hgone
  have hreceive := yields_receiveOrDiscard (d := d) hready.temporaryFile (.refl temporary w.files)
  refine Yields.bind (fun digest w₁ hreceived => ?_) fun e w₁ hfails => ?_
  · obtain ⟨hw₁, response, hanswered, hwhole, ⟨place, executable, hthere⟩, rfl⟩ :=
      hreceive.of_ok hreceived
    have hready₁ := hready.of_onlyAt hw₁
    -- what was received is what is checked
    have hread : Run.ask DownloadFailure.files (·.read temporary) w₁ =
        .ok (response.pieces d.chunkSize).1.flatten w₁ := by
      rw [Run.ask_eq_ok]
      exact ⟨read_of_look hthere, rfl⟩
    refine yields_bind_of_ok hread ?_
    cases hrejection : d.rejection? (response.pieces d.chunkSize).1.flatten
      (Digest.ofBytes (response.pieces d.chunkSize).1.flatten) with
    | some why =>
      have hdiscard := yields_discarding hready₁.temporaryFile
      refine Yields.bind (fun _ w₂ h => ?_) fun e w₂ h => ?_
      · obtain ⟨hw₂, hgone⟩ := hdiscard.of_ok h
        exact yields_bind_of_error rfl (.of_error (hsame (hw₁.trans hw₂)) fun _ _ => hnothing hgone)
      · obtain ⟨hw₂, why, rfl⟩ := hdiscard.of_error h
        exact .of_error (hsame (hw₁.trans hw₂)) fun _ h => by cases h
    | none =>
      rw [flatten_pieces_of_accepted hwhole hrejection] at hthere hrejection
      have hmove := yields_moving hready₁ hthere
      refine Yields.bind (fun _ w₂ h => ?_) fun e w₂ h => ?_
      · obtain ⟨hexchanges, hmoved, hgone⟩ := hmove.of_ok h
        refine ⟨rfl, hnothing hgone, response, ?_, hmoved, accepts_of_rejection? hrejection⟩
        rw [hexchanges]
        exact hanswered
      · obtain ⟨hfiles, why, rfl⟩ := hmove.of_error h
        exact .of_error (hsame (hfiles ▸ hw₁)) fun _ h => by cases h
  · obtain ⟨hw₁, hgone⟩ := hreceive.of_error hfails
    exact .of_error (hsame hw₁) fun why hwhy => hnothing (hgone why hwhy)

/-- The target leads up only from what is there. At the target and beside it there is at most a file. -/
structure HasPlace (d : Download) (t : FileTree) : Prop where
  isTree : IsTree t
  start : t.get? (t.startOf d.target) = some .directory
  names : ∀ name ∈ d.target.parts, Path.isName name = true
  steady : IsSteady t d.target
  target : AtMostFile t d.target
  temporary : ∀ temporary, d.temporary? = some temporary → AtMostFile t temporary

/-- **Making the directory** leaves the target as it was, and the download can begin then. -/
theorem yields_ready (htree : IsTree w.files)
    (hstart : w.files.get? (w.files.startOf d.target) = some .directory)
    (hnames : ∀ name ∈ d.target.parts, Path.isName name = true)
    (hsteady : IsSteady w.files d.target)
    (htarget : AtMostFile w.files d.target)
    (htemporary : ∀ temporary, d.temporary? = some temporary → AtMostFile w.files temporary) :
    Yields (Run.onFiles DownloadFailure.files (ensureDirectory d.target.parent)) w fun result w' =>
      w'.exchanges = w.exchanges ∧ SameAt d.target w.files w'.files ∧
        match result with
        | .ok _ => ∃ temporary, d.temporary? = some temporary ∧ Ready d temporary w'.files
        | .error e => ∃ why, e = .files why := by
  have hparts := parts_ne_nil hstart htarget
  have hmake := yields_ensureParent hparts htree hstart hnames hsteady
  have hself := parent_entry_name hparts
  have hbeside := temporary?_eq hparts
  have hmade : Yields (ensureDirectory d.target.parent) w.files fun result t' =>
      SameAt d.target w.files t' ∧ (result = .ok () →
        Ready d (d.target.parent.entry (d.target.name ++ ".tmp")) t') := by
    refine yields_of_cases (fun _ t' h => ?_) fun e t' h => ?_
    · have hsame := hmake.of_ok h
      have hsameTarget : SameAt d.target w.files t' := hself ▸ hsame _ (.inl rfl)
      obtain ⟨within, hwithin⟩ := look_of_ensureDirectory h
      refine ⟨hsameTarget, fun _ => ⟨htarget.of_sameAt hsameTarget, (htemporary _ hbeside).of_sameAt
        (hsame _ (.inr (isEntryName_temporary _))), ?_⟩⟩
      have happart := entries_apart hwithin (isName_name hparts hnames)
      rwa [hself] at happart
    · exact ⟨hself ▸ hmake.of_error h _ (.inl rfl), fun h => by cases h⟩
  exact hmade.onFiles (fun _ _ h => ⟨rfl, h.1, _, hbeside, h.2 rfl⟩) fun e _ h => ⟨rfl, h.1, e, rfl⟩

/-- **A download** settles wherever there is a place for it. -/
theorem yields_settles (h : d.HasPlace w.files) : Yields (download d) w (d.Settles w) := by
  have hfiles := yields_ready h.isTree h.start h.names h.steady h.target h.temporary
  refine Yields.bind (fun _ w₁ h => ?_) fun e w₁ h => ?_
  · obtain ⟨hexchanges, hsame, temporary, hbeside, hready⟩ := hfiles.of_ok h
    rw [hbeside]
    exact (yields_fetch hready hbeside).imp fun _ _ => .before hexchanges hsame
  · obtain ⟨-, hsame, why, rfl⟩ := hfiles.of_error h
    exact .of_error hsame fun _ h => by cases h

end Download

/-- **A download settles**: whatever the server does, wherever the delivery breaks off, and whatever
lies at the target and at the temporary file if it is at most a file. -/
theorem download_settles (d : Download) {w : World} (htree : IsTree w.files)
    (hstart : w.files.get? (w.files.startOf d.target) = some .directory)
    (hnames : ∀ name ∈ d.target.parts, Path.isName name = true)
    (hsteady : IsSteady w.files d.target)
    (htarget : AtMostFile w.files d.target)
    (htemporary : ∀ temporary, d.temporary? = some temporary → AtMostFile w.files temporary) :
    Yields (download d) w (d.Settles w) :=
  Download.yields_settles ⟨htree, hstart, hnames, hsteady, htarget, htemporary⟩

/-- A world with an archive and what an earlier download of it left; the server has another one. -/
def worldWithArchive : World where
  files := {
    entries := [([], .directory), (["weaver.jar"], .file [1] false),
      (["weaver.jar.tmp"], .file [0x50, 0x4b] false)]
    workingDirectory := [] }
  exchanges := [.answered { body := [0x50, 0x4b, 0x03, 0x04, 0x00] }]

/-- An archive that is there is replaced, or it stays as it was. -/
theorem download_settles_over_archive :
    Yields (download { url := "http://maven/weaver.jar", target := ⟨.root, ["weaver.jar"]⟩ })
      worldWithArchive (Download.Settles
        { url := "http://maven/weaver.jar", target := ⟨.root, ["weaver.jar"]⟩ } worldWithArchive) := by
  have hroot : worldWithArchive.files.look .followed ⟨.root, []⟩ = .ok ([], .directory) :=
    look_start rfl rfl
  have hfile : ∀ name, IsEntryName name → IsFileOrNone (worldWithArchive.files.get? [name]) →
      AtMostFile worldWithArchive.files ⟨.root, [name]⟩ := fun name hname => atMostFile_entry hroot hname
  refine download_settles _ (isTree_of_entries rfl (by decide)) rfl (by decide)
    ⟨[], _, [], rfl, hroot, by decide⟩ (hfile _ (by simp [IsEntryName]) ?_) fun temporary htemporary => ?_
  · rintro node ⟨⟩
    rfl
  · cases htemporary
    refine hfile _ (Download.isEntryName_temporary _) ?_
    rintro node ⟨⟩
    rfl

/-- A target that leads up from something missing, and down to that. -/
def archiveBeside : Download := { url := "http://maven/a", target := ⟨.root, ["a", "..", "a"]⟩ }

/-- A target that leads up from something missing may become a directory. -/
theorem not_download_settles_up_from_missing :
    ¬ ∀ (d : Download) {w : World}, IsTree w.files →
      w.files.get? (w.files.startOf d.target) = some .directory →
      (∀ name ∈ d.target.parts, Path.isName name = true) → AtMostFile w.files d.target →
      (∀ temporary, d.temporary? = some temporary → AtMostFile w.files temporary) →
      Yields (download d) w (d.Settles w) := by
  intro h
  let before : FileTree := { entries := [([], .directory)], workingDirectory := [] }
  let after : FileTree := { before with entries := [(["a"], .directory), ([], .directory)] }
  have hfails : download archiveBeside { files := before } =
      .error (.rejected (.transfer "http://maven/a" ⟨.connection, "offline"⟩))
        { files := after, requests := [⟨"http://maven/a", some 30⟩] } := by cbv
  have hnothing : ∀ {p e}, before.look .own p = .error e → AtMostFile before p :=
    fun hlook q node hthere => by rw [hlook] at hthere; cases hthere
  have htarget : before.look .own archiveBeside.target =
      .error (.refusal .noEntry "/a/../a") := by cbv
  have hsettles := (h archiveBeside (w := { files := before }) (isTree_of_entries rfl (by decide)) rfl
    (by decide) (hnothing htarget) fun temporary htemporary => by
      cases htemporary
      exact hnothing (e := .refusal .noEntry "/a/../a.tmp") (by cbv)).of_error hfails
  have hlook : after.look .own archiveBeside.target = .ok (["a"], .directory) := by cbv
  rw [(hsettles.1 _).1 hlook] at htarget
  cases htarget

end WeaveStep
