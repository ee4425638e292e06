import WeaveStep.Proofs.Files.Growth
import WeaveStep.Proofs.Files.OneFile

/-!
# A place where nothing lies yet

What is told to the file held open changes nothing else: what a path leads to is what it was
(`Told.look_iff`, `Told.sameAt`).

* **`FileTree.Awaits p t`**: nothing lies at the path, and a file can be brought there by way of
  another one beside it. What is made on the way (`Awaits.of_stays`), what is told
  (`Awaits.of_told`) and what changes beside only (`Awaits.of_onlyAt`) leave it so.
* `isFile?_of_nothing`: no file is found there.
-/

namespace WeaveStep.FileTree

variable {t t' : FileTree} {p : Path} {last : LastName} {q : Location} {node : Node}
  {content : List UInt8}

/-! ## What is told to the file held open -/

theorem Told.locate_iff (h : Told t t') (hthere : t.get? q ≠ none) :
    t'.locate last p = .ok q ↔ t.locate last p = .ok q := by
  have hthere' : t'.get? q ≠ none := fun hnone => hthere ((h.kept q).none_iff.1 hnone)
  exact ⟨fun hlocate => locate_of_stays h.symm.stays hlocate fun _ hnone => absurd hnone hthere',
    fun hlocate => locate_of_stays h.stays hlocate fun _ hnone => absurd hnone hthere⟩

/-- What is told to another file leaves what a path leads to as it was. -/
theorem Told.look_iff (h : Told t t') (helsewhere : t.held ≠ some q) :
    t'.look last p = .ok (q, node) ↔ t.look last p = .ok (q, node) := by
  have hsame : t'.get? q = t.get? q := (h.kept q).resolve_right fun hopen => helsewhere hopen.1
  rw [look_eq_ok_iff, look_eq_ok_iff, hsame]
  exact and_congr_left fun hnode => h.locate_iff (by simp [hnode])

theorem Told.sameAt (h : Told t t')
    (helsewhere : ∀ q node, t.look .own p = .ok (q, node) → t.held ≠ some q) : SameAt p t t' := by
  rintro ⟨q, node⟩
  by_cases hheld : t.held = some q
  · refine iff_of_false (fun hlook => ?_) fun hlook => helsewhere q node hlook hheld
    obtain ⟨hlocate, hnode⟩ := look_eq_ok_iff.1 hlook
    have hthere : t.get? q ≠ none := fun hnone => by
      rw [(h.kept q).none_iff.2 hnone] at hnode
      cases hnode
    obtain ⟨old, hold⟩ := Option.ne_none_iff_exists'.1 hthere
    exact helsewhere q old (look_eq_ok_iff.2 ⟨(h.locate_iff hthere).1 hlocate, hold⟩) hheld
  · exact h.look_iff hheld

/-! ## Nothing there yet -/

/-- The file beside that a download to the path is received in. -/
def temporaryOf (p : Path) : Path := p.parent.entry (p.name ++ ".tmp")

/-- Nothing lies at the path, and it leads up only from what is there. Beside it there is at most a
file, and that is not the one held open. -/
structure Awaits (p : Path) (t : FileTree) : Prop where
  isTree : IsTree t
  start : t.get? (t.startOf p) = some .directory
  steady : IsSteady t p
  nothing : ∀ entry, t.look .own p ≠ .ok entry
  temporary : AtMostFile t (temporaryOf p)
  held : ∀ q, t.held = some q → t.get? q ≠ none ∧ ∀ node, t.look .own (temporaryOf p) ≠ .ok (q, node)

theorem Awaits.atMostFile (h : Awaits p t) : AtMostFile t p := fun _ _ hlook =>
  absurd hlook (h.nothing _)

theorem Awaits.of_stays (h : Awaits p t) (htree : IsTree t') (hstays : Stays t t')
    (hheld : t'.held = t.held) (hsame : SameAt p t t') (hbeside : SameAt (temporaryOf p) t t') :
    Awaits p t' where
  isTree := htree
  start := by
    rw [startOf, hstays.workingDirectory]
    exact hstays.directory _ h.start
  steady := h.steady.of_stays hstays
  nothing entry hlook := h.nothing entry ((hsame entry).1 hlook)
  temporary := h.temporary.of_sameAt hbeside
  held q hq := by
    obtain ⟨hthere, helsewhere⟩ := h.held q (hheld ▸ hq)
    exact ⟨hstays.there q hthere, fun node hlook => helsewhere node ((hbeside _).1 hlook)⟩

theorem Awaits.of_told (h : Awaits p t) (htold : Told t t') : Awaits p t' :=
  h.of_stays (isTree_of_kept h.isTree htold.kept) htold.stays htold.held
    (htold.sameAt fun _ _ hlook => absurd hlook (h.nothing _))
    (htold.sameAt fun q node hlook hq => (h.held q hq).2 node hlook)

/-- The file held open does not lie beside, whatever becomes of what does. -/
theorem Awaits.heldElsewhere (h : Awaits p t) : HeldElsewhere (temporaryOf p) t := by
  intro q hq hlocate
  obtain ⟨hthere, helsewhere⟩ := h.held q hq
  obtain ⟨node, hnode⟩ := Option.ne_none_iff_exists'.1 hthere
  exact helsewhere node (look_eq_ok_iff.2 ⟨hlocate, hnode⟩)

/-- What changes beside only leaves the path as it was. -/
theorem Awaits.of_onlyAt (h : Awaits p t) (honly : OnlyAt (temporaryOf p) t t')
    (hsame : SameAt p t t') : Awaits p t' where
  isTree := honly.isTree h.isTree h.start
  start := by
    rw [startOf, honly.ways.workingDirectory]
    exact honly.ways.directory h.start
  steady := by
    obtain ⟨front, rest, place, hparts, hfront, hup⟩ := h.steady
    exact ⟨front, rest, place, hparts, honly.ways.look_directory hfront, hup⟩
  nothing entry hlook := h.nothing entry ((hsame entry).1 hlook)
  temporary := honly.ways.atMostFile h.temporary
  held q hq := by
    have helsewhere := honly.heldElsewhere h.heldElsewhere q hq
    rw [honly.held h.heldElsewhere] at hq
    refine ⟨?_, fun node hlook => helsewhere (look_eq_ok_iff.1 hlook).1⟩
    rw [honly.others q (h.heldElsewhere q hq)]
    exact (h.held q hq).1

/-! ## Asking for a file -/

theorem look_followed_error {e : FileFailure} (h : t.look .followed p = .error e) :
    saysAbsent e = true ∨ e = .refusal .nameTooLong p.text := by
  have hlocate : ∀ e, t.locate .followed p = .error e →
      saysAbsent e = true ∨ e = .refusal .nameTooLong p.text := by
    intro e he
    unfold locate locateNames at he
    split at he
    · cases he
      exact .inl rfl
    split at he
    · cases he
      exact .inr rfl
    cases hwalk : t.walk .followed maxLinks (t.startOf p) p.parts with
    | ok place =>
      rw [hwalk] at he
      cases he
    | error why =>
      rw [hwalk] at he
      cases he
      rcases walk_error hwalk with rfl | rfl | rfl | rfl
      · exact .inl rfl
      · exact .inl rfl
      · exact .inl rfl
      · exact .inr rfl
  unfold look at h
  cases hfound : t.locate .followed p with
  | error e' =>
    rw [hfound] at h
    cases h
    exact hlocate _ hfound
  | ok place =>
    simp only [hfound, bind, Except.bind] at h
    split at h <;> cases h
    exact .inl rfl

/-- Where nothing lies there is no file, unless the system cannot tell. -/
theorem isFile?_of_nothing (hnothing : ∀ entry, t.look .own p ≠ .ok entry) :
    t.isFile? p = .ok false ∨ t.isFile? p = .error (.refusal .nameTooLong p.text) := by
  unfold isFile? ask stat
  cases hlook : t.look .followed p with
  | ok entry =>
    obtain ⟨place, node⟩ := entry
    obtain ⟨hsay, hway⟩ := locate_eq_ok_iff.1 (look_eq_ok_iff.1 hlook).1
    obtain ⟨q, hown, -⟩ := hway.own_of
    have hq := locate_eq_ok_iff.2 ⟨hsay, hown⟩
    obtain ⟨node', hthere⟩ := Option.ne_none_iff_exists'.1 (ne_none_of_look hlook hq)
    exact absurd (look_eq_ok_iff.2 ⟨hq, hthere⟩) (hnothing _)
  | error e =>
    rcases look_followed_error hlook with habsent | rfl
    · exact .inl (if_pos habsent)
    · exact .inr rfl

/-! ## A file that is there -/

theorem Holds.of_told (h : Holds p content t) (htold : Told t t') : Holds p content t' := by
  obtain ⟨q, executable, hlook, helsewhere⟩ := h
  exact ⟨q, executable, (htold.look_iff helsewhere).2 hlook, htold.held ▸ helsewhere⟩

end WeaveStep.FileTree
