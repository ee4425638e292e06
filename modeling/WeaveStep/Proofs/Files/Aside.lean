import WeaveStep.Proofs.Files.Growth
import WeaveStep.Proofs.Files.OneFile

/-!
# Changes aside from a place

Directories that are made, and files that are written aside from a place, leave what lies at the place
and below it as it is.

* `FileTree.SameLinks t t'`: no link and no directory is lost, and no link is added. So a path leads
  where it led, or to what was added.
* `FileTree.LeadsAside t place p`: the path does not lead to the place or below it, and will not for
  what is added.
* **`FileTree.ChangesAside place t t'`**: what lies at the place or below it is there still, unchanged,
  and every path leads on. Making a directory keeps to that (`changesAside_makeDirectory`), and so
  does writing a file by a path that leads aside (`changesAside_write`).
* `FileTree.KeepsWithin`: the first half of that. By a path that leads aside a file may be removed
  (`keepsWithin_unlink`) or moved, too (`keepsWithin_move`).
-/

namespace WeaveStep.FileTree

variable {t t' t'' : FileTree} {place q : Location} {p source target : Path}

/-! ## Relations -/

/-- The links are the same ones, and every directory is one still. -/
structure SameLinks (t t' : FileTree) : Prop where
  workingDirectory : t'.workingDirectory = t.workingDirectory
  link : ∀ q text, t'.get? q = some (.link text) ↔ t.get? q = some (.link text)
  directory : ∀ q, t.get? q = some .directory → t'.get? q = some .directory

/-- However many directories and files are added: the path does not lead to the place, or below it. -/
def LeadsAside (t : FileTree) (place : Location) (p : Path) : Prop :=
  ∀ t', SameLinks t t' → ∀ last q, t'.locate last p = .ok q → isWithin place q = false

/-- What lies at the place or below it is there still, unchanged. -/
def KeepsWithin (place : Location) (t t' : FileTree) : Prop :=
  ∀ q node, isWithin place q = true → t.get? q = some node → t'.get? q = some node

/-- Nothing at the place or below it was changed, and links and directories stay everywhere. -/
structure ChangesAside (place : Location) (t t' : FileTree) : Prop extends SameLinks t t' where
  within : KeepsWithin place t t'

instance : IsPreorder FileTree SameLinks where
  refl _ := ⟨rfl, fun _ _ => .rfl, fun _ => id⟩
  trans _ _ _ h h' := ⟨h'.workingDirectory.trans h.workingDirectory,
    fun q text => (h'.link q text).trans (h.link q text), fun q => h'.directory q ∘ h.directory q⟩

instance : IsPreorder FileTree (KeepsWithin place) where
  refl _ _ _ _ := id
  trans _ _ _ h h' q node hq hnode := h' q node hq (h q node hq hnode)

instance : IsPreorder FileTree (ChangesAside place) where
  refl t := ⟨refl_of SameLinks t, refl_of (KeepsWithin place) t⟩
  trans _ _ _ h h' := ⟨trans_of SameLinks h.toSameLinks h'.toSameLinks,
    trans_of (KeepsWithin place) h.within h'.within⟩

theorem LeadsAside.of_sameLinks (h : LeadsAside t place p) (hsame : SameLinks t t') :
    LeadsAside t' place p := fun t'' hsame' => h t'' (trans_of SameLinks hsame hsame')

theorem LeadsAside.locate (h : LeadsAside t place p) {last : LastName}
    (hlocate : t.locate last p = .ok q) : isWithin place q = false :=
  h t (refl_of SameLinks t) last q hlocate

/-- A path that meets no link, and is written aside, leads aside. -/
theorem leadsAside_of_straight (hnames : ∀ name ∈ p.parts, IsEntryName name)
    (hplain : ∀ front, front <+: p.parts → ∀ text,
      t.get? (t.startOf p ++ front) ≠ some (.link text))
    (haside : isWithin place (t.startOf p ++ p.parts) = false) : LeadsAside t place p := by
  intro t' hsame last q hlocate
  have hstart : t'.startOf p = t.startOf p := by rw [startOf, startOf, hsame.workingDirectory]
  have hway := (locate_eq_ok_iff.1 hlocate).2
  rw [hstart] at hway
  rw [hway.straight (fun front hfront text hlink => ?_) hnames]
  · exact haside
  · exact hplain front hfront text ((hsame.link _ text).1 hlink)

/-! ## Changes -/

/-- What is set aside from the place, and is no link and no directory in place of one. -/
theorem changesAside_set {node : Node} (haside : t.get? q ≠ none → isWithin place q = false)
    (hold : ∀ old, t.get? q = some old → old.isFile = true) (hlink : ∀ text, node ≠ .link text) :
    ChangesAside place t (t.set q node) where
  workingDirectory := rfl
  link other text := by
    rw [get?_set]
    split
    · rename_i heq
      subst heq
      refine iff_of_false (fun h => hlink text (Option.some.inj h)) fun h => ?_
      cases hold _ h
    · rfl
  directory other hother := by
    rw [get?_set, if_neg, hother]
    rintro rfl
    cases hold _ hother
  within other node' hother hnode := by
    rw [get?_set, if_neg, hnode]
    rintro rfl
    have hoff := haside (by simp [hnode])
    rw [hother] at hoff
    cases hoff

theorem changesAside_makeDirectory (h : t.makeDirectory p = .ok t') : ChangesAside place t t' := by
  obtain ⟨q, -, hfree, rfl⟩ := makeDirectory_eq_ok h
  exact changesAside_set (absurd hfree) (by simp [hfree]) (by simp)

theorem changesAside_write {content : List UInt8} (haside : LeadsAside t place p)
    (h : t.write p content = .ok t') : ChangesAside place t t' := by
  obtain ⟨q, hlocate, h⟩ := except_bind_eq_ok.1 h
  have hoff : t.get? q ≠ none → isWithin place q = false := fun _ => haside.locate hlocate
  split at h <;> cases h
  · rename_i hfile
    exact changesAside_set hoff (by simp [hfile, Node.isFile]) (by simp)
  · exact refl_of (ChangesAside place) t
  · rename_i hfree
    exact changesAside_set hoff (by simp [hfree]) (by simp)

theorem changesAside_extendHeld (haside : ∀ q, t.held = some q → isWithin place q = false)
    (bytes : List UInt8) : ChangesAside place t (t.extendHeld bytes) := by
  unfold extendHeld
  split
  · rename_i q hheld
    split
    · rename_i hfile
      exact changesAside_set (fun _ => haside q hheld) (by simp [hfile, Node.isFile]) (by simp)
    · exact refl_of (ChangesAside place) t
  · exact refl_of (ChangesAside place) t

theorem ne_of_aside {q other : Location} (hother : isWithin place other = true)
    (hq : isWithin place q = false) : other ≠ q := by
  rintro rfl
  rw [hother] at hq
  cases hq

theorem keepsWithin_unlink (haside : LeadsAside t place p) (h : t.unlink p = .ok t') :
    KeepsWithin place t t' := by
  obtain ⟨⟨q, node⟩, hlook, h⟩ := except_bind_eq_ok.1 h
  have hoff := haside.locate (look_eq_ok_iff.1 hlook).1
  split at h <;> cases h
  rename_i heq
  cases heq
  intro other node' hother hnode
  rw [get?_erase, if_neg (ne_of_aside hother hoff), hnode]

theorem keepsWithin_move (hsource : LeadsAside t place source) (htarget : LeadsAside t place target)
    (h : t.move source target = .ok t') : KeepsWithin place t t' := by
  obtain ⟨q, node, goal, hlook, hgoal, -, -, -, hmoved⟩ := move_eq_ok h
  obtain ⟨hlocate, hthere⟩ := look_eq_ok_iff.1 hlook
  obtain ⟨-, rfl⟩ | ⟨-, rfl⟩ := hmoved
  · exact refl_of (KeepsWithin place) _
  · intro other node' hother hnode
    rw [get?_relocate hthere, if_neg (ne_of_aside hother (htarget.locate hgoal)),
      if_neg (ne_of_aside hother (hsource.locate hlocate)), hnode]

/-! ## Actions -/

/-- The same file is held open. -/
def SameHeld (t t' : FileTree) : Prop := t'.held = t.held

instance : IsPreorder FileTree SameHeld where
  refl _ := rfl
  trans _ _ _ h h' := Eq.trans h' h

theorem sameHeld_makeDirectory {t' : FileTree} (h : t.makeDirectory p = .ok t') : SameHeld t t' := by
  obtain ⟨q, -, -, rfl⟩ := makeDirectory_eq_ok h
  rfl

theorem sameHeld_write {t' : FileTree} {content : List UInt8} (h : t.write p content = .ok t') :
    SameHeld t t' := by
  obtain ⟨q, -, h⟩ := except_bind_eq_ok.1 h
  split at h <;> cases h <;> rfl

theorem sameHeld_setExecutable {t' : FileTree} {executable : Bool}
    (h : t.setExecutable p executable = .ok t') : SameHeld t t' := by
  obtain ⟨found, -, h⟩ := except_bind_eq_ok.1 h
  split at h <;> cases h <;> rfl

theorem always_sameHeld_ensureDirectory (p : Path) : Always SameHeld (ensureDirectory p) :=
  .ensureDirectory (fun _ _ _ => sameHeld_makeDirectory) p

theorem always_sameHeld_write (p : Path) (content : List UInt8) :
    Always SameHeld (change (·.write p content)) :=
  .change fun _ _ => sameHeld_write

theorem keeps_aside_ensureDirectory (p : Path) :
    Always (Keeps (ChangesAside place t)) (ensureDirectory p) :=
  .ensureDirectory (R := Keeps (ChangesAside place t)) (fun _ _ _ h haside =>
    trans_of (ChangesAside place) haside (changesAside_makeDirectory h)) p

theorem keeps_aside_write (hp : LeadsAside t place p) (content : List UInt8) :
    Always (Keeps (ChangesAside place t)) (change (·.write p content)) :=
  .change (R := Keeps (ChangesAside place t)) fun _ _ h haside =>
    trans_of (ChangesAside place) haside (changesAside_write (hp.of_sameLinks haside.toSameLinks) h)

end WeaveStep.FileTree
