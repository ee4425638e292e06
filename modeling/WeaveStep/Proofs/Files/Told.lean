import WeaveStep.Proofs.Files.View
import WeaveStep.Proofs.Files.WellFormed

/-!
# What is added to the file held open

Between two steps the system writes records to the file that it holds open. `FileTree.Told t t'`: that
is all that was changed. The tree is well formed as it was (`isTree_of_kept`), and no path leads
elsewhere (`Told.stays`).
-/

namespace WeaveStep.FileTree

variable {t t' t'' : FileTree}

/-! ## Single entries -/

/-- The entry is what it was, or it is the file held open, and something was added to it. -/
def Kept (t t' : FileTree) (q : Location) : Prop :=
  t'.get? q = t.get? q ∨ t.held = some q ∧ ∃ old new executable,
    t.get? q = some (.file old executable) ∧ t'.get? q = some (.file new executable)

section Kept

variable {q : Location}

theorem Kept.none_iff (h : Kept t t' q) : t'.get? q = none ↔ t.get? q = none := by
  rcases h with h | ⟨-, old, new, executable, h, h'⟩ <;> simp_all

theorem Kept.directory_iff (h : Kept t t' q) :
    t'.get? q = some .directory ↔ t.get? q = some .directory := by
  rcases h with h | ⟨-, old, new, executable, h, h'⟩ <;> simp_all

theorem Kept.link_iff (h : Kept t t' q) {target : String} :
    t'.get? q = some (.link target) ↔ t.get? q = some (.link target) := by
  rcases h with h | ⟨-, old, new, executable, h, h'⟩ <;> simp_all

theorem Kept.trans (h : Kept t t' q) (h' : Kept t' t'' q) (hheld : t'.held = some q → t.held = some q) :
    Kept t t'' q := by
  rcases h with h | ⟨hopen, old, new, executable, h, hnew⟩ <;>
    rcases h' with h' | ⟨hopen', old', new', executable', h', hnew'⟩
  · exact .inl (h'.trans h)
  · exact .inr ⟨hheld hopen', old', new', executable', h ▸ h', hnew'⟩
  · exact .inr ⟨hopen, old, new, executable, h, h'.trans hnew⟩
  · rw [hnew] at h'
    cases h'
    exact .inr ⟨hopen, old, new', executable, h, hnew'⟩

/-- What is added to the file held open leaves every entry as it was, or adds to it. -/
theorem kept_extendHeld (t : FileTree) (bytes : List UInt8) (q : Location) :
    Kept t (t.extendHeld bytes) q := by
  unfold extendHeld
  split
  · rename_i place hheld
    split
    · rename_i content executable hfile
      by_cases hq : q = place
      · subst hq
        exact .inr ⟨hheld, content, content ++ bytes, executable, hfile, by simp [get?_set]⟩
      · exact .inl (by rw [get?_set, if_neg hq])
    · exact .inl rfl
  · exact .inl rfl

end Kept

/-! ## Whole trees -/

theorem held_extendHeld (t : FileTree) (bytes : List UInt8) :
    (t.extendHeld bytes).held = t.held := by
  unfold extendHeld
  split
  · split <;> simp_all [set]
  · rfl

theorem workingDirectory_extendHeld (t : FileTree) (bytes : List UInt8) :
    (t.extendHeld bytes).workingDirectory = t.workingDirectory := by
  unfold extendHeld
  split
  · split <;> rfl
  · rfl

/-- Nothing was changed, but for what was added to the file held open. -/
structure Told (t t' : FileTree) : Prop where
  kept : ∀ q, Kept t t' q
  workingDirectory : t'.workingDirectory = t.workingDirectory
  held : t'.held = t.held

instance : IsPreorder FileTree Told where
  refl _ := ⟨fun _ => .inl rfl, rfl, rfl⟩
  trans _ _ _ h h' := ⟨fun q => (h.kept q).trans (h'.kept q) h.held.symm.trans,
    h'.workingDirectory.trans h.workingDirectory, h'.held.trans h.held⟩

theorem told_extendHeld (t : FileTree) (bytes : List UInt8) : Told t (t.extendHeld bytes) :=
  ⟨kept_extendHeld t bytes, workingDirectory_extendHeld t bytes, held_extendHeld t bytes⟩

theorem Told.stays (h : Told t t') : Stays t t' where
  workingDirectory := h.workingDirectory
  there q hq hnone := hq ((h.kept q).none_iff.1 hnone)
  directory q := (h.kept q).directory_iff.2
  link q _ := (h.kept q).link_iff.2
  noLink q _ _ := (h.kept q).link_iff.1

theorem Told.symm (h : Told t t') : Told t' t where
  kept q := (h.kept q).elim (fun heq => .inl heq.symm) fun ⟨hopen, old, new, executable, hold, hnew⟩ =>
    .inr ⟨h.held.trans hopen, new, old, executable, hnew, hold⟩
  workingDirectory := h.workingDirectory.symm
  held := h.held.symm

theorem isTree_of_kept (htree : IsTree t) (h : ∀ q, Kept t t' q) : IsTree t' where
  root := (h _).directory_iff.2 htree.root
  parent place name hname := (h _).directory_iff.2
    (htree.parent place name fun hnone => hname ((h _).none_iff.2 hnone))
  name place name hname := htree.name place name fun hnone => hname ((h _).none_iff.2 hnone)

end WeaveStep.FileTree
