import WeaveStep.Proofs.Files.Actions

/-!
# No action on files changes the working directory

`FileTree.SameDirectory` relates trees with the same working directory. Every change of a tree keeps
it, and so does every action that is made of changes.
-/

namespace WeaveStep.FileTree

/-- The working directory is the same. -/
def SameDirectory (t t' : FileTree) : Prop := t'.workingDirectory = t.workingDirectory

instance : IsPreorder FileTree SameDirectory where
  refl _ := rfl
  trans _ _ _ h h' := Eq.trans h' h

variable {t t' : FileTree} {p : Path}

/-! ## Single changes -/

theorem sameDirectory_relocate (source target : Location) :
    SameDirectory t (t.relocate source target) := by
  unfold relocate SameDirectory
  split
  · dsimp only
    split <;> rfl
  · rfl

theorem sameDirectory_extendHeld (bytes : List UInt8) : SameDirectory t (t.extendHeld bytes) := by
  unfold extendHeld SameDirectory
  split
  · split <;> rfl
  · rfl

theorem sameDirectory_makeDirectory (h : t.makeDirectory p = .ok t') : SameDirectory t t' := by
  obtain ⟨place, -, h⟩ := except_bind_eq_ok.1 h
  split at h <;> cases h
  rfl

theorem sameDirectory_write {content : List UInt8} (h : t.write p content = .ok t') :
    SameDirectory t t' := by
  obtain ⟨place, -, h⟩ := except_bind_eq_ok.1 h
  split at h <;> cases h <;> rfl

theorem sameDirectory_setExecutable {executable : Bool}
    (h : t.setExecutable p executable = .ok t') : SameDirectory t t' := by
  obtain ⟨found, -, h⟩ := except_bind_eq_ok.1 h
  split at h <;> cases h <;> rfl

theorem sameDirectory_unlink (h : t.unlink p = .ok t') : SameDirectory t t' := by
  obtain ⟨found, -, h⟩ := except_bind_eq_ok.1 h
  split at h <;> cases h
  rfl

theorem sameDirectory_removeDirectory (h : t.removeDirectory p = .ok t') : SameDirectory t t' := by
  obtain ⟨found, -, h⟩ := except_bind_eq_ok.1 h
  split at h
  · split at h
    · cases h
    · split at h <;> cases h
      rfl
  · cases h

theorem sameDirectory_move {source target : Path} (h : t.move source target = .ok t') :
    SameDirectory t t' := by
  obtain ⟨⟨place, node⟩, -, h⟩ := except_bind_eq_ok.1 h
  obtain ⟨place', -, h⟩ := except_bind_eq_ok.1 h
  dsimp only at h
  split at h
  · cases h
  · split at h
    · cases h
    · cases h
    · split at h <;> cases h
      · exact refl_of SameDirectory t
      · exact sameDirectory_relocate place place'

/-! ## Paths -/

theorem currentPath_eq {t : FileTree} {here : Path} (h : t.currentPath = .ok here) :
    here = ⟨.root, t.workingDirectory⟩ := by
  unfold currentPath at h
  split at h <;> cases h
  rfl

theorem isAbsolute_of_absolute {t : FileTree} {p q : Path} (h : t.absolute p = .ok q) : q.isAbsolute = true := by
  unfold absolute at h
  split at h
  · cases h
    assumption
  · rename_i hp
    unfold currentPath at h
    split at h
    · cases h
      show ((⟨.root, t.workingDirectory⟩ : Path).join p).isAbsolute = true
      rw [Path.join, if_neg hp]
      rfl
    · cases h

/-- The absolute form of a path goes by the working directory alone. -/
theorem absolute_of_sameDirectory {t t' : FileTree} {here p q : Path} (hdir : SameDirectory t t')
    (hhere : t.currentPath = .ok here) (hq : t'.absolute p = .ok q) : t.absolute p = .ok q := by
  unfold absolute at hq ⊢
  split
  · rename_i hp
    rwa [if_pos hp] at hq
  · rename_i hp
    rw [if_neg hp] at hq
    cases hhere' : t'.currentPath with
    | error why => rw [hhere'] at hq; cases hq
    | ok here' =>
      have heq : here' = here := by
        rw [currentPath_eq hhere, currentPath_eq hhere', show _ = _ from hdir]
      rw [hhere', heq] at hq
      rw [hhere]
      exact hq

/-! ## Actions -/

theorem always_ensureDirectory (p : Path) : Always SameDirectory (ensureDirectory p) :=
  .ensureDirectory (fun _ _ _ => sameDirectory_makeDirectory) p

theorem always_removeTree (p : Path) : Always SameDirectory (removeTree p) := by
  refine (Always.query _).bind fun found => ?_
  split
  · exact (Always.query _).bind fun _ => .throw _
  · rename_i place
    have herase : Always SameDirectory (modify fun t => t.eraseInside place : Action Unit) :=
      Always.modify fun _ => rfl
    exact herase.bind fun _ => Always.change fun _ _ h => sameDirectory_removeDirectory h
  · exact .throw _

theorem always_copyFile (shown : String × String) (source target : Path) :
    Always SameDirectory (copyFile shown source target) :=
  .copyFile (fun _ _ _ _ => sameDirectory_write) shown source target

theorem always_copyTreeWithin (depth : Nat) (source target : Path) :
    Always SameDirectory (copyTreeWithin depth source target) :=
  .copyTreeWithin (fun _ _ _ => sameDirectory_makeDirectory) (fun _ _ _ _ => sameDirectory_write)
    (fun _ _ _ _ => sameDirectory_setExecutable) depth source target

end WeaveStep.FileTree
