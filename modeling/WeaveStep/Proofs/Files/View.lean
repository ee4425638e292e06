import WeaveStep.Files.Copy
import WeaveStep.Proofs.Alike
import WeaveStep.Proofs.Files.Ways
import WeaveStep.Proofs.Lists

/-!
# The view of a file tree is all that counts

Two trees may list the same entries in another order. `FileTree.SameView` relates trees with the
same entry at every location, the same working directory and the same file held open, and nothing
tells them apart:

* every question has the same answer (`walk_congr`, `names_congr`, `stat_congr`, …);
* every action on them ends alike (`respects_ensureDirectory`, `respects_removeTree`,
  `respects_copyTreeWithin`, …).
-/

namespace WeaveStep.FileTree

/-- Nothing tells the two trees apart. -/
structure SameView (t t' : FileTree) : Prop where
  get? : ∀ place, t.get? place = t'.get? place
  workingDirectory : t.workingDirectory = t'.workingDirectory
  held : t.held = t'.held

variable {t t' : FileTree}

theorem SameView.refl (t : FileTree) : SameView t t := ⟨fun _ => rfl, rfl, rfl⟩

theorem SameView.symm (h : SameView t t') : SameView t' t :=
  ⟨fun place => (h.get? place).symm, h.workingDirectory.symm, h.held.symm⟩

theorem SameView.trans {t'' : FileTree} (h : SameView t t') (h' : SameView t' t'') :
    SameView t t'' :=
  ⟨fun place => (h.get? place).trans (h'.get? place),
    h.workingDirectory.trans h'.workingDirectory, h.held.trans h'.held⟩

/-! ## Listings -/

theorem get?_ne_none_iff {place : Location} :
    t.get? place ≠ none ↔ ∃ e ∈ t.entries, e.1 = place := by
  rw [get?, ne_eq, List.lookup_eq_none_iff]
  simp [eq_comm (a := place)]

theorem mem_entries_of_get? {place : Location} {node : Node} (h : t.get? place = some node) :
    (place, node) ∈ t.entries := by
  obtain ⟨before, after, hentries, -⟩ := List.lookup_eq_some_iff.1 h
  simp [hentries]

theorem nameBelow?_eq_some {root place : Location} {name : String} :
    nameBelow? root place = some name ↔ place = root ++ [name] := by
  unfold nameBelow?
  constructor
  · intro h
    split at h
    · split at h
      · cases h; assumption
      · cases h
    · cases h
  · rintro rfl
    simp

/-- A directory lists a name if there is an entry of that name in it. -/
theorem mem_names {root : Location} {name : String} :
    name ∈ t.names root ↔ t.get? (root ++ [name]) ≠ none := by
  rw [names, List.mem_mergeSort, List.mem_eraseDups, List.mem_filterMap, get?_ne_none_iff]
  simp only [nameBelow?_eq_some]

theorem nodup_names (root : Location) : (t.names root).Nodup :=
  (List.mergeSort_perm _ _).nodup_iff.2 (nodup_eraseDups _)

/-- Directories with entries by the same names list the same. -/
theorem names_congr_of_none {root : Location}
    (h : ∀ name, t.get? (root ++ [name]) = none ↔ t'.get? (root ++ [name]) = none) :
    t.names root = t'.names root := by
  have hperm : (t.names root).Perm (t'.names root) :=
    (List.perm_ext_iff_of_nodup (nodup_names root) (nodup_names root)).2 fun name => by
      rw [mem_names, mem_names]
      exact not_congr (h name)
  exact mergeSort_eq ((List.mergeSort_perm _ _).symm.trans hperm) (pairwise_mergeSort _)

theorem names_congr {root : Location}
    (h : ∀ name, t.get? (root ++ [name]) = t'.get? (root ++ [name])) :
    t.names root = t'.names root :=
  names_congr_of_none fun name => by rw [h name]

/-! ## Questions -/

theorem walk_congr (h : ∀ place, t.get? place = t'.get? place) (last : LastName) (budget : Nat)
    (here : Location) (names : List String) :
    t.walk last budget here names = t'.walk last budget here names := by
  fun_induction t.walk last budget here names <;> rw [walk.eq_def t'] <;> grind

variable {p : Path}

theorem locateNames_congr (h : SameView t t') (last : LastName) (text : String) (start : Location)
    (names : List String) :
    t.locateNames last text start names = t'.locateNames last text start names := by
  unfold locateNames
  rw [walk_congr h.get?]

theorem locate_congr (h : SameView t t') (last : LastName) (p : Path) :
    t.locate last p = t'.locate last p := by
  unfold locate startOf
  rw [locateNames_congr h, h.workingDirectory]

theorem look_congr (h : SameView t t') (last : LastName) (p : Path) :
    t.look last p = t'.look last p := by
  unfold look
  simp only [locate_congr h, h.get?]

theorem stat_congr (h : SameView t t') (p : Path) : t.stat p = t'.stat p := by
  unfold stat
  rw [look_congr h]

theorem ask_congr (h : SameView t t') (sort : Node → Bool) (p : Path) :
    t.ask sort p = t'.ask sort p := by
  unfold ask
  rw [stat_congr h]

theorem leadsTo_congr (h : SameView t t') (sort : Node → Bool) (p : Path) :
    t.leadsTo sort p = t'.leadsTo sort p := by
  unfold leadsTo
  rw [stat_congr h]

theorem read_congr (h : SameView t t') (p : Path) : t.read p = t'.read p := by
  unfold read
  rw [stat_congr h]

theorem list_congr (h : SameView t t') (p : Path) : t.list p = t'.list p := by
  unfold list
  simp only [look_congr h, names_congr fun name => h.get? _]

theorem sameEntry_congr (h : SameView t t') (a b : Path) : t.sameEntry a b = t'.sameEntry a b := by
  unfold sameEntry
  rw [look_congr h, look_congr h]

theorem currentPath_congr (h : SameView t t') : t.currentPath = t'.currentPath := by
  unfold currentPath
  rw [h.get?, h.workingDirectory]

theorem absolute_congr (h : SameView t t') (p : Path) : t.absolute p = t'.absolute p := by
  unfold absolute
  rw [currentPath_congr h]

/-! ## Single changes -/

theorem SameView.set (h : SameView t t') (place : Location) (node : Node) :
    SameView (t.set place node) (t'.set place node) :=
  ⟨fun q => by rw [get?_set, get?_set, h.get?], h.workingDirectory, h.held⟩

theorem SameView.erase (h : SameView t t') (place : Location) :
    SameView (t.erase place) (t'.erase place) :=
  ⟨fun q => by rw [get?_erase, get?_erase, h.get?], h.workingDirectory, by
    simp only [FileTree.erase, h.held]⟩

theorem SameView.eraseInside (h : SameView t t') (root : Location) :
    SameView (t.eraseInside root) (t'.eraseInside root) :=
  ⟨fun q => by rw [get?_eraseInside, get?_eraseInside, h.get?], h.workingDirectory, by
    simp only [FileTree.eraseInside, h.held]⟩

theorem SameView.extendHeld (h : SameView t t') (bytes : List UInt8) :
    SameView (t.extendHeld bytes) (t'.extendHeld bytes) := by
  unfold FileTree.extendHeld
  rw [← h.held]
  cases t.held with
  | none => exact h
  | some place =>
    simp only [← h.get?]
    split
    · exact h.set _ _
    · exact h

/-- Two outcomes of a change: the same failure, or trees that `R` relates. -/
inductive ChangesAlike (R : FileTree → FileTree → Prop) :
    Except FileFailure FileTree → Except FileFailure FileTree → Prop
  | ok {t t' : FileTree} (h : R t t') : ChangesAlike R (.ok t) (.ok t')
  | error (e : FileFailure) : ChangesAlike R (.error e) (.error e)

theorem ChangesAlike.bind {R : FileTree → FileTree → Prop} {α : Type} {x : Except FileFailure α}
    {f f' : α → Except FileFailure FileTree} (h : ∀ a, ChangesAlike R (f a) (f' a)) :
    ChangesAlike R (x >>= f) (x >>= f') := by
  cases x with
  | ok a => exact h a
  | error e => exact .error e

theorem makeDirectory_alike (h : SameView t t') (p : Path) :
    ChangesAlike SameView (t.makeDirectory p) (t'.makeDirectory p) := by
  unfold makeDirectory
  rw [← locate_congr h]
  refine .bind fun place => ?_
  rw [← h.get?]
  split
  · exact .error _
  · exact .ok (h.set _ _)

theorem write_alike (h : SameView t t') (p : Path) (content : List UInt8) :
    ChangesAlike SameView (t.write p content) (t'.write p content) := by
  unfold write
  rw [← locate_congr h]
  refine .bind fun place => ?_
  rw [← h.get?]
  split
  · exact .ok (h.set _ _)
  · exact .ok h
  · exact .error _
  · exact .error _
  · exact .ok (h.set _ _)

theorem setExecutable_alike (h : SameView t t') (p : Path) (executable : Bool) :
    ChangesAlike SameView (t.setExecutable p executable) (t'.setExecutable p executable) := by
  unfold setExecutable
  rw [← look_congr h]
  refine .bind fun found => ?_
  split
  · exact .ok (h.set _ _)
  · exact .ok h

theorem removeDirectory_alike (h : SameView t t') (p : Path) :
    ChangesAlike SameView (t.removeDirectory p) (t'.removeDirectory p) := by
  unfold removeDirectory
  rw [← look_congr h]
  refine .bind fun found => ?_
  split
  · rw [← names_congr fun name => h.get? _]
    split
    · exact .error _
    · split
      · exact .error _
      · exact .ok (h.erase _)
  · exact .error _

/-! ## Actions -/

theorem respects_change {f : FileTree → Except FileFailure FileTree}
    (hf : ∀ t t', SameView t t' → ChangesAlike SameView (f t) (f t')) : Respects SameView (change f) := by
  intro t t' h
  have hchange := hf t t' h
  unfold change
  generalize f t = outcome, f t' = outcome' at hchange ⊢
  cases hchange with
  | ok hu => exact .ok () hu
  | error e => exact .error e h

theorem respects_query {α : Type} {f : FileTree → Except FileFailure α}
    (hf : ∀ t t', SameView t t' → f t = f t') : Respects SameView (query f) := by
  intro t t' h
  unfold query
  rw [hf t t' h]
  cases f t' with
  | ok a => exact .ok a h
  | error e => exact .error e h

section

variable {R : FileTree → FileTree → Prop}

theorem respects_dealingWith {α : Type} (earlier : FileFailure) {act : Action α}
    (hact : Respects R act) : Respects R (dealingWith earlier act) := by
  intro t t' h
  have hends := hact t t' h
  unfold dealingWith
  generalize act t = ending, act t' = ending' at hends ⊢
  cases hends with
  | ok a hu => exact .ok a hu
  | error e hu => exact .error _ hu

variable (hmake : ∀ p t t', R t t' → ChangesAlike R (t.makeDirectory p) (t'.makeDirectory p))
  (hask : ∀ p t t', R t t' → t.isDirectory? p = t'.isDirectory? p)

include hask in
theorem respects_unlessDirectory (p : Path) (e : FileFailure) :
    Respects R (unlessDirectory p e) := by
  intro t t' h
  unfold unlessDirectory
  rw [hask p t t' h]
  split
  · exact .ok () h
  · exact .error _ h
  · exact .error _ h

include hmake hask

theorem respects_ensureLast (p : Path) : Respects R (ensureLast p) := by
  intro t t' h
  have hmade := hmake p t t' h
  unfold ensureLast
  generalize t.makeDirectory p = made, t'.makeDirectory p = made' at hmade ⊢
  cases hmade with
  | ok hu => exact .ok () hu
  | error e =>
    dsimp only
    split
    · exact .error e h
    · exact respects_unlessDirectory hask p e t t' h

/-- What making single directories and asking for them does not tell apart, making a directory with
all above it does not. -/
theorem respects_ensureDirectory_of (p : Path) : Respects R (ensureDirectory p) := by
  intro t t' h
  have hmade := hmake p t t' h
  rw [ensureDirectory, ensureDirectory]
  generalize t.makeDirectory p = made, t'.makeDirectory p = made' at hmade ⊢
  cases hmade with
  | ok hu => exact .ok () hu
  | error e =>
    dsimp only
    split
    · split
      · exact .error e h
      · rename_i hparts
        have := parts_parent_length_lt hparts
        exact respects_dealingWith e ((respects_ensureDirectory_of p.parent).bind fun _ =>
          respects_ensureLast hmake hask p) t t' h
    · exact respects_unlessDirectory hask p e t t' h
termination_by p.parts.length

end

theorem respects_ensureDirectory (p : Path) : Respects SameView (ensureDirectory p) :=
  respects_ensureDirectory_of (fun p _ _ h => makeDirectory_alike h p)
    (fun p _ _ h => ask_congr h _ p) p

theorem respects_removeTree (p : Path) : Respects SameView (removeTree p) := by
  refine (respects_query fun t t' h => look_congr h .own p).bind fun found => ?_
  split
  · exact (respects_query fun t t' h => look_congr h .followed p).bind fun _ => .throw _
  · exact (Respects.modify fun _ _ h => h.eraseInside _).bind fun _ =>
      respects_change fun _ _ h => removeDirectory_alike h p
  · exact .throw _

/-! ## Copies -/

theorem respects_openCopy (target : Path) : Respects SameView (openCopy target) := by
  intro t t' h
  have hwritten := write_alike h target []
  unfold openCopy
  generalize t.write target [] = written, t'.write target [] = written' at hwritten ⊢
  cases hwritten with
  | ok hu => exact .ok () hu
  | error e =>
    dsimp only
    rw [leadsTo_congr h]
    split
    · exact .error _ h
    · exact .error e h

theorem respects_copyFile (shown : String × String) (source target : Path) :
    Respects SameView (copyFile shown source target) := by
  have hcopy : Respects SameView (do
      let content ← query (·.read source)
      openCopy target
      change (·.write target content)) :=
    (respects_query fun _ _ h => read_congr h source).bind fun _ =>
      (respects_openCopy target).bind fun _ => respects_change fun _ _ h => write_alike h _ _
  refine Respects.get_bind (fun t t' h => ?_) fun t => ?_
  · rw [sameEntry_congr h]
  · split
    · exact .throw _
    · exact hcopy

theorem respects_copyEntry (source target : Path) :
    Respects SameView (copyEntry source target) := by
  refine Respects.get_bind (fun t t' h => ?_) fun t => ?_
  · rw [leadsTo_congr h]
  · refine (respects_copyFile _ _ _).bind fun _ => ?_
    exact (respects_query fun _ _ h => stat_congr h source).bind fun _ =>
      respects_change fun _ _ h => setExecutable_alike h _ _

theorem respects_openTarget (target : Path) : Respects SameView (openTarget target) := by
  intro t t' h
  have hmade := makeDirectory_alike h target
  unfold openTarget
  generalize t.makeDirectory target = made, t'.makeDirectory target = made' at hmade ⊢
  cases hmade with
  | ok hu => exact .ok () hu
  | error e =>
    dsimp only
    rw [leadsTo_congr h]
    split
    · exact .ok () h
    · exact .error e h

theorem respects_noting (source target : Path) {act : Action Unit}
    (hact : Respects SameView act) : Respects SameView (noting source target act) := by
  intro t t' h
  have hends := hact t t' h
  unfold noting
  generalize act t = ending, act t' = ending' at hends ⊢
  cases hends with
  | ok a hu => exact .ok _ hu
  | error e hu => exact .ok _ hu

theorem respects_copyTreeWithin (depth : Nat) (source target : Path) :
    Respects SameView (copyTreeWithin depth source target) := by
  induction depth generalizing source target with
  | zero => exact .throw _
  | succ depth ih =>
    rw [copyTreeWithin]
    refine (respects_query fun _ _ h => list_congr h source).bind fun names =>
      (respects_openTarget target).bind fun _ => ?_
    have hentry : ∀ name, Respects SameView (noting (source.entry name) (target.entry name) do
        if (← get).leadsTo Node.isDirectory (source.entry name) then
          copyTreeWithin depth (source.entry name) (target.entry name)
        else copyEntry (source.entry name) (target.entry name)) := fun name => by
      refine respects_noting _ _ (Respects.get_bind (fun t t' h => ?_) fun t => ?_)
      · rw [leadsTo_congr h]
      · split
        · exact ih _ _
        · exact respects_copyEntry _ _
    refine Respects.bind (.mapM fun name _ => hentry name) fun flaws => ?_
    split
    · exact .throw _
    · exact .pure ()

end WeaveStep.FileTree
