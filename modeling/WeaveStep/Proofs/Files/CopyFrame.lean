import WeaveStep.Proofs.Files.Actions
import WeaveStep.Proofs.Files.View
import WeaveStep.Proofs.Files.WellFormed

/-!
# What a copy leaves as it was

`FileTree.ChangesWithin place t t'`: between `t` and `t'` nothing was changed but what lies at a
place or below it. The directories there are still directories, and no link was made.

* **`changesWithin_copyTreeWithin`**, **`changesWithin_copyFile`**: copies whose target lies at a
  place or below it change nothing but what lies there, whether they fail or not. No links may lie
  there, since the system follows them in the path of the target.
-/

namespace WeaveStep.FileTree

/-- Nothing was changed but at a place or below it, where directories stay and no links are made. -/
structure ChangesWithin (place : Location) (t t' : FileTree) : Prop where
  outside : ∀ q, isWithin place q = false → t'.get? q = t.get? q
  there : ∀ q, t.get? q ≠ none → t'.get? q ≠ none
  directory : ∀ q, t.get? q = some .directory → t'.get? q = some .directory
  noLink : ∀ q target, t'.get? q = some (.link target) → t.get? q = some (.link target)
  isTree : IsTree t → IsTree t'
  workingDirectory : t'.workingDirectory = t.workingDirectory
  held : t'.held = t.held

instance (place : Location) : IsPreorder FileTree (ChangesWithin place) where
  refl _ := ⟨fun _ _ => rfl, fun _ h => h, fun _ h => h, fun _ _ h => h, id, rfl, rfl⟩
  trans _ _ _ h h' :=
    ⟨fun q hq => (h'.outside q hq).trans (h.outside q hq), fun q hq => h'.there q (h.there q hq),
      fun q hq => h'.directory q (h.directory q hq),
      fun q target hq => h.noLink q target (h'.noLink q target hq), h'.isTree ∘ h.isTree,
      h'.workingDirectory.trans h.workingDirectory, h'.held.trans h.held⟩

@[simp] theorem name_entry (p : Path) (name : String) : (p.entry name).name = name := by
  simp [Path.name, Path.entry]

/-- No link lies at a place or below it. -/
def NoLinks (place : Location) (t : FileTree) : Prop :=
  ∀ q target, isWithin place q = true → t.get? q ≠ some (.link target)

/-- The path names the entry `name` of the directory `within`. -/
structure EntryOf (t : FileTree) (p : Path) (within : Location) (name : String) : Prop where
  base : ∃ base : Path, p = base.entry name ∧ t.look .followed base = .ok (within, .directory)
  name : IsEntryName name

variable {t t' : FileTree} {place within : Location} {p source target : Path} {name : String}

theorem ChangesWithin.noLinks (h : ChangesWithin place t t') (hplain : NoLinks place t) :
    NoLinks place t' := fun q target hq hlink => hplain q target hq (h.noLink q target hlink)

theorem ChangesWithin.stays (h : ChangesWithin place t t') (hplain : NoLinks place t) :
    Stays t t' where
  workingDirectory := h.workingDirectory
  there := h.there
  directory := h.directory
  link q target hq := by
    cases hin : isWithin place q with
    | true => exact absurd hq (hplain q target hin)
    | false => rwa [h.outside q hin]
  noLink q target _ := h.noLink q target

theorem EntryOf.of_stays (h : EntryOf t p within name) (hstays : Stays t t') :
    EntryOf t' p within name := by
  obtain ⟨⟨base, rfl, hbase⟩, hname⟩ := h
  exact ⟨⟨base, rfl, look_directory_of_stays hstays hbase⟩, hname⟩

/-- Where an entry lies, whatever is wanted of its name. -/
theorem EntryOf.locate {last : LastName} {q : Location} (h : EntryOf t p within name)
    (hplain : ∀ target, t.get? (within ++ [name]) ≠ some (.link target))
    (hlocate : t.locate last p = .ok q) : q = within ++ [name] := by
  obtain ⟨⟨base, rfl, hbase⟩, hname⟩ := h
  exact (locate_entry (look_eq_ok_iff.1 hbase).1 hname hplain hlocate).1

theorem EntryOf.isDirectory (h : EntryOf t p within name) : t.get? within = some .directory := by
  obtain ⟨base, -, hbase⟩ := h.base
  exact (look_eq_ok_iff.1 hbase).2

/-! ## Single changes -/

theorem changesWithin_set {node : Node} (hname : IsEntryName name)
    (hparent : t.get? within = some .directory) (hq : isWithin place (within ++ [name]) = true)
    (hnode : ∀ target, node ≠ .link target)
    (hdirectory : t.get? (within ++ [name]) = some .directory → node = .directory) :
    ChangesWithin place t (t.set (within ++ [name]) node) where
  outside q' hq' := by
    rw [get?_set, if_neg]
    rintro rfl
    rw [hq] at hq'
    cases hq'
  there q' hq' := by
    rw [get?_set]
    split
    · simp
    · exact hq'
  directory q' hq' := by
    rw [get?_set]
    split
    · rename_i heq
      rw [heq] at hq'
      rw [hdirectory hq']
    · exact hq'
  noLink q' target hq' := by
    rw [get?_set] at hq'
    split at hq'
    · cases hq'
      exact absurd rfl (hnode target)
    · exact hq'
  isTree htree := htree.set hname hparent hdirectory
  workingDirectory := rfl
  held := rfl

section

variable (hentry : EntryOf t p within name)
  (hplain : ∀ target, t.get? (within ++ [name]) ≠ some (.link target))
include hentry hplain

theorem EntryOf.makeDirectory (h : t.makeDirectory p = .ok t') :
    t.get? (within ++ [name]) = none ∧ t' = t.set (within ++ [name]) .directory := by
  obtain ⟨q, hlocate, h⟩ := except_bind_eq_ok.1 h
  obtain rfl := hentry.locate hplain hlocate
  split at h <;> cases h
  exact ⟨‹_›, rfl⟩

theorem EntryOf.write {content : List UInt8} (h : t.write p content = .ok t') :
    (∃ isFull, t.get? (within ++ [name]) = some (.device isFull) ∧ t' = t) ∨
      ∃ executable, t' = t.set (within ++ [name]) (.file content executable) ∧
        ((∃ old, t.get? (within ++ [name]) = some (.file old executable)) ∨
          t.get? (within ++ [name]) = none ∧ executable = false) := by
  obtain ⟨q, hlocate, h⟩ := except_bind_eq_ok.1 h
  obtain rfl := hentry.locate hplain hlocate
  split at h <;> cases h
  · exact .inr ⟨_, rfl, .inl ⟨_, ‹_›⟩⟩
  · exact .inl ⟨_, ‹_›, rfl⟩
  · exact .inr ⟨_, rfl, .inr ⟨‹_›, rfl⟩⟩

theorem EntryOf.setExecutable {executable : Bool} (h : t.setExecutable p executable = .ok t') :
    (∃ content old, t.get? (within ++ [name]) = some (.file content old) ∧
      t' = t.set (within ++ [name]) (.file content executable)) ∨
      (∀ content old, t.get? (within ++ [name]) ≠ some (.file content old)) ∧ t' = t := by
  obtain ⟨⟨q, node⟩, hlook, h⟩ := except_bind_eq_ok.1 h
  obtain ⟨hlocate, hnode⟩ := look_eq_ok_iff.1 hlook
  obtain rfl := hentry.locate hplain hlocate
  split at h <;> cases h
  · rename_i hfile
    cases hfile
    exact .inl ⟨_, _, hnode, rfl⟩
  · rename_i hother
    refine .inr ⟨fun content old hfile => ?_, rfl⟩
    rw [hnode] at hfile
    cases hfile
    exact hother _ _ _ rfl

end

/-! ## Copies -/

/-- The target of a copy: an entry at a place or below it, where no links lie. -/
structure TargetIn (place : Location) (t : FileTree) (p : Path) : Prop where
  plain : NoLinks place t
  entry : ∃ within name, EntryOf t p within name ∧ isWithin place (within ++ [name]) = true

theorem TargetIn.of_changes (h : TargetIn place t p) (hchanges : ChangesWithin place t t') :
    TargetIn place t' p := by
  obtain ⟨hplain, within, name, hentry, hin⟩ := h
  exact ⟨hchanges.noLinks hplain, within, name, hentry.of_stays (hchanges.stays hplain), hin⟩

theorem TargetIn.write (h : TargetIn place t p) {content : List UInt8}
    (hwrite : t.write p content = .ok t') : ChangesWithin place t t' := by
  obtain ⟨hplain, within, name, hentry, hat⟩ := h
  rcases hentry.write (fun target => hplain _ target hat) hwrite with
    ⟨_, -, rfl⟩ | ⟨executable, rfl, hold⟩
  · exact refl_of (ChangesWithin place) t'
  · refine changesWithin_set hentry.name hentry.isDirectory hat (by simp) fun hdirectory => ?_
    rcases hold with ⟨old, hold⟩ | ⟨hold, -⟩ <;> simp_all

theorem TargetIn.makeDirectory (h : TargetIn place t p) (hmade : t.makeDirectory p = .ok t') :
    ChangesWithin place t t' := by
  obtain ⟨hplain, within, name, hentry, hat⟩ := h
  obtain ⟨-, rfl⟩ := hentry.makeDirectory (fun target => hplain _ target hat) hmade
  exact changesWithin_set hentry.name hentry.isDirectory hat (by simp) fun _ => rfl

theorem TargetIn.setExecutable (h : TargetIn place t p) {executable : Bool}
    (hset : t.setExecutable p executable = .ok t') : ChangesWithin place t t' := by
  obtain ⟨hplain, within, name, hentry, hat⟩ := h
  rcases hentry.setExecutable (fun target => hplain _ target hat) hset with
    ⟨content, old, hold, rfl⟩ | ⟨-, rfl⟩
  · exact changesWithin_set hentry.name hentry.isDirectory hat (by simp) fun hdirectory => by simp_all
  · exact refl_of (ChangesWithin place) t'

theorem changesWithin_openCopy (h : TargetIn place t target) :
    Yields (openCopy target) t fun _ t' => ChangesWithin place t t' := by
  cases hwrite : t.write target [] with
  | ok t' => simpa only [Yields, openCopy, hwrite] using h.write hwrite
  | error e =>
    have hrefl := refl_of (ChangesWithin place) t
    cases hmissing : e.isRefusal .isDirectory && !t.leadsTo (fun _ => true) target <;>
      simpa only [Yields, openCopy, hwrite, hmissing, if_true, Bool.false_eq_true, if_false]
        using hrefl

theorem changesWithin_openTarget (h : TargetIn place t target) :
    Yields (openTarget target) t fun _ t' => ChangesWithin place t t' := by
  cases hmade : t.makeDirectory target with
  | ok t' => simpa only [Yields, openTarget, hmade] using h.makeDirectory hmade
  | error e =>
    have hrefl := refl_of (ChangesWithin place) t
    cases hfound : t.leadsTo Node.isDirectory target <;>
      simpa only [Yields, openTarget, hmade, hfound, if_true, Bool.false_eq_true, if_false]
        using hrefl

/-- **A copy of a file** changes nothing but its target. -/
theorem changesWithin_copyFile (shown : String × String) (source : Path)
    (h : TargetIn place t target) :
    Yields (copyFile shown source target) t fun _ t' => ChangesWithin place t t' := by
  have hcopy : Yields (do
      let content ← query (·.read source)
      openCopy target
      change (·.write target content)) t fun _ t' => ChangesWithin place t t' := by
    refine (Always.query _ t).trans_bind fun content t₁ h₁ _ => ?_
    refine (changesWithin_openCopy (h.of_changes h₁)).trans_bind fun _ t₂ h₂ _ => ?_
    exact yields_change (fun t₃ => ((h.of_changes h₁).of_changes h₂).write) fun _ _ => refl_of _ _
  refine Yields.trans_bind (refl_of (ChangesWithin place) t) fun _ t₁ _ hget => ?_
  cases hget
  split
  · exact refl_of (ChangesWithin place) t
  · exact hcopy

/-- A directory that a path leads to in place of its entry. -/
theorem TargetIn.entry_of_leadsTo (h : TargetIn place t target) (hname : IsEntryName name)
    (hfound : t.leadsTo Node.isDirectory target = true) :
    TargetIn place t (target.entry name) := by
  obtain ⟨hplain, within, last, hentry, hin⟩ := h
  obtain ⟨found, hlook⟩ := leadsTo_directory.1 hfound
  have hat := hentry.locate (fun target => hplain _ target hin) (look_eq_ok_iff.1 hlook).1
  exact ⟨hplain, found, name, ⟨⟨target, rfl, hlook⟩, hname⟩, isWithin_append (hat ▸ hin)⟩

theorem changesWithin_copyEntry (h : TargetIn place t target) (hname : IsEntryName source.name) :
    Yields (copyEntry source target) t fun _ t' => ChangesWithin place t t' := by
  refine Yields.trans_bind (refl_of (ChangesWithin place) t) fun _ t₁ _ hget => ?_
  cases hget
  extract_lets goal
  have hgoal : TargetIn place t goal := by
    unfold goal
    split
    · exact h.entry_of_leadsTo hname ‹_›
    · exact h
  refine (changesWithin_copyFile _ _ hgoal).trans_bind fun _ t₂ h₂ _ => ?_
  refine (Always.query _ t₂).trans_bind fun node t₃ h₃ _ => ?_
  exact yields_change (fun t₄ => ((hgoal.of_changes h₂).of_changes h₃).setExecutable)
    fun _ _ => refl_of _ _

theorem changesWithin_noting {act : Action Unit}
    (h : Yields act t fun _ t' => ChangesWithin place t t') :
    Yields (noting source target act) t fun _ t' => ChangesWithin place t t' := by
  unfold Yields at h ⊢
  unfold noting
  cases hact : act t with
  | ok a t' => rw [hact] at h; exact h
  | error e t' => rw [hact] at h; exact h

theorem list_eq_ok {names : List String} (h : t.list p = .ok names) :
    ∃ place, t.look .followed p = .ok (place, .directory) ∧ names = t.names place := by
  obtain ⟨⟨place, node⟩, hlook, h⟩ := except_bind_eq_ok.1 h
  split at h <;> cases h
  rename_i hfound
  cases hfound
  exact ⟨place, hlook, rfl⟩

/-- What a directory lists are names of entries. -/
theorem isEntryName_of_list (htree : IsTree t) {names : List String} (h : t.list p = .ok names) :
    ∀ name ∈ names, IsEntryName name := by
  obtain ⟨place, -, rfl⟩ := list_eq_ok h
  exact fun name hname => htree.name place name (mem_names.1 hname)

theorem nodup_of_list {names : List String} (h : t.list p = .ok names) : names.Nodup := by
  obtain ⟨place, -, rfl⟩ := list_eq_ok h
  exact nodup_names place

/-- The directory for a copy is there once it is opened. -/
theorem leadsTo_of_openTarget (h : openTarget target t = .ok () t') :
    t'.leadsTo Node.isDirectory target = true := by
  unfold openTarget at h
  split at h
  · cases h
    obtain ⟨place, hlocate, hfree, rfl⟩ := makeDirectory_eq_ok ‹_›
    exact leadsTo_directory.2 ⟨place, look_made hlocate hfree⟩
  · split at h <;> cases h
    assumption

/-- Copies an entry of a directory, which may be a directory itself. -/
def copyInto (depth : Nat) (source target : Path) : Action Unit := do
  if (← get).leadsTo Node.isDirectory source then copyTreeWithin depth source target
  else copyEntry source target

/-- Once its target is opened, a copy of a tree changes nothing but what its entries do. -/
theorem changesWithin_entries {depth : Nat} (htree : IsTree t)
    (hdeeper : ∀ {source target t}, IsTree t → TargetIn place t target →
      Yields (copyTreeWithin depth source target) t fun _ t' => ChangesWithin place t t')
    (hopen : Yields (openTarget target) t fun _ t' => ChangesWithin place t t')
    (htarget : ∀ t', openTarget target t = .ok () t' → ∀ name, IsEntryName name →
      TargetIn place t' (target.entry name)) :
    Yields (copyTreeWithin (depth + 1) source target) t fun _ t' => ChangesWithin place t t' := by
  rw [copyTreeWithin]
  refine (Always.query _ t).trans_bind fun names t₁ h₁ hnames => ?_
  obtain ⟨hlist, rfl⟩ := query_eq_ok hnames
  have hentries := isEntryName_of_list htree hlist
  refine hopen.trans_bind fun _ t₂ h₂ hopened => ?_
  refine Yields.trans_bind (Yields.mapM_rel fun name hname t₃ h₃ => changesWithin_noting ?_)
    fun flaws t₃ _ _ => ?_
  · have hgoal : TargetIn place t₃ (target.entry name) :=
      (htarget t₂ hopened name (hentries name hname)).of_changes h₃
    refine Yields.trans_bind (refl_of (ChangesWithin place) t₃) fun _ t₄ _ hget => ?_
    cases hget
    split
    · exact hdeeper (h₃.isTree (h₂.isTree htree)) hgoal
    · refine changesWithin_copyEntry hgoal ?_
      simpa using hentries name hname
  · split
    · exact refl_of (ChangesWithin place) t₃
    · exact refl_of (ChangesWithin place) t₃

/-- **A copy of a tree** changes nothing but what lies at its target or below it. -/
theorem changesWithin_copyTreeWithin (htree : IsTree t) (depth : Nat) (source : Path)
    (h : TargetIn place t target) :
    Yields (copyTreeWithin depth source target) t fun _ t' => ChangesWithin place t t' := by
  induction depth generalizing source target t with
  | zero => exact refl_of (ChangesWithin place) t
  | succ depth ih =>
    have hopen := changesWithin_openTarget h
    exact changesWithin_entries htree (fun htree htarget => ih htree _ htarget) hopen
      fun t' hopened name hname =>
        (h.of_changes (hopen.of_ok hopened)).entry_of_leadsTo hname (leadsTo_of_openTarget hopened)

/-- A copy into a directory that is there changes nothing but what lies there. -/
theorem changesWithin_copyTreeWithin_into (htree : IsTree t) (hplain : NoLinks place t)
    (hthere : ∀ t', t.makeDirectory target ≠ .ok t')
    (hin : ∀ found node, t.look .followed target = .ok (found, node) → isWithin place found = true)
    (depth : Nat) (source : Path) :
    Yields (copyTreeWithin depth source target) t fun _ t' => ChangesWithin place t t' := by
  have hopen : ∀ t', openTarget target t = .ok () t' →
      t' = t ∧ t.leadsTo Node.isDirectory target = true := by
    intro t' hopened
    have hfound := leadsTo_of_openTarget hopened
    unfold openTarget at hopened
    split at hopened
    · exact absurd ‹_› (hthere _)
    · split at hopened <;> cases hopened
      exact ⟨rfl, hfound⟩
  cases depth with
  | zero => exact refl_of (ChangesWithin place) t
  | succ depth =>
    refine changesWithin_entries htree
      (fun htree htarget => changesWithin_copyTreeWithin htree depth _ htarget) ?_ ?_
    · refine yields_of_cases (fun _ t' hopened => ?_) fun e t' hfails => ?_
      · rw [(hopen t' hopened).1]
        exact refl_of (ChangesWithin place) t
      · unfold openTarget at hfails
        split at hfails
        · cases hfails
        · split at hfails <;> cases hfails
          exact refl_of (ChangesWithin place) t
    · intro t' hopened name hname
      obtain ⟨rfl, hfound⟩ := hopen t' hopened
      obtain ⟨found, hlook⟩ := leadsTo_directory.1 hfound
      exact ⟨hplain, found, name, ⟨⟨target, rfl, hlook⟩, hname⟩, isWithin_append (hin _ _ hlook)⟩

theorem changesWithin_copyInto (htree : IsTree t) (depth : Nat) (hname : IsEntryName source.name)
    (h : TargetIn place t target) :
    Yields (copyInto depth source target) t fun _ t' => ChangesWithin place t t' := by
  refine Yields.trans_bind (refl_of (ChangesWithin place) t) fun _ t₁ _ hget => ?_
  cases hget
  split
  · exact changesWithin_copyTreeWithin htree depth source h
  · exact changesWithin_copyEntry h hname

end WeaveStep.FileTree
