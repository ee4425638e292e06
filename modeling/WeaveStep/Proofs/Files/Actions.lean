import WeaveStep.Files.Copy
import WeaveStep.Proofs.Always

/-!
# Actions on files, step by step

What the single changes of an action leave as it was, for any preorder, the action leaves as it
was. A question changes nothing (`Always.query`), and making a directory with all that is missing
above it is a sequence of changes that make one directory each (`Always.ensureDirectory`).
-/

namespace WeaveStep

open FileTree

namespace FileTree

variable {α : Type} {t t' : FileTree}

theorem change_eq_ok {f : FileTree → Except FileFailure FileTree} (h : change f t = .ok () t') :
    f t = .ok t' := by
  unfold change at h
  split at h <;> cases h
  assumption

theorem change_ok {f : FileTree → Except FileFailure FileTree} (h : f t = .ok t') :
    change f t = .ok () t' := by
  rw [change, h]

theorem query_ok {f : FileTree → Except FileFailure α} {a : α} (h : f t = .ok a) :
    query f t = .ok a t := by
  rw [query, h]

theorem query_eq_ok {f : FileTree → Except FileFailure α} {a : α}
    (h : query f t = .ok a t') : f t = .ok a ∧ t' = t := by
  unfold query at h
  split at h <;> cases h
  exact ⟨‹_›, rfl⟩

end FileTree

theorem yields_change {f : FileTree → Except FileFailure FileTree} {t : FileTree}
    {Q : Except FileFailure Unit → FileTree → Prop} (ok : ∀ t', f t = .ok t' → Q (.ok ()) t')
    (error : ∀ e, f t = .error e → Q (.error e) t) : Yields (change f) t Q := by
  unfold Yields FileTree.change
  cases hf : f t with
  | ok t' => exact ok t' hf
  | error e => exact error e hf

namespace Always

variable {R : FileTree → FileTree → Prop} {α : Type}

theorem dealingWith {act : Action α} (earlier : FileFailure) (h : Always R act) :
    Always R (dealingWith earlier act) := by
  intro t
  have ht := h t
  unfold Yields at ht ⊢
  unfold FileTree.dealingWith
  cases ha : act t with
  | ok a t' => rw [ha] at ht; exact ht
  | error e t' => rw [ha] at ht; exact ht

theorem noting {act : Action Unit} (source target : Path) (h : Always R act) :
    Always R (noting source target act) := by
  intro t
  have ht := h t
  unfold Yields at ht ⊢
  unfold FileTree.noting
  cases ha : act t with
  | ok a t' => rw [ha] at ht; exact ht
  | error e t' => rw [ha] at ht; exact ht

variable [IsPreorder FileTree R]

theorem change {f : FileTree → Except FileFailure FileTree}
    (h : ∀ t t', f t = .ok t' → R t t') : Always R (change f) := fun t =>
  yields_change (h t) fun _ _ => refl_of R t

theorem query (f : FileTree → Except FileFailure α) : Always R (query f) := by
  intro t
  unfold Yields FileTree.query
  cases f t <;> exact refl_of R t

theorem unlessDirectory (p : Path) (e : FileFailure) : Always R (unlessDirectory p e) := by
  intro t
  unfold Yields FileTree.unlessDirectory
  rcases t.isDirectory? p with _ | _ | _ <;> exact refl_of R t

theorem ensureLast (p : Path) (hmake : ∀ t t', t.makeDirectory p = .ok t' → R t t') :
    Always R (ensureLast p) := by
  intro t
  cases hm : t.makeDirectory p with
  | ok t' => simpa only [Yields, FileTree.ensureLast, hm] using hmake t t' hm
  | error e =>
    by_cases he : e.isMissing = true
    · simpa only [Yields, FileTree.ensureLast, hm, he, if_true] using refl_of R t
    · exact .of_eq (by simp [FileTree.ensureLast, hm, he]) (unlessDirectory p e t)

/-- Only directories by the first names of the path are made. They are made from the first on: the
induction is that of the definition. -/
theorem ensureDirectory_along (p : Path) (hmake : ∀ names, names <+: p.parts → ∀ t t',
    t.makeDirectory ⟨p.anchor, names⟩ = .ok t' → R t t') : Always R (ensureDirectory p) := by
  intro t
  induction p, t using ensureDirectory.induct with
  | case1 p t t' hm =>
    simpa only [Yields, FileTree.ensureDirectory, hm] using hmake _ List.prefix_rfl t t' hm
  | case2 p t e hm he hp =>
    simpa only [Yields, FileTree.ensureDirectory, hm, he, if_true, dif_pos hp] using refl_of R t
  | case3 p t e hm he hp _ ih =>
    have hparent : ∀ names, names <+: p.parent.parts → names <+: p.parts :=
      fun names h => h.trans (List.dropLast_prefix _)
    have habove : Always R (do FileTree.ensureDirectory p.parent; FileTree.ensureLast p) :=
      Always.bind (fun t => ih t fun names h => hmake names (hparent names h)) fun _ =>
        ensureLast p (hmake _ List.prefix_rfl)
    exact .of_eq (by rw [FileTree.ensureDirectory, hm]; simp [he, hp]) (dealingWith e habove t)
  | case4 p t e hm he =>
    exact .of_eq (by rw [FileTree.ensureDirectory, hm]; simp [he]) (unlessDirectory p e t)

variable (hmake : ∀ p t t', t.makeDirectory p = .ok t' → R t t')
include hmake

theorem ensureDirectory (p : Path) : Always R (ensureDirectory p) :=
  ensureDirectory_along p fun _ _ => hmake _

/-! ## Copies -/

theorem openTarget (target : Path) : Always R (openTarget target) := by
  intro t
  cases hm : t.makeDirectory target with
  | ok t' => simpa only [Yields, FileTree.openTarget, hm] using hmake _ _ _ hm
  | error e =>
    have hrefl := refl_of R t
    cases hfound : t.leadsTo Node.isDirectory target <;>
      simpa only [Yields, FileTree.openTarget, hm, hfound, if_true, Bool.false_eq_true, if_false]
        using hrefl

variable (hwrite : ∀ p content t t', t.write p content = .ok t' → R t t')
include hwrite

omit hmake in
theorem openCopy (target : Path) : Always R (openCopy target) := by
  intro t
  cases hw : t.write target [] with
  | ok t' => simpa only [Yields, FileTree.openCopy, hw] using hwrite _ _ _ _ hw
  | error e =>
    have hrefl := refl_of R t
    cases hmissing : e.isRefusal .isDirectory && !t.leadsTo (fun _ => true) target <;>
      simpa only [Yields, FileTree.openCopy, hw, hmissing, if_true, Bool.false_eq_true, if_false]
        using hrefl

omit hmake in
theorem copyFile (shown : String × String) (source target : Path) :
    Always R (copyFile shown source target) := by
  refine Always.get.bind fun t => ?_
  have hcopy : Always R (do
      let content ← FileTree.query (·.read source)
      FileTree.openCopy target
      FileTree.change (·.write target content)) :=
    (query _).bind fun _ => (openCopy hwrite target).bind fun _ => change (hwrite target _)
  split
  · exact .throw _
  · exact hcopy

variable (hset : ∀ p executable t t', t.setExecutable p executable = .ok t' → R t t')
include hset

omit hmake in
theorem copyEntry (source target : Path) : Always R (copyEntry source target) := by
  refine Always.get.bind fun t => ?_
  refine (copyFile hwrite _ _ _).bind fun _ => Always.bind (query _) fun node => ?_
  exact change (hset _ _)

/-- What making directories, writing and setting the execute bit leave as it was, a copy does. -/
theorem copyTreeWithin (depth : Nat) (source target : Path) :
    Always R (copyTreeWithin depth source target) := by
  induction depth generalizing source target with
  | zero => exact .throw _
  | succ depth ih =>
    rw [FileTree.copyTreeWithin]
    refine (query _).bind fun names => (openTarget hmake target).bind fun _ => ?_
    refine Always.bind (.mapM fun name _ => noting _ _ (Always.get.bind fun t => ?_)) fun flaws => ?_
    · split
      · exact ih _ _
      · exact copyEntry hwrite hset _ _
    · split
      · exact .throw _
      · exact .pure ()

end Always

end WeaveStep
