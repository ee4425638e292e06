import Mathlib
import WeaveStep.Proofs.Files.Ways
import WeaveStep.Proofs.Weave.View

/-!
# Every weave starts afresh

A weave removes what lies at its root before it does anything else, so what an earlier one left
there makes no difference.

* `FileTree.without`: a tree without all that lies at a place or below it.
* `FileTree.OutputAt`: the root of a weave is a directory at some place, or absent.
* **`weave_alike_of_agreeOutside`**: two worlds whose files agree but for the outputs have the same
  weave, where the outputs can be deleted.

The root has to be found again once it is empty. Where a link above the root leads through what
lies below it, it is not, and the deletion fails (`not_weave_alike_through_outputs`). That a tree may be
nested too deep to be deleted, or not be allowed to be, is left out of the model; the deletion is asked to
succeed, so these cases are none of the theorem.
-/

namespace WeaveStep

namespace FileTree

variable {t t' t₁ t₂ : FileTree} {root : Path} {place : Location}

/-! ## Trees and their outputs -/

/-- The tree without all that lies at a place or below it. -/
def without (t : FileTree) (place : Location) : FileTree :=
  { t with
    entries := t.entries.filter (fun e => !isWithin place e.1)
    held := t.held.filter (!isWithin place ·) }

theorem get?_without (t : FileTree) (place q : Location) :
    (t.without place).get? q = if isWithin place q then none else t.get? q := by
  have h := lookup_filter (fun k => !isWithin place k) t.entries q
  cases hq : isWithin place q <;> simpa [get?, without, hq] using h

/-- Both trees are the same but for what lies at a place or below it. -/
def AgreeOutside (place : Location) (t₁ t₂ : FileTree) : Prop :=
  SameView (t₁.without place) (t₂.without place)

/-- The outputs of a weave lie at a place: its root is a real directory there, or nothing is. -/
inductive OutputAt (t : FileTree) (root : Path) (place : Location) : Prop
  | directory (found : t.look .own root = .ok (place, .directory)) (notHeld : t.held ≠ some place)
  | absent (nothing : t.SameView (t.without place)) (below : place ≠ [])

/-- Taking away the entry at a place, after all below it, takes away all that is there. -/
theorem sameView_erase_eraseInside (t : FileTree) (place : Location) :
    SameView ((t.eraseInside place).erase place) (t.without place) := by
  refine ⟨fun q => ?_, rfl, ?_⟩
  · rw [get?_erase, get?_eraseInside, get?_without]
    by_cases hq : q = place
    · simp [hq, isWithin_refl]
    · simp [hq]
  · simp only [erase, eraseInside, without, Option.filter_filter]
    congr 1
    funext q
    by_cases hq : q = place
    · simp [hq, isWithin_refl]
    · simp [hq]

theorem held_eraseInside (h : t.held ≠ some place) :
    (t.eraseInside place).held = (t.without place).held := by
  simp only [eraseInside, without]
  cases hheld : t.held with
  | none => rfl
  | some q =>
    have hne : q ≠ place := fun heq => h (heq ▸ hheld)
    simp [Option.filter, hne]

/-- Trees that agree but for what lies at a place agree as well once both have an empty directory
there. -/
theorem AgreeOutside.eraseInside (h : AgreeOutside place t₁ t₂)
    (h₁ : t₁.get? place = t₂.get? place) (held₁ : t₁.held ≠ some place)
    (held₂ : t₂.held ≠ some place) : SameView (t₁.eraseInside place) (t₂.eraseInside place) := by
  refine ⟨fun q => ?_, h.workingDirectory, ?_⟩
  · have hq := h.get? q
    rw [get?_without, get?_without] at hq
    rw [get?_eraseInside, get?_eraseInside]
    by_cases heq : q = place
    · simp [heq, h₁]
    · split at hq <;> simp_all
  · rw [held_eraseInside held₁, held_eraseInside held₂]
    exact h.held

/-! ## Clearing the outputs -/

theorem exists?_of_look_own (h : t.look .own root = .ok (place, .directory)) :
    t.exists? root = .ok true := by
  obtain ⟨hlocate, hnode⟩ := look_eq_ok_iff.1 h
  have hfollowed : t.locate .followed root = .ok place :=
    locate_followed_of_own hlocate (by simp [hnode])
  have hstat : t.stat root = .ok .directory :=
    stat_eq_ok_iff.2 ⟨place, look_eq_ok_iff.2 ⟨hfollowed, hnode⟩⟩
  simp [exists?, ask, hstat]

theorem names_eraseInside (t : FileTree) (place : Location) :
    (t.eraseInside place).names place = [] := by
  refine List.eq_nil_iff_forall_not_mem.2 fun name hname => mem_names.1 hname ?_
  rw [get?_eraseInside]
  simp [isWithin]

/-- What clearing a real directory does: it is emptied, and then removed. -/
theorem clearSlots_of_directory (h : t.look .own root = .ok (place, .directory)) :
    clearSlots root t = change (·.removeDirectory root) (t.eraseInside place) := by
  have hexists : query (·.exists? root) t = .ok true t := by
    rw [query, exists?_of_look_own h]
  have hlook : query (·.look .own root) t = .ok (place, .directory) t := by rw [query, h]
  rw [clearSlots, bind_ok hexists]
  exact bind_ok hlook

theorem removeDirectory_eq_ok (h : t.removeDirectory root = .ok t') :
    ∃ place, t.look .own root = .ok (place, .directory) ∧ root.parts ≠ [] ∧ root.name ≠ ".." ∧
      t' = t.erase place := by
  obtain ⟨⟨place, node⟩, hlook, h⟩ := except_bind_eq_ok.1 h
  split at h
  · rename_i found _ hfound
    cases hfound
    split at h
    · cases h
    · split at h <;> cases h
      rename_i hparts hname
      exact ⟨_, hlook, hparts, fun h => hname (Or.inl h), rfl⟩
  · cases h

theorem stays_of_eraseInside (t : FileTree) (place : Location) : Stays (t.eraseInside place) t := by
  refine stays_of_kept rfl fun q node hq => ?_
  rw [get?_eraseInside] at hq
  split at hq
  · cases hq
  · exact hq

/-- A directory that is found again when it is empty is removed with all below it. -/
theorem clearSlots_of_emptied (h : t.look .own root = .ok (place, .directory))
    (hagain : (t.eraseInside place).look .own root = .ok (place, .directory)) (hparts : root.parts ≠ [])
    (hname : root.name ≠ "..") : clearSlots root t = .ok () ((t.eraseInside place).erase place) := by
  rw [clearSlots_of_directory h, change, removeDirectory, hagain]
  simp [bind, Except.bind, hparts, hname, names_eraseInside]

/-- Where clearing a directory succeeds, it was found again when it was empty. -/
theorem emptied_of_clearSlots (h : t.look .own root = .ok (place, .directory))
    (hclear : clearSlots root t = .ok () t') :
    (t.eraseInside place).look .own root = .ok (place, .directory) ∧
      t' = (t.eraseInside place).erase place := by
  rw [clearSlots_of_directory h] at hclear
  obtain ⟨found, hagain, -, -, rfl⟩ := removeDirectory_eq_ok (change_eq_ok hclear)
  have hsame := h.symm.trans (look_directory_of_stays (stays_of_eraseInside t place) hagain)
  cases hsame
  exact ⟨hagain, rfl⟩

/-- Where a directory is gone, a walk ends as it did, or for want of an entry. -/
theorem Way.of_gone {last : LastName} {budget : Nat} {here q : Location} {names : List String}
    (hgone : ∀ place, t₂.get? place = t₁.get? place ∨
      t₁.get? place = some .directory ∧ t₂.get? place = none)
    (h : Way t₁ last budget here names q) :
    t₂.walk last budget here names = .ok q ∨ t₂.walk last budget here names = .error .noEntry := by
  have hlink : ∀ place target,
      t₂.get? place = some (.link target) ↔ t₁.get? place = some (.link target) := by
    intro place target
    rcases hgone place with h | ⟨h, h'⟩
    · rw [h]
    · simp [h, h']
  have hhere : ∀ {here}, t₁.get? here = some .directory →
      t₂.get? here = some .directory ∨ t₂.get? here = none := fun hdirectory =>
    (hgone _).imp (·.trans hdirectory) (·.2)
  induction h with
  | done => exact .inl (by rw [walk])
  | stay directory blank _ ih =>
    rcases hhere directory with h | h
    · rwa [walk_stay h blank]
    · exact .inr (walk_noEntry h)
  | up directory _ ih =>
    rcases hhere directory with h | h
    · rwa [walk_up h]
    · exact .inr (walk_noEntry h)
  | own directory step link own =>
    rcases hhere directory with h | h
    · exact .inl (walk_own h step ((hlink _ _).2 link) own)
    · exact .inr (walk_noEntry h)
  | follow directory step link followed _ ih =>
    rcases hhere directory with h | h
    · rwa [walk_follow h step ((hlink _ _).2 link) followed]
    · exact .inr (walk_noEntry h)
  | down directory step plain _ ih =>
    rcases hhere directory with h | h
    · rwa [walk_down h step fun target hlinked => plain target ((hlink _ _).1 hlinked)]
    · exact .inr (walk_noEntry h)

/-- Where the root leads nowhere, nothing is removed. -/
theorem clearSlots_of_noEntry {text : String} (h : t.stat root = .error (.refusal .noEntry text)) :
    clearSlots root t = .ok () t := by
  have hexists : query (·.exists? root) t = .ok false t := by
    simp [query, exists?, ask, h, saysAbsent, FileFailure.refusal]
  rw [clearSlots, bind_ok hexists]
  rfl

/-- Without an empty directory that it leads to, the root leads nowhere, and nothing is removed. -/
theorem clearSlots_of_gone (h : t₁.look .own root = .ok (place, .directory))
    (hgone : ∀ q, t₂.get? q = if q = place then none else t₁.get? q)
    (hdirectory : t₂.workingDirectory = t₁.workingDirectory) :
    clearSlots root t₂ = .ok () t₂ := by
  obtain ⟨hlocate, hnode⟩ := look_eq_ok_iff.1 h
  have hfollowed : t₁.locate .followed root = .ok place :=
    locate_followed_of_own hlocate (by simp [hnode])
  obtain ⟨⟨hnull, hlong⟩, hway⟩ := locate_eq_ok_iff.1 hfollowed
  have hstart : t₂.startOf root = t₁.startOf root := by unfold startOf; rw [hdirectory]
  have hwalk : t₂.walk .followed maxLinks (t₁.startOf root) root.parts = .ok place ∨
      t₂.walk .followed maxLinks (t₁.startOf root) root.parts = .error .noEntry :=
    hway.of_gone fun q => by
      rw [hgone q]
      split
      · exact .inr ⟨by simp_all, rfl⟩
      · exact .inl rfl
  have hstat : t₂.stat root = .error (.refusal .noEntry root.text) := by
    have hshort : ¬ pathBytesLimit ≤ root.text.utf8ByteSize := by omega
    rcases hwalk with hwalk | hwalk <;>
      simp [stat, look, locate, locateNames, hnull, hshort, hstart, hwalk, hgone, bind, Except.bind,
        Except.mapError, Functor.map, Except.map]
  exact clearSlots_of_noEntry hstat

/-! ## Two trees -/

/-- A directory in one tree, which can be deleted there, that is absent in the other. -/
theorem clearSlots_alike_of_absent {cleared : FileTree} (hagree : AgreeOutside place t₁ t₂)
    (found : t₁.look .own root = .ok (place, .directory)) (nothing : t₂.SameView (t₂.without place))
    (hclear : clearSlots root t₁ = .ok () cleared) :
    EndsAlike SameView (clearSlots root t₁) (clearSlots root t₂) := by
  obtain ⟨hempty, rfl⟩ := emptied_of_clearSlots found hclear
  have hsame : SameView ((t₁.eraseInside place).erase place) t₂ :=
    (sameView_erase_eraseInside t₁ place).trans (hagree.trans nothing.symm)
  rw [hclear, clearSlots_of_gone hempty (fun q => by rw [← hsame.get? q, get?_erase])
    hsame.workingDirectory.symm]
  exact .ok () hsame

theorem clearSlots_alike {cleared₁ cleared₂ : FileTree} (hagree : AgreeOutside place t₁ t₂)
    (h₁ : OutputAt t₁ root place) (h₂ : OutputAt t₂ root place)
    (hclear₁ : clearSlots root t₁ = .ok () cleared₁) (hclear₂ : clearSlots root t₂ = .ok () cleared₂) :
    EndsAlike SameView (clearSlots root t₁) (clearSlots root t₂) := by
  cases h₁ with
  | directory found₁ held₁ =>
    cases h₂ with
    | directory found₂ held₂ =>
      have hnode := (look_eq_ok_iff.1 found₁).2.trans (look_eq_ok_iff.1 found₂).2.symm
      rw [clearSlots_of_directory found₁, clearSlots_of_directory found₂]
      exact respects_change (fun _ _ h => removeDirectory_alike h root) _ _
        (hagree.eraseInside hnode held₁ held₂)
    | absent nothing₂ _ => exact clearSlots_alike_of_absent hagree found₁ nothing₂ hclear₁
  | absent nothing₁ below =>
    cases h₂ with
    | directory found₂ _ =>
      exact (clearSlots_alike_of_absent hagree.symm found₂ nothing₁ hclear₂).symm fun _ _ => SameView.symm
    | absent nothing₂ _ =>
      exact respects_clearSlots root _ _ (nothing₁.trans (hagree.trans nothing₂.symm))

end FileTree

open FileTree

/-- **Every weave starts afresh.** Two worlds whose files agree but for the outputs at the root, which
can be deleted in both, have the same weave: the same result or failure, and worlds after it that nothing
tells apart, with what was logged and what the weaver was told. -/
theorem weave_alike_of_agreeOutside {weaver : Weaver} (hweaver : weaver.GoesByView)
    (settings : Settings) {root : Path} (input : WeaveInput) {place : Location} {w₁ w₂ : World}
    (hothers : w₂ = { w₁ with files := w₂.files })
    (hagree : AgreeOutside place w₁.files w₂.files)
    (h₁ : OutputAt w₁.files root place) (h₂ : OutputAt w₂.files root place)
    (hclear₁ : ∃ cleared, clearSlots root w₁.files = .ok () cleared)
    (hclear₂ : ∃ cleared, clearSlots root w₂.files = .ok () cleared) :
    EndsAlike World.SameView (weave settings root weaver input w₁)
      (weave settings root weaver input w₂) := by
  obtain ⟨cleared₁, hclear₁⟩ := hclear₁
  obtain ⟨cleared₂, hclear₂⟩ := hclear₂
  rw [weave_eq]
  exact ((clearSlots_alike hagree h₁ h₂ hclear₁ hclear₂).onFiles hothers).bind fun _ =>
    respects_weaveCleared World.isBlind_sameView hweaver settings root input

/-! ## Worlds to weave in -/

/-- A weaver that writes one class file. -/
def classWriter : Weaver where
  version := none
  run i := do
    Run.onFiles .badCommand (change (·.write (i.output.entry "A.class") [202, 254]))
    return []

theorem classWriter_goesByView : classWriter.GoesByView := fun _ =>
  (respects_onFiles World.isBlind_sameView _ (respects_change fun _ _ h =>
    write_alike h _ _)).bind fun _ => .pure _

/-- Files with an input, and outputs besides. -/
def filesWith (outputs : List (Location × Node)) : FileTree where
  entries :=
    [([], .directory), (["in"], .directory), (["in", "A.class"], .file [202] false)] ++ outputs
  workingDirectory := []

/-- A weave with outputs of an earlier one, a link and a nested directory among them, is the weave
without them. -/
theorem weave_alike_after_earlier_outputs :
    EndsAlike World.SameView
      (weave {} ⟨.root, ["out"]⟩ classWriter { inputs := [⟨[⟨⟨.root, ["in"]⟩, "in", .directory⟩], []⟩] }
        { files := filesWith [(["out"], .directory), (["out", "old"], .directory),
          (["out", "old", "B.class"], .file [1] false), (["out", "link"], .link "../in")] })
      (weave {} ⟨.root, ["out"]⟩ classWriter { inputs := [⟨[⟨⟨.root, ["in"]⟩, "in", .directory⟩], []⟩] }
        { files := filesWith [] }) := by
  have hagree : AgreeOutside ["out"]
      (filesWith [(["out"], .directory), (["out", "old"], .directory),
        (["out", "old", "B.class"], .file [1] false), (["out", "link"], .link "../in")])
      (filesWith []) := SameView.refl _
  refine weave_alike_of_agreeOutside classWriter_goesByView {} _ rfl hagree
    (.directory (by cbv) (by decide)) (.absent (SameView.refl _) (by decide)) ⟨_, by cbv⟩ ⟨_, by cbv⟩

/-- Files with a link above the root that leads through the root: to `/x` over `/x/out/sub`. -/
def filesThrough (outputs : List (Location × Node)) : FileTree where
  entries := [([], .directory), (["l"], .link "x/out/sub/../.."), (["x"], .directory)] ++ outputs
  workingDirectory := []

theorem targetStart_nil (target : String) : targetStart [] target = [] := by
  unfold targetStart
  split <;> rfl

/-- The root below the link. -/
def rootThrough : Path := ⟨.root, ["l", "out"]⟩

/-- The way over the link leads on from the directory of that name. -/
theorem locate_rootThrough (outputs : List (Location × Node)) (last : LastName) :
    (filesThrough outputs).locate last rootThrough =
      ((filesThrough outputs).walk last 39 ["x"] ["out", "sub", "..", "..", "out"]).mapError
        (.refusal · "/l/out") := by
  have htext : rootThrough.text = "/l/out" := by cbv
  have hnull : "/l/out".contains '\x00' = false := by cbv
  have hlong : ¬ pathBytesLimit ≤ "/l/out".utf8ByteSize := by decide
  have hlink : (filesThrough outputs).get? ["l"] = some (.link "x/out/sub/../..") := rfl
  have hnames : targetNames "x/out/sub/../.." = ["x", "out", "sub", "..", ".."] := by decide
  have hfollow : (filesThrough outputs).walk last maxLinks [] ["l", "out"] =
      (filesThrough outputs).walk last 39 [] ["x", "out", "sub", "..", "..", "out"] := by
    rw [maxLinks, walk_follow rfl ⟨by decide, by decide, by simp, by decide⟩ hlink (by simp),
      targetStart_nil, hnames]
    rfl
  have hdown : (filesThrough outputs).walk last 39 [] ["x", "out", "sub", "..", "..", "out"] =
      (filesThrough outputs).walk last 39 ["x"] ["out", "sub", "..", "..", "out"] :=
    walk_down rfl ⟨by decide, by decide, by simp, by decide⟩
      (by simp [filesThrough, get?, List.lookup])
  have hstart : (filesThrough outputs).startOf rootThrough = [] := rfl
  rw [locate, locateNames, htext, hnull, if_neg (by decide), if_neg hlong, hstart, rootThrough,
    hfollow, hdown]

/-- A root that leads through what lies below it is not found again once it is empty: the weave
fails, where it does not if the root is absent. -/
theorem not_weave_alike_through_outputs :
    ¬ ∀ weaver : Weaver, weaver.GoesByView → ∀ (settings : Settings) (root : Path),
      root.isAbsolute = true → ".." ∉ root.parts →
      ∀ (input : WeaveInput) (place : Location) (w₁ w₂ : World),
      w₂ = { w₁ with files := w₂.files } → AgreeOutside place w₁.files w₂.files →
      OutputAt w₁.files root place → OutputAt w₂.files root place →
      EndsAlike World.SameView (weave settings root weaver input w₁)
        (weave settings root weaver input w₂) := by
  intro h
  let leftBehind : List (Location × Node) :=
    [(["x", "out"], .directory), (["x", "out", "sub"], .directory)]
  have hfound : (filesThrough leftBehind).look .own rootThrough = .ok (["x", "out"], .directory) := by
    rw [look, locate_rootThrough]
    cbv
  have hfails : clearSlots rootThrough (filesThrough leftBehind) =
      .error (.refusal .noEntry "/l/out") (filesThrough [(["x", "out"], .directory)]) := by
    have hempty : (filesThrough leftBehind).eraseInside ["x", "out"] =
        filesThrough [(["x", "out"], .directory)] := by cbv
    rw [clearSlots_of_directory hfound, hempty, change, removeDirectory, look, locate_rootThrough]
    cbv
  have hclear : clearSlots rootThrough (filesThrough []) = .ok () (filesThrough []) := by
    have hstat : (filesThrough []).stat rootThrough = .error (.refusal .noEntry "/l/out") := by
      rw [stat, look, locate_rootThrough]
      cbv
    exact clearSlots_of_noEntry hstat
  have halike := h classWriter classWriter_goesByView { enabled := false } rootThrough rfl (by decide)
    { inputs := [] } ["x", "out"] { files := filesThrough leftBehind } { files := filesThrough [] }
    rfl (SameView.refl _) (.directory hfound (by decide)) (.absent (SameView.refl _) (by decide))
  rw [weave_eq, bind_error (by rw [Run.onFiles, hfails]),
    bind_ok (by rw [Run.onFiles, hclear])] at halike
  cases halike

end WeaveStep
