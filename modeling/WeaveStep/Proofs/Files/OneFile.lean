import WeaveStep.Proofs.Files.WellFormed
import WeaveStep.Proofs.Files.WorkingDirectory

/-!
# Changes to one file

Where only files are made, written, moved and removed, and no directory and no link is, every path
still leads where it led: `FileTree.SameWays`.

* `FileTree.AtMostFile t p`: nothing lies at the path, or a file.
* `FileTree.SameAt p t t'`: what lies at the path is what it was, or there is nothing still.
* **`FileTree.OnlyAt p t t'`**: the trees differ in files only, and only where the path leads. Writing
  the file at the path keeps to that (`onlyAt_write`), and so does removing it (`onlyAt_unlink`).
* **`move_file`**: a file that is moved is at its target, and nothing is left behind.
-/

namespace WeaveStep.FileTree

variable {t t' t'' : FileTree} {p source target : Path} {place goal : Location} {last : LastName}
  {content : List UInt8}

/-! ## Ways past files -/

/-- There is nothing, or a file. -/
def IsFileOrNone (entry : Option Node) : Prop := ∀ node, entry = some node → node.isFile = true

/-- Nothing lies at the path, or a file. -/
def AtMostFile (t : FileTree) (p : Path) : Prop :=
  ∀ q node, t.look .own p = .ok (q, node) → node.isFile = true

/-- What lies at the path is what it was, or nothing lies there still. -/
def SameAt (p : Path) (t t' : FileTree) : Prop :=
  ∀ entry, t'.look .own p = .ok entry ↔ t.look .own p = .ok entry

/-- The two trees differ in files only. -/
structure SameWays (t t' : FileTree) : Prop where
  same : ∀ q, t'.get? q = t.get? q ∨ IsFileOrNone (t.get? q) ∧ IsFileOrNone (t'.get? q)
  workingDirectory : t'.workingDirectory = t.workingDirectory

theorem AtMostFile.of_sameAt (h : AtMostFile t p) (hsame : SameAt p t t') : AtMostFile t' p :=
  fun q node hlook => h q node ((hsame _).1 hlook)

theorem SameAt.trans (h : SameAt p t t') (h' : SameAt p t' t'') : SameAt p t t'' :=
  fun entry => (h' entry).trans (h entry)

theorem SameWays.trans (h : SameWays t t') (h' : SameWays t' t'') : SameWays t t'' where
  same q := by
    rcases h.same q with heq | ⟨hfile, hfile'⟩ <;> rcases h'.same q with heq' | ⟨hfile₁, hfile₂⟩
    · exact .inl (heq'.trans heq)
    · exact .inr ⟨heq ▸ hfile₁, hfile₂⟩
    · exact .inr ⟨hfile, heq' ▸ hfile'⟩
    · exact .inr ⟨hfile, hfile₂⟩
  workingDirectory := h'.workingDirectory.trans h.workingDirectory

theorem SameWays.symm (h : SameWays t t') : SameWays t' t where
  same q := (h.same q).imp Eq.symm And.symm
  workingDirectory := h.workingDirectory.symm

theorem SameWays.directory (h : SameWays t t') {q : Location} (hq : t.get? q = some .directory) :
    t'.get? q = some .directory := by
  rcases h.same q with heq | ⟨hfile, -⟩
  · exact heq.trans hq
  · cases hfile _ hq

theorem SameWays.link (h : SameWays t t') {q : Location} {text : String}
    (hq : t.get? q = some (.link text)) : t'.get? q = some (.link text) := by
  rcases h.same q with heq | ⟨hfile, -⟩
  · exact heq.trans hq
  · cases hfile _ hq

theorem Way.of_sameWays (hsame : SameWays t t') {budget : Nat} {here : Location} {names : List String}
    (h : Way t last budget here names place) : Way t' last budget here names place := by
  induction h with
  | done => exact .done
  | stay directory blank _ ih => exact .stay (hsame.directory directory) blank ih
  | up directory _ ih => exact .up (hsame.directory directory) ih
  | own directory step link own => exact .own (hsame.directory directory) step (hsame.link link) own
  | follow directory step link followed _ ih =>
    exact .follow (hsame.directory directory) step (hsame.link link) followed ih
  | down directory step plain _ ih =>
    exact .down (hsame.directory directory) step (fun text hlink => plain text (hsame.symm.link hlink))
      ih

theorem SameWays.locate (h : SameWays t t') (hlocate : t.locate last p = .ok place) :
    t'.locate last p = .ok place := by
  rw [locate_eq_ok_iff] at hlocate ⊢
  rw [startOf, h.workingDirectory]
  exact ⟨hlocate.1, hlocate.2.of_sameWays h⟩

theorem SameWays.look_directory (h : SameWays t t')
    (hlook : t.look last p = .ok (place, .directory)) :
    t'.look last p = .ok (place, .directory) := by
  obtain ⟨hlocate, hnode⟩ := look_eq_ok_iff.1 hlook
  exact look_eq_ok_iff.2 ⟨h.locate hlocate, h.directory hnode⟩

theorem SameWays.look_link {text : String} (h : SameWays t t')
    (hlook : t.look last p = .ok (place, .link text)) : t'.look last p = .ok (place, .link text) := by
  obtain ⟨hlocate, hnode⟩ := look_eq_ok_iff.1 hlook
  exact look_eq_ok_iff.2 ⟨h.locate hlocate, h.link hnode⟩

theorem SameWays.atMostFile (h : SameWays t t') (hfile : AtMostFile t p) : AtMostFile t' p := by
  intro q node hlook
  obtain ⟨hlocate, hnode⟩ := look_eq_ok_iff.1 hlook
  rcases h.same q with heq | ⟨-, hafter⟩
  · exact hfile q node (look_eq_ok_iff.2 ⟨h.symm.locate hlocate, heq ▸ hnode⟩)
  · exact hafter node hnode

/-- What does not change where the path leads does not change what lies there. -/
theorem SameWays.sameAt (h : SameWays t t')
    (hsame : ∀ q, t.locate .own p = .ok q → t'.get? q = t.get? q) : SameAt p t t' := by
  rintro ⟨q, node⟩
  rw [look_eq_ok_iff, look_eq_ok_iff]
  constructor
  · rintro ⟨hlocate, hnode⟩
    have hbefore := h.symm.locate hlocate
    exact ⟨hbefore, (hsame q hbefore).symm.trans hnode⟩
  · rintro ⟨hlocate, hnode⟩
    exact ⟨h.locate hlocate, (hsame q hlocate).trans hnode⟩

/-- A file that is taken out makes no difference to where paths lead. -/
theorem sameWays_erase (h : IsFileOrNone (t.get? place)) : SameWays t (t.erase place) where
  same q := by
    rw [get?_erase]
    split
    · rename_i heq
      subst heq
      exact .inr ⟨h, fun _ hnode => by cases hnode⟩
    · exact .inl rfl
  workingDirectory := rfl

theorem SameWays.erase (h : SameWays t t') (place : Location) :
    SameWays (t.erase place) (t'.erase place) where
  same q := by
    rw [get?_erase, get?_erase]
    split
    · exact .inl rfl
    · exact h.same q
  workingDirectory := h.workingDirectory

/-! ## One file -/

/-- The file held open, if there is one, does not lie where the path leads. -/
def HeldElsewhere (p : Path) (t : FileTree) : Prop := ∀ q, t.held = some q → t.locate .own p ≠ .ok q

/-- The two trees differ in files only, and only where the path leads. -/
structure OnlyAt (p : Path) (t t' : FileTree) : Prop where
  ways : SameWays t t'
  others : ∀ q, t.locate .own p ≠ .ok q → t'.get? q = t.get? q
  held : HeldElsewhere p t → t'.held = t.held

theorem OnlyAt.refl (p : Path) (t : FileTree) : OnlyAt p t t :=
  ⟨⟨fun _ => .inl rfl, rfl⟩, fun _ _ => rfl, fun _ => rfl⟩

theorem OnlyAt.heldElsewhere (h : OnlyAt p t t') (helsewhere : HeldElsewhere p t) :
    HeldElsewhere p t' := fun q hq hlocate =>
  helsewhere q (h.held helsewhere ▸ hq) (h.ways.symm.locate hlocate)

theorem OnlyAt.trans (h : OnlyAt p t t') (h' : OnlyAt p t' t'') : OnlyAt p t t'' where
  ways := h.ways.trans h'.ways
  others q hq := (h'.others q fun hlocate => hq (h.ways.symm.locate hlocate)).trans (h.others q hq)
  held helsewhere := (h'.held (h.heldElsewhere helsewhere)).trans (h.held helsewhere)

/-- A file that is made is made in a directory. -/
theorem OnlyAt.isTree (h : OnlyAt p t t') (htree : IsTree t)
    (hstart : t.get? (t.startOf p) = some .directory) : IsTree t' := by
  have hentry : ∀ q name, t'.get? (q ++ [name]) ≠ none →
      t.get? q = some .directory ∧ IsEntryName name := by
    intro q name hthere
    by_cases hfree : t.get? (q ++ [name]) = none
    · have hlocate : t.locate .own p = .ok (q ++ [name]) := by
        by_contra hne
        exact hthere ((h.others _ hne).trans hfree)
      obtain ⟨within, last, heq, hparent, hlast⟩ := htree.free_last hstart hlocate hfree
      obtain ⟨rfl, hlast'⟩ := List.append_inj' heq rfl
      obtain rfl : name = last := by simpa using hlast'
      exact ⟨hparent, hlast⟩
    · exact ⟨htree.parent q name hfree, htree.name q name hfree⟩
  exact ⟨h.ways.directory htree.root, fun q name hthere => h.ways.directory (hentry q name hthere).1,
    fun q name hthere => (hentry q name hthere).2⟩

/-- What lies elsewhere is what it was. -/
theorem OnlyAt.sameAt (h : OnlyAt source t t')
    (happart : ∀ q, t.locate .own target = .ok q → t.locate .own source ≠ .ok q) :
    SameAt target t t' :=
  h.ways.sameAt fun q hq => h.others q (happart q hq)

theorem AtMostFile.isFileOrNone (h : AtMostFile t p) (hlocate : t.locate .own p = .ok place) :
    IsFileOrNone (t.get? place) := fun node hnode => h place node (look_eq_ok_iff.2 ⟨hlocate, hnode⟩)

/-- Where there is no link, the path leads to its own entry. -/
theorem AtMostFile.locate (h : AtMostFile t p) (hlocate : t.locate last p = .ok place) :
    t.locate .own p = .ok place := by
  obtain ⟨hsay, hway⟩ := locate_eq_ok_iff.1 hlocate
  obtain ⟨q, hown, rfl | ⟨text, hlink⟩⟩ := hway.own_of
  · exact locate_eq_ok_iff.2 ⟨hsay, hown⟩
  · cases h q _ (look_eq_ok_iff.2 ⟨locate_eq_ok_iff.2 ⟨hsay, hown⟩, hlink⟩)

/-- A file is read by its own path. -/
theorem read_of_look {executable : Bool}
    (h : t.look .own p = .ok (place, .file content executable)) : t.read p = .ok content := by
  obtain ⟨hlocate, hnode⟩ := look_eq_ok_iff.1 h
  have hlook := look_eq_ok_iff.2 ⟨locate_followed_of_own hlocate (by simp [hnode]), hnode⟩
  rw [read, stat, hlook]
  rfl

/-- A file with this content lies at the path, and it is not the one held open. -/
def Holds (p : Path) (content : List UInt8) (t : FileTree) : Prop :=
  ∃ q executable, t.look .followed p = .ok (q, .file content executable) ∧ t.held ≠ some q

theorem Holds.read (h : Holds p content t) : t.read p = .ok content := by
  obtain ⟨q, executable, hlook, -⟩ := h
  rw [FileTree.read, stat, hlook]
  rfl

theorem Holds.isFile? (h : Holds p content t) : t.isFile? p = .ok true := by
  obtain ⟨q, executable, hlook, -⟩ := h
  rw [FileTree.isFile?, ask, stat, hlook]
  rfl

/-- A file that is set where there is at most a file changes nothing else. -/
theorem onlyAt_set (h : AtMostFile t p) (hlocate : t.locate .own p = .ok place) (executable : Bool) :
    OnlyAt p t (t.set place (.file content executable)) where
  ways := by
    refine ⟨fun q => ?_, rfl⟩
    rw [get?_set]
    split
    · rename_i heq
      subst heq
      refine .inr ⟨h.isFileOrNone hlocate, fun node hnode => ?_⟩
      cases hnode
      rfl
    · exact .inl rfl
  others q hq := by
    rw [get?_set, if_neg]
    rintro rfl
    exact hq hlocate
  held _ := rfl

theorem onlyAt_write (h : AtMostFile t p) (hwrite : t.write p content = .ok t') :
    OnlyAt p t t' ∧ ∃ q executable, t.locate .own p = .ok q ∧
      t'.get? q = some (.file content executable) := by
  obtain ⟨q, hlocate, hwrite⟩ := except_bind_eq_ok.1 hwrite
  have hown := h.locate hlocate
  have hset : ∀ executable, OnlyAt p t (t.set q (.file content executable)) ∧
      ∃ q' executable', t.locate .own p = .ok q' ∧
        (t.set q (.file content executable)).get? q' = some (.file content executable') :=
    fun executable => ⟨onlyAt_set h hown executable, q, executable, hown, by rw [get?_set, if_pos rfl]⟩
  split at hwrite
  · cases hwrite
    exact hset _
  · rename_i hdevice
    cases h.isFileOrNone hown _ hdevice
  · cases hwrite
  · cases hwrite
  · cases hwrite
    exact hset _

theorem held_erase (h : t.held ≠ some place) : (t.erase place).held = t.held := by
  have hfilter : (t.erase place).held = t.held.filter (· ≠ place) := rfl
  rw [hfilter]
  cases hheld : t.held with
  | none => rfl
  | some q =>
    have hne : q ≠ place := by
      rintro rfl
      exact h hheld
    simp [hne]

theorem onlyAt_unlink (h : AtMostFile t p) (hunlink : t.unlink p = .ok t') :
    OnlyAt p t t' ∧ ∀ entry, t'.look .own p ≠ .ok entry := by
  obtain ⟨⟨q, node⟩, hlook, hunlink⟩ := except_bind_eq_ok.1 hunlink
  have hlocate := (look_eq_ok_iff.1 hlook).1
  obtain rfl : t' = t.erase q := by
    split at hunlink
    · cases hunlink
    · rename_i heq
      cases heq
      cases hunlink
      rfl
  have honly : OnlyAt p t (t.erase q) := by
    refine ⟨sameWays_erase (h.isFileOrNone hlocate), fun q' hq' => ?_, fun helsewhere => ?_⟩
    · rw [get?_erase, if_neg]
      rintro rfl
      exact hq' hlocate
    · exact held_erase fun hheld => helsewhere q hheld hlocate
  refine ⟨honly, fun ⟨q', node'⟩ hlook' => ?_⟩
  obtain ⟨hlocate', hnode'⟩ := look_eq_ok_iff.1 hlook'
  rw [honly.ways.symm.locate hlocate'] at hlocate
  cases hlocate
  simp [get?_erase] at hnode'

/-- The path of an entry leads to the directory and its name. -/
theorem locate_own_entry {within : Location} {name : String} {base : Path}
    (hbase : t.look .followed base = .ok (within, .directory)) (hname : IsEntryName name)
    (h : t.locate .own (base.entry name) = .ok place) : place = within ++ [name] := by
  obtain ⟨mid, budget, hmid, hway⟩ := locate_above h (by simp)
  rw [show (⟨base.anchor, base.parts⟩ : Path) = base from rfl, hbase] at hmid
  cases hmid
  cases hway with
  | stay _ blank => simp_all [IsEntryName]
  | up => simp_all [IsEntryName]
  | own => rfl
  | follow _ _ _ followed => simp at followed
  | down _ _ _ way => cases way; rfl

theorem atMostFile_entry {within : Location} {name : String} {base : Path}
    (hbase : t.look .followed base = .ok (within, .directory)) (hname : IsEntryName name)
    (hfile : IsFileOrNone (t.get? (within ++ [name]))) : AtMostFile t (base.entry name) := by
  intro q node hlook
  obtain ⟨hlocate, hnode⟩ := look_eq_ok_iff.1 hlook
  rw [locate_own_entry hbase hname hlocate] at hnode
  exact hfile node hnode

/-! ## Moves -/

theorem get?_relocate {node : Node} (hnode : t.get? place = some node) (q : Location) :
    (t.relocate place goal).get? q =
      if q = goal then some node else if q = place then none else t.get? q := by
  have hset : (((t.erase place).erase goal).set goal node).get? q =
      if q = goal then some node else if q = place then none else t.get? q := by
    rw [get?_set, get?_erase, get?_erase]
    split <;> rfl
  unfold relocate
  rw [hnode]
  dsimp only
  split
  · exact hset
  · exact hset

/-- But for what it is moved over, a file that is moved makes no difference to where paths lead. -/
theorem sameWays_relocate {goal : Location} {executable : Bool}
    (hnode : t.get? place = some (.file content executable)) :
    SameWays (t.erase goal) (t.relocate place goal) where
  same q := by
    rw [get?_relocate hnode, get?_erase]
    split
    · refine .inr ⟨fun _ h => (by cases h), fun node h => ?_⟩
      cases h
      rfl
    · split
      · rename_i heq
        subst heq
        refine .inr ⟨fun node h => ?_, fun _ h => (by cases h)⟩
        rw [hnode] at h
        cases h
        rfl
      · exact .inl rfl
  workingDirectory := sameDirectory_relocate place goal

/-- **All that a move can do.** -/
theorem move_eq_ok (h : t.move source target = .ok t') :
    ∃ q node goal, t.look .own source = .ok (q, node) ∧ t.locate .own target = .ok goal ∧
      target.name ≠ ".." ∧ node ≠ .directory ∧ t.get? goal ≠ some .directory ∧
      (q = goal ∧ t' = t ∨ q ≠ goal ∧ t' = t.relocate q goal) := by
  unfold move at h
  obtain ⟨⟨q, node⟩, hsource, h⟩ := except_bind_eq_ok.1 h
  obtain ⟨goal, htarget, h⟩ := except_bind_eq_ok.1 h
  refine ⟨q, node, goal, except_mapError_eq_ok.1 hsource, except_mapError_eq_ok.1 htarget, ?_⟩
  dsimp only at h
  split at h
  · cases h
  rename_i hup
  split at h
  · cases h
  · cases h
  · rename_i hnode hgoal _
    refine ⟨hup, hnode, hgoal, ?_⟩
    split at h <;> cases h
    · exact .inl ⟨‹_›, rfl⟩
    · exact .inr ⟨‹_›, rfl⟩

section

variable (htarget : AtMostFile t target)
  (happart : ∀ q, t.locate .own target = .ok q → t.locate .own source ≠ .ok q)
  {executable : Bool} (hfile : t.look .own source = .ok (place, .file content executable))
  (h : t.move source target = .ok t')
include htarget happart hfile h

/-- A file that is moved lies at its target. -/
theorem relocate_of_move : ∃ goal, t.locate .own target = .ok goal ∧ place ≠ goal ∧
    t' = t.relocate place goal ∧ SameWays t t' ∧
    t'.look .own target = .ok (goal, .file content executable) := by
  obtain ⟨q, node, goal, hlook, hgoal, -, -, -, hmoved⟩ := move_eq_ok h
  rw [hfile] at hlook
  cases hlook
  obtain ⟨hplace, hnode⟩ := look_eq_ok_iff.1 hfile
  obtain ⟨rfl, -⟩ | ⟨hne, rfl⟩ := hmoved
  · exact absurd hplace (happart _ hgoal)
  have hways : SameWays t (t.relocate place goal) :=
    (sameWays_erase (htarget.isFileOrNone hgoal)).trans (sameWays_relocate hnode)
  refine ⟨goal, hgoal, hne, rfl, hways, look_eq_ok_iff.2 ⟨hways.locate hgoal, ?_⟩⟩
  rw [get?_relocate hnode, if_pos rfl]

/-- **A file that is moved** is at its target, and nothing is left behind. -/
theorem move_file : t'.read target = .ok content ∧ ∀ entry, t'.look .own source ≠ .ok entry := by
  obtain ⟨goal, -, hne, rfl, hways, hthere⟩ := relocate_of_move htarget happart hfile h
  refine ⟨read_of_look hthere, ?_⟩
  rintro ⟨q, node⟩ hlook
  obtain ⟨hlocate, hleft⟩ := look_eq_ok_iff.1 hlook
  obtain ⟨hplace, hnode⟩ := look_eq_ok_iff.1 hfile
  rw [hways.symm.locate hlocate] at hplace
  cases hplace
  rw [get?_relocate hnode, if_neg hne, if_pos rfl] at hleft
  cases hleft

/-- A file that is moved is not held open at its target, if it was not before. -/
theorem holds_of_move (helsewhere : HeldElsewhere source t) : Holds target content t' := by
  obtain ⟨goal, -, -, rfl, -, hthere⟩ := relocate_of_move htarget happart hfile h
  obtain ⟨hgoal, hnode'⟩ := look_eq_ok_iff.1 hthere
  obtain ⟨hplace, hnode⟩ := look_eq_ok_iff.1 hfile
  have hfollowed := locate_followed_of_own hgoal (by simp [hnode'])
  refine ⟨goal, executable, look_eq_ok_iff.2 ⟨hfollowed, hnode'⟩, fun hheld => ?_⟩
  have hrelocate : (t.relocate place goal).held = (t.erase place).held.filter (· ≠ goal) := by
    simp only [relocate, hnode, if_neg fun hopen => helsewhere _ hopen hplace]
    rfl
  rw [hrelocate, Option.filter_eq_some_iff] at hheld
  simp at hheld

end

end WeaveStep.FileTree
