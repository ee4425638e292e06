import WeaveStep.CommandLine.Logging
import WeaveStep.Proofs.Files.Aside

/-!
# Trees with the same links

Before a weave begins, only directories are made, and files are written, moved and removed. So paths
lead on.

* **`Way.of_sameLinks`**: a way stays one over the same links.
* **`LiesAt.eq_of_sameLinks`**: a path that lies somewhere comes to lie nowhere else.
* `FileTree.Standing t`: the tree is well formed and has its working directory. Whatever is made,
  written, moved and removed then, it stays so.
* `FileTree.MeetsNoLink t p`: the path does not lead to a link.
* `FileTree.ReadiedAside q t t'`: `t'` is what `t` became, aside from `q`. Making directories, holding a
  file open, and writing, moving and removing files keep to that.
-/

namespace WeaveStep.FileTree

variable {t t' t'' : FileTree} {root p source target : Path} {place base q : Location}
  {front rest : List String} {node : Node}

/-! ## Ways over the same links -/

section

variable {last : LastName} {budget : Nat} {here : Location} {names : List String}

theorem Way.of_sameLinks (hsame : SameLinks t t') (h : Way t last budget here names place) :
    Way t' last budget here names place := by
  induction h with
  | done => exact .done
  | stay directory blank _ ih => exact .stay (hsame.directory _ directory) blank ih
  | up directory _ ih => exact .up (hsame.directory _ directory) ih
  | own directory step link own =>
    exact .own (hsame.directory _ directory) step ((hsame.link _ _).2 link) own
  | follow directory step link followed _ ih =>
    exact .follow (hsame.directory _ directory) step ((hsame.link _ _).2 link) followed ih
  | down directory step plain _ ih =>
    exact .down (hsame.directory _ directory) step
      (fun text hlink => plain text ((hsame.link _ _).1 hlink)) ih

theorem locate_of_sameLinks (hsame : SameLinks t t') (h : t.locate last p = .ok place) :
    t'.locate last p = .ok place := by
  rw [locate_eq_ok_iff] at h ⊢
  have hstart : t'.startOf p = t.startOf p := by rw [startOf, startOf, hsame.workingDirectory]
  rw [hstart]
  exact ⟨h.1, h.2.of_sameLinks hsame⟩

theorem look_of_sameLinks (hsame : SameLinks t t') (hkept : t'.get? place = some node)
    (h : t.look last p = .ok (place, node)) : t'.look last p = .ok (place, node) :=
  look_eq_ok_iff.2 ⟨locate_of_sameLinks hsame (look_eq_ok_iff.1 h).1, hkept⟩

theorem directory_of_sameLinks (hsame : SameLinks t t')
    (h : t.look last p = .ok (place, .directory)) : t'.look last p = .ok (place, .directory) :=
  look_of_sameLinks hsame (hsame.directory _ (look_eq_ok_iff.1 h).2) h

theorem IsSteady.of_sameLinks (h : IsSteady t p) (hsame : SameLinks t t') : IsSteady t' p := by
  obtain ⟨front, rest, place, hparts, hfront, hup⟩ := h
  exact ⟨front, rest, place, hparts, directory_of_sameLinks hsame hfront, hup⟩

end

/-! ## Where a path lies -/

section

variable (h : MissingAt t root front rest base) (htree : IsTree t) (hsame : SameLinks t t')
include h htree hsame

/-- What is missing lies straight down from what is there. -/
theorem MissingAt.down_of_sameLinks {last : LastName} {more : List String} (hmore : more ≠ [])
    (hbegin : more <+: rest) (hlocate : t'.locate last ⟨root.anchor, front ++ more⟩ = .ok q) :
    q = base ++ more := by
  refine locate_down_of_noLinks (directory_of_sameLinks hsame h.found) (fun other text hin hlink => ?_)
    h.names hmore hbegin hlocate
  have hlink' := (hsame.link other text).1 hlink
  rw [h.nothing htree hin] at hlink'
  cases hlink'

/-- A path that is missing comes to lie where it would have lain. -/
theorem MissingAt.eq_of_liesAt (hlies : LiesAt t' root place) : place = base ++ rest := by
  have hfound := directory_of_sameLinks hsame h.found
  cases hlies with
  | found hlocate =>
    have hroot : t'.locate .followed ⟨root.anchor, front ++ rest⟩ = .ok place := by rwa [← h.parts]
    exact h.down_of_sameLinks htree hsame h.rest_ne_nil List.prefix_rfl hroot
  | @missing front' rest' base' h' =>
    rcases List.append_eq_append_iff.1 (h.parts.symm.trans h'.parts) with ⟨more, rfl, hrest⟩ |
      ⟨more, rfl, hrest⟩
    · -- the first of the missing directories were made
      by_cases hmore : more = []
      · subst hmore
        have hfound' := h'.found
        rw [List.append_nil, hfound] at hfound'
        cases hfound'
        rw [hrest, List.nil_append]
      · have hlocate := (look_eq_ok_iff.1 h'.found).1
        rw [h.down_of_sameLinks htree hsame hmore ⟨rest', hrest.symm⟩ hlocate, hrest, List.append_assoc]
    · -- what led to a directory is not missing
      by_cases hmore : more = []
      · subst hmore
        have hfound' := h'.found
        rw [List.append_nil] at hfound
        rw [hfound] at hfound'
        cases hfound'
        rw [hrest, List.nil_append]
      · obtain ⟨hlocate, hnode⟩ := look_eq_ok_iff.1 hfound
        have hnone := (h'.eq_of_locate hmore ⟨rest, hrest.symm⟩ hlocate).2
        rw [hnone] at hnode
        cases hnode

end

/-- **A path that lies somewhere** comes to lie nowhere else. -/
theorem LiesAt.eq_of_sameLinks {place' : Location} (htree : IsTree t) (h : LiesAt t root place)
    (hsame : SameLinks t t') (h' : LiesAt t' root place') : place' = place := by
  cases h with
  | found h => exact (LiesAt.found (locate_of_sameLinks hsame h)).unique h' |>.symm
  | missing h => exact h.eq_of_liesAt htree hsame h'

/-! ## Trees -/

theorem unlink_eq_ok (h : t.unlink p = .ok t') :
    ∃ q node, t.look .own p = .ok (q, node) ∧ node ≠ .directory ∧ t' = t.erase q := by
  obtain ⟨⟨q, node⟩, hlook, h⟩ := except_bind_eq_ok.1 h
  split at h <;> cases h
  rename_i hfile heq
  cases heq
  exact ⟨_, _, hlook, fun hnode => hfile hnode, rfl⟩

theorem IsTree.of_directories (htree : IsTree t)
    (hkept : ∀ q, t.get? q = some .directory → t'.get? q = some .directory)
    (hnew : ∀ q, t'.get? q ≠ none → t.get? q ≠ none ∨
      ∃ within name, q = within ++ [name] ∧ t.get? within = some .directory ∧ IsEntryName name) :
    IsTree t' := by
  have hentry : ∀ place name, t'.get? (place ++ [name]) ≠ none →
      t.get? place = some .directory ∧ IsEntryName name := by
    intro place name hget
    rcases hnew _ hget with hthere | ⟨within, last, heq, hparent, hlast⟩
    · exact ⟨htree.parent place name hthere, htree.name place name hthere⟩
    · obtain ⟨rfl, hnames⟩ := List.append_inj' heq rfl
      obtain rfl := (List.cons.inj hnames).1
      exact ⟨hparent, hlast⟩
  exact ⟨hkept _ htree.root, fun place name hget => hkept _ (hentry place name hget).1,
    fun place name hget => (hentry place name hget).2⟩

/-- A tree that has its working directory. -/
structure Standing (t : FileTree) : Prop where
  isTree : IsTree t
  start : t.get? t.workingDirectory = some .directory

namespace Standing

variable (h : Standing t)
include h

theorem startOf (p : Path) : t.get? (t.startOf p) = some .directory := by
  unfold FileTree.startOf
  split
  · exact h.isTree.root
  · exact h.start

/-- An entry that a path leads to is set, and it takes the place of no directory. -/
theorem set {last : LastName} (hlocate : t.locate last p = .ok q)
    (hfile : t.get? q ≠ some .directory) : Standing (t.set q node) := by
  have hkept : ∀ other, t.get? other = some .directory → (t.set q node).get? other = some .directory := by
    intro other hother
    rw [get?_set, if_neg, hother]
    rintro rfl
    exact hfile hother
  refine ⟨h.isTree.of_directories hkept fun other hother => ?_, hkept _ h.start⟩
  rw [get?_set] at hother
  split at hother
  · rename_i heq
    subst heq
    by_cases hfree : t.get? other = none
    · exact .inr (h.isTree.free_last (h.startOf p) hlocate hfree)
    · exact .inl hfree
  · exact .inl hother

theorem erase (hfile : t.get? q ≠ some .directory) : Standing (t.erase q) := by
  have hkept : ∀ other, t.get? other = some .directory → (t.erase q).get? other = some .directory := by
    intro other hother
    rw [get?_erase, if_neg, hother]
    rintro rfl
    exact hfile hother
  refine ⟨h.isTree.of_directories hkept fun other hother => ?_, hkept _ h.start⟩
  rw [get?_erase] at hother
  split at hother
  · exact absurd rfl hother
  · exact .inl hother

theorem relocate {last : LastName} {goal : Location} (hnode : t.get? q = some node)
    (hfile : node ≠ .directory) (hlocate : t.locate last p = .ok goal)
    (hgoal : t.get? goal ≠ some .directory) : Standing (t.relocate q goal) := by
  have hkept : ∀ other, t.get? other = some .directory →
      (t.relocate q goal).get? other = some .directory := by
    intro other hother
    rw [get?_relocate hnode, if_neg, if_neg, hother]
    · rintro rfl
      rw [hnode] at hother
      exact hfile (Option.some.inj hother)
    · rintro rfl
      exact hgoal hother
  refine ⟨h.isTree.of_directories hkept fun other hother => ?_, ?_⟩
  · rw [get?_relocate hnode] at hother
    split at hother
    · rename_i heq
      subst heq
      by_cases hfree : t.get? other = none
      · exact .inr (h.isTree.free_last (h.startOf p) hlocate hfree)
      · exact .inl hfree
    · split at hother
      · exact absurd rfl hother
      · exact .inl hother
  · rw [sameDirectory_relocate q goal]
    exact hkept _ h.start

theorem makeDirectory (hmade : t.makeDirectory p = .ok t') : Standing t' := by
  obtain ⟨q, hlocate, hfree, rfl⟩ := makeDirectory_eq_ok hmade
  exact h.set hlocate (by simp [hfree])

theorem write {content : List UInt8} (hwritten : t.write p content = .ok t') : Standing t' := by
  obtain ⟨q, hlocate, hwritten⟩ := except_bind_eq_ok.1 hwritten
  split at hwritten <;> cases hwritten
  · rename_i hfile
    exact h.set hlocate (by simp [hfile])
  · exact h
  · rename_i hfree
    exact h.set hlocate (by simp [hfree])

theorem unlink (hremoved : t.unlink p = .ok t') : Standing t' := by
  obtain ⟨q, node, hlook, hfile, rfl⟩ := unlink_eq_ok hremoved
  refine h.erase fun hdirectory => hfile ?_
  exact Option.some.inj ((look_eq_ok_iff.1 hlook).2.symm.trans hdirectory)

theorem move (hmoved : t.move source target = .ok t') : Standing t' := by
  obtain ⟨q, node, goal, hlook, hgoal, -, hfile, hfile', ⟨-, rfl⟩ | ⟨-, rfl⟩⟩ := move_eq_ok hmoved
  · exact h
  · exact h.relocate (look_eq_ok_iff.1 hlook).2 hfile hgoal hfile'

theorem extendHeld (bytes : List UInt8) : Standing (t.extendHeld bytes) := by
  have hkept := kept_extendHeld t bytes
  refine ⟨isTree_of_kept h.isTree hkept, (hkept _).directory_iff.2 ?_⟩
  rw [sameDirectory_extendHeld bytes]
  exact h.start

/-- It makes no difference which file is held open. -/
theorem holding (q : Location) : Standing { t with held := some q } :=
  ⟨⟨h.isTree.root, h.isTree.parent, h.isTree.name⟩, h.start⟩

end Standing

/-! ## Removed and moved files -/

/-- However many directories and files are added, the path does not lead to a link. -/
def MeetsNoLink (t : FileTree) (p : Path) : Prop :=
  ∀ t', SameLinks t t' → ∀ last q, t'.locate last p = .ok q → ∀ text, t.get? q ≠ some (.link text)

theorem meetsNoLink_of_noLinks (h : ∀ q text, t.get? q ≠ some (.link text)) : MeetsNoLink t p :=
  fun _ _ _ q _ => h q

theorem MeetsNoLink.of_sameLinks (h : MeetsNoLink t p) (hsame : SameLinks t t') : MeetsNoLink t' p :=
  fun _ hsame' _ q hlocate text hlink =>
    h _ (trans_of SameLinks hsame hsame') _ q hlocate text ((hsame.link q text).1 hlink)

theorem MeetsNoLink.locate (h : MeetsNoLink t p) (hsame : SameLinks t t') {last : LastName}
    (hlocate : t'.locate last p = .ok q) (text : String) : t'.get? q ≠ some (.link text) :=
  fun hlink => h t' hsame last q hlocate text ((hsame.link q text).1 hlink)

theorem sameLinks_erase (hdirectory : t.get? q ≠ some .directory)
    (hlink : ∀ text, t.get? q ≠ some (.link text)) : SameLinks t (t.erase q) where
  workingDirectory := rfl
  link other text := by
    rw [get?_erase]
    split
    · rename_i heq
      subst heq
      simp [hlink text]
    · rfl
  directory other hother := by
    rw [get?_erase, if_neg, hother]
    rintro rfl
    exact hdirectory hother

theorem sameLinks_relocate {goal : Location} (hnode : t.get? q = some node)
    (hplain : ∀ text, node ≠ .link text) (hdirectory : node ≠ .directory)
    (hgoal : ∀ text, t.get? goal ≠ some (.link text)) (hfile : t.get? goal ≠ some .directory) :
    SameLinks t (t.relocate q goal) where
  workingDirectory := sameDirectory_relocate q goal
  link other text := by
    rw [get?_relocate hnode]
    split
    · rename_i heq
      subst heq
      simp [hplain text, hgoal text]
    · split
      · rename_i heq
        subst heq
        simp [hnode, hplain text]
      · rfl
  directory other hother := by
    rw [get?_relocate hnode, if_neg, if_neg, hother]
    · rintro rfl
      rw [hnode] at hother
      exact hdirectory (Option.some.inj hother)
    · rintro rfl
      exact hfile hother

theorem changesAside_unlink (haside : LeadsAside t place p) (hlink : MeetsNoLink t p)
    (h : t.unlink p = .ok t') : ChangesAside place t t' := by
  have hwithin := keepsWithin_unlink haside h
  obtain ⟨q, node, hlook, hfile, rfl⟩ := unlink_eq_ok h
  obtain ⟨hlocate, hnode⟩ := look_eq_ok_iff.1 hlook
  refine ⟨sameLinks_erase (fun hdirectory => hfile ?_) (hlink.locate (refl_of SameLinks t) hlocate), hwithin⟩
  exact Option.some.inj (hnode.symm.trans hdirectory)

theorem changesAside_move (hsource : LeadsAside t place source) (htarget : LeadsAside t place target)
    (hlink : MeetsNoLink t source) (hlink' : MeetsNoLink t target) (h : t.move source target = .ok t') :
    ChangesAside place t t' := by
  have hwithin := keepsWithin_move hsource htarget h
  obtain ⟨q, node, goal, hlook, hgoal, -, hfile, hfile', ⟨-, rfl⟩ | ⟨-, rfl⟩⟩ := move_eq_ok h
  · exact refl_of (ChangesAside place) _
  · obtain ⟨hlocate, hnode⟩ := look_eq_ok_iff.1 hlook
    refine ⟨sameLinks_relocate hnode (fun text heq => ?_) hfile (hlink'.locate (refl_of SameLinks t) hgoal)
      hfile', hwithin⟩
    exact hlink.locate (refl_of SameLinks t) hlocate text (by rw [hnode, heq])

/-! ## What is made ready -/

/-- The tree `t'` is what `t` became, with all that was done to it aside from the place: the same links
are there, directories were only made, and the file held open lies aside. -/
structure ReadiedAside (place : Location) (t t' : FileTree) : Prop extends ChangesAside place t t' where
  isTree : IsTree t'
  start : t'.get? t'.workingDirectory = some .directory
  held : ∀ q, t'.held = some q → isWithin place q = false

namespace ReadiedAside

theorem refl (htree : IsTree t) (hstart : t.get? t.workingDirectory = some .directory)
    (hheld : ∀ q, t.held = some q → isWithin place q = false) : ReadiedAside place t t :=
  ⟨refl_of (ChangesAside place) t, htree, hstart, hheld⟩

theorem kept (h : ReadiedAside place t t') (hnode : t.get? place = some node) :
    t'.get? place = some node :=
  h.within place node (isWithin_refl place) hnode

theorem held_ne (h : ReadiedAside place t t') : t'.held ≠ some place := by
  intro hheld
  have hoff := h.held place hheld
  rw [isWithin_refl] at hoff
  cases hoff

theorem standing (h : ReadiedAside place t t') : Standing t' := ⟨h.isTree, h.start⟩

theorem of_changes (h : ReadiedAside place t t') (hchanges : ChangesAside place t' t'')
    (hstanding : Standing t'') (hheld : ∀ q, t''.held = some q → isWithin place q = false) :
    ReadiedAside place t t'' where
  toChangesAside := trans_of (ChangesAside place) h.toChangesAside hchanges
  isTree := hstanding.isTree
  start := hstanding.start
  held := hheld

theorem makeDirectory (h : ReadiedAside place t t') (hmade : t'.makeDirectory p = .ok t'') :
    ReadiedAside place t t'' := by
  have hstanding := h.standing.makeDirectory hmade
  have hchanges : ChangesAside place t' t'' := changesAside_makeDirectory hmade
  obtain ⟨q, -, -, rfl⟩ := makeDirectory_eq_ok hmade
  exact h.of_changes hchanges hstanding h.held

theorem write (h : ReadiedAside place t t') (hp : LeadsAside t place p) {content : List UInt8}
    (hwritten : t'.write p content = .ok t'') : ReadiedAside place t t'' := by
  have hheld : t''.held = t'.held := sameHeld_write hwritten
  exact h.of_changes (changesAside_write (hp.of_sameLinks h.toSameLinks) hwritten)
    (h.standing.write hwritten) fun q hq => h.held q (hheld.symm.trans hq)

theorem unlink (h : ReadiedAside place t t') (hp : LeadsAside t place p) (hlink : MeetsNoLink t p)
    (hremoved : t'.unlink p = .ok t'') : ReadiedAside place t t'' := by
  have hchanges := changesAside_unlink (hp.of_sameLinks h.toSameLinks) (hlink.of_sameLinks h.toSameLinks)
    hremoved
  refine h.of_changes hchanges (h.standing.unlink hremoved) fun other hother => ?_
  obtain ⟨q, node, -, -, rfl⟩ := unlink_eq_ok hremoved
  rw [erase, Option.filter_eq_some_iff] at hother
  exact h.held other hother.1

theorem move (h : ReadiedAside place t t') (hsource : LeadsAside t place source)
    (htarget : LeadsAside t place target) (hlink : MeetsNoLink t source) (hlink' : MeetsNoLink t target)
    (hmoved : t'.move source target = .ok t'') : ReadiedAside place t t'' := by
  have hsame := h.toSameLinks
  have hchanges := changesAside_move (hsource.of_sameLinks hsame) (htarget.of_sameLinks hsame)
    (hlink.of_sameLinks hsame) (hlink'.of_sameLinks hsame) hmoved
  refine h.of_changes hchanges (h.standing.move hmoved) fun other hother => ?_
  obtain ⟨q, node, goal, hlook, hgoal, -, -, -, ⟨-, rfl⟩ | ⟨-, rfl⟩⟩ := move_eq_ok hmoved
  · exact h.held other hother
  unfold relocate at hother
  rw [(look_eq_ok_iff.1 hlook).2] at hother
  dsimp only at hother
  split at hother
  · cases hother
    exact (htarget.of_sameLinks hsame).locate hgoal
  · refine h.held other ?_
    simp only [set, erase, Option.filter_eq_some_iff] at hother
    exact hother.1.1

theorem extendHeld (h : ReadiedAside place t t') (bytes : List UInt8) :
    ReadiedAside place t (t'.extendHeld bytes) :=
  h.of_changes (changesAside_extendHeld h.held bytes) (h.standing.extendHeld bytes)
    fun q hq => h.held q ((held_extendHeld t' bytes).symm.trans hq)

end ReadiedAside

/-! ## Actions -/

section

variable (hp : LeadsAside t place p)

theorem keeps_readied_ensureDirectory (p : Path) :
    Always (Keeps (ReadiedAside place t)) (ensureDirectory p) :=
  .ensureDirectory (R := Keeps (ReadiedAside place t)) (fun _ _ _ hmade h => h.makeDirectory hmade) p

include hp

theorem keeps_readied_write (content : List UInt8) :
    Always (Keeps (ReadiedAside place t)) (change (·.write p content)) :=
  .change (R := Keeps (ReadiedAside place t)) fun _ _ hwritten h => h.write hp hwritten

/-- A file is held open aside from the place if its path leads aside. -/
theorem keeps_readied_hold : Always (Keeps (ReadiedAside place t)) (hold p) := by
  refine .keeps_of fun t₁ h₁ => ?_
  refine Yields.bind (fun q t₂ hplace => ?_) fun e t₂ hfailed => ?_
  · obtain ⟨hlocate, rfl⟩ := query_eq_ok hplace
    have hoff : isWithin place q = false := (hp.of_sameLinks h₁.toSameLinks).locate hlocate
    have hheld : ∀ t', ReadiedAside place t t' → ReadiedAside place t { t' with held := some q } :=
      fun t' h => ⟨⟨⟨h.workingDirectory, h.link, h.directory⟩, h.within⟩, ⟨h.isTree.root, h.isTree.parent,
        h.isTree.name⟩, h.start, fun other hother => by cases hother; exact hoff⟩
    have hmodify : Always (Keeps (ReadiedAside place t))
        (modify fun t => { t with held := some q } : Action Unit) := .modify fun t' h => hheld t' h
    have hrest := Always.get.bind fun t' : FileTree => show Always (Keeps (ReadiedAside place t)) (do
      if !(t'.get? q).any Node.isFile then change (·.write p [])
      modify fun t => { t with held := some q }) from by
        split
        · exact (keeps_readied_write hp []).bind fun _ => hmodify
        · exact hmodify
    exact hrest.keeps h₁
  · unfold query at hfailed
    split at hfailed <;> cases hfailed
    exact h₁

end

end WeaveStep.FileTree
