import WeaveStep.Proofs.Files.Growth
import WeaveStep.Proofs.Files.OneFile
import WeaveStep.Proofs.Files.View

/-!
# Where a file can be written

* `FileTree.IsWritable t p`: whatever is to be written to the path, it can be. That goes by where the
  path leads and what lies there (`isWritable_iff`), so it stays as long as only files change
  (`IsWritable.of_sameWays`).
* **`exists_read_of_write`**, **`exists_unlink`**, **`exists_move`**: what was written there can be
  read, removed, and moved to another name that is short enough and is no directory.
* **`read_of_move`**: a file that is moved over anything is at its target, unless the target was on the
  way to its own directory (`FileTree.IsFoundApart`).
* **`Told.respects_ensureDirectory`**: a directory is made alike, whatever was told before.
-/

namespace WeaveStep.FileTree

variable {t t' : FileTree} {p source target : Path} {last : LastName} {place q : Location}
  {content : List UInt8} {budget : Nat} {here : Location} {names : List String}

/-- Whatever is to be written to the path, it can be. -/
def IsWritable (t : FileTree) (p : Path) : Prop := ∀ content, ∃ t', t.write p content = .ok t'

/-- What may lie where a file is written: nothing, a file, or something that takes what is written. -/
structure TakesContent (entry : Option Node) : Prop where
  notDirectory : entry ≠ some .directory
  noLink : ∀ text, entry ≠ some (.link text)

theorem isWritable_iff :
    t.IsWritable p ↔ ∃ q, t.locate .made p = .ok q ∧ TakesContent (t.get? q) := by
  constructor
  · intro h
    obtain ⟨t', hwrite⟩ := h []
    obtain ⟨q, hlocate, hwrite⟩ := except_bind_eq_ok.1 hwrite
    refine ⟨q, hlocate, fun hnode => ?_, fun text hnode => ?_⟩
    · rw [hnode] at hwrite
      cases hwrite
    · rw [hnode] at hwrite
      cases hwrite
  · rintro ⟨q, hlocate, htakes⟩ content
    unfold write
    rw [hlocate]
    simp only [bind, Except.bind]
    split
    · exact ⟨_, rfl⟩
    · exact ⟨_, rfl⟩
    · exact absurd ‹_› htakes.notDirectory
    · exact absurd ‹_› (htakes.noLink _)
    · exact ⟨_, rfl⟩

theorem isWritable_of_write (h : t.write p content = .ok t') : t.IsWritable p := by
  obtain ⟨q, hlocate, h⟩ := except_bind_eq_ok.1 h
  refine isWritable_iff.2 ⟨q, hlocate, fun hnode => ?_, fun text hnode => ?_⟩
  · rw [hnode] at h
    cases h
  · rw [hnode] at h
    cases h

theorem SameWays.takesContent (h : SameWays t t') (htakes : TakesContent (t.get? q)) :
    TakesContent (t'.get? q) := by
  rcases h.same q with heq | ⟨-, hfile⟩
  · rwa [heq]
  · refine ⟨fun hnode => ?_, fun text hnode => ?_⟩
    · cases hfile _ hnode
    · cases hfile _ hnode

/-- Where a file can be written does not change with the files. -/
theorem IsWritable.of_sameWays (h : t.IsWritable p) (hsame : SameWays t t') : t'.IsWritable p := by
  obtain ⟨q, hlocate, htakes⟩ := isWritable_iff.1 h
  exact isWritable_iff.2 ⟨q, hsame.locate hlocate, hsame.takesContent htakes⟩

theorem SameWays.refl (t : FileTree) : SameWays t t := ⟨fun _ => .inl rfl, rfl⟩

/-- Writing changes no more than files. -/
theorem sameWays_write (h : t.write p content = .ok t') : SameWays t t' := by
  obtain ⟨q, -, h⟩ := except_bind_eq_ok.1 h
  have hset : ∀ executable, IsFileOrNone (t.get? q) →
      SameWays t (t.set q (.file content executable)) := by
    intro executable hbefore
    refine ⟨fun q' => ?_, rfl⟩
    rw [get?_set]
    split
    · rename_i heq
      subst heq
      refine .inr ⟨hbefore, fun node hnode => ?_⟩
      cases hnode
      rfl
    · exact .inl rfl
  split at h <;> cases h
  · rename_i hfile
    exact hset _ fun node hnode => by rw [hfile] at hnode; cases hnode; rfl
  · exact .refl t
  · rename_i hfree
    exact hset _ fun node hnode => by rw [hfree] at hnode; cases hnode

/-! ## Ways to a writable file -/

theorem Way.followed_of_made (h : Way t .made budget here names place) :
    Way t .followed budget here names place := by
  have hstep : ∀ {name names}, IsStep .made name names → IsStep .followed name names := fun h =>
    ⟨h.notBlank, h.notUp, by simp, h.short⟩
  induction h with
  | done => exact .done
  | stay directory blank _ ih => exact .stay directory blank ih
  | up directory _ ih => exact .up directory ih
  | own _ _ _ own => cases own
  | follow directory step link _ _ ih => exact .follow directory (hstep step) link (by simp) ih
  | down directory step plain _ ih => exact .down directory (hstep step) plain ih

/-- Where a file can be written no directory lies, not even by the path's own name. -/
theorem IsWritable.not_directory (h : t.IsWritable p) (q : Location) :
    t.look .own p ≠ .ok (q, .directory) := by
  intro hlook
  obtain ⟨hlocate, hnode⟩ := look_eq_ok_iff.1 hlook
  obtain ⟨q', hmade, htakes⟩ := isWritable_iff.1 h
  have hfollowed := locate_followed_of_own hlocate (by simp [hnode])
  obtain rfl := (locate_eq_ok_iff.1 hfollowed).2.unique (locate_eq_ok_iff.1 hmade).2.followed_of_made
  exact htakes.notDirectory hnode

/-- The path's own name leads somewhere. -/
theorem IsWritable.exists_locate (h : t.IsWritable p) : ∃ q, t.locate .own p = .ok q := by
  obtain ⟨q, hmade, -⟩ := isWritable_iff.1 h
  obtain ⟨hsay, hway⟩ := locate_eq_ok_iff.1 hmade
  obtain ⟨q', hown, -⟩ := hway.own_of
  exact ⟨q', locate_eq_ok_iff.2 ⟨hsay, hown⟩⟩

/-- What was written is there, unless it was taken by something that holds nothing. -/
theorem look_of_write (h : t.write p content = .ok t') :
    ∃ q node, t'.look .followed p = .ok (q, node) ∧
      ((∃ executable, node = .file content executable) ∨ ∃ isFull, node = .device isFull) := by
  have hways := sameWays_write h
  obtain ⟨q, hmade, h⟩ := except_bind_eq_ok.1 h
  obtain ⟨hsay, hway⟩ := locate_eq_ok_iff.1 (hways.locate hmade)
  have hfollowed := locate_eq_ok_iff.2 ⟨hsay, hway.followed_of_made⟩
  have hset : ∀ executable, (t.set q (.file content executable)).get? q =
      some (.file content executable) := fun executable => by rw [get?_set, if_pos rfl]
  split at h <;> cases h
  · exact ⟨q, _, look_eq_ok_iff.2 ⟨hfollowed, hset _⟩, .inl ⟨_, rfl⟩⟩
  · exact ⟨q, _, look_eq_ok_iff.2 ⟨hfollowed, ‹_›⟩, .inr ⟨_, rfl⟩⟩
  · exact ⟨q, _, look_eq_ok_iff.2 ⟨hfollowed, hset _⟩, .inl ⟨_, rfl⟩⟩

/-- **What was written** can be read. -/
theorem exists_read_of_write (h : t.write p content = .ok t') : ∃ bytes, t'.read p = .ok bytes := by
  obtain ⟨q, node, hlook, hnode⟩ := look_of_write h
  have hstat := stat_eq_ok_iff.2 ⟨q, hlook⟩
  unfold read
  rw [hstat]
  rcases hnode with ⟨executable, rfl⟩ | ⟨isFull, rfl⟩
  · exact ⟨content, rfl⟩
  · exact ⟨[], rfl⟩

/-- What was written is there by its own name, and it is no directory. -/
theorem exists_look_of_write (h : t.write p content = .ok t') :
    ∃ q node, t'.look .own p = .ok (q, node) ∧ node ≠ .directory := by
  have hways := sameWays_write h
  have hwritable := (isWritable_of_write h).of_sameWays hways
  obtain ⟨q, hlocate⟩ := hwritable.exists_locate
  obtain ⟨bytes, hread⟩ := exists_read_of_write h
  obtain ⟨node, hstat, -⟩ := except_bind_eq_ok.1 hread
  obtain ⟨place, hlook⟩ := stat_eq_ok_iff.1 hstat
  obtain ⟨node', hnode⟩ := Option.ne_none_iff_exists'.1 (ne_none_of_look hlook hlocate)
  have hthere := look_eq_ok_iff.2 ⟨hlocate, hnode⟩
  exact ⟨q, node', hthere, fun heq => hwritable.not_directory q (heq ▸ hthere)⟩

/-- A file that can be written can be removed, or it is not there. -/
theorem exists_unlink (h : t.IsWritable p) :
    (∃ t', t.unlink p = .ok t') ∨ ∃ e, t.unlink p = .error e ∧ e.isMissing = true := by
  obtain ⟨q, hlocate⟩ := h.exists_locate
  have hdirectory := h.not_directory q
  unfold unlink look at *
  rw [hlocate] at hdirectory ⊢
  simp only [bind, Except.bind] at hdirectory ⊢
  cases hnode : t.get? q with
  | none => exact .inr ⟨_, rfl, by simp [FileFailure.refusal, FileFailure.isMissing]⟩
  | some node =>
    rw [hnode] at hdirectory
    cases node with
    | directory => exact absurd rfl hdirectory
    | _ => exact .inl ⟨_, rfl⟩

/-! ## Moves that cannot fail -/

/-- A directory has an entry by every name that is short enough. -/
theorem Way.exists_entry {name : String} (h : Way t .followed budget here names place)
    (hplace : t.get? place = some .directory) (hshort : name.utf8ByteSize ≤ maxNameBytes) :
    ∃ q, Way t .own budget here (names ++ [name]) q := by
  have hstep : ∀ {first names'}, IsStep .followed first names' →
      IsStep .own first (names' ++ [name]) := fun h => ⟨h.notBlank, h.notUp, by simp, h.short⟩
  induction h with
  | @done _ here =>
    by_cases hblank : name = "" ∨ name = "."
    · exact ⟨here, .stay hplace hblank .done⟩
    by_cases hup : name = ".."
    · subst hup
      exact ⟨here.dropLast, .up hplace .done⟩
    have hname : IsStep .own name [] := ⟨hblank, hup, by simp, by omega⟩
    by_cases hlink : ∃ text, t.get? (here ++ [name]) = some (.link text)
    · obtain ⟨text, hlink⟩ := hlink
      exact ⟨here ++ [name], .own hplace hname hlink rfl⟩
    · exact ⟨here ++ [name], .down hplace hname (fun text htext => hlink ⟨text, htext⟩) .done⟩
  | stay directory blank _ ih => exact (ih hplace).imp fun _ => .stay directory blank
  | up directory _ ih => exact (ih hplace).imp fun _ => .up directory
  | own _ _ _ own => cases own
  | follow directory step link _ _ ih =>
    obtain ⟨q, hway⟩ := ih hplace
    rw [List.append_assoc] at hway
    exact ⟨q, .follow directory (hstep step) link (by simp) hway⟩
  | down directory step plain _ ih => exact (ih hplace).imp fun _ => .down directory (hstep step) plain

theorem text_entry_append (p : Path) (name more : String) :
    (p.entry (name ++ more)).text = (p.entry name).text ++ more := by
  have htext : ∀ last, (p.entry last).text = p.anchor.text ++ "/".intercalate (p.parts ++ [last]) := by
    intro last
    unfold Path.text Path.entry
    split <;> simp_all
  rw [htext, htext]
  by_cases hparts : p.parts = []
  · simp [hparts, String.append_assoc]
  · rw [String.intercalate_append_of_ne_nil hparts (by simp),
      String.intercalate_append_of_ne_nil hparts (by simp)]
    simp [String.append_assoc]

theorem Way.short {name : String} (h : Way t last budget here [name] place) :
    name.utf8ByteSize ≤ maxNameBytes := by
  cases h with
  | stay _ blank => rcases blank with rfl | rfl <;> decide
  | up => decide
  | own _ step | follow _ step | down _ step => exact Nat.not_lt.1 step.short

/-- A name that is shorter leads somewhere if the longer one does. -/
theorem exists_locate_of_longer {name more : String}
    (h : t.locate .made (p.entry (name ++ more)) = .ok place) :
    ∃ q, t.locate .own (p.entry name) = .ok q := by
  obtain ⟨mid, budget, hmid, hlast⟩ := locate_above h (by simp)
  obtain ⟨hlocate, hdirectory⟩ := look_eq_ok_iff.1 hmid
  have hlong := hlast.short
  have hshort : name.utf8ByteSize ≤ maxNameBytes := by
    rw [String.utf8ByteSize_append] at hlong
    omega
  obtain ⟨q, hway⟩ := (locate_eq_ok_iff.1 hlocate).2.exists_entry hdirectory hshort
  obtain ⟨hnull, hbytes⟩ := (locate_eq_ok_iff.1 h).1
  rw [text_entry_append] at hnull hbytes
  rw [String.utf8ByteSize_append] at hbytes
  refine ⟨q, locate_eq_ok_iff.2 ⟨⟨?_, by omega⟩, hway⟩⟩
  rw [String.contains_char_eq] at hnull ⊢
  simp_all

/-- **A file is moved** to a name that leads somewhere, where no directory lies. -/
theorem exists_move {node : Node} (hsource : t.look .own source = .ok (place, node))
    (hnode : node ≠ .directory) (htarget : t.locate .own target = .ok q) (hup : target.name ≠ "..")
    (hfree : t.get? q ≠ some .directory) : ∃ t', t.move source target = .ok t' := by
  unfold move
  rw [hsource, htarget]
  simp only [Except.mapError, bind, Except.bind, hup, if_false]
  cases node with
  | directory => exact absurd rfl hnode
  | _ =>
    cases hgoal : t.get? q with
    | none => split <;> exact ⟨_, rfl⟩
    | some goal =>
      cases goal with
      | directory => exact absurd hgoal hfree
      | _ => split <;> exact ⟨_, rfl⟩

/-! ## Moves over anything -/

/-- The directory of the path is found without what lies at the path. -/
def IsFoundApart (t : FileTree) (p : Path) : Prop :=
  ∀ place, t.locate .own p = .ok place →
    ∃ within, (t.erase place).look .followed p.parent = .ok (within, .directory)

theorem IsFoundApart.of_sameWays (h : IsFoundApart t p) (hways : SameWays t t') :
    IsFoundApart t' p := by
  intro place hlocate
  obtain ⟨within, hwithin⟩ := h place (hways.symm.locate hlocate)
  exact ⟨within, (hways.erase place).look_directory hwithin⟩

theorem parent_entry (p : Path) (name : String) : (p.entry name).parent = p := by
  simp [Path.parent, Path.entry]

section

variable {base : Path} {name : String}

/-- That is so wherever there is at most a file. -/
theorem AtMostFile.isFoundApart (h : AtMostFile t (base.entry name)) :
    IsFoundApart t (base.entry name) := by
  intro place hlocate
  rw [parent_entry]
  obtain ⟨within, -, hwithin, -⟩ := locate_above hlocate (by simp)
  exact ⟨within, (sameWays_erase (h.isFileOrNone hlocate)).look_directory hwithin⟩

/-- **A file that is moved over anything** is at its target, if the directory of the target is found
without what lay there. -/
theorem read_of_move {executable : Bool} (hname : IsEntryName name)
    (hapart : IsFoundApart t (base.entry name))
    (hfile : t.look .own source = .ok (place, .file content executable))
    (h : t.move source (base.entry name) = .ok t') : t'.read (base.entry name) = .ok content := by
  obtain ⟨q, node, goal, hlook, hgoal, -, -, -, hmoved⟩ := move_eq_ok h
  rw [hfile] at hlook
  cases hlook
  obtain ⟨-, hnode⟩ := look_eq_ok_iff.1 hfile
  obtain ⟨rfl, rfl⟩ | ⟨-, rfl⟩ := hmoved
  · exact read_of_look (look_eq_ok_iff.2 ⟨hgoal, hnode⟩)
  obtain ⟨within, hwithin⟩ := hapart goal hgoal
  rw [parent_entry] at hwithin
  have hkept : Stays (t.erase goal) t := stays_of_kept rfl fun q node hq => by
    rw [get?_erase] at hq
    split at hq
    · cases hq
    · exact hq
  obtain rfl := locate_own_entry (look_directory_of_stays hkept hwithin) hname hgoal
  -- the directory is still found after the move, and the target is its entry
  have hbase := (sameWays_relocate hnode).look_directory hwithin
  obtain ⟨hlocate, hdirectory⟩ := look_eq_ok_iff.1 hbase
  obtain ⟨_, _, -, hlast⟩ := locate_above hgoal (by simp)
  obtain ⟨q, hway⟩ := (locate_eq_ok_iff.1 hlocate).2.exists_entry hdirectory hlast.short
  have hown : (t.relocate place (within ++ [name])).locate .own (base.entry name) = .ok q :=
    locate_eq_ok_iff.2 ⟨(locate_eq_ok_iff.1 hgoal).1, hway⟩
  obtain rfl := locate_own_entry hbase hname hown
  have hmoved : (t.relocate place (within ++ [name])).get? (within ++ [name]) =
      some (.file content executable) := by
    rw [get?_relocate hnode, if_pos rfl]
  exact read_of_look (look_eq_ok_iff.2 ⟨hown, hmoved⟩)

/-- What is written to a path that is no link, and then moved, is at the target, unless it was taken by
something that holds nothing. -/
theorem read_of_write_move {moved : FileTree} (hwrite : t.write source content = .ok t')
    (hlink : ∀ q text, t.look .own source ≠ .ok (q, .link text)) (hname : IsEntryName name)
    (hapart : IsFoundApart t (base.entry name))
    (hmove : t'.move source (base.entry name) = .ok moved) :
    t'.read source = .ok [] ∨
      t'.read source = .ok content ∧ moved.read (base.entry name) = .ok content := by
  have hways := sameWays_write hwrite
  obtain ⟨q, node, hlook, hnode⟩ := look_of_write hwrite
  obtain ⟨place, own, _, hown, -⟩ := move_eq_ok hmove
  obtain ⟨hlocate, hthere⟩ := look_eq_ok_iff.1 hown
  have hplain : ∀ text, t'.get? place ≠ some (.link text) := by
    intro text htext
    exact hlink place text (look_eq_ok_iff.2 ⟨hways.symm.locate hlocate, hways.symm.link htext⟩)
  have hsame := look_eq_ok_iff.2 ⟨locate_followed_of_own hlocate hplain, hthere⟩
  rw [hlook] at hsame
  cases hsame
  rcases hnode with ⟨executable, rfl⟩ | ⟨isFull, rfl⟩
  · exact .inr ⟨read_of_look hown, read_of_move hname (hapart.of_sameWays hways) hown hmove⟩
  · left
    rw [read, stat, hlook]
    rfl

end

/-! ## What was told -/

namespace Told

theorem sameWays (h : Told t t') : SameWays t t' where
  same q := (h.kept q).imp_right fun ⟨_, old, new, executable, hold, hnew⟩ => by
    refine ⟨fun node hnode => ?_, fun node hnode => ?_⟩
    · rw [hold] at hnode
      cases hnode
      rfl
    · rw [hnew] at hnode
      cases hnode
      rfl
  workingDirectory := h.workingDirectory

theorem walk_eq (h : Told t t') :
    t'.walk last budget here names = t.walk last budget here names := by
  have hdirectory : ∀ {q}, t.get? q = some .directory → t'.get? q = some .directory :=
    fun {q} => (h.kept q).directory_iff.2
  have hlink : ∀ {q text}, t.get? q = some (.link text) → t'.get? q = some (.link text) :=
    fun {q _} => (h.kept q).link_iff.2
  fun_induction t.walk last budget here names with
  | case1 => rw [walk]
  | case2 budget here name rest hhere hname ih => rw [walk_stay (hdirectory hhere) hname, ih]
  | case3 budget here rest hhere hname ih => rw [walk_up (hdirectory hhere), ih]
  | case4 budget here name rest hhere hname hup hmade =>
    rw [walk, hdirectory hhere]
    dsimp only
    rw [if_neg hname, if_neg hup, if_pos hmade]
  | case5 budget here name rest hhere hname hup hmade hlong =>
    rw [walk, hdirectory hhere]
    dsimp only
    rw [if_neg hname, if_neg hup, if_neg hmade, if_pos hlong]
  | case6 budget here name rest hhere hname hup hmade hshort target htarget hlast =>
    obtain ⟨rfl, hown⟩ := hlast
    exact walk_own (hdirectory hhere) ⟨hname, hup, hmade, hshort⟩ (hlink htarget) hown
  | case7 here name rest hhere hname hup hmade hshort target htarget hlast =>
    rw [walk, hdirectory hhere]
    dsimp only
    rw [if_neg hname, if_neg hup, if_neg hmade, if_neg hshort, hlink htarget]
    dsimp only
    rw [if_neg hlast]
  | case8 here name rest hhere hname hup hmade hshort target htarget hlast budget ih =>
    rw [walk_follow (hdirectory hhere) ⟨hname, hup, hmade, hshort⟩ (hlink htarget) hlast, ih]
  | case9 budget here name rest hhere hname hup hmade hlong hplain ih =>
    rw [walk_down (hdirectory hhere) ⟨hname, hup, hmade, hlong⟩ fun target htarget =>
      hplain target ((h.kept _).link_iff.1 htarget), ih]
  | case10 budget here name rest node hplain hnode =>
    rw [walk]
    obtain hsame | ⟨-, old, new, executable, hold, hnew⟩ := h.kept here
    · rw [hsame, hnode]
      cases node with
      | directory => exact absurd rfl hplain
      | _ => rfl
    · rw [hnew]
  | case11 budget here name rest hhere =>
    rw [walk, (h.kept here).none_iff.2 hhere]

theorem locate_eq (h : Told t t') (last : LastName) (p : Path) :
    t'.locate last p = t.locate last p := by
  unfold locate locateNames startOf
  rw [h.workingDirectory, h.walk_eq]

theorem isDirectory?_eq (h : Told t t') (p : Path) : t.isDirectory? p = t'.isDirectory? p := by
  unfold isDirectory? ask stat look
  rw [h.locate_eq]
  cases t.locate .followed p with
  | error e => rfl
  | ok place =>
    obtain hsame | ⟨-, old, new, executable, hold, hnew⟩ := h.kept place
    · simp only [hsame, bind, Except.bind]
    · simp only [hold, hnew, bind, Except.bind]
      rfl

theorem makeDirectory_alike (h : Told t t') (p : Path) :
    ChangesAlike Told (t.makeDirectory p) (t'.makeDirectory p) := by
  unfold makeDirectory
  rw [h.locate_eq]
  refine .bind fun place => ?_
  obtain hsame | ⟨-, old, new, executable, hold, hnew⟩ := h.kept place
  · rw [hsame]
    split
    · exact .error _
    · refine .ok ⟨fun q => ?_, h.workingDirectory, h.held⟩
      unfold Kept
      rw [get?_set, get?_set]
      split
      · exact .inl rfl
      · exact h.kept q
  · rw [hold, hnew]
    exact .error _

/-- **A directory is made** alike, whatever was told before. -/
theorem respects_ensureDirectory (p : Path) : Respects Told (ensureDirectory p) :=
  respects_ensureDirectory_of (fun p _ _ h => h.makeDirectory_alike p)
    (fun p _ _ h => h.isDirectory?_eq p) p

end Told

end WeaveStep.FileTree
