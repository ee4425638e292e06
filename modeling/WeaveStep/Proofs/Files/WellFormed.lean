import WeaveStep.Files.Change
import WeaveStep.Proofs.Files.Ways

/-!
# Well-formed trees

`FileTree.IsTree`: every entry lies in a directory and has the name of an entry. Nothing lies below
what is not there (`IsTree.get?_below`), and an entry that is set in a directory leaves the tree well
formed (`IsTree.set`). A new directory is found by the path it was made with (`look_made`).
-/

namespace WeaveStep.FileTree

/-- Every entry lies in a directory and has the name of an entry. -/
structure IsTree (t : FileTree) : Prop where
  root : t.get? [] = some .directory
  parent : ∀ place name, t.get? (place ++ [name]) ≠ none → t.get? place = some .directory
  name : ∀ place name, t.get? (place ++ [name]) ≠ none → IsEntryName name

variable {t t' : FileTree} {p : Path} {place : Location}

namespace IsTree

/-- Nothing lies below what is not there. -/
theorem get?_below (htree : IsTree t) (h : t.get? place = none) (names : List String) :
    t.get? (place ++ names) = none := by
  induction names generalizing place with
  | nil => simpa using h
  | cons name names ih =>
    rw [← List.singleton_append, ← List.append_assoc]
    refine ih (Option.not_isSome_iff_eq_none.1 fun hsome => ?_)
    rw [htree.parent place name (Option.isSome_iff_ne_none.1 hsome)] at h
    cases h

/-- What lies above an entry is a directory. -/
theorem get?_above (htree : IsTree t) {names : List String} (hnames : names ≠ [])
    (h : t.get? (place ++ names) ≠ none) : t.get? place = some .directory := by
  obtain ⟨name, names, rfl⟩ := List.exists_cons_of_ne_nil hnames
  refine htree.parent place name fun hnone => h ?_
  rw [← List.singleton_append, ← List.append_assoc]
  exact htree.get?_below hnone names

theorem directory_of_prefix (htree : IsTree t) {front : Location} (hfront : front <+: place)
    (h : t.get? place = some .directory) : t.get? front = some .directory := by
  obtain ⟨more, rfl⟩ := hfront
  by_cases hmore : more = []
  · simpa [hmore] using h
  · exact htree.get?_above hmore (by simp [h])

/-- A directory stays one where an entry of it is set, unless it is itself replaced. -/
theorem set (htree : IsTree t) {name : String} {node : Node} (hname : IsEntryName name)
    (hparent : t.get? place = some .directory)
    (hdirectory : t.get? (place ++ [name]) = some .directory → node = .directory) :
    IsTree (t.set (place ++ [name]) node) where
  root := by rw [get?_set, if_neg (by simp), htree.root]
  parent q last h := by
    rw [get?_set] at h
    have hq : t.get? q = some .directory := by
      split at h
      · rename_i heq
        rwa [(List.append_inj' heq rfl).1]
      · exact htree.parent q last h
    rw [get?_set]
    split
    · subst q
      rw [hdirectory hq]
    · exact hq
  name q last h := by
    rw [get?_set] at h
    split at h
    · rename_i heq
      have hlast := (List.append_inj' heq rfl).2
      simp only [List.cons.injEq, and_true] at hlast
      rwa [hlast]
    · exact htree.name q last h

/-- What is above a directory is a directory. -/
theorem dropLast (htree : IsTree t) (h : t.get? place = some .directory) :
    t.get? place.dropLast = some .directory := by
  rcases List.eq_nil_or_concat place with rfl | ⟨above, name, rfl⟩
  · exact h
  · rw [List.concat_eq_append] at *
    rw [List.dropLast_concat]
    exact htree.parent above name (by simp [h])

theorem way_free_last (htree : IsTree t) {last : LastName} {budget : Nat} {here : Location}
    {names : List String} (h : Way t last budget here names place)
    (hhere : t.get? here = some .directory) (hfree : t.get? place = none) :
    ∃ within name, place = within ++ [name] ∧ t.get? within = some .directory ∧ IsEntryName name := by
  induction h with
  | done =>
    rw [hhere] at hfree
    cases hfree
  | stay _ _ _ ih => exact ih hhere hfree
  | up _ _ ih => exact ih (htree.dropLast hhere) hfree
  | own _ _ link =>
    rw [link] at hfree
    cases hfree
  | @follow _ here _ _ target _ _ _ _ _ _ ih =>
    refine ih ?_ hfree
    unfold targetStart
    split
    · exact htree.root
    · exact hhere
  | @down _ here _ name _ _ step _ way ih =>
    cases way with
    | done =>
      have hname : IsEntryName name := ⟨fun h => step.notBlank (.inl h),
        fun h => step.notBlank (.inr h), step.notUp⟩
      exact ⟨here, name, rfl, hhere, hname⟩
    | _ => exact ih ‹_› hfree

/-- Where a path leads and nothing lies, a directory has a free name. -/
theorem free_last (htree : IsTree t) {last : LastName}
    (hstart : t.get? (t.startOf p) = some .directory) (hlocate : t.locate last p = .ok place)
    (hfree : t.get? place = none) :
    ∃ within name, place = within ++ [name] ∧ t.get? within = some .directory ∧ IsEntryName name :=
  htree.way_free_last (locate_eq_ok_iff.1 hlocate).2 hstart hfree

end IsTree

theorem isTree_of_entries (hroot : t.get? [] = some .directory)
    (h : ∀ e ∈ t.entries, e.1 = [] ∨
      t.get? e.1.dropLast = some .directory ∧ IsEntryName (e.1.getLast?.getD "")) : IsTree t := by
  have hentry : ∀ place name, t.get? (place ++ [name]) ≠ none →
      t.get? place = some .directory ∧ IsEntryName name := by
    intro place name hget
    obtain ⟨e, he, heq⟩ : ∃ e ∈ t.entries, place ++ [name] = e.1 := by
      simpa [get?, List.lookup_eq_none_iff] using hget
    rcases h e he with hnil | hparent
    · simp [← heq] at hnil
    · simpa [← heq] using hparent
  exact ⟨hroot, fun place name hget => (hentry place name hget).1,
    fun place name hget => (hentry place name hget).2⟩

/-! ## New directories -/

theorem stays_set (h : t.get? place = none) : Stays t (t.set place .directory) where
  workingDirectory := rfl
  there q hq := by rw [get?_set]; split <;> simp_all
  directory q hq := by rw [get?_set]; split <;> simp_all
  link q target hq := by rw [get?_set]; split <;> simp_all
  noLink q target hq hlink := by rw [get?_set] at hlink; split at hlink <;> simp_all

theorem makeDirectory_of_free (hlocate : t.locate .own p = .ok place) (hfree : t.get? place = none) :
    t.makeDirectory p = .ok (t.set place .directory) := by
  rw [makeDirectory, hlocate]
  simp [bind, Except.bind, hfree]

/-- An entry that is set where there was none is added to the others. -/
theorem set_of_free (hfree : t.get? place = none) (node : Node) :
    t.set place node = { t with entries := (place, node) :: t.entries } := by
  have hothers : t.entries.filter (fun e => e.1 ≠ place) = t.entries := by
    rw [List.filter_eq_self]
    intro e he
    have hne : place ≠ e.1 := by simpa using List.lookup_eq_none_iff.1 hfree e he
    simpa using hne.symm
  rw [set, hothers]

/-- A file is made where there is nothing. -/
theorem write_of_free (hlocate : t.locate .made p = .ok place) (hfree : t.get? place = none)
    (content : List UInt8) :
    t.write p content = .ok { t with entries := (place, .file content false) :: t.entries } := by
  rw [write, hlocate, ← set_of_free hfree]
  simp only [bind, Except.bind, hfree]

/-- A file that is there takes the content. -/
theorem write_of_file {old : List UInt8} {executable : Bool} (hlocate : t.locate .made p = .ok place)
    (hfile : t.get? place = some (.file old executable)) (content : List UInt8) :
    t.write p content = .ok (t.set place (.file content executable)) := by
  rw [write, hlocate]
  simp only [bind, Except.bind, hfile]

theorem set_set (place : Location) (old node : Node) :
    (t.set place old).set place node = t.set place node := by
  simp [set, List.filter_filter]

theorem makeDirectory_eq_ok (h : t.makeDirectory p = .ok t') :
    ∃ place, t.locate .own p = .ok place ∧ t.get? place = none ∧ t' = t.set place .directory := by
  obtain ⟨place, hlocate, h⟩ := except_bind_eq_ok.1 h
  split at h <;> cases h
  exact ⟨place, hlocate, ‹_›, rfl⟩

/-- A directory that is made is found. -/
theorem look_made (hlocate : t.locate .own p = .ok place) (hfree : t.get? place = none) :
    (t.set place .directory).look .followed p = .ok (place, .directory) := by
  have hstays := stays_set hfree
  have hnode : (t.set place .directory).get? place = some .directory := by simp [get?_set]
  exact look_eq_ok_iff.2 ⟨locate_followed_of_own
    (locate_of_stays hstays hlocate (by simp [hnode])) (by simp [hnode]), hnode⟩

end WeaveStep.FileTree
