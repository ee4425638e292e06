import WeaveStep.Proofs.Files.Growth
import WeaveStep.Proofs.Weave.FreshStart

/-!
# What clearing the outputs leaves

* `Cleared root t r t'`: the ways in which clearing the outputs at a root can end
  (**`cleared_clearSlots`**).
* **`steers_of_removed`**: once the root was removed, what is made by its names grows where it was.
-/

namespace WeaveStep.FileTree

variable {t t' : FileTree} {root p : Path} {place : Location} {names : List String}

/-! ## How clearing ends -/

/-- The ways in which clearing the outputs can end. -/
inductive Cleared (root : Path) (t : FileTree) : Except FileFailure Unit → FileTree → Prop
  /-- It fails and changes nothing. -/
  | refused (e : FileFailure) : Cleared root t (.error e) t
  /-- The root leads nowhere. -/
  | absent (nothing : ∀ place node, t.look .followed root ≠ .ok (place, node)) :
    Cleared root t (.ok ()) t
  /-- The root is emptied, and cannot be removed then. -/
  | emptied {place : Location} (e : FileFailure) (found : t.look .own root = .ok (place, .directory)) :
    Cleared root t (.error e) (t.eraseInside place)
  /-- The root is removed with all below it. -/
  | removed {place : Location} (found : t.look .own root = .ok (place, .directory))
    (again : (t.eraseInside place).look .own root = .ok (place, .directory))
    (parts : root.parts ≠ []) (name : root.name ≠ "..") :
    Cleared root t (.ok ()) ((t.eraseInside place).erase place)

theorem cleared_clearSlots (root : Path) (t : FileTree) :
    Yields (clearSlots root) t (Cleared root t) := by
  unfold clearSlots
  cases hexists : t.exists? root with
  | error e =>
    have hquery : query (·.exists? root) t = .error e t := by rw [query, hexists]
    exact yields_bind_of_error hquery (.refused e)
  | ok found =>
    refine yields_bind_of_ok (query_ok hexists) ?_
    cases found with
    | false =>
      refine .absent fun place node hlook => ?_
      have hstat := stat_eq_ok_iff.2 ⟨place, hlook⟩
      simp [exists?, ask, hstat] at hexists
    | true =>
      unfold removeTree
      cases hlook : t.look .own root with
      | error e =>
        have hquery : query (·.look .own root) t = .error e t := by rw [query, hlook]
        exact yields_bind_of_error hquery (.refused e)
      | ok at_ =>
        refine yields_bind_of_ok (query_ok hlook) ?_
        obtain ⟨place, node⟩ := at_
        cases node with
        | link target =>
          refine Yields.bind (fun _ t₁ hquery => ?_) fun e t₁ hquery => ?_
          · obtain ⟨-, rfl⟩ := query_eq_ok hquery
            exact .refused _
          · unfold query at hquery
            split at hquery <;> cases hquery
            exact .refused e
        | file content executable => exact .refused _
        | device isFull => exact .refused _
        | directory =>
          have hmodify : (modify fun t => t.eraseInside place : Action Unit) t =
              .ok () (t.eraseInside place) := rfl
          refine yields_bind_of_ok hmodify ?_
          cases hremove : (t.eraseInside place).removeDirectory root with
          | error e => simpa only [Yields, change, hremove] using Cleared.emptied e hlook
          | ok t₁ =>
            obtain ⟨place', hagain, hparts, hname, rfl⟩ := removeDirectory_eq_ok hremove
            have hsame := look_directory_of_stays (stays_of_eraseInside t place) hagain
            rw [hlook] at hsame
            cases hsame
            simpa only [Yields, change, hremove] using Cleared.removed hlook hagain hparts hname

/-! ## A root that was removed -/

theorem get?_removed (t : FileTree) (place q : Location) :
    ((t.eraseInside place).erase place).get? q = if isWithin place q then none else t.get? q := by
  rw [(sameView_erase_eraseInside t place).get?, get?_without]

theorem isTree_of_removed (htree : IsTree t) (hplace : place ≠ []) :
    IsTree ((t.eraseInside place).erase place) := by
  have houtside : ∀ q name, ((t.eraseInside place).erase place).get? (q ++ [name]) ≠ none →
      isWithin place q = false ∧ t.get? (q ++ [name]) ≠ none := by
    intro q name hname
    rw [get?_removed] at hname
    split at hname
    · exact absurd rfl hname
    · rename_i hout
      exact ⟨Bool.eq_false_iff.2 fun hin => hout (isWithin_append hin), hname⟩
  refine ⟨?_, fun q name hname => ?_, fun q name hname => ?_⟩
  · rw [get?_removed, if_neg, htree.root]
    rwa [isWithin, List.isPrefixOf_iff_prefix, List.prefix_nil]
  · obtain ⟨hout, hname⟩ := houtside q name hname
    rw [get?_removed, hout]
    exact htree.parent q name hname
  · exact htree.name q name (houtside q name hname).2

section

variable (htree : IsTree t) (habsolute : root.anchor ≠ .relative) (hplace : place ≠ [])
  (hempty : (t.eraseInside place).look .own root = .ok (place, .directory))
  (hgrows : Grows place ((t.eraseInside place).erase place) t')

include hempty hgrows in
/-- Links lie where they lay when the root was empty. -/
theorem Grows.links (q : Location) (target : String) :
    (t.eraseInside place).get? q = some (.link target) ↔ t'.get? q = some (.link target) := by
  cases hin : isWithin place q with
  | true =>
    have hlinked := hgrows.plain q target hin
    by_cases hq : q = place
    · subst hq
      rw [(look_eq_ok_iff.1 hempty).2]
      simp [hlinked]
    · rw [get?_eraseInside, if_pos ⟨hin, hq⟩]
      simp [hlinked]
  | false =>
    have hget : (t.eraseInside place).get? q = ((t.eraseInside place).erase place).get? q := by
      rw [get?_removed, get?_eraseInside]
      simp [hin]
    rcases hgrows.outside q hin with hkept | ⟨hfree, hmade, -⟩
    · rw [hget, hkept.link_iff]
    · rw [hget, hfree, hmade]
      simp

include habsolute hempty hgrows in
/-- The root leads to its old place, or nowhere. -/
theorem Grows.root_found {q : Location} (hlocate : t'.locate .followed root = .ok q) : q = place := by
  obtain ⟨hlocated, hnode⟩ := look_eq_ok_iff.1 hempty
  have hway := (locate_eq_ok_iff.1 (locate_followed_of_own hlocated (by simp [hnode]))).2
  have hway' := (locate_eq_ok_iff.1 hlocate).2
  have hstart : t'.startOf root = (t.eraseInside place).startOf root := by
    simp [startOf, Path.isAbsolute, habsolute]
  rw [hstart] at hway'
  exact (hway.unique_of_links (hgrows.links hempty) hway').symm

include habsolute hempty hgrows in
/-- The names of the root lead to what was there, or to its old place. -/
theorem Grows.above_free {above : List String} {q : Location} (habove : above <+: root.parts)
    (hlocate : t'.locate .own ⟨root.anchor, above⟩ = .ok q) (hfree : t'.get? q = none) :
    q = place := by
  obtain ⟨more, hmore⟩ := habove
  obtain ⟨hlocated, hnode⟩ := look_eq_ok_iff.1 hempty
  have hstart : ∀ t : FileTree, ∀ parts, t.startOf ⟨root.anchor, parts⟩ = [] := by
    simp [startOf, Path.isAbsolute, habsolute]
  -- by these names there was a directory or a link
  obtain ⟨q', budget, hway, hthere⟩ : ∃ q' budget, Way (t.eraseInside place) .own budget [] above q' ∧
      (t.eraseInside place).get? q' ≠ none := by
    have hroot := (locate_eq_ok_iff.1 hlocated).2
    rw [show root = ⟨root.anchor, above ++ more⟩ by rw [hmore], hstart] at hroot
    by_cases hnil : more = []
    · rw [hnil, List.append_nil] at hroot
      exact ⟨place, _, hroot, by simp [hnode]⟩
    · obtain ⟨mid, budget, hfirst, hlast⟩ := hroot.split hnil
      obtain ⟨name, names, rfl⟩ := List.exists_cons_of_ne_nil hnil
      obtain ⟨q', hown, hq'⟩ := hfirst.own_of
      refine ⟨q', _, hown, ?_⟩
      rcases hq' with rfl | ⟨target, hlink⟩
      · simp [hlast.directory]
      · simp [hlink]
  have hway' := (locate_eq_ok_iff.1 hlocate).2
  rw [hstart] at hway'
  obtain rfl := hway.unique_of_links (hgrows.links hempty) hway'
  cases hin : isWithin place q' with
  | true =>
    by_contra hne
    rw [get?_eraseInside, if_pos ⟨hin, hne⟩] at hthere
    exact hthere rfl
  | false =>
    have hkept := (hgrows.outside q' hin).resolve_right fun hmade => by simp [hfree] at hmade
    rw [hkept.none_iff, get?_removed, hin, if_neg Bool.false_ne_true] at hfree
    simp [get?_eraseInside, hin, hfree] at hthere

include htree hempty hplace hgrows in
theorem Grows.parent_found : ∃ within name, place = within ++ [name] ∧
    t'.get? within = some .directory ∧ IsEntryName name := by
  obtain ⟨within, name, rfl⟩ := (List.eq_nil_or_concat place).resolve_left hplace
  rw [List.concat_eq_append] at *
  have hthere : t.get? (within ++ [name]) ≠ none := by
    have hnode := (look_eq_ok_iff.1 hempty).2
    rw [get?_eraseInside, if_neg (by simp)] at hnode
    simp [hnode]
  have hout : isWithin (within ++ [name]) within = false := by
    rw [Bool.eq_false_iff]
    intro hin
    have hlength := (List.isPrefixOf_iff_prefix.1 hin).length_le
    rw [List.length_append, List.length_singleton] at hlength
    omega
  have hparent := htree.parent within name hthere
  have hremoved : ((t.eraseInside (within ++ [name])).erase (within ++ [name])).get? within =
      some .directory := by
    rw [get?_removed, hout]
    exact hparent
  refine ⟨within, name, rfl, ?_, htree.name within name hthere⟩
  rcases hgrows.outside within hout with hkept | ⟨hfree, -⟩
  · exact hkept.directory_iff.2 hremoved
  · rw [hremoved] at hfree
    cases hfree

end

/-- The root of the file system is never removed. -/
theorem ne_nil_of_removed (habsolute : root.anchor ≠ .relative) (hparts : root.parts ≠ [])
    (hnames : ∀ name ∈ root.parts, Path.isName name = true) (hname : root.name ≠ "..")
    (hlocate : t.locate .own root = .ok place) : place ≠ [] := by
  obtain ⟨anchor, parts⟩ := root
  obtain ⟨init, last, rfl⟩ := (List.eq_nil_or_concat parts).resolve_left hparts
  rw [List.concat_eq_append] at *
  obtain ⟨mid, budget, -, hway⟩ := locate_above hlocate (by simp)
  have hlast := hnames last (by simp)
  have hup : last ≠ ".." := by simpa [Path.name] using hname
  cases hway with
  | stay _ blank => rcases blank with rfl | rfl <;> simp [Path.isName] at hlast
  | up => exact absurd rfl hup
  | own => simp
  | follow _ _ _ followed => simp at followed
  | down _ _ _ way =>
    cases way
    simp

/-- **A root that was removed** grows where it was. -/
theorem steers_of_removed (htree : IsTree t) (habsolute : root.anchor ≠ .relative) (hplace : place ≠ [])
    (hempty : (t.eraseInside place).look .own root = .ok (place, .directory)) :
    Steers root place ((t.eraseInside place).erase place) where
  start :=
    { outside := fun _ _ => .inl (.inl rfl)
      plain := fun q target hq => by simp [get?_removed, hq]
      isTree := isTree_of_removed htree hplace
      workingDirectory := rfl
      held := rfl }
  free {t' names above q} hgrows hnames habove hlocate hfree := by
    obtain hroot | ⟨init, last, rfl⟩ :
        above <+: root.parts ∨ ∃ init last, above = root.parts ++ (init ++ [last]) := by
      rcases List.prefix_or_prefix_of_prefix habove (List.prefix_append root.parts names) with
        hroot | ⟨more, rfl⟩
      · exact .inl hroot
      · rcases List.eq_nil_or_concat more with rfl | ⟨init, last, rfl⟩
        · exact .inl (by simp)
        · exact .inr ⟨init, last, by simp⟩
    · obtain rfl := hgrows.above_free habsolute hempty hroot hlocate hfree
      obtain ⟨within, name, hq, hparent, hname⟩ := hgrows.parent_found htree hplace hempty
      exact ⟨within, name, hq, hparent, hname, .inl (isWithin_refl q)⟩
    · have hbegin := (List.prefix_append_right_inj root.parts).1 habove
      obtain ⟨mid, budget, hmid, hway⟩ := locate_above hlocate (by simp)
      obtain rfl := hgrows.root_found habsolute hempty (look_eq_ok_iff.1 hmid).1
      obtain rfl := hway.descend hgrows.plain (isWithin_refl _)
        fun name hname => hnames name (hbegin.subset hname)
      have hlast : IsEntryName last := hnames last (hbegin.subset (by simp))
      simp only [← List.append_assoc] at hlocate hfree ⊢
      exact ⟨_, last, rfl, isDirectory_of_free hlast hlocate hfree, hlast,
        .inl (isWithin_append (isWithin_append (isWithin_refl _)))⟩
  found {t' names q node} hgrows hnames hlook := by
    have hlocate := (look_eq_ok_iff.1 hlook).1
    by_cases hnil : names = []
    · have hroot : under root names = root := by simp [under, hnil]
      rw [hnil, List.append_nil]
      exact hgrows.root_found habsolute hempty (hroot ▸ hlocate)
    · obtain ⟨mid, budget, hmid, hway⟩ := locate_above hlocate hnil
      obtain rfl := hgrows.root_found habsolute hempty (look_eq_ok_iff.1 hmid).1
      exact hway.descend hgrows.plain (isWithin_refl _) hnames

end WeaveStep.FileTree
