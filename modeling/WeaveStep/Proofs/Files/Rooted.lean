import WeaveStep.Proofs.Files.Copies
import WeaveStep.Proofs.Files.Opening

/-!
# Opening directories below a root

`FileTree.Rooted root place t`: the root leads to a directory at a place, and no links lie below it.

* **`opened_below`**: a directory that is made below such a root is made there, with all that is
  missing on the way from the root to it.
* **`opened_fresh`**: so it is where the root was missing, or empty. It is made as well then, and
  nothing else lies below it (`FileTree.OpensFresh`).
-/

namespace WeaveStep.FileTree

variable {t t' : FileTree} {root p : Path} {place base : Location}

/-! ## Trees with a root -/

/-- The root leads to a directory at a place, and no links lie below it. -/
structure Rooted (root : Path) (place : Location) (t : FileTree) : Prop where
  isTree : IsTree t
  found : t.look .followed root = .ok (place, .directory)
  plain : NoLinks place t

theorem Rooted.of_changes (h : Rooted root place t) (hchanges : ChangesWithin place t t') :
    Rooted root place t' where
  isTree := hchanges.isTree h.isTree
  found := look_directory_of_stays (hchanges.stays h.plain) h.found
  plain := hchanges.noLinks h.plain

theorem Rooted.of_told (h : Rooted root place t) (htold : Told t t') : Rooted root place t' where
  isTree := isTree_of_kept h.isTree htold.kept
  found := look_directory_of_stays htold.stays h.found
  plain q target hq hlink := h.plain q target hq ((htold.kept q).link_iff.1 hlink)

theorem Rooted.isDirectory (h : Rooted root place t) : t.get? place = some .directory :=
  (look_eq_ok_iff.1 h.found).2

/-- A path that begins as the root does, and goes down from there. -/
def under (root : Path) (names : List String) : Path := ⟨root.anchor, root.parts ++ names⟩

/-- Names lead straight down from the root. -/
theorem Rooted.look_under (h : Rooted root place t) {names : List String}
    (hnames : ∀ name ∈ names, IsEntryName name) {q : Location} {node : Node}
    (hlook : t.look .followed (under root names) = .ok (q, node)) : q = place ++ names := by
  by_cases hempty : names = []
  · have hsame : under root names = root := by simp [under, hempty]
    rw [hsame, h.found] at hlook
    cases hlook
    simp [hempty]
  · obtain ⟨mid, budget, hmid, hway⟩ :=
      locate_above (look_eq_ok_iff.1 hlook).1 hempty
    have hfound := h.found
    rw [show (⟨root.anchor, root.parts⟩ : Path) = root from rfl, hfound] at hmid
    cases hmid
    exact hway.descend h.plain (isWithin_refl _) hnames

/-! ## What opening leaves -/

section

variable {front back : List String}

/-- Every place is as it was, or was free and is one of the new directories. -/
theorem OpensAt.eq_or_made (h : OpensAt t p t' front back base) (q : Location) :
    t'.get? q = t.get? q ∨ t.get? q = none ∧ t'.get? q = some .directory ∧
      ∃ names ≠ [], names <+: back ∧ q = base ++ names := by
  by_cases hq : ∃ names ≠ [], names <+: back ∧ q = base ++ names
  · obtain ⟨names, hnames, hin, rfl⟩ := hq
    exact .inr ⟨h.free names hnames hin, h.made names hnames hin, names, hnames, hin, rfl⟩
  · exact .inl (h.others q fun names hnames hin heq => hq ⟨names, hnames, hin, heq⟩)

/-- What leads to a directory that was there is none of what is made. -/
theorem OpensAt.front_of_found {top names : List String} (h : OpensAt t p t' front back base)
    (hparts : p.parts = top ++ names)
    (hfound : t.look .followed ⟨p.anchor, top⟩ = .ok (place, .directory)) :
    ∃ found, front = top ++ found ∧ names = found ++ back := by
  rcases List.append_eq_append_iff.1 (hparts.symm.trans h.parts) with
    ⟨found, hfront, hback⟩ | ⟨rest, htop, hback⟩
  · exact ⟨found, hfront, hback⟩
  · by_cases hrest : rest = []
    · exact ⟨[], by simp_all, by simp_all⟩
    · have hleads := h.leads rest ⟨names, hback.symm⟩
      rw [← htop, look_directory_of_stays h.stays hfound] at hleads
      cases hleads
      have hfree := h.free rest hrest ⟨names, hback.symm⟩
      rw [(look_eq_ok_iff.1 hfound).2] at hfree
      cases hfree

theorem OpensAt.isTree (h : OpensAt t p t' front back base) (htree : IsTree t)
    (hnames : ∀ name ∈ back, IsEntryName name) : IsTree t' := by
  have hdirectory := h.stays.directory
  have hlast : ∀ q name, t'.get? (q ++ [name]) ≠ none →
      t'.get? q = some .directory ∧ IsEntryName name := by
    intro q name hget
    rcases h.eq_or_made (q ++ [name]) with hsame | ⟨-, -, names, hne, hin, heq⟩
    · rw [hsame] at hget
      exact ⟨hdirectory _ (htree.parent q name hget), htree.name q name hget⟩
    · obtain ⟨above, last, rfl⟩ := (List.eq_nil_or_concat names).resolve_left hne
      rw [List.concat_eq_append, ← List.append_assoc] at heq
      obtain ⟨rfl, hlast⟩ := List.append_inj' heq rfl
      rw [List.concat_eq_append] at hin
      refine ⟨?_, hnames name ?_⟩
      · by_cases habove : above = []
        · simpa [habove] using hdirectory _ (look_eq_ok_iff.1 h.found).2
        · exact h.made above habove ((List.prefix_append _ _).trans hin)
      · exact hin.subset (by simp_all)
  exact ⟨hdirectory _ htree.root, fun q name hget => (hlast q name hget).1,
    fun q name hget => (hlast q name hget).2⟩

theorem OpensAt.changesWithin (h : OpensAt t p t' front back base)
    (hnames : ∀ name ∈ back, IsEntryName name) (hbase : isWithin place base = true) :
    ChangesWithin place t t' where
  outside q hq := by
    rcases h.eq_or_made q with hsame | ⟨-, -, names, -, -, rfl⟩
    · exact hsame
    · rw [isWithin_append hbase] at hq
      cases hq
  there := h.stays.there
  directory := h.stays.directory
  noLink q target hlink := by
    rcases h.eq_or_made q with hsame | ⟨-, hmade, -⟩
    · rwa [← hsame]
    · rw [hlink] at hmade
      cases hmade
  isTree htree := h.isTree htree hnames
  workingDirectory := h.workingDirectory
  held := h.held

end

/-! ## Opening below a root -/

/-- **A directory below a root** is made with what is missing on the way to it. -/
theorem opened_below (h : Rooted root place t) {names : List String}
    (hnames : ∀ name ∈ names, IsEntryName name)
    (hopen : ensureDirectory (under root names) t = .ok () t') :
    ChangesWithin place t t' ∧
      t'.look .followed (under root names) = .ok (place ++ names, .directory) ∧
      ∀ below node, t'.get? (place ++ below) = some node ↔
        t.get? (place ++ below) = some node ∨ below <+: names ∧ node = .directory := by
  obtain ⟨front, back, base, hopens⟩ := opens_of_ensureDirectory h.isTree h.found hnames hopen
  obtain ⟨found, rfl, rfl⟩ := hopens.front_of_found rfl h.found
  have hbase : base = place ++ found :=
    h.look_under (fun name hname => hnames name (List.mem_append_left _ hname)) hopens.found
  subst hbase
  refine ⟨hopens.changesWithin (fun name hname => hnames name (List.mem_append_right _ hname))
    (isWithin_append (isWithin_refl _)), ?_, ?_⟩
  · have hleads := hopens.leads back List.prefix_rfl
    simpa [under] using hleads
  · intro below node
    by_cases hnew : ∃ names ≠ [], names <+: back ∧ below = found ++ names
    · obtain ⟨names, hne, hin, rfl⟩ := hnew
      have hfree := hopens.free names hne hin
      have hmade := hopens.made names hne hin
      rw [List.append_assoc] at hfree hmade
      rw [hfree, hmade]
      simp [List.prefix_append_right_inj, hin, eq_comm]
    · rw [hopens.others _ fun names hne hin heq => hnew ⟨names, hne, hin, by simpa using heq⟩]
      refine ⟨.inl, fun hor => hor.elim id ?_⟩
      -- a directory on the way that is not new was there
      rintro ⟨⟨rest, hrest⟩, rfl⟩
      obtain ⟨above, rfl⟩ : below <+: found := by
        rcases List.append_eq_append_iff.1 hrest with ⟨above, hfound, -⟩ | ⟨names, hbelow, hback⟩
        · exact ⟨above, hfound.symm⟩
        · by_cases hne : names = []
          · simp [hbelow, hne]
          · exact absurd ⟨names, hne, ⟨rest, hback.symm⟩, hbelow⟩ hnew
      have hfound := (look_eq_ok_iff.1 hopens.found).2
      by_cases habove : above = []
      · simpa [habove] using hfound
      · rw [← List.append_assoc] at hfound
        exact h.isTree.get?_above habove (by rw [hfound]; simp)

/-- There is nothing at the root, or an empty directory. -/
def IsFresh (root : Path) (t : FileTree) : Prop :=
  t.exists? root = .ok false ∨ t.list root = .ok []

/-- If the root leads to a directory, nothing lies in it. -/
def IsVacant (root : Path) (t : FileTree) : Prop :=
  ∀ place, t.look .followed root = .ok (place, .directory) →
    ∀ names ≠ [], t.get? (place ++ names) = none

theorem IsFresh.isVacant (hfresh : IsFresh root t) (htree : IsTree t) : IsVacant root t := by
  intro place hfound
  have hnothing : ∀ name, t.get? (place ++ [name]) = none := by
    rcases hfresh with habsent | hempty
    · have hstat := stat_eq_ok_iff.2 ⟨place, hfound⟩
      simp [exists?, ask, hstat] at habsent
    · obtain ⟨q, hlook, hnames⟩ := list_eq_ok hempty
      rw [hfound] at hlook
      cases hlook
      intro name
      by_contra hget
      have := mem_names.2 hget
      rw [← hnames] at this
      cases this
  intro names hnames
  obtain ⟨name, rest, rfl⟩ := List.exists_cons_of_ne_nil hnames
  rw [List.append_cons]
  exact htree.get?_below (hnothing name) rest

theorem IsVacant.of_told (h : IsVacant root t) (htold : Told t t') : IsVacant root t' :=
  fun place hfound names hnames => (htold.kept _).none_iff.2
    (h place (look_directory_of_stays htold.symm.stays hfound) names hnames)

theorem noLinks_of_empty (hplace : t.get? place = some .directory)
    (h : ∀ names ≠ [], t.get? (place ++ names) = none) : NoLinks place t := by
  intro q target hq
  obtain ⟨names, rfl⟩ := List.isPrefixOf_iff_prefix.1 hq
  by_cases hnames : names = []
  · simp [hnames, hplace]
  · simp [h names hnames]

/-- The tree `t'` is `t` with a directory where `names` lead from the root, with what was missing of the
root and of the way to it, and nothing else lies below the root. -/
structure OpensFresh (root : Path) (place : Location) (names : List String) (t t' : FileTree) : Prop
    extends Rooted root place t' where
  leads : t'.look .followed (under root names) = .ok (place ++ names, .directory)
  contents : ∀ below node,
    t'.get? (place ++ below) = some node ↔ below <+: names ∧ node = .directory
  outside : ∀ q, isWithin place q = false → t'.get? q = t.get? q ∨
    t.get? q = none ∧ t'.get? q = some .directory ∧ isWithin q place = true
  stays : Stays t t'
  held : t'.held = t.held

/-- **A directory below a root that is fresh** is made with what is missing of the root and of the
way to it, and nothing else lies below the root. -/
theorem opened_fresh (htree : IsTree t) (hvacant : IsVacant root t)
    (hparts : ∀ name ∈ root.parts, Path.isName name = true) (hsteady : IsSteady t root)
    {names : List String} (hnames : ∀ name ∈ names, IsEntryName name)
    (hopen : ensureDirectory (under root names) t = .ok () t') :
    ∃ place, OpensFresh root place names t t' := by
  by_cases hthere : ∃ place, t.look .followed root = .ok (place, .directory)
  · obtain ⟨place, hfound⟩ := hthere
    have hempty := hvacant place hfound
    have hrooted : Rooted root place t :=
      ⟨htree, hfound, noLinks_of_empty (look_eq_ok_iff.1 hfound).2 hempty⟩
    obtain ⟨hchanges, hlook, hcontents⟩ := opened_below hrooted hnames hopen
    refine ⟨place, hrooted.of_changes hchanges, hlook, fun below node => ?_,
      fun q hq => .inl (hchanges.outside q hq), hchanges.stays hrooted.plain, hchanges.held⟩
    rw [hcontents]
    by_cases hbelow : below = []
    · simp [hbelow, hrooted.isDirectory, eq_comm]
    · simp [hempty below hbelow]
  · obtain ⟨top, down, mid, hsplit, htop, hdown⟩ := hsteady.goes_down hparts
    have hwhole : root.parts ++ names = top ++ (down ++ names) := by rw [hsplit, List.append_assoc]
    have hentries : ∀ name ∈ down ++ names, IsEntryName name := fun name hname =>
      (List.mem_append.1 hname).elim (hdown name) (hnames name)
    have hpath : under root names = ⟨root.anchor, top ++ (down ++ names)⟩ := by rw [under, hwhole]
    obtain ⟨front, back, base, hopens⟩ := opens_of_ensureDirectory htree htop hentries (hpath ▸ hopen)
    obtain ⟨found, -, hback⟩ := hopens.front_of_found rfl htop
    have hnew : ∀ name ∈ back, IsEntryName name := fun name hname =>
      hentries name (hback ▸ List.mem_append_right found hname)
    have hparts : root.parts ++ names = front ++ back := hwhole.trans hopens.parts
    have hlow : ∀ found, front ≠ root.parts ++ found := by
      rintro found rfl
      by_cases hfound : found = []
      · have hbase := hopens.found
        rw [hfound, List.append_nil] at hbase
        exact hthere ⟨base, hbase⟩
      · obtain ⟨place, -, hlook, -⟩ :=
          locate_above (look_eq_ok_iff.1 hopens.found).1 hfound
        exact hthere ⟨place, hlook⟩
    obtain ⟨rest, hrest, hfront, rfl⟩ :
        ∃ rest ≠ [], root.parts = front ++ rest ∧ back = rest ++ names := by
      rcases List.append_eq_append_iff.1 hparts with ⟨found, hfront, -⟩ | ⟨rest, hfront, hback⟩
      · exact absurd hfront (hlow found)
      · exact ⟨rest, fun hrest => hlow [] (by simp_all), hfront, hback⟩
    have hfree := hopens.free rest hrest (List.prefix_append _ _)
    have hcontents : ∀ below node, t'.get? (base ++ rest ++ below) = some node ↔
        below <+: names ∧ node = .directory := by
      intro below node
      by_cases hin : below <+: names
      · have hbelow := hopens.made (rest ++ below) (by simp [hrest])
          ((List.prefix_append_right_inj rest).2 hin)
        rw [List.append_assoc, hbelow]
        simp [hin, eq_comm]
      · have hother : t'.get? (base ++ rest ++ below) = t.get? (base ++ rest ++ below) := by
          refine hopens.others _ fun names' hne hbegin heq => hin ?_
          rw [List.append_assoc] at heq
          rwa [← List.append_cancel_left heq, List.prefix_append_right_inj] at hbegin
        rw [hother, htree.get?_below hfree]
        simp [hin]
    refine ⟨base ++ rest, ⟨hopens.isTree htree hnew, ?_, ?_⟩, ?_, hcontents, ?_, hopens.stays,
      hopens.held⟩
    · have hleads := hopens.leads rest (List.prefix_append _ _)
      rwa [← hfront] at hleads
    · intro q target hq
      obtain ⟨below, rfl⟩ := List.isPrefixOf_iff_prefix.1 hq
      intro hlink
      cases ((hcontents below _).1 hlink).2
    · have hleads := hopens.leads (rest ++ names) List.prefix_rfl
      rw [under, hparts, List.append_assoc]
      exact hleads
    · intro q hq
      rcases hopens.eq_or_made q with hsame | ⟨hnone, hnew, below, hne, hin, rfl⟩
      · exact .inl hsame
      · refine .inr ⟨hnone, hnew, List.isPrefixOf_iff_prefix.2 ?_⟩
        -- what is made and does not lie below the root lies above it
        obtain ⟨more, hmore⟩ := hin
        rcases List.append_eq_append_iff.1 hmore with ⟨up, hup, -⟩ | ⟨down, hdown, -⟩
        · exact ⟨up, by simp [hup]⟩
        · rw [hdown, ← List.append_assoc, isWithin_append (isWithin_refl _)] at hq
          cases hq

end WeaveStep.FileTree
