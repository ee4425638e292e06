import WeaveStep.Proofs.Files.Rooted

/-!
# Trees that grow at one place

A path that leads nowhere still has a place where its entry would lie: `FileTree.LiesAt`. What is
made by such a path grows there, and links that lie elsewhere lead nowhere else.

* `FileTree.Grows place t t'`: `t'` is `t` but for what lies at a place or below it, for the
  directories that lead there, and for what was added to the file held open.
* `FileTree.Steers root place t`: however `t` has grown at the place, what is free by the names of
  the root, and by names after them, lies on the way to the place or below it.
* **`MissingAt.steers`**: so it is where the root is missing.
* **`always_grows_ensureDirectory`**: making a directory below such a root keeps to its place,
  whether it fails or not.
* **`not_makeDirectory`**: by a path that has no place nothing is made.
-/

namespace WeaveStep.FileTree

variable {t t' t'' : FileTree} {root p : Path} {place base : Location} {front rest names : List String}

/-! ## Where a path lies -/

/-- The first names of a path lead to a directory with nothing by the next name, and the others are
names of entries. -/
structure MissingAt (t : FileTree) (p : Path) (front rest : List String) (base : Location) :
    Prop where
  parts : p.parts = front ++ rest
  found : t.look .followed ⟨p.anchor, front⟩ = .ok (base, .directory)
  free : t.get? (base ++ rest.take 1) = none
  names : ∀ name ∈ rest, IsEntryName name

/-- Where the entry of a path lies, or would lie if what is missing on the way to it were made. -/
inductive LiesAt (t : FileTree) (p : Path) : Location → Prop
  | found {place : Location} : t.locate .followed p = .ok place → LiesAt t p place
  | missing {front rest : List String} {base : Location} :
    MissingAt t p front rest base → LiesAt t p (base ++ rest)

theorem MissingAt.rest_ne_nil (h : MissingAt t p front rest base) : rest ≠ [] := by
  rintro rfl
  have hfree := h.free
  have hdirectory := (look_eq_ok_iff.1 h.found).2
  simp_all

/-- Nothing lies below what is missing. -/
theorem MissingAt.nothing (h : MissingAt t p front rest base) (htree : IsTree t) {q : Location}
    (hq : isWithin (base ++ rest.take 1) q = true) : t.get? q = none := by
  obtain ⟨names, rfl⟩ := List.isPrefixOf_iff_prefix.1 hq
  exact htree.get?_below h.free names

theorem isWithin_take (base : Location) (rest : List String) :
    isWithin (base ++ rest.take 1) (base ++ rest) = true :=
  List.isPrefixOf_iff_prefix.2 ((List.prefix_append_right_inj _).2 (List.take_prefix 1 rest))

/-- A way that goes on below a free place is over. -/
theorem Way.eq_of_free {last : LastName} {budget : Nat} {name : String}
    (h : Way t last budget base (name :: names) place) (hname : IsEntryName name)
    (hfree : t.get? (base ++ [name]) = none) : names = [] ∧ place = base ++ [name] := by
  cases h with
  | stay _ blank => simp_all [IsEntryName]
  | up => simp_all [IsEntryName]
  | own _ _ link | follow _ _ link => rw [hfree] at link; cases link
  | down _ _ _ way =>
    cases way with
    | done => exact ⟨rfl, rfl⟩
    | _ => simp_all

/-- What goes on from a missing path is missing itself, or ends where that would lie. -/
theorem MissingAt.eq_of_locate (h : MissingAt t p front rest base) {last : LastName}
    {more : List String} (hmore : more ≠ []) (hbegin : more <+: rest)
    (hlocate : t.locate last ⟨p.anchor, front ++ more⟩ = .ok place) :
    place = base ++ more ∧ t.get? place = none := by
  obtain ⟨mid, budget, hmid, hway⟩ := locate_above hlocate hmore
  rw [h.found] at hmid
  cases hmid
  obtain ⟨name, names, rfl⟩ := List.exists_cons_of_ne_nil hmore
  obtain ⟨after, hafter⟩ := hbegin
  have hfree := h.free
  rw [← hafter] at hfree
  obtain ⟨rfl, rfl⟩ := hway.eq_of_free (h.names name (by simp [← hafter])) hfree
  exact ⟨rfl, hfree⟩

theorem MissingAt.unique {front' rest' : List String} {base' : Location}
    (h : MissingAt t p front rest base) (h' : MissingAt t p front' rest' base') :
    front' = front := by
  have hlow : ∀ {front rest front' rest' : List String} {base base' : Location},
      MissingAt t p front rest base → MissingAt t p front' rest' base' →
      ∀ more, front' = front ++ more → front' = front := by
    intro front rest front' rest' base base' h h' more hfront
    by_contra hne
    have hmore : more ≠ [] := fun hmore => hne (by simp [hfront, hmore])
    have hbegin : more <+: rest := by
      have hparts := h.parts.symm.trans h'.parts
      rw [hfront, List.append_assoc] at hparts
      exact ⟨rest', (List.append_cancel_left hparts).symm⟩
    have hfound := look_eq_ok_iff.1 (hfront ▸ h'.found)
    obtain ⟨-, hfree⟩ := h.eq_of_locate hmore hbegin hfound.1
    rw [hfound.2] at hfree
    cases hfree
  rcases List.append_eq_append_iff.1 (h.parts.symm.trans h'.parts) with ⟨more, hfront, -⟩ |
    ⟨more, hfront, -⟩
  · exact hlow h h' more hfront
  · exact (hlow h' h more hfront).symm

/-- A path lies at one place only. -/
theorem LiesAt.unique {place' : Location} (h : LiesAt t p place) (h' : LiesAt t p place') : place = place' := by
  have hmixed : ∀ {place front rest base}, t.locate .followed p = .ok place →
      MissingAt t p front rest base → place = base ++ rest := by
    intro place front rest base hfound h
    have hlocate : t.locate .followed ⟨p.anchor, front ++ rest⟩ = .ok place := by
      rw [← h.parts]
      exact hfound
    exact (h.eq_of_locate h.rest_ne_nil List.prefix_rfl hlocate).1
  cases h with
  | found h =>
    cases h' with
    | found h' =>
      rw [h] at h'
      cases h'
      rfl
    | missing h' => exact hmixed h h'
  | missing h =>
    cases h' with
    | found h' => exact (hmixed h' h).symm
    | missing h' =>
      obtain rfl := h.unique h'
      have hfound := h.found
      rw [h'.found] at hfound
      cases hfound
      rw [List.append_cancel_left (h.parts.symm.trans h'.parts)]

/-- What is free by a name lies in a directory. -/
theorem isDirectory_of_free {anchor : Anchor} {above : List String}
    {within : Location} {last : String} (hlast : IsEntryName last)
    (hlocate : t.locate .own ⟨anchor, above ++ [last]⟩ = .ok (within ++ [last]))
    (hfree : t.get? (within ++ [last]) = none) : t.get? within = some .directory := by
  obtain ⟨mid, budget, hmid, hway⟩ := locate_above hlocate (by simp)
  rw [(List.append_inj' (hway.last_of_free hlast hfree) rfl).1]
  exact (look_eq_ok_iff.1 hmid).2

/-! ## What is made where something is missing -/

/-- Nothing lies where something is missing on the way. -/
theorem MissingAt.not_look (h : MissingAt t p front rest base) {last : LastName}
    (entry : Location × Node) : t.look last p ≠ .ok entry := by
  intro hlook
  obtain ⟨hlocate, hnode⟩ := look_eq_ok_iff.1 hlook
  have hparts : p = ⟨p.anchor, front ++ rest⟩ := by rw [← h.parts]
  rw [hparts] at hlocate
  obtain ⟨-, hfree⟩ := h.eq_of_locate h.rest_ne_nil List.prefix_rfl hlocate
  rw [hfree] at hnode
  cases hnode

theorem MissingAt.entry (h : MissingAt t p front rest base) {name : String} (hname : IsEntryName name) :
    MissingAt t (p.entry name) front (rest ++ [name]) base where
  parts := by rw [Path.entry, h.parts, List.append_assoc]
  found := h.found
  free := by
    rw [List.take_append_of_le_length (List.length_pos_iff.2 h.rest_ne_nil)]
    exact h.free
  names other hother := (List.mem_append.1 hother).elim (h.names other) fun hlast => by
    rwa [List.mem_singleton.1 hlast]

/-- What was missing is missing still, from where the directories end that were made. -/
theorem MissingAt.of_opens {more left : List String} (h : MissingAt t p front (more ++ left) base)
    (htree : IsTree t) (hleft : left ≠ [])
    (hopens : OpensAt t ⟨p.anchor, front ++ more⟩ t' front more base) :
    MissingAt t' p (front ++ more) left (base ++ more) where
  parts := by rw [h.parts, List.append_assoc]
  found := hopens.leads more List.prefix_rfl
  free := by
    obtain ⟨name, left, rfl⟩ := List.exists_cons_of_ne_nil hleft
    rw [List.take_succ_cons, List.take_zero, List.append_assoc,
      hopens.others _ fun names _ hin heq => ?_]
    · refine h.nothing htree (List.isPrefixOf_iff_prefix.2 ((List.prefix_append_right_inj _).2 ?_))
      cases more <;> simp
    · have hlength := hin.length_le
      rw [← List.append_cancel_left heq, List.length_append, List.length_singleton] at hlength
      omega
  names name hname := h.names name (List.mem_append_right _ hname)

/-- The first of the missing directories are made. -/
def OpensUpTo (t : FileTree) (anchor : Anchor) (front rest : List String) (base : Location)
    (t' : FileTree) : Prop :=
  ∃ more left, rest = more ++ left ∧ OpensAt t ⟨anchor, front ++ more⟩ t' front more base

theorem MissingAt.opensUpTo (h : MissingAt t p front rest base) :
    OpensUpTo t p.anchor front rest base t :=
  ⟨[], rest, rfl, by simpa using opensAt_of_look h.found⟩

/-- **Making a missing directory** makes the first of the missing ones, one in the other, and nothing
else, even if it fails. -/
theorem MissingAt.always_opens (h : MissingAt t p front rest base) (htree : IsTree t) :
    Always (Keeps (OpensUpTo t p.anchor front rest base)) (ensureDirectory p) := by
  refine .ensureDirectory_along p fun names hnames t₁ t₂ hmade => ?_
  rintro ⟨more, left, rfl, hopens⟩
  obtain ⟨q, hlocate, hfree, -⟩ := makeDirectory_eq_ok hmade
  -- what leads to a directory is not free
  have hthere : ∀ above, names <+: above → ∀ mid,
      t₁.look .followed ⟨p.anchor, above⟩ ≠ .ok (mid, .directory) := by
    rintro above ⟨after, rfl⟩ mid hmid
    by_cases hafter : after = []
    · rw [hafter, List.append_nil] at hmid
      exact ne_none_of_look hmid hlocate hfree
    · obtain ⟨mid', -, hmid', -⟩ := locate_above (look_eq_ok_iff.1 hmid).1 hafter
      exact ne_none_of_look hmid' hlocate hfree
  have hlast := hopens.leads more List.prefix_rfl
  rw [h.parts, ← List.append_assoc] at hnames
  obtain ⟨after, hafter⟩ | ⟨after, rfl⟩ := List.prefix_or_prefix_of_prefix hnames
    (List.prefix_append (front ++ more) left)
  · exact absurd hlast (hthere _ ⟨after, hafter⟩ _)
  · have hne : after ≠ [] := by
      rintro rfl
      exact hthere (front ++ more) (by simp) _ hlast
    have hbegin := (List.prefix_append_right_inj _).1 hnames
    have hmissing := h.of_opens htree (fun hleft => hne (by simpa [hleft] using hbegin)) hopens
    obtain ⟨init, name, rfl⟩ := (List.eq_nil_or_concat after).resolve_left hne
    rw [List.concat_eq_append] at *
    obtain ⟨rest, hrest⟩ := hbegin
    by_cases hinit : init = []
    · subst hinit
      refine ⟨more ++ [name], rest, by simp [← hrest], ?_⟩
      have hname : IsEntryName name := h.names name (by simp [← hrest])
      have hnext : t₁.makeDirectory ⟨p.anchor, front ++ more ++ [name]⟩ = .ok t₂ := by
        simpa using hmade
      simpa using hopens.makeDirectory hname hnext
    · -- the directory above is missing still
      rw [← List.append_assoc] at hlocate
      obtain ⟨mid, -, hmid, -⟩ := locate_above hlocate (by simp)
      obtain ⟨hlocated, hnode⟩ := look_eq_ok_iff.1 hmid
      have hnone := (hmissing.eq_of_locate hinit ⟨[name] ++ rest, by simp [← hrest]⟩ hlocated).2
      rw [hnone] at hnode
      cases hnode

/-! ## Growing -/

/-- The tree `t'` is `t` but for what lies at a place or below it, for the directories that lead
there, and for what was added to the file held open. No link lies at the place or below it. -/
structure Grows (place : Location) (t t' : FileTree) : Prop where
  outside : ∀ q, isWithin place q = false → Kept t t' q ∨
    t.get? q = none ∧ t'.get? q = some .directory ∧ isWithin q place = true
  plain : NoLinks place t'
  isTree : IsTree t'
  workingDirectory : t'.workingDirectory = t.workingDirectory
  held : t'.held = t.held

theorem MissingAt.grows (h : MissingAt t p front rest base) (htree : IsTree t) :
    Grows (base ++ rest) t t where
  outside _ _ := .inl (.inl rfl)
  plain q target hq := by simp [h.nothing htree (isWithin_trans (isWithin_take base rest) hq)]
  isTree := htree
  workingDirectory := rfl
  held := rfl

theorem Grows.of_changes (h : Grows place t t') (hchanges : ChangesWithin place t' t'') :
    Grows place t t'' where
  outside q hq := by
    rcases h.outside q hq with hkept | ⟨hfree, hmade, habove⟩
    · exact .inl (hkept.trans (.inl (hchanges.outside q hq)) h.held.symm.trans)
    · exact .inr ⟨hfree, (hchanges.outside q hq).trans hmade, habove⟩
  plain := hchanges.noLinks h.plain
  isTree := hchanges.isTree h.isTree
  workingDirectory := hchanges.workingDirectory.trans h.workingDirectory
  held := hchanges.held.trans h.held

/-- A directory is added at the place, below it, or on the way to it. -/
theorem Grows.set (h : Grows place t t') {within : Location} {name : String}
    (hname : IsEntryName name) (hparent : t'.get? within = some .directory)
    (hfree : t'.get? (within ++ [name]) = none)
    (hq : isWithin place (within ++ [name]) = true ∨ isWithin (within ++ [name]) place = true) :
    Grows place t (t'.set (within ++ [name]) .directory) where
  outside q hout := by
    by_cases heq : q = within ++ [name]
    · subst heq
      rcases h.outside _ hout with hkept | ⟨-, hmade, -⟩
      · refine .inr ⟨hkept.none_iff.1 hfree, by simp [get?_set], hq.resolve_left ?_⟩
        simp [hout]
      · rw [hfree] at hmade
        cases hmade
    · unfold Kept
      rw [get?_set, if_neg heq]
      exact h.outside q hout
  plain q target hin := by
    rw [get?_set]
    split
    · simp
    · exact h.plain q target hin
  isTree := h.isTree.set hname hparent fun _ => rfl
  workingDirectory := h.workingDirectory
  held := h.held

theorem Grows.extendHeld (h : Grows place t t') (bytes : List UInt8) :
    Grows place t (t'.extendHeld bytes) where
  outside q hq := by
    have hadded := kept_extendHeld t' bytes q
    rcases h.outside q hq with hkept | ⟨hfree, hmade, habove⟩
    · exact .inl (hkept.trans hadded h.held.symm.trans)
    · exact .inr ⟨hfree, hadded.directory_iff.2 hmade, habove⟩
  plain q target hq := fun hlink =>
    h.plain q target hq ((kept_extendHeld t' bytes q).link_iff.1 hlink)
  isTree := isTree_of_kept h.isTree (kept_extendHeld t' bytes)
  workingDirectory := (workingDirectory_extendHeld t' bytes).trans h.workingDirectory
  held := (held_extendHeld t' bytes).trans h.held

/-- However the tree has grown at the place, it grew by the names of the root. -/
structure Steers (root : Path) (place : Location) (t : FileTree) : Prop where
  start : Grows place t t
  free : ∀ {t' : FileTree} {names above : List String} {q : Location}, Grows place t t' →
    (∀ name ∈ names, IsEntryName name) → above <+: root.parts ++ names →
    t'.locate .own ⟨root.anchor, above⟩ = .ok q → t'.get? q = none →
    ∃ within name, q = within ++ [name] ∧ t'.get? within = some .directory ∧ IsEntryName name ∧
      (isWithin place q = true ∨ isWithin q place = true)
  found : ∀ {t' : FileTree} {names : List String} {q : Location} {node : Node}, Grows place t t' →
    (∀ name ∈ names, IsEntryName name) →
    t'.look .followed (under root names) = .ok (q, node) → q = place ++ names

/-- From a directory, names lead straight down if no link lies where the first of them leads, or
below. -/
theorem locate_down_of_noLinks {anchor : Anchor} {last : LastName} {more : List String} {q : Location}
    (hfound : t.look .followed ⟨anchor, front⟩ = .ok (base, .directory))
    (hplain : NoLinks (base ++ rest.take 1) t) (hnames : ∀ name ∈ rest, IsEntryName name)
    (hmore : more ≠ []) (hbegin : more <+: rest)
    (hlocate : t.locate last ⟨anchor, front ++ more⟩ = .ok q) : q = base ++ more := by
  obtain ⟨mid, budget, hmid, hway⟩ := locate_above hlocate hmore
  rw [hfound] at hmid
  cases hmid
  obtain ⟨name, more, rfl⟩ := List.exists_cons_of_ne_nil hmore
  have hentry : ∀ last ∈ name :: more, IsEntryName last := fun last hlast =>
    hnames last (hbegin.subset hlast)
  obtain ⟨after, rfl⟩ := hbegin
  rw [List.cons_append, List.take_succ_cons, List.take_zero] at hplain
  have hhere := isWithin_refl (base ++ [name])
  cases hway with
  | stay _ blank => exact absurd (hentry name (by simp)) (by simp_all [IsEntryName])
  | up => exact absurd (hentry ".." (by simp)) (by simp [IsEntryName])
  | own _ _ link | follow _ _ link => exact absurd link (hplain _ _ hhere)
  | down _ _ _ way =>
    rw [way.descend hplain hhere fun last hlast => hentry last (List.mem_cons_of_mem _ hlast)]
    simp

/-! ## A root that is missing -/

section

variable (hmissing : MissingAt t root front rest base) (htree : IsTree t)
  (hgrows : Grows (base ++ rest) t t')
include hmissing htree hgrows

/-- Nothing that was there is lost. -/
theorem MissingAt.stays : Stays t t' := by
  have hthere : ∀ q, t.get? q ≠ none → Kept t t' q := by
    intro q hq
    cases hin : isWithin (base ++ rest) q with
    | true => exact absurd (hmissing.nothing htree (isWithin_trans (isWithin_take base rest) hin)) hq
    | false => exact (hgrows.outside q hin).resolve_right fun hmade => hq hmade.1
  exact ⟨hgrows.workingDirectory, fun q hq hnone => hq ((hthere q hq).none_iff.1 hnone),
    fun q hq => (hthere q (by simp [hq])).directory_iff.2 hq,
    fun q target hq => (hthere q (by simp [hq])).link_iff.2 hq,
    fun q target hq hlink => (hthere q hq).link_iff.1 hlink⟩

/-- No links lie on the way from where something was missing. -/
theorem MissingAt.noLinks : NoLinks (base ++ rest.take 1) t' := by
  intro q target hq hlink
  cases hin : isWithin (base ++ rest) q with
  | true => exact hgrows.plain q target hin hlink
  | false =>
    have hfree := hmissing.nothing htree hq
    rcases hgrows.outside q hin with hkept | ⟨-, hmade, -⟩
    · rw [hkept.link_iff, hfree] at hlink
      cases hlink
    · rw [hmade] at hlink
      cases hlink

theorem MissingAt.front_found : t'.look .followed ⟨root.anchor, front⟩ = .ok (base, .directory) :=
  look_directory_of_stays (hmissing.stays htree hgrows) hmissing.found

/-- From where something was missing, the names of the path and others after it lead straight
down. -/
theorem MissingAt.locate_down {last : LastName} {more : List String} {q : Location}
    (hnames : ∀ name ∈ names, IsEntryName name)
    (hmore : more ≠ []) (hbegin : more <+: rest ++ names)
    (hlocate : t'.locate last ⟨root.anchor, front ++ more⟩ = .ok q) : q = base ++ more := by
  have hplain := hmissing.noLinks htree hgrows
  have htake : (rest ++ names).take 1 = rest.take 1 :=
    List.take_append_of_le_length (List.length_pos_iff.2 hmissing.rest_ne_nil)
  rw [← htake] at hplain
  exact locate_down_of_noLinks (hmissing.front_found htree hgrows) hplain
    (fun name hname => (List.mem_append.1 hname).elim (hmissing.names name) (hnames name)) hmore hbegin
    hlocate

/-- What is free by a name of the path, or of one that goes on from it, lies on the way to its place,
or below that. -/
theorem MissingAt.locate_free {above : List String} {q : Location}
    (hnames : ∀ name ∈ names, IsEntryName name) (habove : above <+: root.parts ++ names)
    (hlocate : t'.locate .own ⟨root.anchor, above⟩ = .ok q) (hfree : t'.get? q = none) :
    ∃ within name, q = within ++ [name] ∧ t'.get? within = some .directory ∧ IsEntryName name ∧
      (isWithin (base ++ rest) q = true ∨ isWithin q (base ++ rest) = true) := by
  rw [hmissing.parts, List.append_assoc] at habove
  obtain ⟨more, rfl⟩ : ∃ more, above = front ++ more := by
    obtain ⟨after, hafter⟩ := habove
    rcases List.append_eq_append_iff.1 hafter with ⟨more, hfront, -⟩ | ⟨more, hmore, -⟩
    · -- the first names lead to a directory, so they are not free
      by_cases hne : more = []
      · exact ⟨[], by simp [hfront, hne]⟩
      · have hfound := hmissing.front_found htree hgrows
        rw [hfront] at hfound
        obtain ⟨mid, -, hmid, -⟩ := locate_above (look_eq_ok_iff.1 hfound).1 hne
        exact absurd hfree (ne_none_of_look hmid hlocate)
    · exact ⟨more, hmore⟩
  have hmore : more ≠ [] := by
    rintro rfl
    rw [List.append_nil] at hlocate
    exact ne_none_of_look (hmissing.front_found htree hgrows) hlocate hfree
  have hbegin := (List.prefix_append_right_inj front).1 habove
  obtain rfl := hmissing.locate_down htree hgrows hnames hmore hbegin hlocate
  obtain ⟨init, last, rfl⟩ := (List.eq_nil_or_concat more).resolve_left hmore
  rw [List.concat_eq_append] at *
  have hlast : IsEntryName last :=
    (List.mem_append.1 (hbegin.subset (by simp))).elim (hmissing.names last) (hnames last)
  simp only [← List.append_assoc] at hlocate hfree ⊢
  refine ⟨base ++ init, last, rfl, isDirectory_of_free hlast hlocate hfree, hlast, ?_⟩
  rw [List.append_assoc]
  rcases List.prefix_or_prefix_of_prefix hbegin (List.prefix_append rest names) with h | h
  · exact .inr (List.isPrefixOf_iff_prefix.2 ((List.prefix_append_right_inj _).2 h))
  · exact .inl (List.isPrefixOf_iff_prefix.2 ((List.prefix_append_right_inj _).2 h))

end

/-- **A root that is missing** grows where it would lie. -/
theorem MissingAt.steers (h : MissingAt t root front rest base)
    (htree : IsTree t) : Steers root (base ++ rest) t where
  start := h.grows htree
  free hgrows hnames habove hlocate hfree :=
    h.locate_free htree hgrows hnames habove hlocate hfree
  found {t' names q node} hgrows hnames hlook := by
    have hlocate : t'.locate .followed ⟨root.anchor, front ++ (rest ++ names)⟩ = .ok q := by
      rw [← List.append_assoc, ← h.parts]
      exact (look_eq_ok_iff.1 hlook).1
    rw [h.locate_down htree hgrows hnames (by simp [h.rest_ne_nil]) List.prefix_rfl hlocate,
      List.append_assoc]

/-! ## Making directories -/

section

variable (hsteers : Steers root place t) (hnames : ∀ name ∈ names, IsEntryName name)
include hsteers hnames

theorem Steers.makeDirectory {above : List String} (habove : above <+: root.parts ++ names)
    (hgrows : Grows place t t') (h : t'.makeDirectory ⟨root.anchor, above⟩ = .ok t'') :
    Grows place t t'' := by
  obtain ⟨q, hlocate, hfree, rfl⟩ := makeDirectory_eq_ok h
  obtain ⟨within, name, rfl, hparent, hname, hq⟩ :=
    hsteers.free hgrows hnames habove hlocate hfree
  exact hgrows.set hname hparent hfree hq

/-- **Making a directory** below the root keeps to the place of the root, whether it fails or not. -/
theorem always_grows_ensureDirectory :
    Always (Keeps (Grows place t)) (ensureDirectory (under root names)) :=
  .ensureDirectory_along _ fun _ habove _ _ hmade hgrows =>
    hsteers.makeDirectory hnames habove hgrows hmade

end

/-- Whether a directory is made or not, the tree is still one, and nothing that was there is lost. -/
theorem yields_ensureDirectory (htree : IsTree t) (hstart : t.get? (t.startOf p) = some .directory) :
    Yields (ensureDirectory p) t fun _ t' => IsTree t' ∧ Stays t t' ∧ t'.held = t.held := by
  refine Always.keeps (I := fun t' => IsTree t' ∧ Stays t t' ∧ t'.held = t.held) ?_
    ⟨htree, .refl t, rfl⟩
  refine .ensureDirectory_along p fun names _ t₁ t₂ hmade => ?_
  rintro ⟨htree₁, hstays, hheld⟩
  obtain ⟨q, hlocate, hfree, rfl⟩ := makeDirectory_eq_ok hmade
  have hstart₁ : t₁.get? (t₁.startOf ⟨p.anchor, names⟩) = some .directory := by
    have hsame : t₁.startOf ⟨p.anchor, names⟩ = t.startOf p := by
      rw [startOf, hstays.workingDirectory]
      rfl
    rw [hsame]
    exact hstays.directory _ hstart
  obtain ⟨within, name, rfl, hparent, hname⟩ := htree₁.free_last hstart₁ hlocate hfree
  exact ⟨htree₁.set hname hparent fun _ => rfl, hstays.trans (stays_set hfree), hheld⟩

/-- A directory that is made is there. -/
theorem look_of_ensureDirectory (h : ensureDirectory p t = .ok () t') :
    ∃ q, t'.look .followed p = .ok (q, .directory) := by
  have hmade : ∀ {t : FileTree}, t.makeDirectory p = .ok t' →
      ∃ q, t'.look .followed p = .ok (q, .directory) := by
    intro t hmade
    obtain ⟨q, hlocate, hfree, rfl⟩ := makeDirectory_eq_ok hmade
    exact ⟨q, look_made hlocate hfree⟩
  have hthere : ∀ {e t}, unlessDirectory p e t = .ok () t' →
      ∃ q, t'.look .followed p = .ok (q, .directory) := by
    intro e t hthere
    obtain ⟨hfound, rfl⟩ := unlessDirectory_eq_ok hthere
    exact isDirectory?_eq_true.1 hfound
  rw [ensureDirectory] at h
  split at h
  · cases h
    exact hmade ‹_›
  · split at h
    · split at h
      · cases h
      · obtain ⟨_, mid, -, hlast⟩ := bind_eq_ok (dealingWith_eq_ok h)
        rcases ensureLast_eq_ok hlast with hlast | ⟨hfound, rfl⟩
        · exact hmade hlast
        · exact isDirectory?_eq_true.1 hfound
    · exact hthere h

/-! ## A path without a place -/

/-- The path leads to no directory, and none can be made by it. -/
structure Placeless (root : Path) (t : FileTree) : Prop where
  isTree : IsTree t
  start : t.get? (t.startOf root) = some .directory
  steady : IsSteady t root
  missing : ∀ front rest base, ¬ MissingAt t root front rest base
  found : ∀ place, t.look .followed root ≠ .ok (place, .directory)

theorem Placeless.of_told (h : Placeless root t) (htold : Told t t') : Placeless root t' where
  isTree := isTree_of_kept h.isTree htold.kept
  start := by
    rw [startOf, htold.workingDirectory]
    exact (htold.kept _).directory_iff.2 h.start
  steady := h.steady.of_stays htold.stays
  missing front rest base hmissing := h.missing front rest base ⟨hmissing.parts,
    look_directory_of_stays htold.symm.stays hmissing.found,
    (htold.kept _).none_iff.1 hmissing.free, hmissing.names⟩
  found place hfound := h.found place (look_directory_of_stays htold.symm.stays hfound)

section

variable (hplaceless : Placeless root t) (hparts : ∀ name ∈ root.parts, Path.isName name = true)
include hplaceless hparts

/-- **Nothing is made** by a path that has no place, or by one that goes on from it: the names of
the path that are there lead to no directory that the next name could be made in. -/
theorem not_makeDirectory {above : List String} (habove : above <+: root.parts ++ names) :
    t.makeDirectory ⟨root.anchor, above⟩ ≠ .ok t' := by
  intro h
  obtain ⟨htree, hstart, hsteady, hmissing, hfound⟩ := hplaceless
  obtain ⟨q, hlocate, hfree, -⟩ := makeDirectory_eq_ok h
  rcases List.eq_nil_or_concat above with rfl | ⟨init, last, rfl⟩
  · obtain ⟨-, hway⟩ := locate_eq_ok_iff.1 hlocate
    cases hway
    exact absurd hfree (by rw [show t.startOf ⟨root.anchor, []⟩ = t.startOf root from rfl, hstart]; simp)
  rw [List.concat_eq_append] at *
  obtain ⟨mid, budget, hmid, hway⟩ := locate_above hlocate (by simp)
  obtain ⟨more, hmore⟩ : init ++ [last] <+: root.parts := by
    rcases List.prefix_or_prefix_of_prefix habove (List.prefix_append root.parts names) with h | h
    · exact h
    · rcases List.prefix_concat_iff.1 h with heq | ⟨after, hinit⟩
      · exact heq ▸ List.prefix_rfl
      · -- the root leads to no directory
        by_cases hafter : after = []
        · rw [hafter, List.append_nil] at hinit
          rw [← hinit] at hmid
          exact absurd hmid (hfound mid)
        · rw [← hinit] at hmid
          obtain ⟨place, -, hroot, -⟩ := locate_above (look_eq_ok_iff.1 hmid).1 hafter
          exact absurd hroot (hfound place)
  rw [List.append_assoc, List.singleton_append] at hmore
  have hdirectory := (look_eq_ok_iff.1 hmid).2
  have hlast : IsEntryName last := by
    have hname := hparts last (by simp [← hmore])
    refine isEntryName_of_isName hname ?_
    rintro rfl
    cases hway with
    | stay _ blank => simp at blank
    | up _ way =>
      cases way
      rw [htree.dropLast hdirectory] at hfree
      cases hfree
    | own _ step | follow _ step | down _ step => exact absurd rfl step.notUp
  obtain rfl := hway.last_of_free hlast hfree
  refine hmissing init (last :: more) mid ⟨hmore.symm, hmid, by simpa using hfree, ?_⟩
  intro name hname
  have hname' : name ∈ root.parts := by
    rw [← hmore]
    exact List.mem_append_right _ hname
  refine isEntryName_of_isName (hparts name hname') ?_
  rintro rfl
  obtain ⟨front, rest, place, hroot, hfront, hup⟩ := hsteady
  rw [hroot] at hmore
  rcases List.append_eq_append_iff.1 hmore with ⟨after, hinit, hrest⟩ | ⟨after, -, hrest⟩
  · -- what is free by the last name is none of what leads to a directory
    cases after with
    | nil =>
      rw [List.nil_append] at hrest
      exact hup (hrest ▸ hname)
    | cons next after =>
      obtain ⟨rfl, -⟩ := List.cons.inj hrest
      rw [hinit, ← List.singleton_append, ← List.append_assoc] at hfront
      by_cases hafter : after = []
      · rw [hafter, List.append_nil] at hfront
        exact ne_none_of_look hfront hlocate hfree
      · obtain ⟨there, -, hthere, -⟩ := locate_above (look_eq_ok_iff.1 hfront).1 hafter
        exact ne_none_of_look hthere hlocate hfree
  · exact hup (by rw [hrest]; exact List.mem_append_right _ hname)

theorem ensureDirectory_of_placeless (names : List String) :
    ∃ e, ensureDirectory (under root names) t = .error e t := by
  have hsame : Always (Keeps (· = t)) (ensureDirectory (under root names)) :=
    .ensureDirectory_along _ fun above habove t₁ t₂ hmade heq => by
      subst heq
      exact absurd hmade (not_makeDirectory hplaceless hparts habove)
  cases h : ensureDirectory (under root names) t with
  | error e t₁ =>
    obtain rfl : t₁ = t := hsame.of_error h rfl
    exact ⟨e, rfl⟩
  | ok _ t₁ =>
    obtain rfl : t₁ = t := hsame.of_ok h rfl
    obtain ⟨q, hlook⟩ := look_of_ensureDirectory h
    by_cases hnames : names = []
    · have hroot : under root names = root := by simp [under, hnames]
      exact absurd (hroot ▸ hlook) (hplaceless.found q)
    · obtain ⟨place, -, hroot, -⟩ := locate_above (look_eq_ok_iff.1 hlook).1 hnames
      exact absurd hroot (hplaceless.found place)

end

end WeaveStep.FileTree
