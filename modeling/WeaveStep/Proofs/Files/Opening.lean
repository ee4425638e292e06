import Mathlib.Data.List.Induction
import WeaveStep.Proofs.Files.View
import WeaveStep.Proofs.Files.WellFormed

/-!
# Making a directory with all that is missing above it

`FileTree.Opens t p t'` says what becomes of a tree where a directory is made: the first names of
the path lead to a directory that is there, and for the names that are left new directories are
made, one in the other. Nothing else changes.

* **`opens_of_ensureDirectory`**: so it is whenever the directory is made without a failure, for
  paths that go up only from what is there (`FileTree.IsSteady`).
-/

namespace WeaveStep.FileTree

variable {t t₁ t' : FileTree} {p : Path} {place : Location}

/-! ## What is made -/

/-- The tree `t'` is `t` with a directory at the path `p`: the names in `front` lead to a directory
of `t`, and for those in `back` there are new ones. -/
structure OpensAt (t : FileTree) (p : Path) (t' : FileTree) (front back : List String)
    (base : Location) : Prop where
  parts : p.parts = front ++ back
  found : t.look .followed ⟨p.anchor, front⟩ = .ok (base, .directory)
  free : ∀ names ≠ [], names <+: back → t.get? (base ++ names) = none
  made : ∀ names ≠ [], names <+: back → t'.get? (base ++ names) = some .directory
  others : ∀ q, (∀ names ≠ [], names <+: back → q ≠ base ++ names) → t'.get? q = t.get? q
  leads : ∀ names, names <+: back →
    t'.look .followed ⟨p.anchor, front ++ names⟩ = .ok (base ++ names, .directory)
  workingDirectory : t'.workingDirectory = t.workingDirectory
  held : t'.held = t.held

/-- The tree `t'` is `t` with a directory at the path `p`. -/
def Opens (t : FileTree) (p : Path) (t' : FileTree) : Prop :=
  ∃ front back base, OpensAt t p t' front back base

theorem Opens.of_sameView (h : Opens t p t₁) (hsame : SameView t₁ t') : Opens t p t' := by
  obtain ⟨front, back, base, h⟩ := h
  exact ⟨front, back, base, h.parts, h.found, h.free,
    fun names hnames hin => by rw [← hsame.get?, h.made names hnames hin],
    fun q hq => by rw [← hsame.get?, h.others q hq],
    fun names hin => by rw [← look_congr hsame, h.leads names hin],
    hsame.workingDirectory.symm.trans h.workingDirectory, hsame.held.symm.trans h.held⟩

/-! ## Single directories -/

theorem dealingWith_eq_ok {α : Type} {earlier : FileFailure} {act : Action α} {a : α}
    (h : dealingWith earlier act t = .ok a t') : act t = .ok a t' := by
  unfold dealingWith at h
  split at h
  · cases h; assumption
  · cases h

theorem unlessDirectory_eq_ok {e : FileFailure} (h : unlessDirectory p e t = .ok () t') :
    t.isDirectory? p = .ok true ∧ t' = t := by
  unfold unlessDirectory at h
  split at h <;> cases h
  exact ⟨‹_›, rfl⟩

/-- Nothing is made for a directory that is there. -/
theorem opensAt_of_look {base : Location} (hfound : t.look .followed p = .ok (base, .directory)) :
    OpensAt t p t p.parts [] base := by
  refine ⟨by simp, hfound, ?_, ?_, fun _ _ => rfl, ?_, rfl, rfl⟩
  · intro names hnames hin
    exact absurd (List.prefix_nil.1 hin) hnames
  · intro names hnames hin
    exact absurd (List.prefix_nil.1 hin) hnames
  · intro names hin
    simpa [List.prefix_nil.1 hin] using hfound

theorem opens_of_isDirectory (h : t.isDirectory? p = .ok true) : Opens t p t := by
  obtain ⟨base, hfound⟩ := isDirectory?_eq_true.1 h
  exact ⟨p.parts, [], base, opensAt_of_look hfound⟩

theorem ensureDirectory_of_look (hfound : t.look .followed p = .ok (place, .directory)) :
    ensureDirectory p t = .ok () t := by
  obtain ⟨hlocate, hnode⟩ := look_eq_ok_iff.1 hfound
  obtain ⟨hsay, hway⟩ := locate_eq_ok_iff.1 hlocate
  obtain ⟨q, hown, -⟩ := hway.own_of
  have hq := locate_eq_ok_iff.2 ⟨hsay, hown⟩
  obtain ⟨node, hthere⟩ := Option.ne_none_iff_exists'.1 (ne_none_of_look hfound hq)
  have hmake : t.makeDirectory p = .error (.refusal .taken p.text) := by
    rw [makeDirectory, hq]
    simp [bind, Except.bind, hthere]
  have htaken : (FileFailure.refusal .taken p.text).isMissing = false := rfl
  rw [ensureDirectory, hmake]
  simp only [htaken, Bool.false_eq_true, if_false]
  rw [unlessDirectory, isDirectory?_eq_true.2 ⟨place, hfound⟩]

/-- The last name of a way that ends in a free place. -/
theorem Way.last_of_free {budget : Nat} {base : Location} {name : String}
    (h : Way t .own budget base [name] place) (hname : IsEntryName name)
    (hfree : t.get? place = none) : place = base ++ [name] := by
  cases h with
  | stay _ blank => simp_all [IsEntryName]
  | up => simp_all [IsEntryName]
  | own => rfl
  | follow _ _ _ followed => simp at followed
  | down _ _ _ way => cases way; rfl

/-- A directory is made in one that the first names of its path lead to, or below that. -/
theorem opens_of_makeDirectory {anchor : Anchor} {top names : List String}
    (hfound : t.look .followed ⟨anchor, top⟩ = .ok (place, .directory))
    (hnames : ∀ name ∈ names, IsEntryName name)
    (h : t.makeDirectory ⟨anchor, top ++ names⟩ = .ok t') : Opens t ⟨anchor, top ++ names⟩ t' := by
  obtain ⟨q, hlocate, hfree, rfl⟩ := makeDirectory_eq_ok h
  rcases List.eq_nil_or_concat names with rfl | ⟨above, name, rfl⟩
  · rw [List.append_nil] at hlocate
    exact absurd hfree (ne_none_of_look hfound hlocate)
  · rw [List.concat_eq_append, ← List.append_assoc] at *
    obtain ⟨base, budget, hbase, hway⟩ := locate_above hlocate (by simp)
    obtain rfl := hway.last_of_free (hnames name (by simp)) hfree
    have hbegin : ∀ names ≠ [], names <+: [name] → names = [name] := by
      rintro names hnames ⟨rest, hrest⟩
      cases names with
      | nil => exact absurd rfl hnames
      | cons first names => simp_all
    refine ⟨top ++ above, [name], base, rfl, hbase, ?_, ?_, ?_, ?_, rfl, rfl⟩
    · intro names hnames hin
      rwa [hbegin names hnames hin]
    · intro names hnames hin
      rw [hbegin names hnames hin, get?_set, if_pos rfl]
    · intro q hq
      rw [get?_set, if_neg (hq [name] (by simp) List.prefix_rfl)]
    · intro names hin
      by_cases hnames : names = []
      · simpa [hnames] using look_directory_of_stays (stays_set hfree) hbase
      · rw [hbegin names hnames hin]
        exact look_made hlocate hfree

/-! ## Directories one in the other -/

theorem OpensAt.stays {front back : List String} {base : Location}
    (h : OpensAt t p t' front back base) : Stays t t' := by
  have hcases : ∀ q, t'.get? q = t.get? q ∨ t.get? q = none ∧ t'.get? q = some .directory := by
    intro q
    by_cases hq : ∃ names ≠ [], names <+: back ∧ q = base ++ names
    · obtain ⟨names, hnames, hin, rfl⟩ := hq
      exact .inr ⟨h.free names hnames hin, h.made names hnames hin⟩
    · exact .inl (h.others q fun names hnames hin heq => hq ⟨names, hnames, hin, heq⟩)
  refine ⟨h.workingDirectory, fun q hq => ?_, fun q hq => ?_, fun q target hq => ?_,
    fun q target hq hlink => ?_⟩
  · rcases hcases q with h | ⟨h, -⟩ <;> simp_all
  · rcases hcases q with h | ⟨h, -⟩ <;> simp_all
  · rcases hcases q with h | ⟨h, -⟩ <;> simp_all
  · rcases hcases q with h | ⟨h, -⟩ <;> simp_all

/-- Where nothing was made above it, a directory was there before. -/
theorem OpensAt.of_nothing_made {front : List String} {base : Location}
    (h : OpensAt t p t₁ front [] base) : SameView t t₁ :=
  ⟨fun q => (h.others q fun _ hnames hin => absurd (List.prefix_nil.1 hin) hnames).symm,
    h.workingDirectory.symm, h.held.symm⟩

/-- Where the last name lies of a path below one that leads to a directory. -/
theorem locate_below {last : LastName} {anchor : Anchor} {parts : List String} {name : String} {base : Location}
    (hbase : t.look .followed ⟨anchor, parts⟩ = .ok (base, .directory))
    (h : t.locate last ⟨anchor, parts ++ [name]⟩ = .ok place) :
    ∃ budget, Way t last budget base [name] place := by
  obtain ⟨mid, budget, hmid, hway⟩ := locate_above h (by simp)
  rw [hbase] at hmid
  cases hmid
  exact ⟨budget, hway⟩

/-- A directory is made in one that is there by now. -/
theorem OpensAt.makeDirectory {anchor : Anchor} {parts front back : List String} {name : String}
    {base : Location} (hname : IsEntryName name)
    (h : OpensAt t ⟨anchor, parts⟩ t₁ front back base)
    (hmade : t₁.makeDirectory ⟨anchor, parts ++ [name]⟩ = .ok t') :
    OpensAt t ⟨anchor, parts ++ [name]⟩ t' front (back ++ [name]) base := by
  obtain ⟨place, hlocate, hfree, rfl⟩ := makeDirectory_eq_ok hmade
  have hparts : parts = front ++ back := h.parts
  have hparent := h.leads back List.prefix_rfl
  rw [← h.parts] at hparent
  obtain ⟨budget, hway⟩ := locate_below hparent hlocate
  obtain rfl := hway.last_of_free hname hfree
  rw [List.append_assoc] at hfree
  have hlong : ∀ names, names <+: back → base ++ (back ++ [name]) ≠ base ++ names := by
    intro names hin heq
    have hlength := hin.length_le
    rw [← List.append_cancel_left heq, List.length_append, List.length_singleton] at hlength
    omega
  have hnew : t.get? (base ++ (back ++ [name])) = none := by
    rw [← h.others _ fun names _ => hlong names, hfree]
  refine ⟨by simp [hparts], h.found, ?_, ?_, ?_, ?_, h.workingDirectory, h.held⟩
  · intro names hnames hin
    rcases List.prefix_concat_iff.1 hin with rfl | hin
    · exact hnew
    · exact h.free names hnames hin
  · intro names hnames hin
    rw [get?_set, List.append_assoc]
    rcases List.prefix_concat_iff.1 hin with rfl | hin
    · rw [if_pos rfl]
    · rw [if_neg (hlong names hin).symm, h.made names hnames hin]
  · intro q hq
    rw [get?_set, List.append_assoc, if_neg (hq _ (by simp) List.prefix_rfl)]
    exact h.others q fun names hnames hin => hq names hnames (hin.trans (List.prefix_append _ _))
  · intro names hin
    rcases List.prefix_concat_iff.1 hin with rfl | hin
    · rw [List.append_assoc]
      simpa [hparts] using look_made hlocate (by simpa using hfree)
    · exact look_directory_of_stays (stays_set (by simpa using hfree)) (h.leads names hin)

/-- A directory that is there once those above it are made was there before. -/
theorem OpensAt.isDirectory (htree : IsTree t) {anchor : Anchor} {parts front back : List String}
    {name : String} {base : Location} (hname : IsEntryName name)
    (h : OpensAt t ⟨anchor, parts⟩ t₁ front back base)
    (hfound : t₁.isDirectory? ⟨anchor, parts ++ [name]⟩ = .ok true) :
    Opens t ⟨anchor, parts ++ [name]⟩ t₁ := by
  by_cases hback : back = []
  · subst hback
    have hsame := h.of_nothing_made
    rw [isDirectory?, ← ask_congr hsame] at hfound
    exact (opens_of_isDirectory hfound).of_sameView hsame
  · -- what was just made is empty
    have hempty : t₁.get? (base ++ back ++ [name]) = none := by
      rw [List.append_assoc, h.others _ fun names _ hin heq => ?_, ← List.append_assoc,
        htree.get?_below (h.free back hback List.prefix_rfl)]
      have hlength := hin.length_le
      rw [← List.append_cancel_left heq, List.length_append, List.length_singleton] at hlength
      omega
    have hparent := h.leads back List.prefix_rfl
    rw [← h.parts] at hparent
    obtain ⟨place, hlook⟩ := isDirectory?_eq_true.1 hfound
    obtain ⟨hlocate, hnode⟩ := look_eq_ok_iff.1 hlook
    obtain ⟨budget, hway⟩ := locate_below hparent hlocate
    cases hway with
    | stay _ blank => simp_all [IsEntryName]
    | up => simp_all [IsEntryName]
    | own _ _ link | follow _ _ link => rw [hempty] at link; cases link
    | down _ _ _ way => cases way; rw [hempty] at hnode; cases hnode

/-! ## The whole path -/

theorem ensureLast_eq_ok (h : ensureLast p t = .ok () t') :
    t.makeDirectory p = .ok t' ∨ t.isDirectory? p = .ok true ∧ t' = t := by
  unfold ensureLast at h
  split at h
  · cases h
    exact .inl ‹_›
  · split at h
    · cases h
    · exact .inr (unlessDirectory_eq_ok h)

/-- The path leads up only from what is there: its first names, and all two dots among them, lead to a
directory. -/
def IsSteady (t : FileTree) (p : Path) : Prop :=
  ∃ front rest place, p.parts = front ++ rest ∧
    t.look .followed ⟨p.anchor, front⟩ = .ok (place, .directory) ∧ ".." ∉ rest

theorem isEntryName_of_isName {name : String} (h : Path.isName name = true) (hup : name ≠ "..") :
    IsEntryName name := by
  simp only [Path.isName, ne_eq, Bool.and_eq_true, decide_not, Bool.not_eq_eq_eq_not,
    Bool.not_true, decide_eq_false_iff_not] at h
  exact ⟨h.1, h.2, hup⟩

theorem IsSteady.of_stays (h : IsSteady t p) (hstays : Stays t t') : IsSteady t' p := by
  obtain ⟨front, rest, place, hparts, hfront, hup⟩ := h
  exact ⟨front, rest, place, hparts, look_directory_of_stays hstays hfront, hup⟩

/-- From the directory that its first names lead to, a steady path goes straight down. -/
theorem IsSteady.goes_down (h : IsSteady t p) (hparts : ∀ name ∈ p.parts, Path.isName name = true) :
    ∃ top names place, p.parts = top ++ names ∧
      t.look .followed ⟨p.anchor, top⟩ = .ok (place, .directory) ∧
      ∀ name ∈ names, IsEntryName name := by
  obtain ⟨top, names, place, hsplit, hfound, hup⟩ := h
  refine ⟨top, names, place, hsplit, hfound, fun name hname => isEntryName_of_isName ?_ ?_⟩
  · exact hparts name (hsplit ▸ List.mem_append_right top hname)
  · rintro rfl
    exact hup hname

/-- **Making a directory** makes what is missing above it, one directory in the other, and changes
nothing else. The first names of its path have to lead to a directory, and the others may not lead
up. -/
theorem opens_of_ensureDirectory (htree : IsTree t) {anchor : Anchor} {top names : List String}
    (hfound : t.look .followed ⟨anchor, top⟩ = .ok (place, .directory))
    (hnames : ∀ name ∈ names, IsEntryName name)
    (h : ensureDirectory ⟨anchor, top ++ names⟩ t = .ok () t') : Opens t ⟨anchor, top ++ names⟩ t' := by
  induction names using List.reverseRecOn generalizing t' with
  | nil =>
    rw [List.append_nil] at h ⊢
    rw [ensureDirectory_of_look hfound] at h
    cases h
    exact ⟨top, [], place, opensAt_of_look hfound⟩
  | append_singleton above name ih =>
    have habove : Path.parent ⟨anchor, top ++ (above ++ [name])⟩ = ⟨anchor, top ++ above⟩ := by
      simp [Path.parent, ← List.append_assoc]
    rw [ensureDirectory] at h
    cases hmade : t.makeDirectory ⟨anchor, top ++ (above ++ [name])⟩ with
    | ok made =>
      rw [hmade] at h
      cases h
      exact opens_of_makeDirectory hfound hnames hmade
    | error e =>
      simp only [hmade, habove] at h
      split at h
      · split at h
        · cases h
        · obtain ⟨_, t₁, hparent, hlast⟩ := bind_eq_ok (dealingWith_eq_ok h)
          obtain ⟨front, back, base, hopens⟩ :=
            ih (fun name hname => hnames name (List.mem_append_left _ hname)) hparent
          have hname := hnames name (by simp)
          rw [← List.append_assoc] at hlast ⊢
          rcases ensureLast_eq_ok hlast with hlast | ⟨hlast, rfl⟩
          · exact ⟨front, back ++ [name], base, hopens.makeDirectory hname hlast⟩
          · exact hopens.isDirectory htree hname hlast
      · obtain ⟨hthere, rfl⟩ := unlessDirectory_eq_ok h
        exact opens_of_isDirectory hthere

end WeaveStep.FileTree
