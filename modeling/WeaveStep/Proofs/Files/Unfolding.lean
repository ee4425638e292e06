import Mathlib.Data.List.Perm.Subperm
import Mathlib.Logic.Function.Iterate
import WeaveStep.Files.Resolve
import WeaveStep.Proofs.Files.View
import WeaveStep.Proofs.Files.WellFormed

/-!
# Where a resolution leads

A resolution asks for one name after the other, by a path in which every link is replaced so far. The
system follows links without such a path. So both lead to the same place as long as every path that is
asked for is one the system takes.

* `FileTree.StandsFor t p here`: the path `p` has no links, and is that of the location `here`.
* `FileTree.Unfolds t n p here names q place`: the way of `names` from `here`, together with the paths
  that a resolution has on it; `n` is the number of its steps.
* `FileTree.Fits`: what a resolution remembers is true, and there are more links than it has entered.
* **`unfold_eq`**: links are replaced as they lead.
* **`resolve_eq`**: the resolution of a path is the path of the place it leads to.
* `FileTree.IsTraced t p`: a resolution of `p` sees every link on its way. So it is for absolute paths
  where the system takes the path of every link (`isTraced_of_absolute`).
-/

namespace WeaveStep.FileTree

variable {t : FileTree} {p q : Path} {here place there : Location} {name target : String}
  {names rest : List String} {n m depth ups budget : Nat} {last : LastName} {met : Unfolding}
  {pending : List Location}

/-! ## Paths without links -/

/-- A name of an entry that the system takes. -/
structure IsShortName (name : String) : Prop where
  entry : IsEntryName name
  short : name.utf8ByteSize ≤ maxNameBytes

theorem IsShortName.notBlank (h : IsShortName name) : ¬(name = "" ∨ name = ".") := by
  simp [h.entry.1, h.entry.2.1]

theorem IsStep.isShortName (h : IsStep last name names) : IsShortName name := by
  have hblank := not_or.1 h.notBlank
  exact ⟨⟨hblank.1, hblank.2, h.notUp⟩, Nat.not_lt.1 h.short⟩

/-- The path is that of the location: names of entries, after two dots if it is relative. -/
def StandsFor (t : FileTree) (p : Path) (here : Location) : Prop :=
  ∃ ups names, p.parts = List.replicate ups ".." ++ names ∧
    (p.anchor = .root ∧ ups = 0 ∨ p.anchor = .relative) ∧
    here = List.dropLast^[ups] (t.startOf p) ++ names ∧ ∀ name ∈ names, IsShortName name

theorem standsFor_root (t : FileTree) : StandsFor t ⟨.root, []⟩ [] :=
  ⟨0, [], rfl, .inl ⟨rfl, rfl⟩, rfl, by simp⟩

theorem standsFor_relative (t : FileTree) : StandsFor t ⟨.relative, []⟩ t.workingDirectory :=
  ⟨0, [], rfl, .inr rfl, by simp [startOf, Path.isAbsolute], by simp⟩

/-- The two dots in front are counted in one way only. -/
theorem ups_unique {ups' : Nat} {names' : List String} (hnames : ∀ name ∈ names, IsShortName name)
    (hothers : ∀ name ∈ names', IsShortName name)
    (h : List.replicate ups ".." ++ names = List.replicate ups' ".." ++ names') :
    ups = ups' ∧ names = names' := by
  induction ups generalizing ups' with
  | zero =>
    cases ups' with
    | zero => exact ⟨rfl, h⟩
    | succ ups' =>
      obtain rfl : names = ".." :: (List.replicate ups' ".." ++ names') := h
      exact absurd rfl (hnames ".." (by simp)).entry.2.2
  | succ ups ih =>
    cases ups' with
    | zero =>
      obtain rfl : ".." :: (List.replicate ups ".." ++ names) = names' := h
      exact absurd rfl (hothers ".." (by simp)).entry.2.2
    | succ ups' =>
      obtain ⟨rfl, rfl⟩ := ih (List.cons.inj h).2
      exact ⟨rfl, rfl⟩

theorem StandsFor.unique {here' : Location} (h : StandsFor t p here) (h' : StandsFor t p here') :
    here = here' := by
  obtain ⟨ups, names, hparts, -, rfl, hnames⟩ := h
  obtain ⟨ups', names', hparts', -, rfl, hnames'⟩ := h'
  obtain ⟨rfl, rfl⟩ := ups_unique hnames hnames' (hparts.symm.trans hparts')
  rfl

theorem StandsFor.entry (h : StandsFor t p here) (hname : IsShortName name) :
    StandsFor t (p.entry name) (here ++ [name]) := by
  obtain ⟨ups, names, hparts, hanchor, rfl, hnames⟩ := h
  refine ⟨ups, names ++ [name], ?_, hanchor, ?_, ?_⟩
  · simp [Path.entry, hparts]
  · rw [List.append_assoc]
    rfl
  · intro other hother
    rcases List.mem_append.1 hother with hother | hother
    · exact hnames other hother
    · rwa [List.mem_singleton.1 hother]

theorem StandsFor.above (h : StandsFor t p here) : StandsFor t p.above here.dropLast := by
  obtain ⟨ups, names, hparts, hanchor, rfl, hnames⟩ := h
  rcases List.eq_nil_or_concat names with rfl | ⟨init, name, rfl⟩
  · -- only two dots, or none
    have htop : p.parts = [] ∨ p.name = ".." := by
      rw [List.append_nil] at hparts
      cases ups with
      | zero => exact .inl hparts
      | succ ups => exact .inr (by simp [Path.name, hparts, List.getLast?_replicate])
    rw [Path.above, if_pos htop, List.append_nil]
    rcases hanchor with ⟨hroot, rfl⟩ | hrelative
    · rw [if_pos (by simp [Path.isAbsolute, hroot])]
      refine ⟨0, [], hparts, .inl ⟨hroot, rfl⟩, ?_, by simp⟩
      simp [startOf, Path.isAbsolute, hroot]
    · rw [if_neg (by simp [Path.isAbsolute, hrelative])]
      refine ⟨ups + 1, [], ?_, .inr hrelative, ?_, by simp⟩
      · simp [Path.entry, hparts, List.replicate_succ']
      · rw [Function.iterate_succ_apply', List.append_nil]
        rfl
  · rw [List.concat_eq_append] at *
    have hname := (hnames name (by simp)).entry.2.2
    have hbelow : ¬ (p.parts = [] ∨ p.name = "..") := by
      simp [Path.name, hparts, ← List.append_assoc, hname]
    rw [Path.above, if_neg hbelow, ← List.append_assoc, List.dropLast_concat]
    refine ⟨ups, init, ?_, hanchor, rfl, fun name h => hnames name (by simp [h])⟩
    simp [Path.parent, hparts, ← List.append_assoc]

theorem StandsFor.linkStart (h : StandsFor t p here) (target : String) :
    StandsFor t (linkStart p target) (targetStart here target) := by
  unfold FileTree.linkStart targetStart
  split
  · exact standsFor_root t
  · exact h

/-! ## Asking by such a path -/

theorem way_climb (htree : IsTree t) (hhere : t.get? here = some .directory)
    (h : Way t last budget (List.dropLast^[ups] here) names place) :
    Way t last budget here (List.replicate ups ".." ++ names) place := by
  induction ups generalizing here with
  | zero => exact h
  | succ ups ih => exact .up hhere (ih (htree.dropLast hhere) h)

theorem way_descend (htree : IsTree t) (hnames : ∀ name ∈ names, IsShortName name)
    (hlast : last ≠ .made) (hdirectory : t.get? (here ++ names) = some .directory)
    (h : Way t last budget (here ++ names) rest place) : Way t last budget here (names ++ rest) place := by
  induction names generalizing here with
  | nil => simpa using h
  | cons name names ih =>
    have hname := hnames name (by simp)
    have hthere : t.get? (here ++ [name] ++ names) = some .directory := by simpa using hdirectory
    have hnext : t.get? (here ++ [name]) = some .directory := by
      by_cases hnil : names = []
      · simpa [hnil] using hthere
      · exact htree.get?_above hnil (Option.ne_none_iff_exists'.2 ⟨_, hthere⟩)
    have hhere : t.get? here = some .directory := htree.parent here name (by simp [hnext])
    refine .down hhere ⟨hname.notBlank, hname.entry.2.2, fun h => hlast h.1, Nat.not_lt.2 hname.short⟩
      (by simp [hnext]) ?_
    exact ih (fun name h => hnames name (by simp [h])) hthere (by simpa using h)

/-- The path of an entry of a directory leads there, if the system takes it. -/
theorem StandsFor.locate_entry (h : StandsFor t p here) (htree : IsTree t)
    (hstart : t.get? (t.startOf p) = some .directory) (hhere : t.get? here = some .directory)
    (hname : IsShortName name) (hsay : IsSayable (p.entry name)) :
    t.locate .own (p.entry name) = .ok (here ++ [name]) := by
  obtain ⟨ups, names, hparts, -, rfl, hnames⟩ := h
  refine locate_eq_ok_iff.2 ⟨hsay, ?_⟩
  have hstep : IsStep .own name [] :=
    ⟨hname.notBlank, hname.entry.2.2, by simp, Nat.not_lt.2 hname.short⟩
  have hlast : Way t .own maxLinks (List.dropLast^[ups] (t.startOf p) ++ names) [name]
      (List.dropLast^[ups] (t.startOf p) ++ names ++ [name]) := by
    by_cases hlink : ∃ text, t.get? (List.dropLast^[ups] (t.startOf p) ++ names ++ [name]) =
        some (.link text)
    · obtain ⟨text, hlink⟩ := hlink
      exact .own hhere hstep hlink rfl
    · exact .down hhere hstep (fun text htext => hlink ⟨text, htext⟩) .done
  have hparts' : (p.entry name).parts = List.replicate ups ".." ++ (names ++ [name]) := by
    simp [Path.entry, hparts]
  rw [hparts']
  exact way_climb htree hstart (way_descend htree hnames (by simp) hhere hlast)

/-! ## Ways with their paths -/

/-- The way of the names from a location, with the paths that a resolution has on it. Every link is
asked for by a path that the system takes. -/
inductive Unfolds (t : FileTree) : Nat → Path → Location → List String → Path → Location → Prop
  | done {p : Path} {here : Location} : Unfolds t 0 p here [] p here
  | stay {n : Nat} {p q : Path} {here place : Location} {name : String} {names : List String}
    (directory : t.get? here = some .directory) (blank : name = "" ∨ name = ".")
    (way : Unfolds t n p here names q place) : Unfolds t (n + 1) p here (name :: names) q place
  | up {n : Nat} {p q : Path} {here place : Location} {names : List String}
    (directory : t.get? here = some .directory)
    (way : Unfolds t n p.above here.dropLast names q place) :
    Unfolds t (n + 1) p here (".." :: names) q place
  | follow {n m : Nat} {p mid q : Path} {here there place : Location} {name target : String}
    {names : List String} (directory : t.get? here = some .directory) (step : IsShortName name)
    (link : t.get? (here ++ [name]) = some (.link target)) (asked : IsSayable (p.entry name))
    (inner : Unfolds t m (linkStart p target) (targetStart here target) (targetNames target) mid there)
    (way : Unfolds t n mid there names q place) : Unfolds t (m + n + 1) p here (name :: names) q place
  | down {n : Nat} {p q : Path} {here place : Location} {name : String} {names : List String}
    (directory : t.get? here = some .directory) (step : IsShortName name)
    (plain : ∀ text, t.get? (here ++ [name]) ≠ some (.link text))
    (way : Unfolds t n (p.entry name) (here ++ [name]) names q place) :
    Unfolds t (n + 1) p here (name :: names) q place

theorem Unfolds.standsFor (h : Unfolds t n p here names q place) (hp : StandsFor t p here) :
    StandsFor t q place := by
  induction h with
  | done => exact hp
  | stay _ _ _ ih => exact ih hp
  | up _ _ ih => exact ih hp.above
  | follow _ _ _ _ _ _ ihInner ih => exact ih (ihInner (hp.linkStart _))
  | down _ step _ _ ih => exact ih (hp.entry step)

/-- Where names lead, and in how many steps, goes by the location; the path goes by the path. -/
theorem Unfolds.unique {n' : Nat} {p' q' : Path} {place' : Location}
    (h : Unfolds t n p here names q place) (h' : Unfolds t n' p' here names q' place') :
    n = n' ∧ place = place' ∧ (p = p' → q = q') := by
  induction h generalizing n' p' q' place' with
  | done =>
    cases h'
    exact ⟨rfl, rfl, id⟩
  | stay _ blank _ ih =>
    cases h' with
    | stay _ _ way' =>
      obtain ⟨rfl, rfl, hpath⟩ := ih way'
      exact ⟨rfl, rfl, hpath⟩
    | up => simp at blank
    | follow _ step | down _ step => exact absurd blank step.notBlank
  | up _ _ ih =>
    cases h' with
    | stay _ blank => simp at blank
    | up _ way' =>
      obtain ⟨rfl, rfl, hpath⟩ := ih way'
      exact ⟨rfl, rfl, fun hp => hpath (congrArg _ hp)⟩
    | follow _ step | down _ step => exact absurd rfl step.entry.2.2
  | follow _ step link _ _ _ ihInner ih =>
    cases h' with
    | stay _ blank => exact absurd blank step.notBlank
    | up => exact absurd rfl step.entry.2.2
    | follow _ _ link' _ inner' way' =>
      rw [link] at link'
      cases link'
      obtain ⟨rfl, rfl, hmid⟩ := ihInner inner'
      obtain ⟨rfl, rfl, hpath⟩ := ih way'
      exact ⟨rfl, rfl, fun hp => hpath (hmid (by rw [hp]))⟩
    | down _ _ plain' => exact absurd link (plain' _)
  | down _ step plain _ ih =>
    cases h' with
    | stay _ blank => exact absurd blank step.notBlank
    | up => exact absurd rfl step.entry.2.2
    | follow _ _ link' => exact absurd link' (plain _)
    | down _ _ _ way' =>
      obtain ⟨rfl, rfl, hpath⟩ := ih way'
      exact ⟨rfl, rfl, fun hp => hpath (by rw [hp])⟩

/-! ## Single steps of a resolution -/

theorem unfold_stay (blank : name = "" ∨ name = ".") :
    t.unfold depth met p (name :: names) = t.unfold depth met p names := by
  rw [unfold, if_pos blank]

theorem unfold_up : t.unfold depth met p (".." :: names) = t.unfold depth met p.above names := by
  rw [unfold, if_neg (by decide), if_pos rfl]

theorem unfold_down (hname : IsShortName name)
    (hplain : ∀ q text, t.look .own (p.entry name) ≠ .ok (q, .link text)) :
    t.unfold depth met p (name :: names) = t.unfold depth met (p.entry name) names := by
  rw [unfold, if_neg hname.notBlank, if_neg hname.entry.2.2]
  cases hlook : t.look .own (p.entry name) with
  | error e => simp only [hlook, Except.toOption]
  | ok found =>
    obtain ⟨q, node⟩ := found
    cases node with
    | link text => exact absurd hlook (hplain q text)
    | _ => simp only [hlook, Except.toOption]

section

variable (hname : IsShortName name) (hlook : t.look .own (p.entry name) = .ok (here, .link target))
include hname hlook

theorem unfold_met (hmet : met.lookup (p.entry name) = some (some q)) :
    t.unfold depth met p (name :: names) = t.unfold depth met q names := by
  rw [unfold, if_neg hname.notBlank, if_neg hname.entry.2.2]
  simp only [hlook, Except.toOption, hmet]

theorem unfold_enter {met' : Unfolding} (hmet : met.lookup (p.entry name) = none)
    (hinner : t.unfold depth ((p.entry name, none) :: met) (linkStart p target) (targetNames target) =
      ⟨q, true, met'⟩) :
    t.unfold (depth + 1) met p (name :: names) =
      t.unfold (depth + 1) ((p.entry name, some q) :: met') q names := by
  rw [unfold, if_neg hname.notBlank, if_neg hname.entry.2.2]
  simp only [hlook, Except.toOption, hmet, hinner, if_true]

end

/-! ## What a resolution remembers -/

/-- The path is that of a link, and the link leads to `q`. -/
def LinkLeads (t : FileTree) (p q : Path) : Prop :=
  ∃ above here name target m there, p = Path.entry above name ∧ StandsFor t above here ∧
    IsShortName name ∧ t.get? (here ++ [name]) = some (.link target) ∧
    Unfolds t m (linkStart above target) (targetStart here target) (targetNames target) q there

/-- The location is that of a link, and following it takes `n` steps or more. -/
def TakesSteps (t : FileTree) (n : Nat) (place : Location) : Prop :=
  ∃ here name target m p q there, n ≤ m ∧ place = here ++ [name] ∧
    t.get? (here ++ [name]) = some (.link target) ∧
    Unfolds t m p (targetStart here target) (targetNames target) q there

/-- What was met leads where it is said to lead. What is still open are links that take more steps
than are left, so none of them is met again, and there are enough others to enter. -/
structure Fits (t : FileTree) (n depth : Nat) (met : Unfolding) (pending : List Location) : Prop where
  known : ∀ p q, met.lookup p = some (some q) → LinkLeads t p q
  opened : ∀ p, met.lookup p = some none → ∃ place ∈ pending, StandsFor t p place
  steps : ∀ place ∈ pending, TakesSteps t n place
  nodup : pending.Nodup
  room : t.entries.length ≤ depth + pending.length

/-- Links are known that were known, or met since; none is open that was not. -/
structure Learns (t : FileTree) (met met' : Unfolding) : Prop where
  known : ∀ p q, met'.lookup p = some (some q) → LinkLeads t p q
  opened : ∀ p, met'.lookup p = some none → met.lookup p = some none

theorem TakesSteps.mono (h : TakesSteps t n place) (hle : m ≤ n) : TakesSteps t m place := by
  obtain ⟨here, name, target, k, p, q, there, hk, h⟩ := h
  exact ⟨here, name, target, k, p, q, there, Nat.le_trans hle hk, h⟩

theorem TakesSteps.le (h : TakesSteps t n (here ++ [name]))
    (hlink : t.get? (here ++ [name]) = some (.link target))
    (hinner : Unfolds t m p (targetStart here target) (targetNames target) q there) : n ≤ m := by
  obtain ⟨here', name', target', k, p', q', there', hk, hplace, hlink', hinner'⟩ := h
  obtain ⟨rfl, hname⟩ := List.append_inj' hplace rfl
  rw [← hplace, hlink] at hlink'
  cases hlink'
  rwa [(hinner.unique hinner').1]

theorem LinkLeads.eq {above mid : Path} (h : LinkLeads t (above.entry name) q)
    (habove : StandsFor t above here) (hlink : t.get? (here ++ [name]) = some (.link target))
    (hinner : Unfolds t m (linkStart above target) (targetStart here target) (targetNames target) mid
      there) : q = mid := by
  obtain ⟨above', here', name', target', k, there', heq, habove', -, hlink', hinner'⟩ := h
  obtain ⟨anchor, parts⟩ := above
  obtain ⟨anchor', parts'⟩ := above'
  simp only [Path.entry, Path.mk.injEq] at heq
  obtain ⟨rfl, hparts⟩ := heq
  obtain ⟨rfl, hname⟩ := List.append_inj' hparts rfl
  obtain rfl : name = name' := by simpa using hname
  obtain rfl := habove.unique habove'
  rw [hlink] at hlink'
  cases hlink'
  exact ((hinner.unique hinner').2.2 rfl).symm

theorem Fits.of_le (h : Fits t n depth met pending) (hle : m ≤ n) : Fits t m depth met pending :=
  ⟨h.known, h.opened, fun place hplace => (h.steps place hplace).mono hle, h.nodup, h.room⟩

/-- A link that is met for the first time is entered: it is none of those that are open, and there is
room for one more. -/
theorem Fits.enter {k : Nat} (h : Fits t (m + k + 1) depth met pending) (hp : StandsFor t p here)
    (hname : IsShortName name) (hlink : t.get? (here ++ [name]) = some (.link target))
    (hinner : Unfolds t m (linkStart p target) (targetStart here target) (targetNames target) q there) :
    ∃ less, depth = less + 1 ∧
      Fits t m less ((p.entry name, none) :: met) ((here ++ [name]) :: pending) := by
  have hfresh : here ++ [name] ∉ pending := by
    intro hmem
    have := (h.steps _ hmem).le hlink hinner
    omega
  have hnodup : ((here ++ [name]) :: pending).Nodup := List.nodup_cons.2 ⟨hfresh, h.nodup⟩
  have hsteps : ∀ place ∈ (here ++ [name]) :: pending, TakesSteps t m place := by
    intro place hplace
    rcases List.mem_cons.1 hplace with rfl | hplace
    · exact ⟨here, name, target, m, _, _, _, Nat.le_refl m, rfl, hlink, hinner⟩
    · exact (h.steps place hplace).mono (by omega)
  have hentries : (here ++ [name]) :: pending ⊆ t.entries.map (·.1) := by
    intro place hplace
    obtain ⟨above, last, target, -, -, -, -, -, rfl, hthere, -⟩ := hsteps place hplace
    exact List.mem_map_of_mem (f := (·.1)) (mem_entries_of_get? hthere)
  have hcount := (List.subperm_of_subset hnodup hentries).length_le
  rw [List.length_cons, List.length_map] at hcount
  have hroom := h.room
  obtain ⟨less, rfl⟩ : ∃ less, depth = less + 1 := ⟨depth - 1, by omega⟩
  refine ⟨less, rfl, fun r q hmet => ?_, fun r hmet => ?_, hsteps, hnodup, ?_⟩
  · rw [List.lookup_cons] at hmet
    split at hmet
    · cases hmet
    · exact h.known r q hmet
  · rw [List.lookup_cons] at hmet
    split at hmet
    · rename_i heq
      rw [eq_of_beq heq]
      exact ⟨_, List.mem_cons_self, hp.entry hname⟩
    · obtain ⟨place, hplace, hr⟩ := h.opened r hmet
      exact ⟨place, List.mem_cons_of_mem _ hplace, hr⟩
  · rw [List.length_cons]
    omega

theorem startOf_above (t : FileTree) (p : Path) : t.startOf p.above = t.startOf p := by
  unfold Path.above
  split
  · split <;> rfl
  · rfl

theorem startOf_linkStart (htree : IsTree t) (hstart : t.get? (t.startOf p) = some .directory)
    (target : String) : t.get? (t.startOf (linkStart p target)) = some .directory := by
  unfold linkStart
  split
  · exact htree.root
  · exact hstart

theorem Unfolds.start (h : Unfolds t n p here names q place) (htree : IsTree t)
    (hstart : t.get? (t.startOf p) = some .directory) : t.get? (t.startOf q) = some .directory := by
  induction h with
  | done => exact hstart
  | stay _ _ _ ih => exact ih hstart
  | up _ _ ih => exact ih (by rwa [startOf_above])
  | follow _ _ _ _ _ _ ihInner ih => exact ih (ihInner (startOf_linkStart htree hstart _))
  | down _ _ _ _ ih => exact ih hstart

theorem Learns.trans {met' met'' : Unfolding} (h : Learns t met met') (h' : Learns t met' met'') :
    Learns t met met'' :=
  ⟨h'.known, fun p hp => h.opened p (h'.opened p hp)⟩

/-- **Links are replaced as they lead**, whatever was met before. -/
theorem unfold_eq (htree : IsTree t) (h : Unfolds t n p here names q place)
    (hstart : t.get? (t.startOf p) = some .directory) (hp : StandsFor t p here)
    (hfits : Fits t n depth met pending) :
    ∃ met', t.unfold depth met p names = ⟨q, true, met'⟩ ∧ Learns t met met' := by
  induction h generalizing depth met pending with
  | done => exact ⟨met, by rw [unfold], hfits.known, fun _ => id⟩
  | stay directory blank _ ih =>
    rw [unfold_stay blank]
    exact ih hstart hp (hfits.of_le (by omega))
  | up directory _ ih =>
    rw [unfold_up]
    exact ih (by rwa [startOf_above]) hp.above (hfits.of_le (by omega))
  | @down n p q here place name names directory step plain _ ih =>
    have hplain : ∀ other text, t.look .own (p.entry name) ≠ .ok (other, .link text) := by
      intro other text hlook
      obtain ⟨hlocate, hnode⟩ := look_eq_ok_iff.1 hlook
      have hsay := (locate_eq_ok_iff.1 hlocate).1
      rw [hp.locate_entry htree hstart directory step hsay] at hlocate
      cases hlocate
      exact plain text hnode
    rw [unfold_down step hplain]
    exact ih hstart (hp.entry step) (hfits.of_le (by omega))
  | @follow n m p mid q here there place name target names directory step link asked inner way
      ihInner ih =>
    have hlook : t.look .own (p.entry name) = .ok (here ++ [name], .link target) :=
      look_eq_ok_iff.2 ⟨hp.locate_entry htree hstart directory step asked, link⟩
    have hmid := inner.standsFor (hp.linkStart target)
    have hmidStart := inner.start htree (startOf_linkStart htree hstart target)
    cases hmet : met.lookup (p.entry name) with
    | some found =>
      cases found with
      | some known =>
        obtain rfl := (hfits.known _ _ hmet).eq hp link inner
        rw [unfold_met step hlook hmet]
        exact ih hmidStart hmid (hfits.of_le (by omega))
      | none =>
        -- what is open takes more steps than are left
        obtain ⟨other, hmem, hother⟩ := hfits.opened _ hmet
        obtain rfl := hother.unique (hp.entry step)
        have := (hfits.steps _ hmem).le link inner
        omega
    | none =>
      obtain ⟨less, rfl, hentered⟩ := hfits.enter hp step link inner
      obtain ⟨met', hinner, hlearns⟩ := ihInner (startOf_linkStart htree hstart target)
        (hp.linkStart target) hentered
      rw [unfold_enter step hlook hmet hinner]
      have hmore : Learns t met ((p.entry name, some mid) :: met') := by
        refine ⟨fun r known hr => ?_, fun r hr => ?_⟩
        · rw [List.lookup_cons] at hr
          split at hr
          · rename_i heq
            cases hr
            rw [eq_of_beq heq]
            exact ⟨p, here, name, target, m, there, rfl, hp, step, link, inner⟩
          · exact hlearns.known r known hr
        · rw [List.lookup_cons] at hr
          split at hr
          · cases hr
          · have hopen := hlearns.opened r hr
            rwa [List.lookup_cons, ‹(r == p.entry name) = false›] at hopen
      have hfits' : Fits t n (less + 1) ((p.entry name, some mid) :: met') pending :=
        ⟨hmore.known, fun r hr => hfits.opened r (hmore.opened r hr),
          fun place hplace => (hfits.steps place hplace).mono (by omega), hfits.nodup, hfits.room⟩
      obtain ⟨met'', heq, hlast⟩ := ih hmidStart hmid hfits'
      exact ⟨met'', heq, hmore.trans hlast⟩

/-! ## Resolved paths -/

section

variable {base done : List String}

/-- One step of taking out two dots, at the root. -/
def collapse (done : List String) (part : String) : List String :=
  if part = ".." then
    if done.getLast? = some ".." ∨ (done = [] ∧ !(⟨.root, []⟩ : Path).isAbsolute) then done ++ [part]
    else done.dropLast
  else done ++ [part]

theorem foldl_collapse_names (hnames : ".." ∉ names) : names.foldl collapse done = done ++ names := by
  induction names generalizing done with
  | nil => simp
  | cons name names ih =>
    obtain ⟨hname, hrest⟩ := List.ne_and_not_mem_of_not_mem_cons hnames
    rw [List.foldl_cons, collapse, if_neg (Ne.symm hname), ih hrest]
    simp

theorem foldl_collapse_ups (hdone : ".." ∉ done) :
    (List.replicate ups "..").foldl collapse done = List.dropLast^[ups] done := by
  induction ups generalizing done with
  | zero => rfl
  | succ ups ih =>
    have hlast : done.getLast? ≠ some ".." := fun h => hdone (List.mem_of_getLast? h)
    have hstep : collapse done ".." = done.dropLast := by
      simp [collapse, hlast, Path.isAbsolute]
    rw [List.replicate_succ, List.foldl_cons, hstep, ih fun h => hdone (List.dropLast_subset _ h)]
    rfl

theorem collapsed_root (hbase : ".." ∉ base) (hnames : ".." ∉ names) :
    (⟨.root, base ++ (List.replicate ups ".." ++ names)⟩ : Path).collapsed =
      ⟨.root, List.dropLast^[ups] base ++ names⟩ := by
  have hcollapsed : ∀ parts, (⟨.root, parts⟩ : Path).collapsed = ⟨.root, parts.foldl collapse []⟩ :=
    fun _ => rfl
  rw [hcollapsed, List.foldl_append, List.foldl_append, foldl_collapse_names hbase, List.nil_append,
    foldl_collapse_ups hbase, foldl_collapse_names hnames]

end

theorem IsTree.isEntryName (htree : IsTree t) (hthere : t.get? place ≠ none) :
    ∀ name ∈ place, IsEntryName name := by
  induction hlength : place.length generalizing place with
  | zero => simp [List.length_eq_zero_iff.1 hlength]
  | succ length ih =>
    obtain rfl | ⟨above, name, rfl⟩ := List.eq_nil_or_concat place
    · cases hlength
    rw [List.concat_eq_append] at *
    intro other hother
    rcases List.mem_append.1 hother with hother | hother
    · exact ih (by simp [htree.parent above name hthere]) (by simpa using hlength) other hother
    · rw [List.mem_singleton.1 hother]
      exact htree.name above name hthere

/-- The path that the links of a path are replaced from. -/
def startPath (p : Path) : Path := ⟨if p.isAbsolute then .root else .relative, []⟩

theorem standsFor_startPath (t : FileTree) (p : Path) : StandsFor t (startPath p) (t.startOf p) := by
  unfold startPath startOf
  split
  · exact standsFor_root t
  · exact standsFor_relative t

theorem startOf_startPath (t : FileTree) (p : Path) : t.startOf (startPath p) = t.startOf p := by
  unfold startPath startOf
  cases p.isAbsolute <;> rfl

theorem Unfolds.directory (h : Unfolds t n p here (name :: names) q place) :
    t.get? here = some .directory := by
  cases h <;> assumption

/-- The path of a location, once it is made absolute and two dots are taken out. -/
theorem StandsFor.collapsed {absolute : Path} (h : StandsFor t p here) (htree : IsTree t)
    (habsolute : t.absolute p = .ok absolute) : absolute.collapsed = ⟨.root, here⟩ := by
  obtain ⟨ups, names, hparts, hanchor, rfl, hnames⟩ := h
  obtain ⟨anchor, parts⟩ := p
  obtain rfl : parts = _ := hparts
  have hup : ".." ∉ names := fun hmem => (hnames _ hmem).entry.2.2 rfl
  rcases hanchor with ⟨rfl, rfl⟩ | rfl
  · cases habsolute
    have hempty : ".." ∉ ([] : List String) := by simp
    have hcollapsed : (⟨.root, [] ++ (List.replicate 0 ".." ++ names)⟩ : Path).collapsed =
        ⟨.root, List.dropLast^[0] [] ++ names⟩ := collapsed_root hempty hup
    exact hcollapsed
  · have hcurrent : t.absolute ⟨.relative, List.replicate ups ".." ++ names⟩ =
        (·.join ⟨.relative, List.replicate ups ".." ++ names⟩) <$> t.currentPath := rfl
    rw [hcurrent, currentPath] at habsolute
    split at habsolute
    · rename_i hdirectory
      cases habsolute
      have hworking : ".." ∉ t.workingDirectory := fun hmem =>
        (htree.isEntryName (by simp [hdirectory]) _ hmem).2.2 rfl
      exact collapsed_root hworking hup
    · cases habsolute

theorem resolve_eq_collapsed {resolved : Path} (h : t.resolve p = .ok resolved) :
    ∃ absolute, t.absolute (t.unfold t.unfoldDepth [] (startPath p) p.parts).place = .ok absolute ∧
      resolved = absolute.collapsed := by
  by_cases hnull : p.text.contains '\x00'
  · rw [resolve, if_pos hnull] at h
    cases h
  rw [resolve, if_neg hnull] at h
  obtain ⟨absolute, habsolute, h⟩ := except_bind_eq_ok.1 h
  refine ⟨absolute, habsolute, ?_⟩
  dsimp only at h
  split at h
  · cases h
  · cases h
    rfl

theorem resolve_of_stat {absolute : Path} {node : Node} (hnull : p.text.contains '\x00' = false)
    (hfound : (t.unfold t.unfoldDepth [] (startPath p) p.parts).place = q)
    (habsolute : t.absolute q = .ok absolute) (hstat : t.stat absolute.collapsed = .ok node) :
    t.resolve p = .ok absolute.collapsed := by
  rw [resolve, if_neg (by simp [hnull])]
  refine except_bind_eq_ok.2 ⟨absolute, hfound ▸ habsolute, ?_⟩
  dsimp only
  rw [hstat]
  rfl

/-- **The resolution of a path** is the path of the place it leads to. -/
theorem resolve_eq (htree : IsTree t) {resolved : Path}
    (h : Unfolds t n (startPath p) (t.startOf p) p.parts q place)
    (hresolve : t.resolve p = .ok resolved) : resolved = ⟨.root, place⟩ := by
  obtain ⟨absolute, habsolute, rfl⟩ := resolve_eq_collapsed hresolve
  have hstands := h.standsFor (standsFor_startPath t p)
  have hplace : (t.unfold t.unfoldDepth [] (startPath p) p.parts).place = q := by
    cases hparts : p.parts with
    | nil =>
      rw [hparts] at h
      cases h
      rw [unfold]
    | cons name names =>
      rw [hparts] at h
      have hstart : t.get? (t.startOf (startPath p)) = some .directory := by
        rw [startOf_startPath]
        exact h.directory
      have hfits : Fits t n t.unfoldDepth [] [] := by
        refine ⟨by simp, by simp, by simp, List.nodup_nil, ?_⟩
        exact Nat.le_mul_of_pos_right _ (by omega)
      obtain ⟨met, heq, -⟩ := unfold_eq htree h hstart (standsFor_startPath t p) hfits
      rw [heq]
  rw [hplace] at habsolute
  exact hstands.collapsed htree habsolute

/-! ## Paths that are traced -/

/-- Wherever the path leads, each link on its way is asked for by a path that the system takes. -/
def IsTraced (t : FileTree) (p : Path) : Prop :=
  ∀ budget place, Way t .followed budget (t.startOf p) p.parts place →
    ∃ n q, Unfolds t n (startPath p) (t.startOf p) p.parts q place

theorem IsTraced.resolve_eq (h : IsTraced t p) (htree : IsTree t) {resolved : Path}
    (hway : Way t .followed budget (t.startOf p) p.parts place)
    (hresolve : t.resolve p = .ok resolved) : resolved = ⟨.root, place⟩ := by
  obtain ⟨n, q, hunfolds⟩ := h budget place hway
  exact FileTree.resolve_eq htree hunfolds hresolve

section

variable (htree : IsTree t)
  (hlinks : ∀ q target, t.get? q = some (.link target) → IsSayable ⟨.root, q⟩)

theorem linkStart_root (here : Location) (target : String) :
    linkStart ⟨.root, here⟩ target = ⟨.root, targetStart here target⟩ := by
  unfold linkStart targetStart
  split <;> rfl

include htree in
theorem above_root (hhere : t.get? here = some .directory) :
    (⟨.root, here⟩ : Path).above = ⟨.root, here.dropLast⟩ := by
  have hname : here = [] ∨ (⟨.root, here⟩ : Path).name ≠ ".." := by
    rcases List.eq_nil_or_concat here with rfl | ⟨above, name, rfl⟩
    · exact .inl rfl
    · rw [List.concat_eq_append] at hhere ⊢
      have hentry := htree.name above name (by simp [hhere])
      exact .inr (by simpa [Path.name] using hentry.2.2)
  rcases hname with rfl | hname
  · rfl
  · unfold Path.above
    split
    · rename_i htop
      obtain rfl : here = [] := htop.resolve_right hname
      rfl
    · rfl

include htree hlinks in
/-- From a location whose path is absolute, a way over some names first is one that a resolution sees. -/
theorem Way.unfolds (h : Way t .followed budget here (names ++ rest) place) :
    ∃ n mid less, less ≤ budget ∧ Unfolds t n ⟨.root, here⟩ here names ⟨.root, mid⟩ mid ∧
      Way t .followed less mid rest place := by
  -- a link costs one of the budget, and any other step a name
  induction budget using Nat.strong_induction_on generalizing here names rest place with
  | _ budget ih =>
    induction names generalizing here with
    | nil => exact ⟨0, here, budget, Nat.le_refl budget, .done, h⟩
    | cons name names ihNames =>
      rw [List.cons_append] at h
      generalize hmore : names ++ rest = more at h
      cases h with
      | stay directory blank way =>
        subst hmore
        obtain ⟨n, mid, less, hless, hunfolds, hrest⟩ := ihNames way
        exact ⟨n + 1, mid, less, hless, .stay directory blank hunfolds, hrest⟩
      | up directory way =>
        subst hmore
        obtain ⟨n, mid, less, hless, hunfolds, hrest⟩ := ihNames way
        refine ⟨n + 1, mid, less, hless, .up directory ?_, hrest⟩
        rwa [above_root htree directory]
      | own _ _ _ own => cases own
      | down directory step plain way =>
        subst hmore
        obtain ⟨n, mid, less, hless, hunfolds, hrest⟩ := ihNames way
        exact ⟨n + 1, mid, less, hless, .down directory step.isShortName plain hunfolds, hrest⟩
      | follow directory step link _ way =>
        subst hmore
        obtain ⟨m, there, less, hless, hinner, hway⟩ := ih _ (Nat.lt_succ_self _) way
        obtain ⟨n, mid, less', hless', hunfolds, hrest⟩ := ih less (by omega) hway
        refine ⟨m + n + 1, mid, less', by omega, ?_, hrest⟩
        rw [← linkStart_root] at hinner
        exact .follow directory step.isShortName link (hlinks _ _ link) hinner hunfolds

include htree hlinks in
/-- An absolute path is traced where the system takes the path of every link. -/
theorem isTraced_of_absolute (habsolute : p.isAbsolute = true) : IsTraced t p := by
  intro budget place hway
  have hstart : t.startOf p = [] := if_pos habsolute
  have hpath : startPath p = ⟨.root, []⟩ := by rw [startPath, if_pos habsolute]
  rw [hstart] at hway ⊢
  rw [hpath]
  rw [← List.append_nil p.parts] at hway
  obtain ⟨n, mid, less, -, hunfolds, hrest⟩ := hway.unfolds htree hlinks
  cases hrest
  exact ⟨n, _, hunfolds⟩

end

end WeaveStep.FileTree
