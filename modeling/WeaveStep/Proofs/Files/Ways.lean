import WeaveStep.Files.Walk
import WeaveStep.Proofs.Always

/-!
# The ways of paths

`FileTree.Way` are the ways of walks that lead somewhere, step by step (`walk_eq_ok_iff`).

A way is there as long as what it passes stays. `FileTree.Stays t t'` says that what is in `t` is
still there in `t'`, the directories and links as they were, and that its other entries did not
become links; what is new in `t'` is left open.

* **`locate_of_stays`**: where a path leads in `t`, it leads in `t'`.
* **`locate_followed_of_own`**: a path that itself names no link leads where its last name lies.
* **`locate_straight`**: names of entries lead straight down from the root, over directories.
-/

namespace WeaveStep.FileTree

variable {t t' : FileTree} {last : LastName} {budget : Nat} {here place : Location} {name : String}
  {names : List String} {p : Path}

/-! ## Single steps of a walk -/

/-- A name by which a walk goes on to an entry of a directory, with `names` after it. -/
structure IsStep (last : LastName) (name : String) (names : List String) : Prop where
  notBlank : ¬(name = "" ∨ name = ".")
  notUp : name ≠ ".."
  noSlash : ¬(last = .made ∧ names ≠ [] ∧ names.all (· = ""))
  short : ¬ maxNameBytes < name.utf8ByteSize

theorem walk_noEntry (nothing : t.get? here = none) :
    t.walk last budget here (name :: names) = .error .noEntry := by
  rw [walk, nothing]

section

variable (directory : t.get? here = some .directory)
include directory

theorem walk_stay (blank : name = "" ∨ name = ".") :
    t.walk last budget here (name :: names) = t.walk last budget here names := by
  rw [walk, directory]
  simp only [blank, if_true]

theorem walk_up :
    t.walk last budget here (".." :: names) = t.walk last budget here.dropLast names := by
  rw [walk, directory]
  simp

theorem walk_own {target : String} (step : IsStep last name [])
    (link : t.get? (here ++ [name]) = some (.link target)) (own : last = .own) :
    t.walk last budget here [name] = .ok (here ++ [name]) := by
  rw [walk, directory]
  simp [step.notBlank, step.notUp, step.short, link, own]

theorem walk_follow {target : String} (step : IsStep last name names)
    (link : t.get? (here ++ [name]) = some (.link target)) (followed : ¬(names = [] ∧ last = .own)) :
    t.walk last (budget + 1) here (name :: names) =
      t.walk last budget (targetStart here target) (targetNames target ++ names) := by
  rw [walk, directory]
  simp only [step.notBlank, step.notUp, step.noSlash, step.short, link, followed, if_false]

theorem walk_down (step : IsStep last name names)
    (plain : ∀ target, t.get? (here ++ [name]) ≠ some (.link target)) :
    t.walk last budget here (name :: names) = t.walk last budget (here ++ [name]) names := by
  rw [walk, directory]
  simp only [step.notBlank, step.notUp, step.noSlash, step.short, if_false]

end

/-- The ways in which a walk that follows links can be refused. -/
theorem walk_error {e : Errno} (h : t.walk .followed budget here names = .error e) :
    e = .noEntry ∨ e = .notDirectory ∨ e = .tooManyLinks ∨ e = .nameTooLong := by
  fun_induction t.walk .followed budget here names <;> simp_all

/-! ## Ways -/

/-- The way that `names` lead from a location to another, over at most `budget` links. -/
inductive Way (t : FileTree) (last : LastName) :
    (budget : Nat) → Location → List String → Location → Prop
  | done {budget : Nat} {here : Location} : Way t last budget here [] here
  | stay {budget : Nat} {here place : Location} {name : String} {names : List String}
    (directory : t.get? here = some .directory) (blank : name = "" ∨ name = ".")
    (way : Way t last budget here names place) : Way t last budget here (name :: names) place
  | up {budget : Nat} {here place : Location} {names : List String}
    (directory : t.get? here = some .directory)
    (way : Way t last budget here.dropLast names place) : Way t last budget here (".." :: names) place
  | own {budget : Nat} {here : Location} {name target : String}
    (directory : t.get? here = some .directory) (step : IsStep last name [])
    (link : t.get? (here ++ [name]) = some (.link target)) (own : last = .own) :
    Way t last budget here [name] (here ++ [name])
  | follow {budget : Nat} {here place : Location} {name target : String} {names : List String}
    (directory : t.get? here = some .directory) (step : IsStep last name names)
    (link : t.get? (here ++ [name]) = some (.link target)) (followed : ¬(names = [] ∧ last = .own))
    (way : Way t last budget (targetStart here target) (targetNames target ++ names) place) :
    Way t last (budget + 1) here (name :: names) place
  | down {budget : Nat} {here place : Location} {name : String} {names : List String}
    (directory : t.get? here = some .directory) (step : IsStep last name names)
    (plain : ∀ target, t.get? (here ++ [name]) ≠ some (.link target))
    (way : Way t last budget (here ++ [name]) names place) :
    Way t last budget here (name :: names) place

theorem way_of_walk (h : t.walk last budget here names = .ok place) :
    Way t last budget here names place := by
  fun_induction t.walk last budget here names with
  | case1 => cases h; exact .done
  | case2 budget here name rest hhere hname ih => exact .stay hhere hname (ih h)
  | case3 budget here rest hhere hname ih => exact .up hhere (ih h)
  | case6 budget here name rest hhere hname hup hmade hshort target htarget hlast =>
    obtain ⟨rfl, hown⟩ := hlast
    cases h
    exact .own hhere ⟨hname, hup, hmade, hshort⟩ htarget hown
  | case8 here name rest hhere hname hup hmade hshort target htarget hlast budget ih =>
    exact .follow hhere ⟨hname, hup, hmade, hshort⟩ htarget hlast (ih h)
  | case9 budget here name rest hhere hname hup hmade hshort hplain ih =>
    exact .down hhere ⟨hname, hup, hmade, hshort⟩ hplain (ih h)
  | _ => cases h

theorem walk_of_way (h : Way t last budget here names place) :
    t.walk last budget here names = .ok place := by
  induction h with
  | done => rw [walk]
  | stay directory blank _ ih => rw [walk_stay directory blank, ih]
  | up directory _ ih => rw [walk_up directory, ih]
  | own directory step link own => exact walk_own directory step link own
  | follow directory step link followed _ ih => rw [walk_follow directory step link followed, ih]
  | down directory step plain _ ih => rw [walk_down directory step plain, ih]

theorem walk_eq_ok_iff :
    t.walk last budget here names = .ok place ↔ Way t last budget here names place :=
  ⟨way_of_walk, walk_of_way⟩

/-- A way that goes on from a location has found a directory there. -/
theorem Way.directory (h : Way t last budget here (name :: names) place) :
    t.get? here = some .directory := by
  cases h <;> assumption

/-- The text of a path is one that the system takes. -/
structure IsSayable (p : Path) : Prop where
  noNull : p.text.contains '\x00' = false
  short : p.text.utf8ByteSize < pathBytesLimit

theorem locate_eq_ok_iff : t.locate last p = .ok place ↔
    IsSayable p ∧ Way t last maxLinks (t.startOf p) p.parts place := by
  rw [show IsSayable p ↔ p.text.contains '\x00' = false ∧ p.text.utf8ByteSize < pathBytesLimit from
    ⟨fun h => ⟨h.noNull, h.short⟩, fun h => ⟨h.1, h.2⟩⟩]
  unfold locate locateNames
  split
  · simp_all
  · split
    · rename_i h
      simp only [reduceCtorEq, false_iff, not_and]
      omega
    · rename_i hnull hlong
      rw [← walk_eq_ok_iff]
      cases t.walk last maxLinks (t.startOf p) p.parts <;>
        simp_all [Except.mapError]

theorem look_eq_ok_iff {node : Node} : t.look last p = .ok (place, node) ↔
    t.locate last p = .ok place ∧ t.get? place = some node := by
  unfold look
  rw [except_bind_eq_ok]
  constructor
  · rintro ⟨found, hfound, h⟩
    split at h <;> cases h
    exact ⟨hfound, ‹_›⟩
  · rintro ⟨hlocate, hnode⟩
    exact ⟨place, hlocate, by rw [hnode]⟩

theorem stat_eq_ok_iff {node : Node} :
    t.stat p = .ok node ↔ ∃ place, t.look .followed p = .ok (place, node) := by
  unfold stat
  cases t.look .followed p with
  | ok found => obtain ⟨place, node'⟩ := found; simp [Functor.map, Except.map]
  | error e => simp [Functor.map, Except.map]

theorem isDirectory_iff {node : Node} : node.isDirectory = true ↔ node = .directory := by
  cases node <;> simp [Node.isDirectory]

theorem ask_eq_true {sort : Node → Bool} : t.ask sort p = .ok true ↔
    ∃ place node, t.look .followed p = .ok (place, node) ∧ sort node = true := by
  have hswap : (∃ place node, t.look .followed p = .ok (place, node) ∧ sort node = true) ↔
      ∃ node, (∃ place, t.look .followed p = .ok (place, node)) ∧ sort node = true := by
    grind
  simp only [hswap, ← stat_eq_ok_iff]
  unfold ask
  cases h : t.stat p with
  | ok node => simp
  | error e => cases habsent : saysAbsent e <;> simp [habsent]

theorem isDirectory?_eq_true :
    t.isDirectory? p = .ok true ↔ ∃ place, t.look .followed p = .ok (place, .directory) := by
  simp [isDirectory?, ask_eq_true, isDirectory_iff]

theorem leadsTo_directory :
    t.leadsTo Node.isDirectory p = true ↔ ∃ place, t.look .followed p = .ok (place, .directory) := by
  rw [← stat_eq_ok_iff]
  unfold leadsTo
  cases t.stat p <;> simp [isDirectory_iff]

/-! ## Places below others -/

theorem isWithin_refl (place : Location) : isWithin place place = true :=
  List.isPrefixOf_iff_prefix.2 List.prefix_rfl

theorem isWithin_trans {within q : Location} (h : isWithin place within = true)
    (h' : isWithin within q = true) : isWithin place q = true :=
  List.isPrefixOf_iff_prefix.2 ((List.isPrefixOf_iff_prefix.1 h).trans
    (List.isPrefixOf_iff_prefix.1 h'))

theorem isWithin_append {within : Location} (h : isWithin place within = true) :
    isWithin place (within ++ names) = true :=
  isWithin_trans h (List.isPrefixOf_iff_prefix.2 (List.prefix_append _ _))

/-! ## Ways of ways -/

/-- Where the same links lie, names lead to one place only. -/
theorem Way.unique_of_links {budget' : Nat} {place' : Location}
    (hlinks : ∀ q target, t.get? q = some (.link target) ↔ t'.get? q = some (.link target))
    (h : Way t last budget here names place) (h' : Way t' last budget' here names place') :
    place = place' := by
  induction h generalizing budget' with
  | done => cases h'; rfl
  | stay directory blank way ih =>
    cases h' with
    | stay _ _ way' => exact ih way'
    | up => simp at blank
    | own _ step | follow _ step | down _ step => exact absurd blank step.notBlank
  | up directory way ih =>
    cases h' with
    | stay _ blank => simp at blank
    | up _ way' => exact ih way'
    | own _ step | follow _ step | down _ step => exact absurd rfl step.notUp
  | own directory step link own =>
    cases h' with
    | stay _ blank => exact absurd blank step.notBlank
    | up => exact absurd rfl step.notUp
    | own => rfl
    | follow _ _ _ followed => exact absurd ⟨rfl, own⟩ followed
    | down _ _ plain => exact absurd ((hlinks _ _).1 link) (plain _)
  | follow directory step link followed way ih =>
    cases h' with
    | stay _ blank => exact absurd blank step.notBlank
    | up => exact absurd rfl step.notUp
    | own _ _ _ own => exact absurd ⟨rfl, own⟩ followed
    | follow _ _ link' _ way' =>
      rw [(hlinks _ _).1 link] at link'
      cases link'
      exact ih way'
    | down _ _ plain => exact absurd ((hlinks _ _).1 link) (plain _)
  | down directory step plain way ih =>
    cases h' with
    | stay _ blank => exact absurd blank step.notBlank
    | up => exact absurd rfl step.notUp
    | own _ _ link | follow _ _ link => exact absurd ((hlinks _ _).2 link) (plain _)
    | down _ _ _ way' => exact ih way'

/-- Names lead to one place only. -/
theorem Way.unique {budget' : Nat} {place' : Location} (h : Way t last budget here names place)
    (h' : Way t last budget' here names place') : place = place' :=
  h.unique_of_links (fun _ _ => Iff.rfl) h'

/-- A way is one over its first names, links followed, and one over those that are left. -/
theorem Way.split {rest : List String} (h : Way t last budget here (names ++ rest) place)
    (hrest : rest ≠ []) : ∃ mid budget', Way t .followed budget here names mid ∧
      Way t last budget' mid rest place := by
  have hstep : ∀ {name names names'}, IsStep last name names' → IsStep .followed name names :=
    fun h => ⟨h.notBlank, h.notUp, by simp, h.short⟩
  have hnone : ∀ {budget : Nat} {here : Location} {whole : List String} {place : Location},
      [] ++ rest = whole → Way t last budget here whole place → ∃ mid budget',
        Way t .followed budget here [] mid ∧ Way t last budget' mid rest place := by
    rintro budget here _ place rfl way
    exact ⟨here, budget, .done, way⟩
  generalize hwhole : names ++ rest = whole at h
  induction h generalizing names with
  | done => simp_all
  | stay directory blank way ih =>
    cases names with
    | nil => exact hnone hwhole (.stay directory blank way)
    | cons name names =>
      cases hwhole
      obtain ⟨mid, budget', hfirst, hlast⟩ := ih rfl
      exact ⟨mid, budget', .stay directory blank hfirst, hlast⟩
  | up directory way ih =>
    cases names with
    | nil => exact hnone hwhole (.up directory way)
    | cons name names =>
      cases hwhole
      obtain ⟨mid, budget', hfirst, hlast⟩ := ih rfl
      exact ⟨mid, budget', .up directory hfirst, hlast⟩
  | own directory step link own =>
    cases names with
    | nil => exact hnone hwhole (.own directory step link own)
    | cons name names => simp_all
  | follow directory step link followed way ih =>
    cases names with
    | nil => exact hnone hwhole (.follow directory step link followed way)
    | cons name names =>
      cases hwhole
      obtain ⟨mid, budget', hfirst, hlast⟩ := ih (List.append_assoc _ _ _)
      exact ⟨mid, budget', .follow directory (hstep step) link (by simp) hfirst, hlast⟩
  | down directory step plain way ih =>
    cases names with
    | nil => exact hnone hwhole (.down directory step plain way)
    | cons name names =>
      cases hwhole
      obtain ⟨mid, budget', hfirst, hlast⟩ := ih rfl
      exact ⟨mid, budget', .down directory (hstep step) plain hfirst, hlast⟩

/-- A name of an entry, as opposed to a way to stay or to go up. -/
def IsEntryName (name : String) : Prop := name ≠ "" ∧ name ≠ "." ∧ name ≠ ".."

instance : DecidablePred IsEntryName := fun name =>
  inferInstanceAs (Decidable (name ≠ "" ∧ name ≠ "." ∧ name ≠ ".."))

theorem isEntryName_of_length {name : String} (h : 2 < name.length) : IsEntryName name := by
  refine ⟨?_, ?_, ?_⟩ <;>
    · rintro rfl
      exact absurd h (by decide)

/-- A name of an entry is a step on a way on which links are followed. -/
theorem isStep_followed (entry : IsEntryName name) (short : name.utf8ByteSize ≤ maxNameBytes) :
    IsStep .followed name names :=
  ⟨by simp [entry.1, entry.2.1], entry.2.2, by simp, Nat.not_lt.2 short⟩

section

variable (directory : t.get? here = some .directory) (entry : IsEntryName name)
include directory entry

theorem walk_entry {node : Option Node} (there : t.get? (here ++ [name]) = node)
    (plain : (node.any fun n => n matches .link _) = false) (short : name.utf8ByteSize ≤ maxNameBytes)
    (rest : last = .made → names ≠ [] → names.all (· = "") = false) :
    t.walk last budget here (name :: names) = t.walk last budget (here ++ [name]) names := by
  refine walk_down directory ⟨?_, entry.2.2, fun h => ?_, Nat.not_lt.2 short⟩ fun text htext => ?_
  · simp [entry.1, entry.2.1]
  · simp [rest h.1 h.2.1] at h
  · rw [there] at htext
    simp [htext] at plain

theorem walk_long (followed : last ≠ .made) (long : maxNameBytes < name.utf8ByteSize) :
    t.walk last budget here (name :: names) = .error .nameTooLong := by
  rw [walk, directory]
  simp [entry.1, entry.2.1, entry.2.2, followed, long]

end

/-- Names of entries lead straight down over directories, whatever is wanted of the last of them. -/
theorem walk_straight (hnames : ∀ name ∈ names, IsEntryName name ∧ name.utf8ByteSize ≤ maxNameBytes)
    (hover : ∀ n < names.length, t.get? (here ++ names.take n) = some .directory)
    (hplain : ∀ text, t.get? (here ++ names) ≠ some (.link text)) :
    t.walk last budget here names = .ok (here ++ names) := by
  induction names generalizing here with
  | nil => rw [walk, List.append_nil]
  | cons name names ih =>
    obtain ⟨hentry, hshort⟩ := hnames name List.mem_cons_self
    have hrest : ∀ more ∈ names, IsEntryName more ∧ more.utf8ByteSize ≤ maxNameBytes :=
      fun more hmore => hnames more (List.mem_cons_of_mem _ hmore)
    have hhere : t.get? here = some .directory := by simpa using hover 0 (by simp)
    have hnext : ∀ text, t.get? (here ++ [name]) ≠ some (.link text) := by
      cases names with
      | nil => exact hplain
      | cons more names =>
        have hdirectory : t.get? (here ++ [name]) = some .directory := by simpa using hover 1 (by simp)
        simp [hdirectory]
    have hblank : last = .made → names ≠ [] → names.all (· = "") = false := by
      intro _ hsome
      obtain ⟨more, names, rfl⟩ := List.exists_cons_of_ne_nil hsome
      simp [(hrest more List.mem_cons_self).1.1]
    have hlinkless : ((t.get? (here ++ [name])).any fun n => n matches .link _) = false := by
      cases hnode : t.get? (here ++ [name]) with
      | none => rfl
      | some node =>
        cases node with
        | link text => exact absurd hnode (hnext text)
        | _ => rfl
    rw [walk_entry hhere hentry rfl hlinkless hshort hblank]
    have happend : here ++ name :: names = here ++ [name] ++ names := List.append_cons _ _ _
    rw [happend] at hplain ⊢
    refine ih hrest (fun n hn => ?_) hplain
    rw [List.append_assoc]
    exact hover (n + 1) (Nat.succ_lt_succ hn)

/-- Names of entries lead straight down where they meet no link. -/
theorem Way.straight (hplain : ∀ front, front <+: names → ∀ text,
      t.get? (here ++ front) ≠ some (.link text))
    (h : Way t last budget here names place) (hnames : ∀ name ∈ names, IsEntryName name) :
    place = here ++ names := by
  induction h with
  | done => simp
  | stay _ blank => have := hnames _ List.mem_cons_self; simp_all [IsEntryName]
  | up => have := hnames _ List.mem_cons_self; simp_all [IsEntryName]
  | own _ _ link => exact absurd link (hplain _ List.prefix_rfl _)
  | follow _ _ link => exact absurd link (hplain [_] (by simp) _)
  | @down budget here place name names _ _ _ _ ih =>
    rw [ih (fun front hfront text => ?_) fun name h => hnames name (List.mem_cons_of_mem _ h)]
    · simp
    · simpa using hplain (name :: front) ((List.prefix_cons_inj name).2 hfront) text

/-- Where no links are at a place or below it, names of entries lead straight down. -/
theorem Way.descend {root : Location}
    (hplain : ∀ q target, isWithin root q = true → t.get? q ≠ some (.link target))
    (h : Way t last budget here names place) (hhere : isWithin root here = true)
    (hnames : ∀ name ∈ names, IsEntryName name) : place = here ++ names :=
  h.straight (fun _ _ text => hplain _ text (isWithin_append hhere)) hnames

/-! ## Ways of paths -/

/-- The text of a path begins with that of a path above it. -/
theorem text_above {anchor : Anchor} {above : List String}
    (habove : anchor ≠ .relative ∨ above ≠ []) (below : List String) :
    ∃ rest, (⟨anchor, above ++ below⟩ : Path).text = (⟨anchor, above⟩ : Path).text ++ rest := by
  have htext : ∀ parts, anchor ≠ .relative ∨ parts ≠ [] →
      (⟨anchor, parts⟩ : Path).text = anchor.text ++ "/".intercalate parts := by
    intro parts hparts
    unfold Path.text
    split
    · simp_all
    · rfl
  rw [htext _ (habove.imp_right fun h => by simp [h]), htext _ habove]
  by_cases habove : above = []
  · exact ⟨"/".intercalate below, by simp [habove]⟩
  · by_cases hbelow : below = []
    · exact ⟨"", by simp [hbelow]⟩
    · exact ⟨"/" ++ "/".intercalate below, by
        rw [String.intercalate_append_of_ne_nil habove hbelow]
        simp [String.append_assoc]⟩

theorem IsSayable.above {anchor : Anchor} {above below : List String}
    (h : IsSayable ⟨anchor, above ++ below⟩) : IsSayable ⟨anchor, above⟩ := by
  by_cases hdot : anchor = .relative ∧ above = []
  · obtain ⟨rfl, rfl⟩ := hdot
    refine ⟨?_, by decide⟩
    rw [String.contains_char_eq]
    decide
  obtain ⟨rest, htext⟩ := text_above (by tauto) below
  obtain ⟨hnull, hshort⟩ := h
  rw [htext] at hnull hshort
  rw [String.utf8ByteSize_append] at hshort
  refine ⟨?_, by omega⟩
  rw [String.contains_char_eq] at hnull ⊢
  simp_all

theorem not_mem_joined {c : Char} (hslash : c ∉ ("/" : String).toList)
    (hnames : ∀ name ∈ names, c ∉ name.toList) : c ∉ ("/".intercalate names).toList := by
  induction names with
  | nil => simp
  | cons name names ih =>
    by_cases hlast : names = []
    · simpa [hlast] using hnames name List.mem_cons_self
    · rw [String.intercalate_cons_of_ne_nil hlast, String.toList_append, String.toList_append,
        List.mem_append, List.mem_append]
      have hrest := ih fun more hmore => hnames more (List.mem_cons_of_mem _ hmore)
      exact not_or.2 ⟨not_or.2 ⟨hnames name List.mem_cons_self, hslash⟩, hrest⟩

/-- A path from the root is sayable if no null is in its names, and its text is short. -/
theorem isSayable_root (hnull : ∀ name ∈ names, '\x00' ∉ name.toList)
    (hshort : (Path.text ⟨.root, names⟩).utf8ByteSize < pathBytesLimit) : IsSayable ⟨.root, names⟩ := by
  have htext : (⟨.root, names⟩ : Path).text = "/" ++ "/".intercalate names := rfl
  refine ⟨?_, hshort⟩
  rw [htext, String.contains_char_eq, String.toList_append, decide_eq_false_iff_not, List.mem_append]
  exact not_or.2 ⟨by decide, not_mem_joined (by decide) hnull⟩

/-- Names of entries lead straight down from the root to the entry by these names. -/
theorem locate_straight (hsay : IsSayable ⟨.root, names⟩)
    (hnames : ∀ name ∈ names, IsEntryName name ∧ name.utf8ByteSize ≤ maxNameBytes)
    (hover : ∀ n < names.length, t.get? (names.take n) = some .directory)
    (hplain : ∀ text, t.get? names ≠ some (.link text)) : t.locate last ⟨.root, names⟩ = .ok names :=
  locate_eq_ok_iff.2 ⟨hsay, walk_eq_ok_iff.1 (walk_straight hnames hover hplain)⟩

/-- Where a path leads to nothing, it is missing. -/
theorem look_of_none (hlocate : t.locate last p = .ok place) (hnone : t.get? place = none) :
    t.look last p = .error (.refusal .noEntry p.text) := by
  simp only [look, hlocate, bind, Except.bind, hnone]

/-- A path without names leads to where it starts. -/
theorem look_start (hstart : t.get? (t.startOf p) = some .directory)
    (hnil : p.parts = []) : t.look last p = .ok (t.startOf p, .directory) := by
  obtain ⟨anchor, parts⟩ := p
  obtain rfl : parts = [] := hnil
  have hsay : IsSayable ⟨anchor, []⟩ := by
    cases anchor <;> refine ⟨?_, by decide⟩ <;> rw [String.contains_char_eq] <;> decide
  exact look_eq_ok_iff.2 ⟨locate_eq_ok_iff.2 ⟨hsay, .done⟩, hstart⟩

/-- Whatever leads somewhere, the paths above it lead to directories. -/
theorem locate_above {anchor : Anchor} {above below : List String}
    (h : t.locate last ⟨anchor, above ++ below⟩ = .ok place) (hbelow : below ≠ []) :
    ∃ mid budget, t.look .followed ⟨anchor, above⟩ = .ok (mid, .directory) ∧
      Way t last budget mid below place := by
  obtain ⟨hsay, hway⟩ := locate_eq_ok_iff.1 h
  obtain ⟨mid, budget, habove, hrest⟩ := hway.split hbelow
  obtain ⟨name, names, rfl⟩ := List.exists_cons_of_ne_nil hbelow
  exact ⟨mid, budget, look_eq_ok_iff.2
    ⟨locate_eq_ok_iff.2 ⟨hsay.above, habove⟩, hrest.directory⟩, hrest⟩

/-- An entry of a directory that a path leads to lies in that directory. -/
theorem locate_entry {base : Path} {within : Location} {name : String}
    (hbase : t.locate .followed base = .ok within) (hname : IsEntryName name)
    (hplain : ∀ target, t.get? (within ++ [name]) ≠ some (.link target))
    (h : t.locate last (base.entry name) = .ok place) :
    place = within ++ [name] ∧ t.get? within = some .directory := by
  obtain ⟨-, hway⟩ := locate_eq_ok_iff.1 h
  obtain ⟨mid, budget, hfirst, hlast⟩ := hway.split (List.cons_ne_nil name [])
  obtain rfl := (locate_eq_ok_iff.1 hbase).2.unique hfirst
  refine ⟨?_, hlast.directory⟩
  cases hlast with
  | stay _ blank => simp_all [IsEntryName]
  | up => simp_all [IsEntryName]
  | own => rfl
  | follow _ _ link => exact absurd link (hplain _)
  | down _ _ _ way => cases way; rfl

/-! ## What stays on the way -/

/-- What is there stays: directories and links as they are, and nothing else becomes a link. -/
structure Stays (t t' : FileTree) : Prop where
  workingDirectory : t'.workingDirectory = t.workingDirectory
  there : ∀ place, t.get? place ≠ none → t'.get? place ≠ none
  directory : ∀ place, t.get? place = some .directory → t'.get? place = some .directory
  link : ∀ place target, t.get? place = some (.link target) → t'.get? place = some (.link target)
  noLink : ∀ place target, t.get? place ≠ none → t'.get? place = some (.link target) →
    t.get? place = some (.link target)

theorem Stays.refl (t : FileTree) : Stays t t where
  workingDirectory := rfl
  there _ h := h
  directory _ h := h
  link _ _ h := h
  noLink _ _ _ h := h

theorem Stays.trans {t'' : FileTree} (h : Stays t t') (h' : Stays t' t'') : Stays t t'' where
  workingDirectory := h'.workingDirectory.trans h.workingDirectory
  there q hq := h'.there q (h.there q hq)
  directory q hq := h'.directory q (h.directory q hq)
  link q target hq := h'.link q target (h.link q target hq)
  noLink q target hq hlink := h.noLink q target hq (h'.noLink q target (h.there q hq) hlink)

/-- All stays where every entry is there still, as it was. -/
theorem stays_of_kept (hworking : t'.workingDirectory = t.workingDirectory)
    (hkept : ∀ q node, t.get? q = some node → t'.get? q = some node) : Stays t t' where
  workingDirectory := hworking
  there q hq := by
    obtain ⟨node, hnode⟩ := Option.ne_none_iff_exists'.1 hq
    simp [hkept q node hnode]
  directory q := hkept q _
  link q target := hkept q _
  noLink q target hq hlink := by
    obtain ⟨node, hnode⟩ := Option.ne_none_iff_exists'.1 hq
    rw [hkept q node hnode] at hlink
    rw [hnode, hlink]

/-- A way stays, if no link takes a free name at its end. -/
theorem Way.of_stays (hstays : Stays t t') (h : Way t last budget here names place)
    (hfree : ∀ target, t.get? place = none → t'.get? place ≠ some (.link target)) :
    Way t' last budget here names place := by
  induction h with
  | done => exact .done
  | stay directory blank _ ih => exact .stay (hstays.directory _ directory) blank (ih hfree)
  | up directory _ ih => exact .up (hstays.directory _ directory) (ih hfree)
  | own directory step link own =>
    exact .own (hstays.directory _ directory) step (hstays.link _ _ link) own
  | follow directory step link followed _ ih =>
    exact .follow (hstays.directory _ directory) step (hstays.link _ _ link) followed (ih hfree)
  | @down budget here place name names directory step plain way ih =>
    refine .down (hstays.directory _ directory) step (fun target htarget => ?_) (ih hfree)
    by_cases hnone : t.get? (here ++ [name]) = none
    · -- only the last name of a way may be free
      cases way with
      | done => exact hfree target hnone htarget
      | _ => simp_all
    · exact plain target (hstays.noLink _ _ hnone htarget)

theorem locate_of_stays (hstays : Stays t t') (h : t.locate last p = .ok place)
    (hfree : ∀ target, t.get? place = none → t'.get? place ≠ some (.link target)) :
    t'.locate last p = .ok place := by
  rw [locate_eq_ok_iff] at h ⊢
  have hstart : t'.startOf p = t.startOf p := by unfold startOf; rw [hstays.workingDirectory]
  rw [hstart]
  exact ⟨h.1, h.2.of_stays hstays hfree⟩

theorem look_directory_of_stays (hstays : Stays t t')
    (h : t.look last p = .ok (place, .directory)) : t'.look last p = .ok (place, .directory) := by
  obtain ⟨hlocate, hnode⟩ := look_eq_ok_iff.1 h
  exact look_eq_ok_iff.2
    ⟨locate_of_stays hstays hlocate (by simp [hnode]), hstays.directory _ hnode⟩

/-! ## Own and followed -/

/-- Where the last name itself is no link, it does not matter what becomes of a link there. -/
theorem Way.followed_of_own (h : Way t .own budget here names place)
    (hplain : ∀ target, t.get? place ≠ some (.link target)) :
    Way t .followed budget here names place := by
  have hstep : ∀ {name names}, IsStep .own name names → IsStep .followed name names := fun h =>
    ⟨h.notBlank, h.notUp, by simp, h.short⟩
  induction h with
  | done => exact .done
  | stay directory blank _ ih => exact .stay directory blank (ih hplain)
  | up directory _ ih => exact .up directory (ih hplain)
  | own directory step link => exact absurd link (hplain _)
  | follow directory step link followed _ ih =>
    exact .follow directory (hstep step) link (by simp) (ih hplain)
  | down directory step plain _ ih => exact .down directory (hstep step) plain (ih hplain)

/-- Where a path leads, its last name is there, or a link by that name. -/
theorem Way.own_of (h : Way t last budget here names place) :
    ∃ q, Way t .own budget here names q ∧ (q = place ∨ ∃ target, t.get? q = some (.link target)) := by
  have hstep : ∀ {name names}, IsStep last name names → IsStep .own name names := fun h =>
    ⟨h.notBlank, h.notUp, by simp, h.short⟩
  induction h with
  | done => exact ⟨_, .done, .inl rfl⟩
  | stay directory blank _ ih => exact ih.imp fun q => .imp (.stay directory blank) id
  | up directory _ ih => exact ih.imp fun q => .imp (.up directory) id
  | own directory step link => exact ⟨_, .own directory (hstep step) link rfl, .inl rfl⟩
  | @follow _ _ _ _ _ names directory step link _ _ ih =>
    cases names with
    | nil => exact ⟨_, .own directory (hstep step) link rfl, .inr ⟨_, link⟩⟩
    | cons _ _ =>
      exact ih.imp fun q => .imp (.follow directory (hstep step) link (by simp)) id
  | down directory step plain _ ih => exact ih.imp fun q => .imp (.down directory (hstep step) plain) id

/-- What a path leads to, links followed, is there by its own name. -/
theorem ne_none_of_look {node : Node} {q : Location} (hlook : t.look .followed p = .ok (place, node))
    (hlocate : t.locate .own p = .ok q) : t.get? q ≠ none := by
  obtain ⟨hfollowed, hnode⟩ := look_eq_ok_iff.1 hlook
  obtain ⟨q', hown, hq'⟩ := (locate_eq_ok_iff.1 hfollowed).2.own_of
  obtain rfl := hown.unique (locate_eq_ok_iff.1 hlocate).2
  rcases hq' with rfl | ⟨target, hlink⟩ <;> simp_all

theorem locate_followed_of_own (h : t.locate .own p = .ok place)
    (hplain : ∀ target, t.get? place ≠ some (.link target)) : t.locate .followed p = .ok place := by
  rw [locate_eq_ok_iff] at h ⊢
  exact ⟨h.1, h.2.followed_of_own hplain⟩

end WeaveStep.FileTree
