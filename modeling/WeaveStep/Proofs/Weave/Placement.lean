import WeaveStep.Proofs.Files.Aside
import WeaveStep.Proofs.Files.Rooted
import WeaveStep.Proofs.Weave.Slots
import WeaveStep.Proofs.World

/-!
# Where excluded artifacts are copied to

* `Artifact.Placed t a names node`: for the artifact there is `node` where `names` lead from the
  root: one of the directories that lead to its copy, or what the copy holds.
* **`CopiedTelling.filledBy_of_fresh`**: on a root that is fresh, artifacts copied one after the other
  leave there what is placed for them, and nothing else, whatever is told to a log file in between.
-/

namespace WeaveStep

open FileTree

variable {t t' later : FileTree} {root target : Path} {place : Location}

/-! ## What is placed for an artifact -/

namespace Artifact

/-- What a copy of the artifact holds where `names` lead: all of a directory, or the bytes of an
archive. -/
def Copied (t : FileTree) (a : Artifact) (names : List String) (node : Node) : Prop :=
  match a.kind with
  | .directory => t.CopiedAs a.path names node
  | .archive => names = [] ∧ ∃ bytes, t.read a.path = .ok bytes ∧ node = .file bytes false

/-- What there is for the artifact where `names` lead from the root. -/
def Placed (t : FileTree) (a : Artifact) (names : List String) (node : Node) : Prop :=
  names <+: a.opened ∧ node = .directory ∨
    ∃ rest, names = a.opened ++ a.copyName :: rest ∧ a.Copied t rest node

variable {a b : Artifact} {names rest : List String} {node : Node}

/-- Artifacts at one path with one slot have the same copy. -/
theorem copied_congr (hkey : b.slotKey = a.slotKey) (hpath : b.path = a.path) :
    b.opened = a.opened ∧ b.copyName = a.copyName ∧
      (b.Copied t rest node ↔ a.Copied t rest node) := by
  have hformat := congrArg SlotKey.format hkey
  have hname : b.slotTitle = a.slotTitle := congrArg SlotKey.name hkey
  unfold opened copyName Copied
  cases ha : a.kind <;> cases hb : b.kind <;> simp_all [slotKey]

/-- What lies in the copy of an artifact is of that copy. -/
theorem Placed.copied (h : b.Placed t (a.opened ++ a.copyName :: rest) node)
    (hsame : b.slotKey = a.slotKey → b.path = a.path) : a.Copied t rest node := by
  rcases h with ⟨hopened, -⟩ | ⟨rest', hnames, hcopied⟩
  · have hbegin : a.opened ++ [a.copyName] <+: a.opened ++ a.copyName :: rest :=
      (List.prefix_append_right_inj _).2 (by simp)
    exact absurd (hbegin.trans hopened) not_copy_prefix_opened
  · have hkey := (slotKey_eq_of_opened hnames).symm
    obtain ⟨hopened, hname, hiff⟩ : b.opened = a.opened ∧ b.copyName = a.copyName ∧
        (b.Copied t rest' node ↔ a.Copied t rest' node) := copied_congr hkey (hsame hkey)
    rw [hopened, hname] at hnames
    obtain rfl : rest = rest' := by simpa using hnames
    exact hiff.1 hcopied

/-! ## Copying one artifact -/

theorem changesWithin_copyTo (htree : IsTree t) (h : TargetIn place t target) :
    Yields (a.copyTo target) t fun _ t' => ChangesWithin place t t' := by
  unfold copyTo
  split
  · exact changesWithin_copyTreeWithin htree _ a.path h
  · exact changesWithin_copyFile _ a.path h

/-- The directories that lead to an artifact's copy are there. -/
structure ReadyFor (root : Path) (place : Location) (a : Artifact) (t : FileTree) : Prop
    extends Rooted root place t where
  opened : t.look .followed (under root a.opened) = .ok (place ++ a.opened, .directory)

/-- Where the copy of an artifact lies. -/
def copyPlace (place : Location) (a : Artifact) : Location := place ++ a.opened ++ [a.copyName]

variable (hready : ReadyFor root place a t) (hplain : a.IsPlain)
include hready hplain

theorem ReadyFor.entryOf :
    EntryOf t ((under root a.opened).entry a.copyName) (place ++ a.opened) a.copyName :=
  ⟨⟨under root a.opened, rfl, hready.opened⟩, hplain.copyName.entry⟩

omit hready hplain in
theorem isWithin_copyPlace : isWithin place (copyPlace place a) = true :=
  isWithin_append (isWithin_append (isWithin_refl place))

theorem ReadyFor.changesWithin_copyTo :
    Yields (a.copyTo ((under root a.opened).entry a.copyName)) t fun _ t' =>
      ChangesWithin (copyPlace place a) t t' :=
  Artifact.changesWithin_copyTo hready.isTree
    ⟨fun q target hq => hready.plain q target (isWithin_trans isWithin_copyPlace hq),
      _, _, hready.entryOf hplain, isWithin_refl _⟩

/-- **The copy of an artifact** holds what it should, if what was there before did. -/
theorem ReadyFor.copyTo_exact (hlater : Precedes place t' later) (hapart : Apart later place a.path)
    (hold : ∀ rest node, t.get? (copyPlace place a ++ rest) = some node → a.Copied later rest node)
    (h : a.copyTo ((under root a.opened).entry a.copyName) t = .ok () t') (rest : List String)
    (node : Node) :
    t'.get? (copyPlace place a ++ rest) = some node ↔ a.Copied later rest node := by
  have hentry := hready.entryOf hplain
  have hchanges := ((hready.changesWithin_copyTo hplain).of_ok h).mono isWithin_copyPlace
  unfold copyTo at h
  unfold Copied at hold ⊢
  cases hkind : a.kind with
  | directory =>
    simp only [hkind] at h hold
    exact copyTreeWithin_exact hready.isTree hready.plain hentry isWithin_copyPlace
      hready.isDirectory hlater hapart hold h rest node
  | archive =>
    simp only [hkind] at h hold
    obtain ⟨bytes, -, hread, -, -⟩ := copyFile_reads h
    have hread' := (hlater.of_changes hchanges hready.plain hready.isDirectory).read hapart hread
    have hfile : t'.get? (copyPlace place a) = some (.file bytes false) := by
      cases hget : t.get? (copyPlace place a) with
      | none =>
        exact copyFile_exact hentry hready.plain isWithin_copyPlace hread (.inl ⟨hget, rfl⟩) h
      | some old =>
        obtain ⟨-, bytes', -, rfl⟩ := hold [] old (by simpa using hget)
        exact copyFile_exact hentry hready.plain isWithin_copyPlace hread (.inr ⟨bytes', hget⟩) h
    by_cases hrest : rest = []
    · rw [hrest, List.append_nil, hfile, hread']
      simp [eq_comm]
    · -- nothing lies below a file
      have hnone : t'.get? (copyPlace place a ++ rest) = none := by
        by_contra hget
        have hdirectory := (hchanges.isTree hready.isTree).get?_above hrest hget
        rw [hfile] at hdirectory
        cases hdirectory
      simp [hnone, hrest]

omit hready hplain in
theorem isWithin_copyPlace_iff {names : List String} :
    isWithin (copyPlace place a) (place ++ names) = true ↔
      ∃ rest, names = a.opened ++ a.copyName :: rest := by
  rw [isWithin, List.isPrefixOf_iff_prefix, copyPlace, List.append_assoc,
    List.prefix_append_right_inj]
  constructor
  · rintro ⟨rest, rfl⟩
    exact ⟨rest, by simp⟩
  · rintro ⟨rest, rfl⟩
    exact ⟨rest, by simp⟩

end Artifact

/-! ## Copying artifacts one after the other -/

/-- Where the root leads, and below it, there is what is placed for some artifacts, and nothing
else. -/
def FilledBy (later : FileTree) (place : Location) (as : List Artifact) (t : FileTree) : Prop :=
  ∀ names node, t.get? (place ++ names) = some node ↔ ∃ a ∈ as, a.Placed later names node

variable {a : Artifact} {as done : List Artifact}

/-- A copy is added to those of other slots. -/
theorem filledBy_of_copyTo (hready : a.ReadyFor root place t) (hplain : a.IsPlain)
    (hlater : Precedes place t' later) (hapart : Apart later place a.path)
    (hsame : ∀ b ∈ done, b.slotKey = a.slotKey → b.path = a.path)
    (hopened : ∀ names node, t.get? (place ++ names) = some node ↔
      (∃ b ∈ done, b.Placed later names node) ∨ names <+: a.opened ∧ node = .directory)
    (h : a.copyTo ((under root a.opened).entry a.copyName) t = .ok () t') :
    FilledBy later place (done ++ [a]) t' := by
  have hold : ∀ rest node, t.get? (Artifact.copyPlace place a ++ rest) = some node →
      a.Copied later rest node := by
    intro rest node hget
    rw [Artifact.copyPlace, List.append_assoc, List.append_assoc] at hget
    rcases (hopened _ node).1 hget with ⟨b, hb, hplaced⟩ | hplaced
    · exact hplaced.copied (hsame b hb)
    · exact Artifact.Placed.copied (.inl hplaced) fun _ => rfl
  intro names node
  by_cases hin : ∃ rest, names = a.opened ++ a.copyName :: rest
  · obtain ⟨rest, rfl⟩ := hin
    have hexact := hready.copyTo_exact hplain hlater hapart hold h rest node
    rw [Artifact.copyPlace, List.append_assoc, List.append_assoc] at hexact
    refine hexact.trans ⟨fun hcopied => ⟨a, by simp, .inr ⟨rest, rfl, hcopied⟩⟩, ?_⟩
    rintro ⟨b, hb, hplaced⟩
    rcases List.mem_append.1 hb with hb | hb
    · exact hplaced.copied (hsame b hb)
    · rw [List.mem_singleton.1 hb] at hplaced
      exact hplaced.copied fun _ => rfl
  · have hout : isWithin (Artifact.copyPlace place a) (place ++ names) = false := by
      rwa [Bool.eq_false_iff, ne_eq, Artifact.isWithin_copyPlace_iff]
    rw [((hready.changesWithin_copyTo hplain).of_ok h).outside _ hout, hopened]
    have hplaced : a.Placed later names node ↔ names <+: a.opened ∧ node = .directory :=
      ⟨fun h => h.elim id fun ⟨rest, hrest, _⟩ => absurd ⟨rest, hrest⟩ hin, .inl⟩
    simp [or_and_right, exists_or, hplaced]

theorem copyIntoSlot_eq_ok {slot : Path} (hplain : a.IsPlain)
    (h : copyIntoSlot root a t = .ok slot t') :
    ∃ mid, ensureDirectory (under root a.opened) t = .ok () mid ∧
      a.copyTo ((under root a.opened).entry a.copyName) mid = .ok () t' := by
  rw [Artifact.copyIntoSlot_eq hplain] at h
  obtain ⟨_, mid, hopen, h⟩ := bind_eq_ok h
  obtain ⟨_, _, hcopy, h⟩ := bind_eq_ok h
  cases h
  exact ⟨mid, hopen, hcopy⟩

/-- A root that copies may be placed below: no file that lies there is held open. -/
structure Receives (root : Path) (place : Location) (t : FileTree) : Prop
    extends Rooted root place t where
  unheld : ∀ q, t.held = some q → isWithin place q = true → t.get? q = some .directory

theorem Receives.of_changes (h : Receives root place t) (hchanges : ChangesWithin place t t') :
    Receives root place t' where
  toRooted := h.toRooted.of_changes hchanges
  unheld q hq hin := hchanges.directory q (h.unheld q (hchanges.held ▸ hq) hin)

theorem Receives.of_told (h : Receives root place t) (htold : Told t t') :
    Receives root place t' where
  toRooted := h.toRooted.of_told htold
  unheld q hq hin := (htold.kept q).directory_iff.2 (h.unheld q (htold.held ▸ hq) hin)

/-- Nothing is added to what lies below the root. -/
theorem Receives.get?_told (h : Receives root place t) (htold : Told t t') {q : Location}
    (hin : isWithin place q = true) : t'.get? q = t.get? q := by
  rcases htold.kept q with hsame | ⟨hheld, old, _, _, hfile, -⟩
  · exact hsame
  · rw [h.unheld q hheld hin] at hfile
    cases hfile

theorem FilledBy.of_told (h : FilledBy later place as t) (hreceives : Receives root place t)
    (htold : Told t t') : FilledBy later place as t' := fun names node => by
  rw [hreceives.get?_told htold (isWithin_append (isWithin_refl place)), h]

/-- Opening adds the directories that lead to the copy. -/
theorem readyFor_of_ensureDirectory (hrooted : Rooted root place t) (hplain : a.IsPlain)
    (h : ensureDirectory (under root a.opened) t = .ok () t') :
    ChangesWithin place t t' ∧ a.ReadyFor root place t' ∧
      ∀ names node, t'.get? (place ++ names) = some node ↔
        t.get? (place ++ names) = some node ∨ names <+: a.opened ∧ node = .directory := by
  obtain ⟨hchanges, hlook, hcontents⟩ :=
    opened_below hrooted (fun name hname => (hplain.of_mem_opened hname).entry) h
  exact ⟨hchanges, ⟨hrooted.of_changes hchanges, hlook⟩, hcontents⟩

theorem changesWithin_copyIntoSlot {slot : Path} (hrooted : Rooted root place t)
    (hplain : a.IsPlain) (h : copyIntoSlot root a t = .ok slot t') : ChangesWithin place t t' := by
  obtain ⟨mid, hopen, hcopy⟩ := copyIntoSlot_eq_ok hplain h
  obtain ⟨hchanges, hready, -⟩ := readyFor_of_ensureDirectory hrooted hplain hopen
  exact trans_of (ChangesWithin place) hchanges
    (((hready.changesWithin_copyTo hplain).of_ok hcopy).mono Artifact.isWithin_copyPlace)

/-- Artifacts are copied into their slots, one after the other, and something may be told in front of
each copy and after the last. -/
inductive CopiedTelling (root : Path) : List Artifact → FileTree → FileTree → Prop
  | nil {t t' : FileTree} (told : Told t t') : CopiedTelling root [] t t'
  | cons {t mid copied t' : FileTree} {a : Artifact} {as : List Artifact} {slot : Path}
      (told : Told t mid) (copy : copyIntoSlot root a mid = .ok slot copied)
      (rest : CopiedTelling root as copied t') : CopiedTelling root (a :: as) t t'

theorem CopiedTelling.told (h : CopiedTelling root as t t') {t'' : FileTree} (htold : Told t' t'') :
    CopiedTelling root as t t'' := by
  induction h with
  | nil htold' => exact .nil (trans_of Told htold' htold)
  | cons htold' hcopy _ ih => exact .cons htold' hcopy (ih htold)

section

variable (h : CopiedTelling root as t t') (hreceives : Receives root place t)
  (hplain : ∀ a ∈ as, a.IsPlain)
include h hreceives hplain

theorem CopiedTelling.receives : Receives root place t' := by
  induction h with
  | nil htold => exact hreceives.of_told htold
  | cons htold hcopy _ ih =>
    have hmid := hreceives.of_told htold
    exact ih (hmid.of_changes (changesWithin_copyIntoSlot hmid.toRooted (hplain _ (by simp)) hcopy))
      fun a ha => hplain a (by simp [ha])

/-- What is outside of the root stays, but for the file held open. -/
theorem CopiedTelling.precedes (hlater : Precedes place t' later) : Precedes place t later := by
  induction h with
  | nil htold => exact hlater.of_told htold
  | cons htold hcopy _ ih =>
    have hmid := hreceives.of_told htold
    have hchanges := changesWithin_copyIntoSlot hmid.toRooted (hplain _ (by simp)) hcopy
    exact ((ih (hmid.of_changes hchanges) (fun a ha => hplain a (by simp [ha])) hlater).of_changes
      hchanges hmid.plain hmid.isDirectory).of_told htold

end

/-- Different artifacts have different slots. -/
def ToldApart (as : List Artifact) : Prop :=
  ∀ a ∈ as, ∀ b ∈ as, b.slotKey = a.slotKey → b.path = a.path

/-- Each copy is added to those that are there. -/
theorem CopiedTelling.filledBy (h : CopiedTelling root as t t') (hreceives : Receives root place t)
    (hplain : ∀ a ∈ as, a.IsPlain) (hsame : ToldApart (done ++ as))
    (hapart : ∀ a ∈ as, Apart later place a.path) (hlater : Precedes place t' later)
    (hfilled : FilledBy later place done t) : FilledBy later place (done ++ as) t' := by
  induction h generalizing done with
  | nil htold => simpa using hfilled.of_told hreceives htold
  | @cons t mid copied t' a as slot htold hcopy hrest ih =>
    have hplainA := hplain a (by simp)
    have hplainRest : ∀ b ∈ as, b.IsPlain := fun b hb => hplain b (by simp [hb])
    have hmid := hreceives.of_told htold
    have hcopied := hmid.of_changes (changesWithin_copyIntoSlot hmid.toRooted hplainA hcopy)
    obtain ⟨opened, hopen, hcopy⟩ := copyIntoSlot_eq_ok hplainA hcopy
    obtain ⟨-, hready, hcontents⟩ := readyFor_of_ensureDirectory hmid.toRooted hplainA hopen
    have hadded : FilledBy later place (done ++ [a]) copied :=
      filledBy_of_copyTo hready hplainA (hrest.precedes hcopied hplainRest hlater)
        (hapart a (by simp)) (fun b hb => hsame a (by simp) b (by simp [hb]))
        (fun names node => by rw [hcontents, hfilled.of_told hreceives htold]) hcopy
    rw [List.append_cons] at hsame ⊢
    exact ih hcopied hplainRest hsame (fun b hb => hapart b (by simp [hb])) hlater hadded

/-- **On a fresh root** there is, in the end, what is placed for the artifacts, and nothing else.
Outside of it there are no changes but the directories that lead to it, and what was told. -/
theorem CopiedTelling.filledBy_of_fresh (h : CopiedTelling root as t t') (htree : IsTree t)
    (hheld : ∀ q, t.held = some q → t.get? q ≠ none) (hfresh : IsFresh root t)
    (hparts : ∀ name ∈ root.parts, Path.isName name = true) (hsteady : IsSteady t root)
    (hsome : as ≠ []) (hplain : ∀ a ∈ as, a.IsPlain) (hsame : ToldApart as) :
    ∃ place, t'.look .followed root = .ok (place, .directory) ∧
      ((∀ a ∈ as, Apart t' place a.path) → FilledBy t' place as t') ∧
      ∀ q, isWithin place q = false → Kept t t' q ∨
        t.get? q = none ∧ t'.get? q = some .directory ∧ isWithin q place = true := by
  cases h with
  | nil => exact absurd rfl hsome
  | @cons t mid copied t' a as slot htold hcopy hrest =>
    have hplainA := hplain a (by simp)
    have hplainRest : ∀ b ∈ as, b.IsPlain := fun b hb => hplain b (by simp [hb])
    obtain ⟨opened, hopen, hcopy⟩ := copyIntoSlot_eq_ok hplainA hcopy
    obtain ⟨place, hfirst⟩ := opened_fresh (isTree_of_kept htree htold.kept)
      ((hfresh.isVacant htree).of_told htold) hparts (hsteady.of_stays htold.stays)
      (fun name hname => (hplainA.of_mem_opened hname).entry) hopen
    have hready : a.ReadyFor root place opened := ⟨hfirst.toRooted, hfirst.leads⟩
    have hopened : Receives root place opened := by
      refine ⟨hfirst.toRooted, fun q hq hin => ?_⟩
      obtain ⟨below, rfl⟩ := List.isPrefixOf_iff_prefix.1 hin
      rw [hfirst.held, htold.held] at hq
      obtain ⟨node, hnode⟩ := Option.ne_none_iff_exists'.1
        (hfirst.stays.there _ (htold.stays.there _ (hheld _ hq)))
      rw [hnode, ((hfirst.contents below node).1 hnode).2]
    have hchanges := ((hready.changesWithin_copyTo hplainA).of_ok hcopy).mono
      Artifact.isWithin_copyPlace
    have hcopied := hopened.of_changes hchanges
    have hend := hrest.receives hcopied hplainRest
    have hlater := hrest.precedes hcopied hplainRest (.refl hend.isDirectory)
    refine ⟨place, hend.found, fun hapart => ?_, fun q hq => ?_⟩
    · have hfilled : FilledBy t' place ([] ++ [a]) copied :=
        filledBy_of_copyTo hready hplainA hlater (hapart a (by simp)) (by simp)
          (by simpa using hfirst.contents) hcopy
      exact hrest.filledBy hcopied hplainRest hsame (fun b hb => hapart b (by simp [hb]))
        (.refl hend.isDirectory) hfilled
    · have hkept : Kept opened t' q :=
        (hlater.of_changes hchanges hready.plain hready.isDirectory).outside q hq
      rcases hfirst.outside q hq with hsame | ⟨hfree, hmade, habove⟩
      · have hopened : Kept t opened q := (htold.kept q).trans (.inl hsame) htold.held.symm.trans
        exact .inl (hopened.trans hkept (hfirst.held.trans htold.held).symm.trans)
      · exact .inr ⟨(htold.kept q).none_iff.1 hfree, hkept.directory_iff.2 hmade, habove⟩

/-! ## What routing leaves -/

/-- The artifacts that a rule excludes, in the order in which they are found. -/
def excludedOf (rules : List ExcludeRule) (inputs : List Bundle) : List Artifact :=
  (inputs.flatMap (·.artifacts)).filter fun a => isExcluded a.path rules

theorem told_files_log (w : World) (r : LogRecord) : Told w.files (w.log r).files :=
  keeps_log (fun t bytes h => trans_of Told h (told_extendHeld t bytes)) w r (refl_of Told w.files)

/-- What judging artifacts does to the files: the excluded ones are copied. -/
theorem copiedTelling_of_judged {rules : List ExcludeRule} {logger : String}
    {verdicts : List Verdict} {w w' : World}
    (h : as.mapM (judge root rules logger) w = .ok verdicts w') :
    CopiedTelling root (as.filter fun a => isExcluded a.path rules) w.files w'.files := by
  induction as generalizing w verdicts with
  | nil => cases h; exact .nil (refl_of Told _)
  | cons a as ih =>
    rw [List.mapM_cons] at h
    obtain ⟨v, mid, hjudge, h⟩ := bind_eq_ok h
    obtain ⟨_, _, hrest, h⟩ := bind_eq_ok h
    cases h
    unfold judge at hjudge
    split at hjudge
    · rename_i hexcluded
      obtain ⟨_, told, hlog, hjudge⟩ := bind_eq_ok hjudge
      cases hlog
      obtain ⟨slot, _, hcopy, hjudge⟩ := bind_eq_ok hjudge
      cases hjudge
      rw [List.filter_cons_of_pos (by simpa using hexcluded)]
      exact .cons (told_files_log w _) (Run.onFiles_eq_ok.1 hcopy).1 (ih hrest)
    · rename_i hkept
      cases hjudge
      rw [List.filter_cons_of_neg (by simpa using hkept)]
      exact ih hrest

theorem copiedTelling_of_route {rules : List ExcludeRule} {logger : String}
    {inputs referenced : List Bundle} {routing : Routing} {w w' : World}
    (h : route root rules logger inputs referenced w = .ok routing w') :
    CopiedTelling root (excludedOf rules inputs) w.files w'.files := by
  obtain ⟨verdicts, mid, hverdicts, h⟩ := bind_eq_ok h
  have hcopied := copiedTelling_of_judged hverdicts
  dsimp only at h
  split at h
  · obtain ⟨_, _, hlog, h⟩ := bind_eq_ok h
    cases hlog
    cases h
    exact hcopied.told (told_files_log mid _)
  · cases h
    exact hcopied

/-! ## Routing without a file held open -/

theorem sameHeld_copyIntoSlot (root : Path) (a : Artifact) :
    Always SameHeld (copyIntoSlot root a) := by
  have hopen : Always SameHeld (openSlot root a.slotKey) := by
    unfold openSlot
    dsimp only
    split
    · exact (always_sameHeld_ensureDirectory _).bind fun _ => .pure _
    · exact (always_sameHeld_ensureDirectory _).bind fun _ => .pure _
  refine hopen.bind fun slot => ?_
  split
  · exact (Always.copyTreeWithin (fun _ _ _ => sameHeld_makeDirectory)
      (fun _ _ _ _ => sameHeld_write) (fun _ _ _ _ => sameHeld_setExecutable) _ _ _).bind
      fun _ => .pure _
  · exact (Always.copyFile (fun _ _ _ _ => sameHeld_write) _ _ _).bind fun _ => .pure _

theorem CopiedTelling.held (h : CopiedTelling root as t t') : t'.held = t.held := by
  induction h with
  | nil htold => exact htold.held
  | cons htold hcopy _ ih =>
    exact ih.trans (((sameHeld_copyIntoSlot _ _).of_ok hcopy).trans htold.held)

/-- A record changes no files, as long as none is held open. -/
def World.SameFilesUnheld (w w' : World) : Prop := w.files.held = none → w'.files = w.files

instance : IsPreorder World World.SameFilesUnheld where
  refl _ _ := rfl
  trans _ _ _ h h' hheld := by
    have hfiles := h hheld
    rw [h' (by rw [hfiles, hheld]), hfiles]

theorem files_log {w : World} (hheld : w.files.held = none) (r : LogRecord) :
    (w.log r).files = w.files := by
  refine World.rel_log (R := World.SameFilesUnheld) (fun w sink _ hheld => ?_) hheld
  cases sink with
  | records => rfl
  | console threshold detailed =>
    simp only [World.emit]
    split <;> rfl
  | file => simp only [World.emit, extendHeld, hheld]

theorem exists_judge_of_copy {rules : List ExcludeRule} (logger : String) {slot : Path} {w : World}
    (hheld : w.files.held = none) (hexcluded : isExcluded a.path rules = true)
    (h : copyIntoSlot root a w.files = .ok slot t') :
    ∃ v w', judge root rules logger a w = .ok v w' ∧ w'.files = t' := by
  let told := w.log { level := .quiet, logger, message := a.exclusionNotice }
  have hlog : Run.log (ε := RouteFailure) .quiet logger a.exclusionNotice w = .ok () told := rfl
  have hcopy : Run.onFiles (RouteFailure.ofFile a.path) (copyIntoSlot root a) told =
      .ok slot { told with files := t' } :=
    Run.onFiles_eq_ok.2 ⟨by rw [files_log hheld, h], rfl⟩
  refine ⟨⟨a, some slot⟩, { told with files := t' }, ?_, rfl⟩
  rw [judge, if_pos hexcluded, bind_ok hlog, bind_ok hcopy]
  rfl

theorem exists_judged_of_copies {rules : List ExcludeRule} (logger : String) {slots : List Path}
    {w : World} (hheld : w.files.held = none)
    (h : (as.filter fun a => isExcluded a.path rules).mapM (copyIntoSlot root) w.files =
      .ok slots t') :
    ∃ verdicts w', as.mapM (judge root rules logger) w = .ok verdicts w' ∧ w'.files = t' := by
  induction as generalizing w slots with
  | nil => cases h; exact ⟨[], w, rfl, rfl⟩
  | cons a as ih =>
    rw [List.mapM_cons]
    cases hexcluded : isExcluded a.path rules with
    | true =>
      rw [List.filter_cons_of_pos (by simpa using hexcluded), List.mapM_cons] at h
      obtain ⟨slot, files, hcopy, h⟩ := bind_eq_ok h
      obtain ⟨_, _, hrest, h⟩ := bind_eq_ok h
      cases h
      obtain ⟨v, mid, hjudge, rfl⟩ := exists_judge_of_copy logger hheld hexcluded hcopy
      have hheldMid := (sameHeld_copyIntoSlot root a).of_ok hcopy
      obtain ⟨verdicts, w', hverdicts, hfiles⟩ := ih (hheldMid.trans hheld) hrest
      exact ⟨v :: verdicts, w', by rw [bind_ok hjudge, bind_ok hverdicts]; rfl, hfiles⟩
    | false =>
      rw [List.filter_cons_of_neg (by simpa using hexcluded)] at h
      have hjudge : judge root rules logger a w = .ok ⟨a, none⟩ w := by
        rw [judge, if_neg (by simpa using hexcluded)]
        rfl
      obtain ⟨verdicts, w', hverdicts, hfiles⟩ := ih hheld h
      exact ⟨⟨a, none⟩ :: verdicts, w', by rw [bind_ok hjudge, bind_ok hverdicts]; rfl, hfiles⟩

/-- **Routing succeeds as soon as the copies do.** -/
theorem exists_route_of_copies {rules : List ExcludeRule} (logger : String)
    {inputs : List Bundle} (referenced : List Bundle) {slots : List Path} {w : World}
    (hheld : w.files.held = none)
    (h : (excludedOf rules inputs).mapM (copyIntoSlot root) w.files = .ok slots t') :
    ∃ routing w', route root rules logger inputs referenced w = .ok routing w' ∧
      w'.files = t' := by
  obtain ⟨verdicts, mid, hverdicts, hfiles⟩ := exists_judged_of_copies logger hheld h
  have hheldMid := (copiedTelling_of_judged hverdicts).held.trans hheld
  unfold route
  rw [bind_ok hverdicts]
  dsimp only
  split
  · exact ⟨_, _, rfl, (files_log hheldMid _).trans hfiles⟩
  · exact ⟨_, _, rfl, hfiles⟩

end WeaveStep
