import WeaveStep.Proofs.Text.Split
import WeaveStep.Proofs.Weave.RootContents

/-!
# Artifacts in the order in which they are found

Artifacts are handed over in bundles, each made from paths, and found bundle by bundle, in each of
them the directories before the archives (`Discovers`). Routing keeps that order in all of its lists
and copies the excluded artifacts one after the other, up to the first that cannot be copied:
**`route_of_discovered`**.
-/

namespace WeaveStep

open Text

/-! ## Discovery -/

/-- The artifact `a` is what is found at the path `p`. -/
structure Artifact.IsAt (t : FileTree) (p : Path) (a : Artifact) : Prop where
  path : t.absolute p = .ok a.path
  name : a.name = a.path.name
  kind : t.isDirectory? a.path = .ok (decide (a.kind = .directory))

/-- What is found at the paths of one bundle: the directories as given, then the archives as given. -/
def DiscoversOne (t : FileTree) (paths : List Path) (found : List Artifact) : Prop :=
  ∃ given, List.Forall₂ (Artifact.IsAt t) paths given ∧
    found = given.filter (·.kind = .directory) ++ given.filter (·.kind = .archive)

/-- What is found at the paths of some bundles, one after the other. -/
def Discovers (t : FileTree) (bundles : List (List Path)) (found : List Artifact) : Prop :=
  ∃ parts, List.Forall₂ (DiscoversOne t) bundles parts ∧ found = parts.flatten

/-- All artifacts of some bundles, in the order in which they are found. -/
def discovered (bundles : List Bundle) : List Artifact := bundles.flatMap (·.artifacts)

section

variable {t : FileTree} {paths : List Path} {bundles : List (List Path)} {found : List Artifact}

theorem isAt_of_ofPath {p : Path} {a : Artifact} (h : Artifact.ofPath t p "" = .ok a) :
    a.IsAt t p := by
  obtain ⟨path, hpath, h⟩ := except_bind_eq_ok.1 h
  obtain ⟨isDirectory, hkind, h⟩ := except_bind_eq_ok.1 h
  cases h
  exact ⟨hpath, rfl, by cases isDirectory <;> exact hkind⟩

theorem discoversOne_ofPaths {b : Bundle} (h : Bundle.ofPaths t paths = .ok b) :
    DiscoversOne t paths b.artifacts := by
  obtain ⟨given, hgiven, h⟩ := except_bind_eq_ok.1 h
  cases h
  exact ⟨given, (except_mapM_eq_ok hgiven).imp fun _ _ => isAt_of_ofPath, rfl⟩

theorem discovers_ofPaths {made : List Bundle} (h : bundles.mapM (Bundle.ofPaths t) = .ok made) :
    Discovers t bundles (discovered made) := by
  refine ⟨made.map (·.artifacts), ?_, by rw [discovered, List.flatMap_def]⟩
  exact List.forall₂_map_right_iff.2
    ((except_mapM_eq_ok h).imp fun _ _ => discoversOne_ofPaths)

/-- No path of a bundle is lost or found twice. -/
theorem DiscoversOne.perm (h : DiscoversOne t paths found) :
    ∃ given, List.Forall₂ (Artifact.IsAt t) paths given ∧ found.Perm given := by
  obtain ⟨given, hgiven, rfl⟩ := h
  have harchive : ∀ a : Artifact, decide (a.kind = .archive) = !decide (a.kind = .directory) := by
    intro a
    cases a.kind <;> rfl
  refine ⟨given, hgiven, ?_⟩
  simp only [harchive]
  exact List.filter_append_perm _ given

/-- No path is lost or found twice. -/
theorem Discovers.perm (h : Discovers t bundles found) :
    ∃ given, List.Forall₂ (Artifact.IsAt t) bundles.flatten given ∧ found.Perm given := by
  obtain ⟨parts, hparts, rfl⟩ := h
  induction hparts with
  | nil => exact ⟨[], .nil, .refl []⟩
  | cons hone _ ih =>
    obtain ⟨given, hgiven, hperm⟩ := hone.perm
    obtain ⟨given', hgiven', hperm'⟩ := ih
    exact ⟨given ++ given', List.rel_append hgiven hgiven', hperm.append hperm'⟩

end

/-! ## Exclusion -/

/-- Whether the fragment of some rule is a part of the artifact's path. -/
def Artifact.IsMarked (rules : List ExcludeRule) (a : Artifact) : Prop :=
  ∃ r ∈ rules, r.fragment.toList <:+: a.path.text.toList

theorem isExcluded_iff {rules : List ExcludeRule} {a : Artifact} :
    isExcluded a.path rules = true ↔ a.IsMarked rules := by
  simp [isExcluded, Artifact.IsMarked, ExcludeRule.marks, occursIn_iff]

instance (rules : List ExcludeRule) : DecidablePred (Artifact.IsMarked rules) := fun _ =>
  decidable_of_iff _ isExcluded_iff

/-- The artifacts of a list that some rule marks, in its order. -/
def markedOf (rules : List ExcludeRule) (found : List Artifact) : List Artifact :=
  found.filter (·.IsMarked rules)

/-- The verdict on an artifact, with the slot it has if it is excluded. -/
def verdictOn (root : Path) (rules : List ExcludeRule) (a : Artifact) : Verdict :=
  ⟨a, if a.IsMarked rules then some (slotPath root a.slotKey) else none⟩

/-! ## Copies -/

/-- The world after it was logged that an artifact is excluded. -/
def World.noticed (w : World) (logger : String) (a : Artifact) : World :=
  w.log { level := .quiet, logger, message := a.exclusionNotice }

/-- Artifacts are copied into their slots, one after the other and each with success. -/
inductive CopiesInTurn (root : Path) (logger : String) : World → List Artifact → World → Prop
  | nil {w : World} : CopiesInTurn root logger w [] w
  | cons {w w' : World} {a : Artifact} {as : List Artifact} {slot : Path} {files : FileTree}
      (copy : copyIntoSlot root a (w.noticed logger a).files = .ok slot files)
      (rest : CopiesInTurn root logger { w.noticed logger a with files } as w') :
      CopiesInTurn root logger w (a :: as) w'

/-- Of artifacts that are to be copied, `a` is the first that cannot be; nothing is done after
that. -/
def FailsFirstAt (root : Path) (logger : String) (w : World) (as : List Artifact) (a : Artifact)
    (why : FileFailure) (w' : World) : Prop :=
  ∃ before later mid files, as = before ++ a :: later ∧ CopiesInTurn root logger w before mid ∧
    copyIntoSlot root a (mid.noticed logger a).files = .error why files ∧
    w' = { mid.noticed logger a with files }

section

variable {root : Path} {rules : List ExcludeRule} {logger : String} {w w' : World} {a : Artifact}
  {as : List Artifact} {vs : List Verdict} {e : RouteFailure} {why : FileFailure}

theorem slot_of_openSlot {key : SlotKey} {t t' : FileTree} {slot : Path}
    (h : openSlot root key t = .ok slot t') : slot = slotPath root key := by
  unfold openSlot at h
  cases hformat : key.format
  all_goals
    rw [hformat] at h
    obtain ⟨_, _, -, h⟩ := bind_eq_ok h
    exact (pure_eq_ok.1 h).1

theorem slot_of_copyIntoSlot {t t' : FileTree} {slot : Path}
    (h : copyIntoSlot root a t = .ok slot t') : slot = slotPath root a.slotKey := by
  unfold copyIntoSlot at h
  obtain ⟨opened, _, hopen, h⟩ := bind_eq_ok h
  cases hkind : a.kind
  all_goals
    rw [hkind] at h
    obtain ⟨_, _, -, h⟩ := bind_eq_ok h
    exact (pure_eq_ok.1 h).1.trans (slot_of_openSlot hopen)

theorem judge_of_not_marked (h : ¬ a.IsMarked rules) :
    judge root rules logger a w = .ok (verdictOn root rules a) w := by
  rw [judge, if_neg (isExcluded_iff.not.2 h), verdictOn, if_neg h]
  rfl

theorem judge_of_marked (h : a.IsMarked rules) : judge root rules logger a w =
    match copyIntoSlot root a (w.noticed logger a).files with
    | .ok _ files => .ok (verdictOn root rules a) { w.noticed logger a with files }
    | .error why files => .error (.ofFile a.path why) { w.noticed logger a with files } := by
  have hlog : Run.log (ε := RouteFailure) .quiet logger a.exclusionNotice w =
      .ok () (w.noticed logger a) := rfl
  rw [judge, if_pos (isExcluded_iff.2 h), bind_ok hlog]
  cases hcopy : copyIntoSlot root a (w.noticed logger a).files with
  | ok slot files =>
    have hfiles : Run.onFiles (RouteFailure.ofFile a.path) (copyIntoSlot root a) (w.noticed logger a) =
        .ok slot { w.noticed logger a with files } := by
      rw [Run.onFiles, hcopy]
    rw [bind_ok hfiles, verdictOn, if_pos h, slot_of_copyIntoSlot hcopy]
    rfl
  | error why files =>
    exact bind_error (by rw [Run.onFiles, hcopy])

theorem markedOf_cons_of_marked (h : a.IsMarked rules) :
    markedOf rules (a :: as) = a :: markedOf rules as :=
  List.filter_cons_of_pos (by simpa using h)

theorem markedOf_cons_of_not_marked (h : ¬ a.IsMarked rules) :
    markedOf rules (a :: as) = markedOf rules as :=
  List.filter_cons_of_neg (by simpa using h)

theorem copiesInTurn_cons : CopiesInTurn root logger w (a :: as) w' ↔ ∃ slot files,
    copyIntoSlot root a (w.noticed logger a).files = .ok slot files ∧
      CopiesInTurn root logger { w.noticed logger a with files } as w' := by
  constructor
  · intro h
    cases h with
    | cons hcopy hrest => exact ⟨_, _, hcopy, hrest⟩
  · rintro ⟨slot, files, hcopy, hrest⟩
    exact .cons hcopy hrest

theorem failsFirstAt_cons {b : Artifact} : FailsFirstAt root logger w (b :: as) a why w' ↔
    (a = b ∧ ∃ files, copyIntoSlot root b (w.noticed logger b).files = .error why files ∧
      w' = { w.noticed logger b with files }) ∨
    ∃ slot files, copyIntoSlot root b (w.noticed logger b).files = .ok slot files ∧
      FailsFirstAt root logger { w.noticed logger b with files } as a why w' := by
  constructor
  · rintro ⟨before, later, mid, files, hsplit, hbefore, hcopy, rfl⟩
    cases before with
    | nil =>
      cases hbefore
      obtain ⟨rfl, rfl⟩ := List.cons.inj hsplit
      exact .inl ⟨rfl, files, hcopy, rfl⟩
    | cons c before =>
      obtain ⟨rfl, rfl⟩ := List.cons.inj hsplit
      obtain ⟨slot, files', hfirst, hbefore⟩ := copiesInTurn_cons.1 hbefore
      exact .inr ⟨slot, files', hfirst, before, later, mid, files, rfl, hbefore, hcopy, rfl⟩
  · rintro (⟨rfl, files, hcopy, rfl⟩ |
      ⟨slot, files', hfirst, before, later, mid, files, rfl, hbefore, hcopy, rfl⟩)
    · exact ⟨[], as, w, files, rfl, .nil, hcopy, rfl⟩
    · exact ⟨b :: before, later, mid, files, rfl, .cons hfirst hbefore, hcopy, rfl⟩

/-- All artifacts are judged as soon as the excluded ones can be copied in turn. -/
theorem mapM_judge_isOk : as.mapM (judge root rules logger) w = .ok vs w' ↔
    vs = as.map (verdictOn root rules) ∧ CopiesInTurn root logger w (markedOf rules as) w' := by
  induction as generalizing w vs with
  | nil =>
    rw [List.mapM_nil, pure_eq_ok]
    constructor
    · rintro ⟨rfl, rfl⟩
      exact ⟨rfl, .nil⟩
    · rintro ⟨rfl, h⟩
      cases h
      exact ⟨rfl, rfl⟩
  | cons a as ih =>
    rw [List.mapM_cons, List.map_cons]
    by_cases hmarked : a.IsMarked rules
    · rw [markedOf_cons_of_marked hmarked, copiesInTurn_cons]
      cases hcopy : copyIntoSlot root a (w.noticed logger a).files with
      | ok slot files =>
        have hjudge : judge root rules logger a w =
            .ok (verdictOn root rules a) { w.noticed logger a with files } := by
          rw [judge_of_marked hmarked, hcopy]
        rw [bind_ok hjudge]
        simp only [bind_eq_ok_iff, pure_eq_ok]
        constructor
        · rintro ⟨_, _, hvs, rfl, rfl⟩
          obtain ⟨rfl, hrest⟩ := ih.1 hvs
          exact ⟨rfl, slot, files, rfl, hrest⟩
        · rintro ⟨rfl, _, _, ⟨⟩, hrest⟩
          exact ⟨_, _, ih.2 ⟨rfl, hrest⟩, rfl, rfl⟩
      | error why files =>
        have hjudge : judge root rules logger a w =
            .error (.ofFile a.path why) { w.noticed logger a with files } := by
          rw [judge_of_marked hmarked, hcopy]
        rw [bind_error hjudge]
        simp
    · have hjudge : judge root rules logger a w = .ok (verdictOn root rules a) w :=
        judge_of_not_marked hmarked
      rw [markedOf_cons_of_not_marked hmarked, bind_ok hjudge]
      simp only [bind_eq_ok_iff, pure_eq_ok]
      constructor
      · rintro ⟨_, _, hvs, rfl, rfl⟩
        obtain ⟨rfl, hrest⟩ := ih.1 hvs
        exact ⟨rfl, hrest⟩
      · rintro ⟨rfl, hrest⟩
        exact ⟨_, _, ih.2 ⟨rfl, hrest⟩, rfl, rfl⟩

theorem mapM_judge_isError : as.mapM (judge root rules logger) w = .error e w' ↔
    ∃ a why, FailsFirstAt root logger w (markedOf rules as) a why w' ∧ e = .ofFile a.path why := by
  have hpure : ∀ (act : Run RouteFailure (List Verdict)) (v : Verdict) (w : World),
      (act >>= fun vs => pure (v :: vs)) w = .error e w' ↔ act w = .error e w' := by
    intro act v w
    cases hact : act w with
    | ok vs mid => simp [bind_ok hact, pure, EStateM.pure]
    | error e mid => rw [bind_error hact]
  induction as generalizing w with
  | nil =>
    simp [FailsFirstAt, markedOf, pure, EStateM.pure]
  | cons a as ih =>
    rw [List.mapM_cons]
    by_cases hmarked : a.IsMarked rules
    · rw [markedOf_cons_of_marked hmarked]
      simp only [failsFirstAt_cons]
      cases hcopy : copyIntoSlot root a (w.noticed logger a).files with
      | ok slot files =>
        have hjudge : judge root rules logger a w =
            .ok (verdictOn root rules a) { w.noticed logger a with files } := by
          rw [judge_of_marked hmarked, hcopy]
        rw [bind_ok hjudge]
        refine (hpure _ _ _).trans (ih.trans ?_)
        simp
      | error why files =>
        have hjudge : judge root rules logger a w =
            .error (.ofFile a.path why) { w.noticed logger a with files } := by
          rw [judge_of_marked hmarked, hcopy]
        rw [bind_error hjudge]
        simp [eq_comm, and_comm]
    · have hjudge : judge root rules logger a w = .ok (verdictOn root rules a) w :=
        judge_of_not_marked hmarked
      rw [markedOf_cons_of_not_marked hmarked, bind_ok hjudge]
      exact (hpure _ _ _).trans ih

end

/-! ## Routing -/

section

variable {root : Path} {rules : List ExcludeRule} {logger : String} {inputs : List Bundle}
  {w w' : World}

/-- Summing up cannot fail. -/
theorem route_eq_of_judged (referenced : List Bundle) {vs : List Verdict} {mid : World}
    (h : (discovered inputs).mapM (judge root rules logger) w = .ok vs mid) :
    ∃ w', route root rules logger inputs referenced w = .ok ⟨discovered referenced, vs⟩ w' := by
  unfold route
  have hjudged : (inputs.flatMap (·.artifacts)).mapM (judge root rules logger) w = .ok vs mid := h
  rw [bind_ok hjudged]
  dsimp only
  split
  · exact ⟨_, rfl⟩
  · exact ⟨_, rfl⟩

variable {referenced : List Bundle} {routing : Routing}

theorem route_isOk (h : route root rules logger inputs referenced w = .ok routing w') :
    routing = ⟨discovered referenced, (discovered inputs).map (verdictOn root rules)⟩ ∧
      ∃ mid, CopiesInTurn root logger w (markedOf rules (discovered inputs)) mid := by
  obtain ⟨vs, mid, hjudged, -⟩ := bind_eq_ok h
  obtain ⟨w'', hroute⟩ := route_eq_of_judged referenced hjudged
  obtain ⟨rfl, hcopies⟩ := mapM_judge_isOk.1 hjudged
  rw [h] at hroute
  cases hroute
  exact ⟨rfl, mid, hcopies⟩

theorem route_isError {e : RouteFailure} :
    route root rules logger inputs referenced w = .error e w' ↔
      ∃ a why, FailsFirstAt root logger w (markedOf rules (discovered inputs)) a why w' ∧
        e = .ofFile a.path why := by
  refine Iff.trans ?_ mapM_judge_isError
  constructor
  · intro h
    cases hjudged : (discovered inputs).mapM (judge root rules logger) w with
    | ok vs mid =>
      obtain ⟨w'', hroute⟩ := route_eq_of_judged referenced hjudged
      rw [h] at hroute
      cases hroute
    | error e' mid =>
      have hroute : route root rules logger inputs referenced w = .error e' mid :=
        bind_error hjudged
      rw [h] at hroute
      cases hroute
      rfl
  · exact fun h => bind_error h

theorem copyFailed_eq_ofFile {path : Path} {text : String} {why why' : FileFailure} :
    RouteFailure.copyFailed text why = .ofFile path why' ↔
      why = why' ∧ why.isSystem = true ∧ text = path.text := by
  unfold RouteFailure.ofFile
  split
  · rename_i hsystem
    constructor
    · intro h
      cases h
      exact ⟨rfl, hsystem, rfl⟩
    · rintro ⟨rfl, -, rfl⟩
      rfl
  · rename_i hsystem
    constructor
    · intro h
      cases h
    · rintro ⟨rfl, h, -⟩
      exact absurd h hsystem

theorem toWeave_of_verdicts (seen found : List Artifact) :
    Routing.toWeave ⟨seen, found.map (verdictOn root rules)⟩ =
      found.filter fun a => ¬ a.IsMarked rules := by
  unfold Routing.toWeave
  induction found with
  | nil => rfl
  | cons a found ih =>
    by_cases h : a.IsMarked rules <;> simp_all [verdictOn, Verdict.isExcluded]

theorem classpathOnly_of_verdicts (seen found : List Artifact) :
    Routing.classpathOnly ⟨seen, found.map (verdictOn root rules)⟩ = seen ++ markedOf rules found := by
  unfold Routing.classpathOnly Routing.excluded markedOf
  congr 1
  induction found with
  | nil => rfl
  | cons a found ih =>
    by_cases h : a.IsMarked rules <;> simp_all [verdictOn, Verdict.isExcluded]

end

/-- Routing bundles that are made from paths. What they hold is in the order in which it is found,
and no path is lost or found twice. Where the excluded artifacts can be copied in turn there is a
result, and every list in it keeps that order: the class path has what is only referred to and then
the excluded artifacts, the others are woven, and there is one verdict on each, with a slot where
some rule marks it. Otherwise the first one that cannot be copied is named, if it is the system that
refuses, and nothing is done after that. -/
theorem route_of_discovered {made : FileTree} {inputPaths referencedPaths : List (List Path)}
    {inputs referenced : List Bundle} (hinputs : inputPaths.mapM (Bundle.ofPaths made) = .ok inputs)
    (hreferenced : referencedPaths.mapM (Bundle.ofPaths made) = .ok referenced) (root : Path)
    (rules : List ExcludeRule) (logger : String) (w : World) :
    (Discovers made inputPaths (discovered inputs) ∧
      Discovers made referencedPaths (discovered referenced)) ∧
    ((∃ given, List.Forall₂ (Artifact.IsAt made) inputPaths.flatten given ∧
        (discovered inputs).Perm given) ∧
      ∃ given, List.Forall₂ (Artifact.IsAt made) referencedPaths.flatten given ∧
        (discovered referenced).Perm given) ∧
    ((∃ routing w', route root rules logger inputs referenced w = .ok routing w') ↔
      ∃ w', CopiesInTurn root logger w (markedOf rules (discovered inputs)) w') ∧
    (∀ routing w', route root rules logger inputs referenced w = .ok routing w' →
      routing.classpathOnly = discovered referenced ++ markedOf rules (discovered inputs) ∧
      routing.toWeave = (discovered inputs).filter (fun a => ¬ a.IsMarked rules) ∧
      routing.verdicts = (discovered inputs).map (verdictOn root rules)) ∧
    ∀ path why w', route root rules logger inputs referenced w = .error (.copyFailed path why) w' ↔
      ∃ a, FailsFirstAt root logger w (markedOf rules (discovered inputs)) a why w' ∧
        why.isSystem = true ∧ path = a.path.text := by
  have hfound := discovers_ofPaths hinputs
  have hseen := discovers_ofPaths hreferenced
  refine ⟨⟨hfound, hseen⟩, ⟨hfound.perm, hseen.perm⟩, ⟨?_, ?_⟩, fun routing w' h => ?_,
    fun path why w' => ?_⟩
  · rintro ⟨routing, w', h⟩
    exact (route_isOk h).2
  · rintro ⟨w', hcopies⟩
    obtain ⟨w'', h⟩ := route_eq_of_judged referenced (mapM_judge_isOk.2 ⟨rfl, hcopies⟩)
    exact ⟨_, w'', h⟩
  · obtain ⟨rfl, -⟩ := route_isOk h
    exact ⟨classpathOnly_of_verdicts _ _, toWeave_of_verdicts _ _, rfl⟩
  · simp only [route_isError, copyFailed_eq_ofFile]
    constructor
    · rintro ⟨a, _, hfails, rfl, hsystem, rfl⟩
      exact ⟨a, hfails, hsystem, rfl⟩
    · rintro ⟨a, hfails, hsystem, rfl⟩
      exact ⟨a, why, hfails, rfl, hsystem, rfl⟩

/-- An archive before a directory that a rule marks, in one bundle, and the library in the next: the
directory is found first, and what is woven is the archive and then the library. -/
theorem route_of_discovered_library : ∃ (inputs referenced : List Bundle) (routing : Routing)
    (w' : World),
    [[.ofString "x.jar", .ofString "lib/a"], [.ofString "lib"]].mapM (Bundle.ofPaths libraryFiles) =
      .ok inputs ∧
    [[.ofString "r.jar"]].mapM (Bundle.ofPaths libraryFiles) = .ok referenced ∧
    route ⟨.root, ["out"]⟩ [⟨"lib", "a"⟩] "" inputs referenced { files := libraryFiles } =
      .ok routing w' ∧
    routing.classpathOnly.map (·.path.text) = ["/r.jar", "/lib/a"] ∧
    routing.toWeave.map (·.path.text) = ["/x.jar", "/lib"] := by
  have hinputs : [[.ofString "x.jar", .ofString "lib/a"], [.ofString "lib"]].mapM
      (Bundle.ofPaths libraryFiles) =
        .ok [⟨[classFolder], [⟨⟨.root, ["x.jar"]⟩, "x.jar", .archive⟩]⟩,
          ⟨[⟨⟨.root, ["lib"]⟩, "lib", .directory⟩], []⟩] := by
    cbv
  have hreferenced : [[.ofString "r.jar"]].mapM (Bundle.ofPaths libraryFiles) =
      .ok [⟨[], [⟨⟨.root, ["r.jar"]⟩, "r.jar", .archive⟩]⟩] := by
    cbv
  obtain ⟨-, -, hok, hlists, -⟩ := route_of_discovered hinputs hreferenced ⟨.root, ["out"]⟩
    [⟨"lib", "a"⟩] "" { files := libraryFiles }
  obtain ⟨slot, hcopy⟩ := copyIntoSlot_classFolder
  obtain ⟨routing, w', hroute⟩ := hok.2 ⟨_, .cons hcopy .nil⟩
  obtain ⟨hclasspath, hwoven, -⟩ := hlists routing w' hroute
  refine ⟨_, _, routing, w', hinputs, hreferenced, hroute, ?_, ?_⟩
  · rw [hclasspath]
    decide +kernel
  · rw [hwoven]
    decide +kernel

end WeaveStep
