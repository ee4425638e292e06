import WeaveStep.Proofs.Files.PathText
import WeaveStep.Proofs.Files.WorkingDirectory
import WeaveStep.Proofs.Weave.Overlap

/-!
# What rules exclude

Routing goes by which rules there are, not by how they are listed, and more rules only take artifacts
from what is woven: **`route_goes_by_rules`**.

A rule marks a path where the names of its group and module stand across the path's names, one after
the other (`StandAcross`): **`isExcluded_iff_standAcross`**. The names at the two ends may be parts of
longer ones, so a rule for one module marks artifacts of others whose names begin with that module's
(`not_isExcluded_by_names`).

The path of an artifact is absolute, so that nothing comes in front of it (`isExcluded?_artifact`).
-/

namespace WeaveStep

open Text

/-! ## Lists of rules -/

section

variable {root : Path} {rules rules' : List ExcludeRule} {logger : String} {inputs referenced : List Bundle}
  {a : Artifact}

theorem Artifact.IsMarked.mono (h : a.IsMarked rules) (hrules : rules ⊆ rules') : a.IsMarked rules' := by
  obtain ⟨r, hr, hmarks⟩ := h
  exact ⟨r, hrules hr, hmarks⟩

theorem isExcluded_congr (h : ∀ r, r ∈ rules ↔ r ∈ rules') (p : Path) :
    isExcluded p rules = isExcluded p rules' := by
  rw [Bool.eq_iff_iff]
  simp [isExcluded, h]

/-- Routing asks of the rules only whether they exclude a path. -/
theorem route_congr (h : ∀ p, isExcluded p rules = isExcluded p rules') :
    route root rules logger inputs referenced = route root rules' logger inputs referenced := by
  have hjudge : judge root rules logger = judge root rules' logger := by
    funext a
    unfold judge
    rw [h]
  unfold route
  rw [hjudge]

theorem excluded_of_verdicts (seen found : List Artifact) :
    Routing.excluded ⟨seen, found.map (verdictOn root rules)⟩ =
      (markedOf rules found).map fun a => ⟨a, some (slotPath root a.slotKey)⟩ := by
  unfold Routing.excluded markedOf
  induction found with
  | nil => rfl
  | cons a found ih =>
    by_cases h : a.IsMarked rules <;> simp_all [verdictOn, Verdict.isExcluded]

theorem markedOf_sublist (h : rules ⊆ rules') (found : List Artifact) :
    (markedOf rules found).Sublist (markedOf rules' found) :=
  List.monotone_filter_right found fun _ ha =>
    decide_eq_true ((of_decide_eq_true ha).mono h)

end

/-- **Routing goes by the set of the rules.** How they are listed, and how often, makes no difference to
anything routing does. With more rules, what is left to be woven is a part of what it was, in its
order, and the artifacts that were only seen still are; those that were excluded have the slots they
had. -/
theorem route_goes_by_rules (root : Path) (logger : String) (inputs referenced : List Bundle)
    (rules rules' : List ExcludeRule) :
    ((∀ r, r ∈ rules ↔ r ∈ rules') → ∀ w,
      route root rules logger inputs referenced w = route root rules' logger inputs referenced w) ∧
    (rules ⊆ rules' → ∀ {w w' mid mid' : World} {routing routing' : Routing},
      route root rules logger inputs referenced w = .ok routing mid →
      route root rules' logger inputs referenced w' = .ok routing' mid' →
        routing'.toWeave.Sublist routing.toWeave ∧
        routing.classpathOnly.Sublist routing'.classpathOnly ∧
        routing.excluded.Sublist routing'.excluded) := by
  refine ⟨fun h w => by rw [route_congr (isExcluded_congr h)], fun hrules => ?_⟩
  intro w w' mid mid' routing routing' hroute hroute'
  obtain ⟨rfl, -⟩ := route_isOk hroute
  obtain ⟨rfl, -⟩ := route_isOk hroute'
  have hmarked := markedOf_sublist hrules (discovered inputs)
  refine ⟨?_, ?_, ?_⟩
  · rw [toWeave_of_verdicts, toWeave_of_verdicts]
    refine List.monotone_filter_right _ fun a ha => ?_
    simp only [decide_eq_true_eq] at ha ⊢
    exact fun h => ha (h.mono hrules)
  · rw [classpathOnly_of_verdicts, classpathOnly_of_verdicts]
    exact (List.Sublist.refl _).append hmarked
  · rw [excluded_of_verdicts, excluded_of_verdicts]
    exact hmarked.map _

/-- A rule that is listed twice and behind others does what it does alone: the directory is excluded and
the archive is left to be woven. Without the rule both are woven. -/
theorem route_goes_by_rules_library : ∃ (less more : Routing) (w' w'' : World),
    route ⟨.root, ["out"]⟩ [⟨"x", "y"⟩] "" [⟨[classFolder], [plainArchive]⟩] []
      { files := libraryFiles } = .ok less w' ∧
    route ⟨.root, ["out"]⟩ [⟨"lib", "a"⟩, ⟨"x", "y"⟩] "" [⟨[classFolder], [plainArchive]⟩] []
      { files := libraryFiles } = .ok more w'' ∧
    route ⟨.root, ["out"]⟩ [⟨"x", "y"⟩, ⟨"lib", "a"⟩, ⟨"lib", "a"⟩] "" [⟨[classFolder], [plainArchive]⟩] []
      { files := libraryFiles } = .ok more w'' ∧
    plainArchive ∈ more.toWeave ∧ classFolder ∈ less.toWeave ∧ classFolder ∈ more.classpathOnly ∧
    more.toWeave.Sublist less.toWeave := by
  obtain ⟨slot, hcopy⟩ := copyIntoSlot_classFolder
  have hmarked : markedOf [⟨"lib", "a"⟩, ⟨"x", "y"⟩] (discovered [⟨[classFolder], [plainArchive]⟩]) =
      [classFolder] := by
    decide
  obtain ⟨mid, hcopies⟩ : ∃ mid, CopiesInTurn ⟨.root, ["out"]⟩ "" { files := libraryFiles }
      (markedOf [⟨"lib", "a"⟩, ⟨"x", "y"⟩] (discovered [⟨[classFolder], [plainArchive]⟩])) mid := by
    rw [hmarked]
    exact ⟨_, .cons hcopy .nil⟩
  obtain ⟨w'', hmore⟩ := route_eq_of_judged [] (mapM_judge_isOk.2 ⟨rfl, hcopies⟩)
  obtain ⟨w', hless⟩ : ∃ w', route ⟨.root, ["out"]⟩ [⟨"x", "y"⟩] "" [⟨[classFolder], [plainArchive]⟩] []
      { files := libraryFiles } = .ok ⟨[], [⟨classFolder, none⟩, ⟨plainArchive, none⟩]⟩ w' := ⟨_, rfl⟩
  obtain ⟨hsame, -⟩ := route_goes_by_rules ⟨.root, ["out"]⟩ "" [⟨[classFolder], [plainArchive]⟩] []
    [⟨"x", "y"⟩, ⟨"lib", "a"⟩, ⟨"lib", "a"⟩] [⟨"lib", "a"⟩, ⟨"x", "y"⟩]
  obtain ⟨-, hfewer⟩ := route_goes_by_rules ⟨.root, ["out"]⟩ "" [⟨[classFolder], [plainArchive]⟩] []
    [⟨"x", "y"⟩] [⟨"lib", "a"⟩, ⟨"x", "y"⟩]
  refine ⟨_, _, w', w'', hless, hmore, (hsame (by simp [or_comm]) _).trans hmore, by decide, by decide,
    by decide, (hfewer (by simp) hless hmore).1⟩

/-! ## Names of rules and paths -/

theorem ExcludeRule.marks_iff_standAcross (r : ExcludeRule) (p : Path) :
    r.marks p = true ↔ StandAcross (splitAt '/' r.fragment) (splitAt '/' p.text) :=
  occursIn_iff_standAcross (by simp [ExcludeRule.fragment])

theorem splitAt_fragment {r : ExcludeRule} (hgroup : '/' ∉ r.group.toList)
    (hmodule : '/' ∉ r.moduleName.toList) : splitAt '/' r.fragment = [r.group, r.moduleName] := by
  have htext : r.fragment.toList = r.group.toList ++ '/' :: r.moduleName.toList := by
    simp [ExcludeRule.fragment]
  rw [splitAt, htext, piecesAt_append hgroup, piecesAt_of_not_mem hmodule]
  simp

theorem group_ne_empty_of_parse? {s : String} {r : ExcludeRule} (h : ExcludeRule.parse? s = some r) :
    r.group ≠ "" := by
  unfold ExcludeRule.parse? at h
  split at h
  · split at h
    · cases h
    · rename_i hnames
      cases h
      exact fun hempty => hnames (.inl hempty)
  · cases h

/-- The names of a group and a module stand in the text of a path where they stand in its names. -/
theorem standAcross_text_iff {p : Path} {group moduleName : String} (hp : p.IsReadable)
    (hgroup : group ≠ "") :
    StandAcross [group, moduleName] (splitAt '/' p.text) ↔ StandAcross [group, moduleName] p.parts := by
  by_cases hparts : p.parts = []
  · -- the text is then a dot or slashes, and a group in front of a slash would be empty
    have hnone : ∀ last, ¬ StandAcross [group, moduleName] [last] := by
      rintro last ⟨_, middle, _, -, before, _, _, _, hpieces⟩
      have hlength := congrArg List.length hpieces
      simp at hlength
      omega
    have htext : ∃ front last, splitAt '/' p.text = front ++ [last] ∧ ∀ s ∈ front, s = "" := by
      obtain ⟨anchor, parts⟩ := p
      cases hparts
      cases anchor with
      | relative => exact ⟨[], ".", by decide, by simp⟩
      | root => exact ⟨[""], "", by decide, by simp⟩
      | doubleRoot => exact ⟨["", ""], "", by decide, by simp⟩
    obtain ⟨front, last, hpieces, hfront⟩ := htext
    rw [hpieces, standAcross_append_iff hgroup hfront, hparts]
    refine iff_of_false (hnone last) ?_
    rintro ⟨_, _, _, -, before, _, _, _, hpieces⟩
    cases before <;> cases hpieces
  · obtain ⟨front, hpieces, hfront⟩ := Path.exists_splitAt_text hp hparts
    rw [hpieces, standAcross_append_iff hgroup hfront]

theorem isExcluded?_of_isAbsolute {t : FileTree} {p : Path} (h : p.isAbsolute = true)
    (rules : List ExcludeRule) : t.isExcluded? p rules = .ok (isExcluded p rules) := by
  rw [FileTree.isExcluded?, FileTree.absolute, if_pos h]
  rfl

/-- Whether an artifact that is handed over is excluded goes by its path alone, wherever the program is. -/
theorem isExcluded?_artifact {t : FileTree} {paths : List Path} {b : Bundle} {a : Artifact}
    (hb : Bundle.ofPaths t paths = .ok b) (ha : a ∈ b.artifacts) (t' : FileTree)
    (rules : List ExcludeRule) : t'.isExcluded? a.path rules = .ok (isExcluded a.path rules) := by
  obtain ⟨p, -, hp⟩ := artifact_of_mem_bundle hb ha
  exact isExcluded?_of_isAbsolute (FileTree.isAbsolute_of_absolute (isAt_of_ofPath hp).path) rules

/-- **What rules exclude.** A path is excluded exactly if the names of some rule's fragment stand across
those of the path: one after the other, the first at the end of a name, the last at the beginning of
one, and those between them as whole names. So a rule that is written for one group and one module
excludes a path where two names follow each other of which the first ends with the group's and the
second begins with the module's, and no other. -/
theorem isExcluded_iff_standAcross (p : Path) (rules : List ExcludeRule) :
    (isExcluded p rules = true ↔
      ∃ r ∈ rules, StandAcross (splitAt '/' r.fragment) (splitAt '/' p.text)) ∧
    ∀ s r, ExcludeRule.parse? s = some r → '/' ∉ r.group.toList → '/' ∉ r.moduleName.toList →
      p.IsReadable → (isExcluded p [r] = true ↔ StandAcross [r.group, r.moduleName] p.parts) := by
  constructor
  · simp [isExcluded, ExcludeRule.marks_iff_standAcross]
  · intro s r hparse hgroup hmodule hp
    have hone : isExcluded p [r] = r.marks p := by simp [isExcluded]
    rw [hone, r.marks_iff_standAcross, splitAt_fragment hgroup hmodule,
      standAcross_text_iff hp (group_ne_empty_of_parse? hparse)]

/-- The rule for a module of that group excludes what lies in another module's directory. -/
theorem standAcross_of_isExcluded_okhttp :
    StandAcross ["com.squareup.okhttp3", "okhttp"]
      ["cache", "com.squareup.okhttp3", "okhttp-urlconnection", "a.jar"] :=
  ((isExcluded_iff_standAcross
    ⟨.root, ["cache", "com.squareup.okhttp3", "okhttp-urlconnection", "a.jar"]⟩ []).2
    "com.squareup.okhttp3:okhttp" ⟨"com.squareup.okhttp3", "okhttp"⟩ (by decide +kernel) (by decide)
    (by decide) (by simp [Path.IsReadable, Path.isName])).1 (by decide +kernel)

/-- A rule for one module excludes a path that has the name of another, which begins with that of the
module. -/
theorem not_isExcluded_by_names :
    ¬ ∀ (p : Path) (rules : List ExcludeRule), (∀ r ∈ rules, ∃ s, ExcludeRule.parse? s = some r) →
      isExcluded p rules = true → ∃ r ∈ rules, splitAt '/' r.fragment <:+: splitAt '/' p.text := by
  intro h
  obtain ⟨r, hr, hnames⟩ := h
    ⟨.root, ["cache", "com.squareup.okhttp3", "okhttp-urlconnection", "a.jar"]⟩
    [⟨"com.squareup.okhttp3", "okhttp"⟩]
    (by simpa using ⟨"com.squareup.okhttp3:okhttp", by decide +kernel⟩) (by decide +kernel)
  obtain rfl := List.mem_singleton.1 hr
  revert hnames
  decide +kernel

end WeaveStep
