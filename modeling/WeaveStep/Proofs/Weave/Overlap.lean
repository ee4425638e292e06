import WeaveStep.Proofs.Weave.Discovery

/-!
# What is woven and what is only seen

Routing shares out the artifacts over two lists, those that are woven and those that the weaver only
sees. A list is read as the set of the paths in it (`pathsOf`).

* `Artifact.IsReferenced`: the artifact's path is referred to as well.
* **`route_shares_iff`**: every primary artifact is on one of the lists, and on both exactly if it is
  left to be woven and referred to as well.

So the lists are disjoint only where nothing that is woven is referred to: an artifact that is handed
over in both ways is on both (`not_route_disjoint`).
-/

namespace WeaveStep

/-- The paths of artifacts. -/
def pathsOf (as : List Artifact) : List Path := as.map (·.path)

/-- The artifact's path is one that is only referred to, too. -/
def Artifact.IsReferenced (referenced : List Bundle) (a : Artifact) : Prop :=
  a.path ∈ pathsOf (discovered referenced)

instance (referenced : List Bundle) : DecidablePred (Artifact.IsReferenced referenced) := fun a =>
  inferInstanceAs (Decidable (a.path ∈ pathsOf (discovered referenced)))

section

variable {root : Path} {rules : List ExcludeRule} {logger : String}
  {inputs referenced : List Bundle} {routing : Routing} {w w' : World} {a b : Artifact} {p : Path}

theorem mem_pathsOf {as : List Artifact} : p ∈ pathsOf as ↔ ∃ a ∈ as, a.path = p := List.mem_map

/-- Rules go by the path. -/
theorem isMarked_congr (h : a.path = b.path) : a.IsMarked rules ↔ b.IsMarked rules := by
  unfold Artifact.IsMarked
  rw [h]

theorem mem_woven (h : route root rules logger inputs referenced w = .ok routing w') :
    p ∈ pathsOf routing.toWeave ↔ ∃ a ∈ discovered inputs, ¬ a.IsMarked rules ∧ a.path = p := by
  obtain ⟨rfl, -⟩ := route_isOk h
  rw [toWeave_of_verdicts, mem_pathsOf]
  simp [and_assoc]

theorem mem_seen (h : route root rules logger inputs referenced w = .ok routing w') :
    p ∈ pathsOf routing.classpathOnly ↔ p ∈ pathsOf (discovered referenced) ∨
      ∃ a ∈ discovered inputs, a.IsMarked rules ∧ a.path = p := by
  obtain ⟨rfl, -⟩ := route_isOk h
  rw [classpathOnly_of_verdicts, pathsOf, List.map_append, List.mem_append]
  simp [pathsOf, markedOf, and_assoc]

/-- A primary artifact is woven unless a rule marks it. -/
theorem path_mem_woven (h : route root rules logger inputs referenced w = .ok routing w')
    (ha : a ∈ discovered inputs) :
    a.path ∈ pathsOf routing.toWeave ↔ ¬ a.IsMarked rules := by
  rw [mem_woven h]
  constructor
  · rintro ⟨b, -, hb, hpath⟩
    rwa [← isMarked_congr hpath]
  · intro hkept
    exact ⟨a, ha, hkept, rfl⟩

/-- A primary artifact is seen if a rule marks it or it is referred to. -/
theorem path_mem_seen (h : route root rules logger inputs referenced w = .ok routing w')
    (ha : a ∈ discovered inputs) :
    a.path ∈ pathsOf routing.classpathOnly ↔ a.IsReferenced referenced ∨ a.IsMarked rules := by
  rw [mem_seen h]
  apply or_congr_right
  constructor
  · rintro ⟨b, -, hb, hpath⟩
    rwa [← isMarked_congr hpath]
  · intro hmarked
    exact ⟨a, ha, hmarked, rfl⟩

end

/-- **How routing shares out artifacts.** Every primary artifact is woven or seen. It is on both lists
exactly if no rule marks it and its path is referred to as well, and on exactly one of them
otherwise; nothing else is on both. So the two lists are disjoint exactly if no artifact that is left
to be woven is referred to. -/
theorem route_shares_iff {root : Path} {rules : List ExcludeRule} {logger : String}
    {inputs referenced : List Bundle} {routing : Routing} {w w' : World}
    (h : route root rules logger inputs referenced w = .ok routing w') :
    (∀ a ∈ discovered inputs,
      (a.path ∈ pathsOf routing.toWeave ∨ a.path ∈ pathsOf routing.classpathOnly) ∧
      (Xor (a.path ∈ pathsOf routing.toWeave) (a.path ∈ pathsOf routing.classpathOnly) ↔
        a.IsMarked rules ∨ ¬ a.IsReferenced referenced)) ∧
    (∀ p, p ∈ pathsOf routing.toWeave ∧ p ∈ pathsOf routing.classpathOnly ↔
      ∃ a ∈ discovered inputs, ¬ a.IsMarked rules ∧ a.IsReferenced referenced ∧ a.path = p) ∧
    ((pathsOf routing.toWeave).Disjoint (pathsOf routing.classpathOnly) ↔
      ∀ a ∈ discovered inputs, a.IsMarked rules ∨ ¬ a.IsReferenced referenced) := by
  have hboth : ∀ p, p ∈ pathsOf routing.toWeave ∧ p ∈ pathsOf routing.classpathOnly ↔
      ∃ a ∈ discovered inputs, ¬ a.IsMarked rules ∧ a.IsReferenced referenced ∧ a.path = p := by
    intro p
    constructor
    · rintro ⟨hwoven, hseen⟩
      obtain ⟨a, ha, hkept, rfl⟩ := (mem_woven h).1 hwoven
      exact ⟨a, ha, hkept, ((path_mem_seen h ha).1 hseen).resolve_right hkept, rfl⟩
    · rintro ⟨a, ha, hkept, hreferenced, rfl⟩
      exact ⟨(path_mem_woven h ha).2 hkept, (path_mem_seen h ha).2 (.inl hreferenced)⟩
  refine ⟨fun a ha => ?_, hboth, ?_⟩
  · rw [path_mem_woven h ha, path_mem_seen h ha]
    constructor
    · by_cases hmarked : a.IsMarked rules
      · exact .inr (.inr hmarked)
      · exact .inl hmarked
    · by_cases hmarked : a.IsMarked rules <;> simp [Xor, hmarked]
  · constructor
    · intro hdisjoint a ha
      by_contra hneither
      obtain ⟨hkept, hreferenced⟩ := not_or.1 hneither
      have hpath := (hboth a.path).2 ⟨a, ha, hkept, not_not.1 hreferenced, rfl⟩
      exact hdisjoint hpath.1 hpath.2
    · intro hall p hwoven hseen
      obtain ⟨a, ha, hkept, hreferenced, -⟩ := (hboth p).1 ⟨hwoven, hseen⟩
      exact (hall a ha).elim hkept (· hreferenced)

/-- An archive. -/
def plainArchive : Artifact := ⟨⟨.root, ["x.jar"]⟩, "x.jar", .archive⟩

/-- Where an archive and a directory that a rule marks are both handed over in both ways, the archive
is on both lists and the directory on one. -/
theorem route_shares_library : ∃ (routing : Routing) (w' : World),
    route ⟨.root, ["out"]⟩ [⟨"lib", "a"⟩] "" [⟨[classFolder], [plainArchive]⟩]
      [⟨[classFolder], [plainArchive]⟩] { files := libraryFiles } = .ok routing w' ∧
    (plainArchive.path ∈ pathsOf routing.toWeave ∧
      plainArchive.path ∈ pathsOf routing.classpathOnly) ∧
    Xor (classFolder.path ∈ pathsOf routing.toWeave)
      (classFolder.path ∈ pathsOf routing.classpathOnly) ∧
    ¬ (pathsOf routing.toWeave).Disjoint (pathsOf routing.classpathOnly) := by
  have hmarked : markedOf [⟨"lib", "a"⟩] (discovered [⟨[classFolder], [plainArchive]⟩]) =
      [classFolder] := by
    decide
  obtain ⟨slot, hcopy⟩ := copyIntoSlot_classFolder
  have hcopies : ∃ w', CopiesInTurn ⟨.root, ["out"]⟩ "" { files := libraryFiles }
      (markedOf [⟨"lib", "a"⟩] (discovered [⟨[classFolder], [plainArchive]⟩])) w' := by
    rw [hmarked]
    exact ⟨_, .cons hcopy .nil⟩
  obtain ⟨w', hcopies⟩ := hcopies
  obtain ⟨w', hroute⟩ := route_eq_of_judged [⟨[classFolder], [plainArchive]⟩]
    (mapM_judge_isOk.2 ⟨rfl, hcopies⟩)
  obtain ⟨heach, hboth, hdisjoint⟩ := route_shares_iff hroute
  have hone := (heach classFolder (by decide)).2.2 (.inl (by decide))
  have htwo := (hboth plainArchive.path).2 ⟨plainArchive, by decide, by decide, by decide, rfl⟩
  exact ⟨_, w', hroute, htwo, hone, fun h => h htwo.1 htwo.2⟩

/-- An archive that is to be woven and referred to is on both lists. -/
theorem not_route_disjoint :
    ¬ ∀ (root : Path) (rules : List ExcludeRule) (logger : String) (inputs referenced : List Bundle)
      (routing : Routing) (w w' : World),
      route root rules logger inputs referenced w = .ok routing w' →
      (pathsOf routing.toWeave).Disjoint (pathsOf routing.classpathOnly) := by
  intro h
  have hroute : ∃ w', route ⟨.root, ["out"]⟩ [] "" [⟨[], [plainArchive]⟩] [⟨[], [plainArchive]⟩]
      { files := libraryFiles } = .ok ⟨[plainArchive], [⟨plainArchive, none⟩]⟩ w' := ⟨_, rfl⟩
  obtain ⟨w', hroute⟩ := hroute
  have hdisjoint := h _ _ _ _ _ _ _ _ hroute
  exact hdisjoint (a := plainArchive.path) (by decide) (by decide)

end WeaveStep
