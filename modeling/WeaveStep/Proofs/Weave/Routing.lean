import WeaveStep.Proofs.Always
import WeaveStep.Weave.Routing

/-!
# Verdicts

There is one verdict for each artifact, in order, and it goes by the rules alone
(`verdicts_of_route`). So what is left to be woven are the artifacts that no rule excludes
(`toWeave_of_route`).
-/

namespace WeaveStep

variable {root : Path} {rules : List ExcludeRule} {logger : String} {w w' : World}

/-- The verdict on an artifact that the rules ask for. -/
def Verdict.IsFor (rules : List ExcludeRule) (a : Artifact) (v : Verdict) : Prop :=
  v.artifact = a ∧ v.isExcluded = WeaveStep.isExcluded a.path rules

theorem isFor_of_judge {a : Artifact} {v : Verdict} (h : judge root rules logger a w = .ok v w') :
    v.IsFor rules a := by
  unfold judge at h
  split at h
  · rename_i hexcluded
    obtain ⟨_, _, -, h⟩ := bind_eq_ok h
    obtain ⟨slot, _, -, h⟩ := bind_eq_ok h
    cases h
    exact ⟨rfl, hexcluded.symm⟩
  · rename_i hkept
    cases h
    exact ⟨rfl, (Bool.not_eq_true _ ▸ hkept).symm⟩

theorem verdicts_of_route {inputs referenced : List Bundle} {routing : Routing}
    (h : route root rules logger inputs referenced w = .ok routing w') :
    List.Forall₂ (Verdict.IsFor rules) (inputs.flatMap (·.artifacts)) routing.verdicts ∧
      routing.referenced = referenced.flatMap (·.artifacts) := by
  obtain ⟨verdicts, _, hverdicts, h⟩ := bind_eq_ok h
  have hfor := (mapM_eq_ok hverdicts).imp fun a v ⟨_, _, hv⟩ => isFor_of_judge hv
  dsimp only at h
  split at h
  · obtain ⟨_, _, -, h⟩ := bind_eq_ok h
    cases h
    exact ⟨hfor, rfl⟩
  · cases h
    exact ⟨hfor, rfl⟩

/-- What is woven are the artifacts that no rule excludes. -/
theorem toWeave_of_route {inputs referenced : List Bundle} {routing : Routing}
    (h : route root rules logger inputs referenced w = .ok routing w') :
    routing.toWeave =
      (inputs.flatMap (·.artifacts)).filter fun a => !isExcluded a.path rules := by
  obtain ⟨hfor, -⟩ := verdicts_of_route h
  unfold Routing.toWeave
  generalize inputs.flatMap (·.artifacts) = artifacts, routing.verdicts = verdicts at hfor
  induction hfor with
  | nil => rfl
  | @cons a v _ _ hv _ ih =>
    cases hexcluded : isExcluded a.path rules <;> simp [hv.1, hv.2, hexcluded, ih]

end WeaveStep
