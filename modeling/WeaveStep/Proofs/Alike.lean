import WeaveStep.Proofs.Always

/-!
# Runs that end alike

Two runs of an action begun in states that cannot be told apart.

* `EndsAlike R r r'`: two endings with the same value, or the same failure, in states that `R`
  relates.
* `Respects R act`: begun in states that `R` relates, the action ends alike. A sequence of such
  actions is one (`Respects.bind`, `Respects.mapM`); a step that looks at the whole state is gone
  over with `Respects.get_bind`, where what is seen of the state must be the same for both.
-/

namespace WeaveStep

variable {ε σ α β : Type} {R : σ → σ → Prop}

/-- Two endings with the same value or failure, in related states. -/
inductive EndsAlike (R : σ → σ → Prop) : EStateM.Result ε σ α → EStateM.Result ε σ α → Prop
  | ok (a : α) {s s' : σ} (h : R s s') : EndsAlike R (.ok a s) (.ok a s')
  | error (e : ε) {s s' : σ} (h : R s s') : EndsAlike R (.error e s) (.error e s')

/-- Begun in related states, the action ends alike. -/
def Respects (R : σ → σ → Prop) (act : EStateM ε σ α) : Prop :=
  ∀ s s', R s s' → EndsAlike R (act s) (act s')

theorem EndsAlike.symm {r r' : EStateM.Result ε σ α} (h : EndsAlike R r r')
    (hR : ∀ s s', R s s' → R s' s) : EndsAlike R r' r := by
  cases h with
  | ok a h => exact .ok a (hR _ _ h)
  | error e h => exact .error e (hR _ _ h)

/-- Two runs that end alike go on alike, if what follows does. -/
theorem EndsAlike.bind_both {act act' : EStateM ε σ α} {f f' : α → EStateM ε σ β} {s s' : σ}
    (h : EndsAlike R (act s) (act' s'))
    (hf : ∀ a mid mid', R mid mid' → EndsAlike R (f a mid) (f' a mid')) :
    EndsAlike R ((act >>= f) s) ((act' >>= f') s') := by
  cases hact : act s with
  | ok a mid =>
    cases hact' : act' s' with
    | ok a' mid' =>
      rw [hact, hact'] at h
      cases h with
      | ok _ hmid =>
        rw [bind_ok hact, bind_ok hact']
        exact hf a mid mid' hmid
    | error e' mid' => rw [hact, hact'] at h; cases h
  | error e mid =>
    cases hact' : act' s' with
    | ok a' mid' => rw [hact, hact'] at h; cases h
    | error e' mid' =>
      rw [hact, hact'] at h
      cases h with
      | error _ hmid =>
        rw [bind_error hact, bind_error hact']
        exact .error e hmid

theorem EndsAlike.bind {act act' : EStateM ε σ α} {f : α → EStateM ε σ β} {s s' : σ}
    (h : EndsAlike R (act s) (act' s')) (hf : ∀ a, Respects R (f a)) :
    EndsAlike R ((act >>= f) s) ((act' >>= f) s') :=
  h.bind_both fun a => hf a

namespace Respects

variable {act : EStateM ε σ α} {f : α → EStateM ε σ β}

theorem pure (a : α) : Respects R (pure a : EStateM ε σ α) := fun _ _ h => .ok a h

theorem throw (e : ε) : Respects R (throw e : EStateM ε σ α) := fun _ _ h => .error e h

theorem throw_bind (e : ε) (f : α → EStateM ε σ β) : Respects R (MonadExcept.throw e >>= f) :=
  fun _ _ h => .error e h

theorem modify {g : σ → σ} (hg : ∀ s s', R s s' → R (g s) (g s')) :
    Respects R (modify g : EStateM ε σ Unit) := fun s s' h => .ok () (hg s s' h)

theorem bind (hact : Respects R act) (hf : ∀ a, Respects R (f a)) : Respects R (act >>= f) :=
  fun s s' h => (hact s s' h).bind hf

/-- A look at the state, of which only what is the same for both runs is used. -/
theorem get_bind {f : σ → EStateM ε σ β} (hsame : ∀ s s', R s s' → f s = f s')
    (hf : ∀ s, Respects R (f s)) : Respects R (get >>= f) := by
  intro s s' h
  have hgo : (get >>= f) s = f s s := rfl
  have hgo' : (get >>= f) s' = f s s' := by rw [hsame s s' h]; rfl
  rw [hgo, hgo']
  exact hf s s s' h

theorem mapM {g : α → EStateM ε σ β} {as : List α} (hg : ∀ a ∈ as, Respects R (g a)) :
    Respects R (as.mapM g) := by
  induction as with
  | nil => exact pure []
  | cons a as ih =>
    rw [List.mapM_cons]
    exact (hg a (by simp)).bind fun b =>
      (ih fun a ha => hg a (by simp [ha])).bind fun bs => pure (b :: bs)

end Respects

end WeaveStep
