import Mathlib.Data.List.Forall2
import Mathlib.Order.Defs.Unbundled

/-!
# How an action ends

An action ends with a value or a failure, and in some state.

* `Yields act s Q`: begun in `s`, `act` ends as `Q` says.
* `Always R act`: wherever it begins, `act` ends in a state that `R` relates to the one it began in,
  failure or not. For a preorder `R` it is enough to know that of the single steps (`Always.bind`,
  `Always.mapM`), so that it says what an action leaves as it was.

Both go through a sequence step by step (`Yields.bind`); a step of which only its `Always` matters
is gone over with `Always.yields_bind`.
-/

namespace WeaveStep

variable {ε σ α β : Type}

/-- Begun in `s`, the action ends as `Q` says, with a value or a failure. -/
def Yields (act : EStateM ε σ α) (s : σ) (Q : Except ε α → σ → Prop) : Prop :=
  match act s with
  | .ok a s' => Q (.ok a) s'
  | .error e s' => Q (.error e) s'

/-- However the action ends, `R` relates the state it began in to the one it ends in. -/
def Always (R : σ → σ → Prop) (act : EStateM ε σ α) : Prop := ∀ s, Yields act s fun _ s' => R s s'

/-- What holds in `s` holds in `s'`. -/
def Keeps (I : σ → Prop) (s s' : σ) : Prop := I s → I s'

instance (I : σ → Prop) : IsPreorder σ (Keeps I) where
  refl _ h := h
  trans _ _ _ h h' := h' ∘ h

theorem except_bind_eq_ok {x : Except ε α} {f : α → Except ε β} {b : β} :
    x >>= f = .ok b ↔ ∃ a, x = .ok a ∧ f a = .ok b := by
  cases x with
  | ok a => simp [bind, Except.bind]
  | error e => simp [bind, Except.bind]

theorem except_mapError_eq_ok {ε' : Type} {x : Except ε α} {f : ε → ε'} {a : α} :
    x.mapError f = .ok a ↔ x = .ok a := by
  cases x <;> simp [Except.mapError]

theorem except_mapM_eq_ok {f : α → Except ε β} {as : List α} {bs : List β}
    (h : as.mapM f = .ok bs) : List.Forall₂ (fun a b => f a = .ok b) as bs := by
  induction as generalizing bs with
  | nil => cases h; exact .nil
  | cons a as ih =>
    rw [List.mapM_cons] at h
    obtain ⟨b, ha, h⟩ := except_bind_eq_ok.1 h
    obtain ⟨bs', has, h⟩ := except_bind_eq_ok.1 h
    cases h
    exact .cons ha (ih has)

/-! ## One ending -/

section Yields

variable {act : EStateM ε σ α} {f : α → EStateM ε σ β} {s s' : σ}

theorem Yields.of_ok {Q : Except ε α → σ → Prop} {a : α} (h : Yields act s Q)
    (ha : act s = .ok a s') : Q (.ok a) s' := by
  rwa [Yields, ha] at h

theorem Yields.of_error {Q : Except ε α → σ → Prop} {e : ε} (h : Yields act s Q)
    (he : act s = .error e s') : Q (.error e) s' := by
  rwa [Yields, he] at h

theorem yields_of_cases {Q : Except ε α → σ → Prop}
    (ok : ∀ a s', act s = .ok a s' → Q (.ok a) s')
    (error : ∀ e s', act s = .error e s' → Q (.error e) s') : Yields act s Q := by
  unfold Yields
  cases h : act s with
  | ok a s' => exact ok a s' h
  | error e s' => exact error e s' h

/-- An action ends as any other one that does the same in its state. -/
theorem Yields.of_eq {act' : EStateM ε σ α} {Q : Except ε α → σ → Prop} (h : act s = act' s')
    (h' : Yields act' s' Q) : Yields act s Q := by
  rwa [Yields, h]

theorem Yields.imp {Q Q' : Except ε α → σ → Prop} (h : Yields act s Q)
    (hQ : ∀ r s', Q r s' → Q' r s') : Yields act s Q' :=
  yields_of_cases (fun _ _ ha => hQ _ _ (h.of_ok ha)) fun _ _ he => hQ _ _ (h.of_error he)

/-- An action that ends in each of these ways ends in all of them at once. -/
theorem yields_forall {ι : Sort*} {Q : ι → Except ε α → σ → Prop} (h : ∀ i, Yields act s (Q i)) :
    Yields act s fun r s' => ∀ i, Q i r s' :=
  yields_of_cases (fun _ _ ha i => (h i).of_ok ha) fun _ _ he i => (h i).of_error he

theorem Yields.and {Q Q' : Except ε α → σ → Prop} (h : Yields act s Q) (h' : Yields act s Q') :
    Yields act s fun r s' => Q r s' ∧ Q' r s' :=
  yields_of_cases (fun _ _ ha => ⟨h.of_ok ha, h'.of_ok ha⟩) fun _ _ he => ⟨h.of_error he, h'.of_error he⟩

/-- An action ends in one way. -/
theorem Yields.exists_and {Q Q' : Except ε α → σ → Prop} (h : Yields act s Q)
    (h' : Yields act s Q') : ∃ r s', Q r s' ∧ Q' r s' := by
  cases ha : act s with
  | ok a s' => exact ⟨_, s', h.of_ok ha, h'.of_ok ha⟩
  | error e s' => exact ⟨_, s', h.of_error ha, h'.of_error ha⟩

theorem yields_of_eq_ok {Q : Except ε α → σ → Prop} {a : α} (h : act s = .ok a s')
    (hQ : Q (.ok a) s') : Yields act s Q := by
  rwa [Yields, h]

theorem yields_of_eq_error {Q : Except ε α → σ → Prop} {e : ε} (h : act s = .error e s')
    (hQ : Q (.error e) s') : Yields act s Q := by
  rwa [Yields, h]

theorem yields_pure {Q : Except ε α → σ → Prop} {a : α} (h : Q (.ok a) s) :
    Yields (pure a : EStateM ε σ α) s Q := h

theorem yields_throw {Q : Except ε α → σ → Prop} {e : ε} (h : Q (.error e) s) :
    Yields (throw e : EStateM ε σ α) s Q := h

theorem bind_ok {a : α} (h : act s = .ok a s') : (act >>= f) s = f a s' := by
  have hbind : (act >>= f) s = EStateM.bind act f s := rfl
  rw [hbind, EStateM.bind, h]

theorem bind_error {e : ε} (h : act s = .error e s') : (act >>= f) s = .error e s' := by
  have hbind : (act >>= f) s = EStateM.bind act f s := rfl
  rw [hbind, EStateM.bind, h]

theorem yields_bind_of_ok {Q : Except ε β → σ → Prop} {a : α} (h : act s = .ok a s')
    (hf : Yields (f a) s' Q) : Yields (act >>= f) s Q :=
  .of_eq (bind_ok h) hf

theorem yields_bind_of_error {Q : Except ε β → σ → Prop} {e : ε} (h : act s = .error e s')
    (he : Q (.error e) s') : Yields (act >>= f) s Q :=
  yields_of_eq_error (bind_error h) he

/-- Goes over the first step of a sequence. -/
theorem Yields.bind {Q : Except ε β → σ → Prop}
    (ok : ∀ a s', act s = .ok a s' → Yields (f a) s' Q)
    (error : ∀ e s', act s = .error e s' → Q (.error e) s') : Yields (act >>= f) s Q := by
  cases h : act s with
  | ok a s' => exact yields_bind_of_ok h (ok a s' h)
  | error e s' => exact yields_bind_of_error h (error e s' h)

theorem bind_eq_ok {b : β} (h : (act >>= f) s = .ok b s') :
    ∃ a mid, act s = .ok a mid ∧ f a mid = .ok b s' := by
  cases ha : act s with
  | ok a mid => rw [bind_ok ha] at h; exact ⟨a, mid, rfl, h⟩
  | error e mid => rw [bind_error ha] at h; cases h

theorem bind_eq_ok_iff {b : β} :
    (act >>= f) s = .ok b s' ↔ ∃ a mid, act s = .ok a mid ∧ f a mid = .ok b s' :=
  ⟨bind_eq_ok, fun ⟨_, _, ha, hb⟩ => (bind_ok ha).trans hb⟩

theorem bind_eq_error_iff {e : ε} : (act >>= f) s = .error e s' ↔
    act s = .error e s' ∨ ∃ a mid, act s = .ok a mid ∧ f a mid = .error e s' := by
  cases ha : act s with
  | ok a mid => simp [bind_ok ha]
  | error e mid => simp [bind_error ha]

theorem pure_eq_ok {a b : α} : (pure a : EStateM ε σ α) s = .ok b s' ↔ b = a ∧ s' = s := by
  have hpure : (pure a : EStateM ε σ α) s = .ok a s := rfl
  rw [hpure]
  simp [eq_comm]

theorem pure_ne_error {a : α} {e : ε} : (pure a : EStateM ε σ α) s ≠ .error e s' := by
  intro h
  cases h

/-- What each step of a sequence gives, it gives on its own. -/
theorem mapM_eq_ok {as : List α} {bs : List β} (h : as.mapM f s = .ok bs s') :
    List.Forall₂ (fun a b => ∃ mid mid', f a mid = .ok b mid') as bs := by
  induction as generalizing bs s with
  | nil => cases h; exact .nil
  | cons a as ih =>
    rw [List.mapM_cons] at h
    obtain ⟨b, mid, ha, h⟩ := bind_eq_ok h
    obtain ⟨bs', mid', has, h⟩ := bind_eq_ok h
    cases h
    exact .cons ⟨s, mid, ha⟩ (ih has)

/-- Goes over a step of which it only matters what it leaves as it was. -/
theorem Always.yields_bind {R : σ → σ → Prop} {Q : Except ε β → σ → Prop} (hact : Always R act)
    (ok : ∀ a s', R s s' → act s = .ok a s' → Yields (f a) s' Q)
    (error : ∀ e s', R s s' → Q (.error e) s') : Yields (act >>= f) s Q :=
  Yields.bind (fun a s' ha => ok a s' ((hact s).of_ok ha) ha) fun e s' he =>
    error e s' ((hact s).of_error he)

/-- What two steps leave as it was, the sequence of both does. -/
theorem Yields.trans_bind {R : σ → σ → Prop} [IsPreorder σ R]
    (hact : Yields act s fun _ s' => R s s')
    (hf : ∀ a s', R s s' → act s = .ok a s' → Yields (f a) s' fun _ s'' => R s' s'') :
    Yields (act >>= f) s fun _ s'' => R s s'' :=
  Yields.bind
    (fun a s' ha => (hf a s' (hact.of_ok ha) ha).imp fun _ _ => trans_of R (hact.of_ok ha))
    fun _ _ he => hact.of_error he

/-- What each step leaves as it was, wherever the steps before it end, the sequence does. -/
theorem Yields.mapM_rel {R : σ → σ → Prop} [IsPreorder σ R] {g : α → EStateM ε σ β} {as : List α}
    (hg : ∀ a ∈ as, ∀ s', R s s' → Yields (g a) s' fun _ s'' => R s' s'') :
    Yields (as.mapM g) s fun _ s' => R s s' := by
  induction as generalizing s with
  | nil => exact refl_of R s
  | cons a as ih =>
    rw [List.mapM_cons]
    refine (hg a (by simp) s (refl_of R s)).trans_bind fun b s' hs _ => ?_
    refine (ih fun a' ha' s'' hs' => hg a' (by simp [ha']) s'' (trans_of R hs hs')).trans_bind
      fun bs s'' _ _ => ?_
    exact refl_of R s''

end Yields

/-! ## All endings -/

namespace Always

variable {R : σ → σ → Prop} {act : EStateM ε σ α} {f : α → EStateM ε σ β}

theorem of_ok {a : α} {s s' : σ} (h : Always R act) (ha : act s = .ok a s') : R s s' :=
  (h s).of_ok ha

theorem of_error {e : ε} {s s' : σ} (h : Always R act) (he : act s = .error e s') : R s s' :=
  (h s).of_error he

/-- What holds in a state is kept as soon as it is from any state where it holds. -/
theorem keeps_of {I : σ → Prop} (h : ∀ s, I s → Yields act s fun _ s' => I s') :
    Always (Keeps I) act := fun s =>
  yields_of_cases (fun _ _ ha hs => (h s hs).of_ok ha) fun _ _ he hs => (h s hs).of_error he

theorem keeps {I : σ → Prop} {s : σ} (h : Always (Keeps I) act) (hs : I s) :
    Yields act s fun _ s' => I s' := (h s).imp fun _ _ hkept => hkept hs

/-- Goes over a step of which it only matters what it keeps. -/
theorem keeps_bind {I : σ → Prop} {s : σ} {Q : Except ε β → σ → Prop} (h : Always (Keeps I) act)
    (hs : I s) (ok : ∀ a s', I s' → Yields (f a) s' Q) (error : ∀ e s', I s' → Q (.error e) s') :
    Yields (act >>= f) s Q :=
  h.yields_bind (fun a s' hkept _ => ok a s' (hkept hs)) fun e s' hkept => error e s' (hkept hs)

theorem modify {g : σ → σ} (hg : ∀ s, R s (g s)) : Always R (modify g : EStateM ε σ Unit) := hg

variable [IsPreorder σ R]

theorem pure (a : α) : Always R (pure a : EStateM ε σ α) := fun s => refl_of R s

theorem throw (e : ε) : Always R (throw e : EStateM ε σ α) := fun s => refl_of R s

theorem throw_bind (e : ε) (f : α → EStateM ε σ β) : Always R (MonadExcept.throw e >>= f) :=
  fun s => refl_of R s

theorem get : Always R (get : EStateM ε σ σ) := fun s => refl_of R s

theorem bind (hact : Always R act) (hf : ∀ a, Always R (f a)) : Always R (act >>= f) := fun _ =>
  hact.yields_bind (fun a s' hs _ => (hf a s').imp fun _ _ => trans_of R hs) fun _ _ hs => hs

theorem mapM {g : α → EStateM ε σ β} {as : List α} (hg : ∀ a ∈ as, Always R (g a)) :
    Always R (as.mapM g) := by
  induction as with
  | nil => exact pure []
  | cons a as ih =>
    rw [List.mapM_cons]
    exact (hg a (by simp)).bind fun b =>
      (ih fun a ha => hg a (by simp [ha])).bind fun bs => pure (b :: bs)

end Always

end WeaveStep
