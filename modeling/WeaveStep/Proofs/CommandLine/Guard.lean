import WeaveStep.Proofs.CommandLine.Notice

/-!
# The checks in front of a weave

What is checked before a weave begins is only looked at. So a command line either ends with no more
than a word on the console, or it passes every check and the weave begins in the very world that was
checked (**`yields_checkedWeave`**).

* `Judges`: a check ends with the verdict that the files give, and tells nothing unless that is a no.
* `WeaveOptions.isAdmitted`: the verdict of all checks in turn. What it is decides how the program goes
  on (**`yields_checks`**).
-/

namespace WeaveStep

open FileTree CommandLine

/-- Nothing was done but to print. -/
def World.OnlyPrints (w w' : World) : Prop :=
  ∃ output errors, w' = { w with output := output, errors := errors }

instance : IsPreorder World World.OnlyPrints where
  refl w := ⟨w.output, w.errors, rfl⟩
  trans := by
    rintro w _ _ ⟨_, _, rfl⟩ ⟨output, errors, rfl⟩
    exact ⟨output, errors, rfl⟩

open World

theorem World.OnlyPrints.sameLaunches {w w' : World} (h : OnlyPrints w w') : w.SameLaunches w' := by
  obtain ⟨output, errors, rfl⟩ := h
  exact ⟨rfl, rfl, rfl, rfl⟩

/-! ## Checks in turn -/

section

variable {ε : Type}

/-- The action ends with this verdict, and has told nothing unless it is a no. -/
def Judges (act : Run ε Bool) (w : World) (verdict : Except ε Bool) : Prop :=
  Yields act w fun r w' => r = verdict ∧ OnlyPrints w w' ∧ (r ≠ .ok false → w' = w)

section

variable {act : Run ε Bool} {w : World} {verdict : Except ε Bool}

theorem Judges.eq_true (h : Judges act w verdict) (htrue : verdict = .ok true) :
    act w = .ok true w := by
  unfold Judges Yields at h
  cases hact : act w <;> simp_all

end

theorem judges_ask_bind {β : Type} {f : FileTree → Except FileFailure β}
    {next : β → Run FileFailure Bool} {verdict : β → Except FileFailure Bool} {w : World}
    (h : ∀ b, Judges (next b) w (verdict b)) :
    Judges (Run.ask id f >>= next) w (f w.files >>= verdict) := by
  cases hf : f w.files with
  | error e =>
    have hask : (Run.ask id f : Run FileFailure β) w = .error e w := by
      rw [Run.ask, hf]
      rfl
    exact yields_bind_of_error hask ⟨rfl, refl_of OnlyPrints w, fun _ => rfl⟩
  | ok b => exact yields_bind_of_ok (Run.ask_eq_ok.2 ⟨hf, rfl⟩) (h b)

theorem judges_pure (b : Bool) (w : World) : Judges (pure b : Run ε Bool) w (.ok b) :=
  yields_pure ⟨rfl, refl_of OnlyPrints w, fun _ => rfl⟩

theorem judges_refusal (message : String) (w : World) :
    Judges (do Notice.refusal message; return false : Run ε Bool) w (.ok false) := by
  have hsays : Says (do Notice.refusal message; return false : Run ε Bool) false :=
    (says_print _).bind (says_pure false)
  exact hsays.yields fun output => ⟨rfl, ⟨output, w.errors, rfl⟩, fun h => absurd rfl h⟩

/-- Goes over a check: it fails or says no, or it tells nothing and goes on. -/
theorem Judges.yields_bind {ε' β : Type} {act : Run ε Bool} {wrap : ε → ε'} {verdict : Except ε Bool}
    {next : Bool → Run ε' β} {w : World} {Q : Except ε' β → World → Prop} (h : Judges act w verdict)
    (fails : ∀ e, verdict = .error e → Q (.error (wrap e)) w)
    (no : ∀ w', verdict = .ok false → OnlyPrints w w' → Yields (next false) w' Q)
    (yes : verdict = .ok true → Yields (next true) w Q) :
    Yields (Run.wrapping wrap act >>= next) w Q := by
  refine Yields.bind (fun found w' hact => ?_) fun e' w' hact => ?_
  · obtain ⟨hverdict, hprinted, hsame⟩ := h.of_ok (Run.wrapping_eq_ok.1 hact)
    cases found with
    | true =>
      obtain rfl := hsame (by simp)
      exact yes hverdict.symm
    | false => exact no w' hverdict.symm hprinted
  · obtain ⟨e, hfails, rfl⟩ := Run.wrapping_eq_error.1 hact
    obtain ⟨hverdict, -, hsame⟩ := h.of_error hfails
    obtain rfl := hsame (by simp)
    exact fails e hverdict.symm

end

/-! ## Single checks -/

theorem judges_inputsExist (paths : List Path) (w : World) :
    Judges (inputsExist paths) w (paths.allM w.files.exists?) := by
  induction paths with
  | nil => exact judges_pure true w
  | cons p paths ih =>
    refine judges_ask_bind (f := (·.exists? p)) fun found => ?_
    cases found with
    | true => exact ih
    | false => exact judges_refusal _ w

/-- Whether deleting `root` leaves a path in place, as the resolution of the path tells it. -/
def FileTree.isSpared (t : FileTree) (root p : Path) : Except FileFailure Bool := do
  return !root.holds (← t.resolve p)

theorem judges_spares (output root : Path) (kept : List Path) (w : World) :
    Judges (spares output root kept) w (kept.allM (w.files.isSpared root)) := by
  induction kept with
  | nil => exact judges_pure true w
  | cons p kept ih =>
    rw [List.allM, isSpared, bind_assoc]
    refine judges_ask_bind (f := (·.resolve p)) fun resolved => ?_
    cases root.holds resolved with
    | true => exact judges_refusal _ w
    | false => exact ih

theorem judges_outputIsSafe (output : Path) (kept : List Path) (w : World) :
    Judges (outputIsSafe output kept) w
      (w.files.resolve output >>= fun root => kept.allM (w.files.isSpared root)) :=
  judges_ask_bind (f := (·.resolve output)) fun root => judges_spares output root kept w

theorem givenPaths_map (paths : List Path) : givenPaths (paths.map some) = (paths, true) := by
  induction paths with
  | nil => rfl
  | cons p paths ih => rw [List.map_cons, givenPaths, ih]

theorem eq_of_allGiven {given : List GivenPath} (h : (givenPaths given).2 = true) :
    given = (givenPaths given).1.map some := by
  induction given with
  | nil => rfl
  | cons p given ih =>
    cases p with
    | none => cases h
    | some p => simpa [givenPaths] using ih h

theorem givenPaths_append {given : List GivenPath} (h : (givenPaths given).2 = true)
    (more : List GivenPath) : givenPaths (given ++ more) =
      ((givenPaths given).1 ++ (givenPaths more).1, (givenPaths more).2) := by
  induction given with
  | nil => rfl
  | cons p given ih =>
    cases p with
    | none => cases h
    | some p => simp [givenPaths, ih h]

/-! ## Paths that may not be given -/

/-- What is found of the path that an option gives; where it gives none, that is the failure. -/
def ifGiven {α : Type} (use : PathUse) (find : Path → Except FileFailure α) :
    GivenPath → Except ProgramFailure α
  | some p => (find p).mapError .files
  | none => .error (.noPath use)

theorem allM_ifGiven {use : PathUse} {check : Path → Except FileFailure Bool} {given : List GivenPath} :
    given.allM (ifGiven use check) = (do
      if ← ((givenPaths given).1.allM check).mapError .files then
        if (givenPaths given).2 then return true else throw (.noPath use)
      else return false) := by
  induction given with
  | nil => rfl
  | cons p given ih =>
    rw [List.allM, ih]
    cases p with
    | none => rfl
    | some p =>
      rw [givenPaths, List.allM, ifGiven]
      cases check p with
      | error why => rfl
      | ok passes => cases passes <;> rfl

theorem bind_allM_ifGiven {use : PathUse} {α : Type} {find : Path → Except FileFailure α} {p : Path}
    {check : α → Path → Except FileFailure Bool} {given : List GivenPath} :
    (ifGiven use find (some p) >>= fun a => given.allM (ifGiven use (check a))) = (do
      if ← (find p >>= fun a => (givenPaths given).1.allM (check a)).mapError .files then
        if (givenPaths given).2 then return true else throw (.noPath use)
      else return false) := by
  rw [ifGiven]
  cases find p with
  | error why => rfl
  | ok a => exact allM_ifGiven

/-! ## All checks -/

/-- Every check of a weave holds in a world, and these are the paths it is about. -/
structure Passes (here : Path) (o : WeaveOptions) (w : World) (paths : WeavePaths) : Prop where
  inputs : o.inputs = paths.inputs.map some
  referenced : o.referenced = paths.referenced.map some
  output : o.output = some paths.output
  exist : inputsExist (paths.inputs ++ paths.referenced) w = .ok true w
  safe : ∃ project, o.project = some project ∧
    outputIsSafe paths.output (paths.inputs ++ paths.referenced ++ [project, here]) w = .ok true w

/-- Whether the checks of a weave let it begin, as the files tell it: every input is there, and the
output root spares every path that has to stay. The first check that fails is the failure of all. -/
def CommandLine.WeaveOptions.isAdmitted (o : WeaveOptions) (here : Path) (t : FileTree) :
    Except ProgramFailure Bool := do
  if ← (o.inputs ++ o.referenced).allM (ifGiven .look t.exists?) then
    let root ← ifGiven .resolve t.resolve o.output
    (o.inputs ++ o.referenced ++ [o.project, some here]).allM (ifGiven .resolve (t.isSpared root))
  else return false

section

variable {here : Path} {o : WeaveOptions} {w : World}

/-- **A weave goes by the verdict of its checks**: it is refused, with no more than a word, or fails, or
begins in the world in which they were made. -/
theorem yields_checks {Q : Except ProgramFailure Nat → World → Prop}
    (refused : o.isAdmitted here w.files = .ok false → ∀ w', OnlyPrints w w' → Q (.ok refusedCode) w')
    (failed : ∀ e, o.isAdmitted here w.files = .error e → Q (.error e) w)
    (begins : o.isAdmitted here w.files = .ok true → ∀ paths, Passes here o w paths →
      Yields (Run.wrapping ProgramFailure.files (weaveCommand o paths)) w Q) :
    Yields (checkedWeave here o) w Q := by
  unfold checkedWeave
  dsimp only
  refine (judges_inputsExist _ w).yields_bind (fun why hfails => ?fails) (fun w' hno => ?no)
    fun hexist => ?_
  case fails => exact failed _ (by rw [WeaveOptions.isAdmitted, allM_ifGiven, hfails]; rfl)
  case no => exact refused (by rw [WeaveOptions.isAdmitted, allM_ifGiven, hno]; rfl) w'
  rw [if_neg (by decide)]
  split
  · rename_i hgiven
    replace hgiven : (givenPaths (o.inputs ++ o.referenced)).2 = false := by simpa using hgiven
    refine yields_bind_of_error rfl (failed _ ?_)
    rw [WeaveOptions.isAdmitted, allM_ifGiven, hexist, hgiven]
    rfl
  rename_i hgiven
  replace hgiven : (givenPaths (o.inputs ++ o.referenced)).2 = true := by simpa using hgiven
  have hadmitted : o.isAdmitted here w.files = ifGiven .resolve w.files.resolve o.output >>= fun root =>
      (o.inputs ++ o.referenced ++ [o.project, some here]).allM
        (ifGiven .resolve (w.files.isSpared root)) := by
    rw [WeaveOptions.isAdmitted, allM_ifGiven, hexist, hgiven]
    rfl
  split
  case h_2 hnone =>
    exact failed _ (by rw [hadmitted, Option.eq_none_iff_forall_ne_some.2 hnone]; rfl)
  rename_i output houtput
  rw [houtput, bind_allM_ifGiven, givenPaths_append hgiven] at hadmitted
  -- the paths that have to stay are all there is to check, or the project is not given
  cases hproject : o.project with
  | none =>
    rw [hproject, show givenPaths [none, some here] = ([], false) from rfl, List.append_nil] at hadmitted
    refine (judges_outputIsSafe output _ w).yields_bind
      (fun why hfails => failed _ (by rw [hadmitted, hfails]; rfl))
      (fun w' hno => refused (by rw [hadmitted, hno]; rfl) w') fun hsafe => ?_
    exact yields_bind_of_error rfl (failed _ (by rw [hadmitted, hsafe]; rfl))
  | some project =>
    rw [hproject, show givenPaths [some project, some here] = ([project, here], true) from rfl] at hadmitted
    refine (judges_outputIsSafe output _ w).yields_bind
      (fun why hfails => failed _ (by rw [hadmitted, hfails]; rfl))
      (fun w' hno => refused (by rw [hadmitted, hno]; rfl) w') fun hsafe => ?_
    have hexists := (judges_inputsExist _ w).eq_true hexist
    have hspared := (judges_outputIsSafe output _ w).eq_true hsafe
    obtain ⟨inputs, referenced, hread, hinputs, hreferenced⟩ :=
      List.append_eq_map_iff.1 (eq_of_allGiven hgiven)
    rw [hread] at hexists hspared
    rw [← hinputs, ← hreferenced, givenPaths_map, givenPaths_map]
    exact begins (by rw [hadmitted, hsafe]; rfl) ⟨inputs, referenced, output⟩
      ⟨hinputs.symm, hreferenced.symm, houtput, hexists, project, hproject, hspared⟩

/-- **A weave is refused, or fails, with no more than a word**, or every check holds, and it begins in
the world in which they were made. -/
theorem yields_checkedWeave {Q : Except ProgramFailure Nat → World → Prop}
    (refused : ∀ w', OnlyPrints w w' → Q (.ok refusedCode) w')
    (failed : ∀ e w', OnlyPrints w w' → Q (.error e) w')
    (begins : ∀ paths, Passes here o w paths →
      Yields (Run.wrapping ProgramFailure.files (weaveCommand o paths)) w Q) :
    Yields (checkedWeave here o) w Q :=
  yields_checks (fun _ => refused) (fun e _ => failed e w (refl_of OnlyPrints w)) fun _ => begins

end

/-- Where every check holds, the weave is all that is done. -/
theorem checkedWeave_of_passes {here : Path} {o : WeaveOptions} {w : World} {paths : WeavePaths}
    (h : Passes here o w paths) :
    checkedWeave here o w = Run.wrapping ProgramFailure.files (weaveCommand o paths) w := by
  obtain ⟨project, hproject, hsafe⟩ := h.safe
  have hread : givenPaths (o.inputs ++ o.referenced) = (paths.inputs ++ paths.referenced, true) := by
    rw [h.inputs, h.referenced, ← List.map_append, givenPaths_map]
  unfold checkedWeave
  rw [hread, h.output, hproject, h.inputs, h.referenced, givenPaths_map, givenPaths_map]
  dsimp only
  rw [bind_ok (Run.wrapping_eq_ok.2 h.exist)]
  exact bind_ok (Run.wrapping_eq_ok.2 hsafe)

end WeaveStep
