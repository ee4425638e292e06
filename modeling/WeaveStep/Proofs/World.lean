import WeaveStep.Proofs.Files.WorkingDirectory
import WeaveStep.World

/-!
# Actions that record no launch

`World.SameLaunches w w'`: between `w` and `w'` no launch was recorded, and what a launch goes by is
what it was, but for the files themselves. Logging and printing are of this sort, and so is every
action on files that does not change the working directory (`sameLaunches_onFiles`).

`Says act a`: the action prints and does nothing else, and it does not fail.
-/

namespace WeaveStep

/-! ## Endings of actions on the world -/

section

variable {ε ε' α : Type} {R : World → World → Prop}

theorem Always.onFiles {P : FileTree → FileTree → Prop} {act : FileTree.Action α}
    {wrap : FileFailure → ε} (h : Always P act)
    (hR : ∀ (w : World) files, P w.files files → R w { w with files }) :
    Always R (Run.onFiles wrap act) := by
  intro w
  have hw := h w.files
  unfold Yields at hw ⊢
  unfold Run.onFiles
  cases ha : act w.files with
  | ok a files => rw [ha] at hw; exact hR w files hw
  | error e files => rw [ha] at hw; exact hR w files hw

theorem Yields.onFiles {act : FileTree.Action α} {wrap : FileFailure → ε} {w : World}
    {Q : Except FileFailure α → FileTree → Prop} {Q' : Except ε α → World → Prop}
    (h : Yields act w.files Q) (ok : ∀ a files, Q (.ok a) files → Q' (.ok a) { w with files })
    (error : ∀ e files, Q (.error e) files → Q' (.error (wrap e)) { w with files }) :
    Yields (Run.onFiles wrap act) w Q' := by
  unfold Yields at h ⊢
  unfold Run.onFiles
  cases ha : act w.files with
  | ok a files => rw [ha] at h; exact ok a files h
  | error e files => rw [ha] at h; exact error e files h

theorem Yields.wrapping {wrap : ε → ε'} {act : Run ε α} {w : World} {Q : Except ε α → World → Prop}
    {Q' : Except ε' α → World → Prop} (h : Yields act w Q)
    (ok : ∀ a w', Q (.ok a) w' → Q' (.ok a) w')
    (error : ∀ e w', Q (.error e) w' → Q' (.error (wrap e)) w') :
    Yields (Run.wrapping wrap act) w Q' := by
  unfold Yields at h ⊢
  unfold Run.wrapping
  cases ha : act w with
  | ok a w' => rw [ha] at h; exact ok a w' h
  | error e w' => rw [ha] at h; exact error e w' h

theorem Always.wrapping {wrap : ε → ε'} {act : Run ε α} (h : Always R act) :
    Always R (Run.wrapping wrap act) := fun w =>
  (h w).wrapping (fun _ _ hw => hw) fun _ _ hw => hw

variable [IsPreorder World R]

theorem Always.ask (wrap : FileFailure → ε) (f : FileTree → Except FileFailure α) :
    Always R (Run.ask wrap f) := by
  intro w
  unfold Yields Run.ask
  cases f w.files with
  | ok a => exact refl_of R w
  | error e => exact refl_of R w

theorem Always.ofExcept (wrap : ε → ε') (r : Except ε α) : Always R (Run.ofExcept wrap r) := by
  cases r with
  | ok a => exact .pure a
  | error e => exact .throw (wrap e)

end

theorem Run.wrapping_eq_ok {ε ε' α : Type} {wrap : ε → ε'} {act : Run ε α} {a : α} {w w' : World} :
    Run.wrapping wrap act w = .ok a w' ↔ act w = .ok a w' := by
  unfold Run.wrapping
  cases act w <;> simp

theorem Run.wrapping_error {ε ε' α : Type} {act : Run ε α} {e : ε} {w w' : World} (wrap : ε → ε')
    (h : act w = .error e w') : Run.wrapping wrap act w = .error (wrap e) w' := by
  rw [Run.wrapping, h]

theorem Run.onFiles_eq_ok {ε α : Type} {wrap : FileFailure → ε} {act : FileTree.Action α} {a : α}
    {w w' : World} : Run.onFiles wrap act w = .ok a w' ↔
      act w.files = .ok a w'.files ∧ w' = { w with files := w'.files } := by
  unfold Run.onFiles
  cases act w.files with
  | ok b files =>
    constructor
    · rintro ⟨⟩
      exact ⟨rfl, rfl⟩
    · rintro ⟨hact, hw⟩
      cases hact
      rw [hw]
  | error e files => simp

theorem Run.ask_eq_ok {ε α : Type} {wrap : FileFailure → ε} {f : FileTree → Except FileFailure α}
    {a : α} {w w' : World} : Run.ask wrap f w = .ok a w' ↔ f w.files = .ok a ∧ w' = w := by
  unfold Run.ask
  cases f w.files <;> simp [eq_comm]

theorem Run.ofExcept_eq_ok {ε ε' α : Type} {wrap : ε → ε'} {r : Except ε α} {a : α} {w w' : World} :
    Run.ofExcept wrap r w = .ok a w' ↔ r = .ok a ∧ w' = w := by
  cases r with
  | ok b =>
    have hpure : (Run.ofExcept wrap (.ok b) : Run ε' α) w = .ok b w := rfl
    simp [hpure, eq_comm]
  | error e =>
    have hthrow : (Run.ofExcept wrap (.error e) : Run ε' α) w = .error (wrap e) w := rfl
    simp [hthrow]

theorem Run.wrapping_eq_error {ε ε' α : Type} {wrap : ε → ε'} {act : Run ε α} {e : ε'}
    {w w' : World} : Run.wrapping wrap act w = .error e w' ↔
      ∃ why, act w = .error why w' ∧ e = wrap why := by
  unfold Run.wrapping
  cases act w <;> simp [eq_comm, and_comm]

theorem Run.onFiles_eq_error {ε α : Type} {wrap : FileFailure → ε} {act : FileTree.Action α} {e : ε}
    {w w' : World} : Run.onFiles wrap act w = .error e w' ↔
      ∃ why files, act w.files = .error why files ∧ e = wrap why ∧ w' = { w with files } := by
  unfold Run.onFiles
  cases act w.files <;> simp [eq_comm]

theorem Run.ofExcept_eq_error {ε ε' α : Type} {wrap : ε → ε'} {r : Except ε α} {e : ε'}
    {w w' : World} : Run.ofExcept wrap r w = .error e w' ↔
      ∃ why, r = .error why ∧ e = wrap why ∧ w' = w := by
  cases r with
  | ok a =>
    have hpure : (Run.ofExcept wrap (.ok a) : Run ε' α) w = .ok a w := rfl
    simp [hpure]
  | error why =>
    have hthrow : (Run.ofExcept wrap (.error why) : Run ε' α) w = .error (wrap why) w := rfl
    simp [hthrow, eq_comm]

/-! ## No launch recorded -/

namespace World

/-- No launch was recorded in between, and what a launch goes by besides files is what it was. -/
structure SameLaunches (w w' : World) : Prop where
  launches : w'.launches = w.launches
  console : w'.console = w.console
  environment : w'.environment = w.environment
  workingDirectory : w'.files.workingDirectory = w.files.workingDirectory

variable {w w' w'' : World}

theorem SameLaunches.trans (h : SameLaunches w w') (h' : SameLaunches w' w'') :
    SameLaunches w w'' :=
  ⟨h'.launches.trans h.launches, h'.console.trans h.console, h'.environment.trans h.environment,
    h'.workingDirectory.trans h.workingDirectory⟩

instance : IsPreorder World SameLaunches where
  refl _ := ⟨rfl, rfl, rfl, rfl⟩
  trans _ _ _ := .trans

theorem sameLaunches_print (w : World) (line : String) : w.SameLaunches (w.print line) :=
  ⟨rfl, rfl, rfl, rfl⟩

theorem sameLaunches_emit (w : World) (r : LogRecord) (sink : Sink) :
    w.SameLaunches (w.emit r sink) := by
  cases sink with
  | records => exact ⟨rfl, rfl, rfl, rfl⟩
  | console threshold detailed =>
    simp only [emit]
    split
    · exact w.sameLaunches_print _
    · exact refl_of SameLaunches w
  | file => exact ⟨rfl, rfl, rfl, FileTree.sameDirectory_extendHeld _⟩

/-- What handing a record to one of the sinks leaves as it was, logging it does. -/
theorem rel_log {R : World → World → Prop} [IsPreorder World R] {r : LogRecord} {w : World}
    (hemit : ∀ w' : World, ∀ sink ∈ w.logging.sinks, R w' (emit w' r sink)) : R w (w.log r) := by
  have hsinks : ∀ sinks ⊆ w.logging.sinks, ∀ w', R w' (sinks.foldl (emit · r) w') := by
    intro sinks
    induction sinks with
    | nil => exact fun _ w' => refl_of R w'
    | cons sink sinks ih =>
      intro hin w'
      obtain ⟨hsink, hrest⟩ := List.cons_subset.1 hin
      exact trans_of R (hemit w' sink hsink) (ih hrest _)
  unfold log
  split
  · exact hsinks w.logging.sinks (List.Subset.refl _) w
  · exact refl_of R w

theorem sameLaunches_log (w : World) (r : LogRecord) : w.SameLaunches (w.log r) :=
  rel_log fun w' sink _ => w'.sameLaunches_emit r sink

end World

open World

variable {ε α β : Type}

theorem sameLaunches_log (level : LogLevel) (logger message : String) :
    Always SameLaunches (Run.log (ε := ε) level logger message) :=
  .modify fun w => w.sameLaunches_log _

theorem sameLaunches_print (line : String) : Always SameLaunches (Run.print (ε := ε) line) :=
  .modify fun w => w.sameLaunches_print line

theorem sameLaunches_onFiles {act : FileTree.Action α} {wrap : FileFailure → ε}
    (h : Always FileTree.SameDirectory act) :
    Always SameLaunches (Run.onFiles wrap act) :=
  .onFiles h fun _ _ hfiles => ⟨rfl, rfl, rfl, hfiles⟩

/-! ## What is kept of the files -/

section

variable {I : FileTree → Prop} (htell : ∀ t bytes, I t → I (t.extendHeld bytes))

include htell in
theorem keeps_log (w : World) (r : LogRecord) : Keeps (fun w : World => I w.files) w (w.log r) := by
  refine World.rel_log fun w sink _ hw => ?_
  cases sink with
  | records => exact hw
  | console threshold detailed =>
    simp only [World.emit]
    split
    · exact hw
    · exact hw
  | file => exact htell _ _ hw

include htell in
theorem always_keeps_log (level : LogLevel) (logger message : String) :
    Always (Keeps fun w : World => I w.files) (Run.log (ε := ε) level logger message) :=
  .modify fun w => keeps_log htell w _

theorem always_keeps_onFiles {act : FileTree.Action α} (wrap : FileFailure → ε)
    (h : Always (Keeps I) act) :
    Always (Keeps fun w : World => I w.files) (Run.onFiles wrap act) :=
  .onFiles h fun _ _ hkept => hkept

end

/-! ## Telling the user -/

/-- The action gives the value `a` without fail, and does no more than print. -/
def Says (act : Run ε α) (a : α) : Prop := ∀ w, ∃ output, act w = .ok a { w with output }

theorem Says.sameLaunches {act : Run ε α} {a : α} (h : Says act a) (w : World) :
    ∃ w', act w = .ok a w' ∧ w.SameLaunches w' := by
  obtain ⟨output, ha⟩ := h w
  exact ⟨_, ha, rfl, rfl, rfl, rfl⟩

theorem Says.yields {act : Run ε α} {a : α} {w : World} {Q : Except ε α → World → Prop} (h : Says act a)
    (hQ : ∀ output, Q (.ok a) { w with output }) : Yields act w Q := by
  obtain ⟨output, ha⟩ := h w
  exact yields_of_eq_ok ha (hQ output)

theorem Says.bind {act : Run ε α} {f : α → Run ε β} {a : α} {b : β} (h : Says act a)
    (hf : Says (f a) b) : Says (act >>= f) b := by
  intro w
  obtain ⟨output, ha⟩ := h w
  obtain ⟨output', hb⟩ := hf { w with output }
  exact ⟨output', (bind_ok ha).trans hb⟩

theorem says_pure (a : α) : Says (pure a : Run ε α) a := fun w => ⟨w.output, rfl⟩

theorem says_print (line : String) : Says (Run.print line : Run ε Unit) () := fun _ => ⟨_, rfl⟩

end WeaveStep
