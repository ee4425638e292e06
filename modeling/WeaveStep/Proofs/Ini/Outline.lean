import WeaveStep.Proofs.Ini.Drafts

/-!
# Outlines

How a reader goes on depends on the sections and keys that it has seen, and on which of the keys stand
alone, but not on what their values are. `Reading.outline` is what is left without the values, and
readers of one outline go on to one outline, or both stop (**`Reading.outlineOf_lines`**).
-/

namespace WeaveStep.Ini

open Text

/-- A draft but for the lines of its value. -/
def Draft.outline (d : Draft) : Draft := { d with lines := d.lines.map fun _ => [] }

namespace Reading

variable {r r' : Reading}

/-- What the reader knows but for values, and for what it is to report of malformed lines. -/
def outline (r : Reading) : Reading :=
  { r with
    sections := r.sections.map fun s => (s.1, s.2.map Draft.outline)
    malformed := r.malformed.map fun _ => (0, "") }

theorem outline_outline (r : Reading) : r.outline.outline = r.outline := by
  simp [outline, Draft.outline, Function.comp_def]

theorem lookup_outline (r : Reading) (name : String) :
    r.outline.sections.lookup name = (r.sections.lookup name).map (·.map Draft.outline) :=
  lookup_map_snd (fun _ (drafts : List Draft) => drafts.map Draft.outline) r.sections name

theorem drafts_outline (r : Reading) (name : String) :
    r.outline.drafts name = (r.drafts name).map Draft.outline := by
  rw [drafts, drafts, lookup_outline]
  cases r.sections.lookup name <;> rfl

theorem drafted?_outline (r : Reading) (name key : String) :
    r.outline.drafted? name key = (r.drafted? name key).map Draft.outline := by
  rw [drafted?, drafted?, drafts_outline, List.find?_map]
  rfl

theorem continued?_outline (r : Reading) :
    r.outline.continued? = r.continued?.map fun c => (c.1, c.2.outline) := by
  have hfind := r.drafted?_outline
  unfold drafted? at hfind
  unfold continued?
  simp only [hfind]
  have hopen : r.outline.open? = r.open? := rfl
  have hlast : r.outline.key? = r.key? := rfl
  rw [hopen, hlast]
  cases r.open? with
  | none => rfl
  | some name =>
    cases r.key? with
    | none => rfl
    | some key =>
      dsimp only
      split
      · rfl
      · rw [Option.map_map, Option.map_map]
        rfl

theorem outline_onSection (r : Reading) (name : String) {f g : List Draft → List Draft}
    (h : ∀ drafts, (f drafts).map Draft.outline = g (drafts.map Draft.outline)) :
    (r.onSection name f).outline = r.outline.onSection name g := by
  have hsections : ∀ s : String × List Draft,
      ((if s.1 = name then (s.1, f s.2) else s).1,
        (if s.1 = name then (s.1, f s.2) else s).2.map Draft.outline) =
      if s.1 = name then (s.1, g (s.2.map Draft.outline)) else (s.1, s.2.map Draft.outline) := by
    intro s
    split
    · rw [h]
    · rfl
  simp [outline, onSection, Function.comp_def, hsections]

/-- The value of a key is not in the outline. -/
theorem outline_extend (r : Reading) (name key : String) (l : List Char) :
    (r.extend name key l).outline = r.outline := by
  have hsame : r.outline.onSection name id = r.outline := by simp [onSection]
  rw [extend, outline_onSection r name (g := id), hsame]
  intro drafts
  rw [List.map_map, id]
  refine List.map_congr_left fun d _ => ?_
  dsimp only [Function.comp_apply]
  split
  · simp [Draft.outline, Function.comp_def]
  · rfl

theorem outline_blank (r : Reading) : r.blank.outline = r.outline := by
  unfold blank
  split
  · exact r.outline_extend _ _ _
  · rfl

/-- The outline of what is read, if anything is. -/
def outlineOf {ε : Type} (x : Except ε Reading) : Option Reading := x.toOption.map outline

theorem outlineOf_mapError {ε ε' : Type} (x : Except ε Reading) (f : ε → ε') :
    outlineOf (x.mapError f) = outlineOf x := by
  cases x <;> rfl

theorem outlineOf_header (r : Reading) (number number' : Nat) (name : String) :
    outlineOf (r.outline.header number' name) = outlineOf (r.header number name) := by
  unfold header
  dsimp only
  rw [lookup_outline, Option.isNone_map]
  split
  · simp [outlineOf, Except.toOption, outline, Draft.outline, Function.comp_def]
  · split
    · simp [outlineOf, Except.toOption, outline, Draft.outline, Function.comp_def]
    · rfl

theorem any_drafts_of_outline (h : r.outline = r'.outline) (name key : String) :
    (r.drafts name).any (·.key = key) = (r'.drafts name).any (·.key = key) := by
  have hany : ∀ r : Reading,
      (r.drafts name).any (·.key = key) = (r.outline.drafts name).any (·.key = key) := by
    intro r
    rw [drafts_outline, List.any_map]
    rfl
  rw [hany r, hany r', h]

theorem outlineOf_option (r : Reading) (number number' : Nat) (name : String) (l l' text : List Char) :
    outlineOf (r.outline.option number' name l' text) = outlineOf (r.option number name l text) := by
  have hmalformed : (if (keyAndValue text).1.isEmpty then
        { r.outline with malformed := r.outline.malformed ++ [(number', String.ofList l')] }
      else r.outline).outline =
      (if (keyAndValue text).1.isEmpty then
        { r with malformed := r.malformed ++ [(number, String.ofList l)] } else r).outline := by
    split
    · simp [outline, Draft.outline, Function.comp_def]
    · exact r.outline_outline
  unfold option
  dsimp only
  generalize (if (keyAndValue text).1.isEmpty then
    { r.outline with malformed := r.outline.malformed ++ [(number', String.ofList l')] }
      else r.outline) = r₁ at hmalformed
  generalize (if (keyAndValue text).1.isEmpty then
    { r with malformed := r.malformed ++ [(number, String.ofList l)] } else r) = r₂ at hmalformed
  rw [any_drafts_of_outline hmalformed]
  split
  · rfl
  · have hadded : ∀ d : Draft, (r₁.onSection name (· ++ [d])).outline =
        (r₂.onSection name (· ++ [d])).outline := by
      intro d
      rw [outline_onSection r₁ name (g := (· ++ [d.outline])) (by simp),
        outline_onSection r₂ name (g := (· ++ [d.outline])) (by simp), hmalformed]
    exact congrArg (fun r : Reading => some
      { r with key? := some (smallLetters (String.ofList (keyAndValue text).1)) }) (hadded _)

theorem outlineOf_opening (r : Reading) (number number' : Nat) (l : List Char) :
    outlineOf (r.outline.opening number' l) = outlineOf (r.opening number l) := by
  have hindent : { r.outline with indent := indentation l } =
    { r with indent := indentation l }.outline := rfl
  have hopen : r.outline.open? = r.open? := rfl
  unfold opening
  rw [hindent, hopen]
  cases headerName? (trimChars l) with
  | some name =>
    dsimp only
    rw [outlineOf_mapError, outlineOf_mapError]
    exact outlineOf_header _ _ _ _
  | none =>
    cases r.open? with
    | none => rfl
    | some name =>
      dsimp only
      rw [outlineOf_mapError, outlineOf_mapError]
      exact outlineOf_option _ _ _ _ _ _ _

theorem outlineOf_line (r : Reading) (number number' : Nat) (l : List Char) :
    outlineOf (r.outline.line number' l) = outlineOf (r.line number l) := by
  have hindent : r.outline.indent = r.indent := rfl
  have hcontinued : (if r.indent < indentation l then r.outline.continued? else none) =
      (if r.indent < indentation l then r.continued? else none).map fun c => (c.1, c.2.outline) := by
    rw [continued?_outline]
    split <;> rfl
  rw [line_eq, line_eq, hindent, hcontinued]
  split
  · simp [outlineOf, Except.toOption, outline_blank, outline_outline]
  · split
    · simp [outlineOf, Except.toOption, outline_outline]
    · generalize (if r.indent < indentation l then r.continued? else none) = goesOn
      match goesOn with
      | none => exact outlineOf_opening r number number' l
      | some (_, ⟨_, none⟩) => rfl
      | some (name, ⟨key, some _⟩) =>
        simp [Draft.outline, outlineOf, Except.toOption, outline_extend, outline_outline]

/-- **How reading goes on is told by the outline**: what the values before were makes no difference. -/
theorem outlineOf_lines (h : r.outline = r'.outline) (number number' : Nat) (ls : List (List Char)) :
    outlineOf (r.lines number ls) = outlineOf (r'.lines number' ls) := by
  induction ls generalizing r r' number number' with
  | nil => exact congrArg some h
  | cons l ls ih =>
    have hline : outlineOf (r.line number l) = outlineOf (r'.line number' l) := by
      rw [← outlineOf_line r number 0, h, outlineOf_line]
    rw [lines, lines]
    cases hfirst : r.line number l with
    | error stop =>
      cases hother : r'.line number' l with
      | error stop' => rfl
      | ok mid' =>
        rw [hfirst, hother] at hline
        cases hline
    | ok mid =>
      cases hother : r'.line number' l with
      | error stop' =>
        rw [hfirst, hother] at hline
        cases hline
      | ok mid' =>
        rw [hfirst, hother] at hline
        exact ih (Option.some.inj hline) _ _

end Reading

end WeaveStep.Ini
