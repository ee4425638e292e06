import Mathlib.Logic.Basic
import WeaveStep.Ini.Document
import WeaveStep.Proofs.Always

/-!
# The reader of INI documents

What the reader does with a line goes by what it knows so far. It stops without a failure to report
exactly at an indented line below a key that stands alone (`Reading.GoesOnNothing`,
`readLines_nothingToContinue_iff`).
-/

namespace WeaveStep.Ini

open Text

variable {r r' : Reading} {number : Nat} {l : List Char} {ls : List (List Char)} {stop : Stop}

namespace Reading

/-- The line goes on the value of a key that has none. -/
structure GoesOnNothing (r : Reading) (l : List Char) : Prop where
  told : trimChars l ≠ []
  noComment : isComment (trimChars l) = false
  indented : r.indent < indentation l
  alone : ∃ name draft, r.continued? = some (name, draft) ∧ draft.lines = none

theorem lines_append (front : List (List Char)) : r.lines number (front ++ ls) =
    r.lines number front >>= fun mid => mid.lines (number + front.length) ls := by
  induction front generalizing r number with
  | nil => rfl
  | cons l front ih =>
    rw [List.cons_append, lines, lines]
    cases r.line number l with
    | error stop => rfl
    | ok mid =>
      have hrest : mid.lines (number + 1) (front ++ ls) =
          mid.lines (number + 1) front >>= fun r => r.lines (number + 1 + front.length) ls := ih
      refine hrest.trans ?_
      rw [List.length_cons, Nat.add_assoc, Nat.add_comm 1]
      rfl

theorem mapError_ne_nothingToContinue {x : Except ReadFailure Reading} :
    x.mapError Stop.failure ≠ .error .nothingToContinue := by
  cases x <;> simp [Except.mapError]

theorem line_nothingToContinue_iff :
    r.line number l = .error .nothingToContinue ↔ r.GoesOnNothing l := by
  constructor
  · intro h
    unfold line at h
    dsimp only at h
    split at h
    · cases h
    · rename_i htold
      split at h
      · cases h
      · rename_i hcomment
        split at h
        · rename_i name key hdraft
          split at hdraft
          · rename_i hindent
            exact ⟨by simpa using htold, by simpa using hcomment, hindent, name, _, hdraft, rfl⟩
          · cases hdraft
        · cases h
        · split at h
          · exact absurd h mapError_ne_nothingToContinue
          · cases h
          · exact absurd h mapError_ne_nothingToContinue
  · rintro ⟨htold, hcomment, hindent, name, ⟨key, lines⟩, hdraft, hlone⟩
    obtain rfl : lines = none := hlone
    simp [line, htold, hcomment, hindent, hdraft]

theorem lines_nothingToContinue_iff : r.lines number ls = .error .nothingToContinue ↔
    ∃ before l after r', ls = before ++ l :: after ∧ r.lines number before = .ok r' ∧
      r'.GoesOnNothing l := by
  induction ls generalizing r number with
  | nil => simp [lines]
  | cons l ls ih =>
    rw [lines]
    constructor
    · intro h
      cases hline : r.line number l with
      | error stop =>
        rw [hline] at h
        cases h
        exact ⟨[], l, ls, r, rfl, rfl, line_nothingToContinue_iff.1 hline⟩
      | ok mid =>
        rw [hline] at h
        obtain ⟨before, l', after, r', rfl, hbefore, hgoes⟩ := ih.1 h
        refine ⟨l :: before, l', after, r', rfl, ?_, hgoes⟩
        rw [lines, hline]
        exact hbefore
    · rintro ⟨before, l', after, r', hsplit, hbefore, hgoes⟩
      cases before with
      | nil =>
        cases hbefore
        obtain ⟨rfl, rfl⟩ := List.cons.inj hsplit
        rw [line_nothingToContinue_iff.2 hgoes]
        rfl
      | cons first before =>
        obtain ⟨rfl, rfl⟩ := List.cons.inj hsplit
        rw [lines] at hbefore
        cases hline : r.line number l with
        | error stop =>
          rw [hline] at hbefore
          cases hbefore
        | ok mid =>
          rw [hline] at hbefore
          exact ih.2 ⟨before, l', after, r', rfl, hbefore, hgoes⟩

end Reading

/-- Among the lines is one that goes on the value of a key that stands alone. -/
def GoOnNothing (ls : List (List Char)) : Prop :=
  ∃ before l after r, ls = before ++ l :: after ∧ ({} : Reading).lines 1 before = .ok r ∧
    r.GoesOnNothing l

/-- Reading stops without a failure to report exactly at such a line. -/
theorem readLines_nothingToContinue_iff :
    readLines ls = .error .nothingToContinue ↔ GoOnNothing ls := by
  refine Iff.trans ?_ Reading.lines_nothingToContinue_iff
  unfold readLines
  cases ({} : Reading).lines 1 ls with
  | error stop =>
    constructor
    all_goals
      intro h
      cases h
      rfl
  | ok r =>
    have hread : (Except.ok r : Except Stop Reading) >>= (fun r =>
        if r.malformed.isEmpty then return r.document
        else throw (.failure (.malformed r.malformed))) =
          if r.malformed.isEmpty then (.ok r.document : Except Stop Document)
          else .error (.failure (.malformed r.malformed)) := rfl
    rw [hread]
    split <;> simp

end WeaveStep.Ini
