import Mathlib.Data.List.TakeWhile
import WeaveStep.Text.Blank

/-!
# Trimmed text

What `trimRight` and `trim` do, said without them: `IsRightTrim s t` and `IsTrim s t` hold where `t`
is `s` without the blanks at its end, or at both ends, and nothing else is missing
(`trimRight_spec`, `trim_spec`).
-/

namespace WeaveStep.Text

/-- A text of blanks only. -/
def Blanks (s : List Char) : Prop := ∀ c ∈ s, isBlank c = true

@[simp] theorem Blanks.nil : Blanks [] := by simp [Blanks]

theorem blanks_cons {c : Char} {s : List Char} : Blanks (c :: s) ↔ isBlank c = true ∧ Blanks s := by
  simp [Blanks]

theorem Blanks.append {s t : List Char} (hs : Blanks s) (ht : Blanks t) : Blanks (s ++ t) := by
  intro c hc
  rcases List.mem_append.1 hc with h | h
  · exact hs c h
  · exact ht c h

theorem blanks_takeWhile (s : List Char) : Blanks (s.takeWhile isBlank) :=
  fun _ hc => List.mem_takeWhile_imp hc

/-- Neither end is a blank. -/
def HasBareEnds (s : List Char) : Prop :=
  (∀ c ∈ s.head?, isBlank c = false) ∧ ∀ c ∈ s.getLast?, isBlank c = false

-- by a test of the two ends; characters are too many to go through
instance (s : List Char) : Decidable (HasBareEnds s) :=
  decidable_of_iff ((s.head?.all fun c => !isBlank c) = true ∧ (s.getLast?.all fun c => !isBlank c) = true)
    (by simp [HasBareEnds, Option.all_eq_true])

/-- `t` is `s` without the blanks at its end, all of them. -/
def IsRightTrim (s t : List Char) : Prop :=
  ∃ gap, Blanks gap ∧ s = t ++ gap ∧ ∀ c ∈ t.getLast?, isBlank c = false

/-- `t` is `s` without the blanks around it, all of them. -/
def IsTrim (s t : List Char) : Prop :=
  ∃ before after, Blanks before ∧ Blanks after ∧ s = before ++ t ++ after ∧ HasBareEnds t

/-! ## Trimming -/

theorem trimRightChars_spec (s : List Char) : IsRightTrim s (trimRightChars s) := by
  induction s with
  | nil => exact ⟨[], .nil, rfl, by simp [trimRightChars]⟩
  | cons c rest ih =>
    obtain ⟨gap, hgap, hrest, hlast⟩ := ih
    cases hk : trimRightChars rest with
    | nil =>
      rw [hk, List.nil_append] at hrest
      subst hrest
      by_cases hc : isBlank c = true
      · exact ⟨c :: rest, blanks_cons.2 ⟨hc, hgap⟩, by simp [trimRightChars, hk, hc],
          by simp [trimRightChars, hk, hc]⟩
      · exact ⟨rest, hgap, by simp [trimRightChars, hk, hc], by simp [trimRightChars, hk, hc]⟩
    | cons d kept =>
      have hcons : trimRightChars (c :: rest) = c :: d :: kept := by simp [trimRightChars, hk]
      rw [hk] at hrest hlast
      exact ⟨gap, hgap, by rw [hcons, hrest]; rfl,
        by rw [hcons, List.getLast?_cons_cons]; exact hlast⟩

/-- Trimming at the end does not touch the front of a text that is not all blank. -/
theorem head?_trimRightChars {s : List Char} (h : ∀ c ∈ s.head?, isBlank c = false) :
    ∀ c ∈ (trimRightChars s).head?, isBlank c = false := by
  obtain ⟨gap, -, hs, -⟩ := trimRightChars_spec s
  cases ht : trimRightChars s with
  | nil => simp
  | cons d kept =>
    rw [ht] at hs
    exact fun c hc => h c (by rw [hs]; exact hc)

theorem trimChars_spec (s : List Char) : IsTrim s (trimChars s) := by
  obtain ⟨gap, hgap, hs, hlast⟩ := trimRightChars_spec (s.dropWhile isBlank)
  refine ⟨s.takeWhile isBlank, gap, blanks_takeWhile s, hgap, ?_, ?_, hlast⟩
  · rw [trimChars, List.append_assoc, ← hs, List.takeWhile_append_dropWhile]
  · refine head?_trimRightChars fun c hc => ?_
    have h := List.head?_dropWhile_not isBlank s
    rw [Option.mem_def.1 hc] at h
    simpa using h

theorem trimRight_spec (s : String) : IsRightTrim s.toList (trimRight s).toList := by
  rw [trimRight, String.toList_ofList]
  exact trimRightChars_spec s.toList

theorem trim_spec (s : String) : IsTrim s.toList (trim s).toList := by
  rw [trim, String.toList_ofList]
  exact trimChars_spec s.toList

/-- A text that does not end in a blank is trimmed at its end already. -/
theorem trimRightChars_of_bare {s : List Char} (h : ∀ c ∈ s.getLast?, isBlank c = false) :
    trimRightChars s = s := by
  obtain ⟨gap, hgap, hs, -⟩ := trimRightChars_spec s
  rcases List.eq_nil_or_concat gap with rfl | ⟨front, c, rfl⟩
  · simpa using hs.symm
  · have hlast : s.getLast? = some c := by rw [hs]; simp
    have hc := hgap c (by simp)
    rw [h c hlast] at hc
    cases hc

/-- A text with bare ends is trimmed already. -/
theorem HasBareEnds.trimChars_eq {s : List Char} (h : HasBareEnds s) : trimChars s = s := by
  have hdrop : s.dropWhile isBlank = s := by
    cases s with
    | nil => rfl
    | cons c rest => simp [h.1 c (by simp)]
  rw [trimChars, hdrop, trimRightChars_of_bare h.2]

theorem trim_of_bare {s : String} (h : HasBareEnds s.toList) : trim s = s := by
  rw [trim, h.trimChars_eq, String.ofList_toList]

/-- Blanks at the end do not matter. -/
theorem trimRightChars_append_blanks {gap : List Char} (h : Blanks gap) (s : List Char) :
    trimRightChars (s ++ gap) = trimRightChars s := by
  have hgap : trimRightChars gap = [] := by
    induction gap with
    | nil => rfl
    | cons c gap ih =>
      obtain ⟨hc, hgap⟩ := blanks_cons.1 h
      simp [trimRightChars, ih hgap, hc]
  induction s with
  | nil => simpa [trimRightChars] using hgap
  | cons c s ih => rw [List.cons_append, trimRightChars, trimRightChars, ih]

/-- Nothing is trimmed in front of a character that is no blank. -/
theorem trimRightChars_append_cons {c : Char} (h : isBlank c = false) (s t : List Char) :
    trimRightChars (s ++ c :: t) = s ++ c :: trimRightChars t := by
  induction s with
  | nil =>
    rw [List.nil_append, trimRightChars]
    cases trimRightChars t <;> simp [h]
  | cons d s ih =>
    rw [List.cons_append, trimRightChars, ih]
    cases s <;> simp

theorem trimChars_append_blanks {gap : List Char} (h : Blanks gap) (s : List Char) :
    trimChars (s ++ gap) = trimChars s := by
  unfold trimChars
  rw [List.dropWhile_append]
  split
  · rename_i hs
    have hgap : gap.dropWhile isBlank = [] := List.dropWhile_eq_nil_iff.2 h
    rw [hgap, List.isEmpty_iff.1 hs]
  · exact trimRightChars_append_blanks h _

/-- What is trimmed at its end may be trimmed at both. -/
theorem trimChars_trimRightChars (s : List Char) : trimChars (trimRightChars s) = trimChars s := by
  obtain ⟨gap, hgap, hs, -⟩ := trimRightChars_spec s
  calc trimChars (trimRightChars s)
      = trimChars (trimRightChars s ++ gap) := (trimChars_append_blanks hgap _).symm
    _ = trimChars s := by rw [← hs]

/-- A text that begins with no blank loses only blanks at its end. -/
theorem trimChars_of_bare {s : List Char} (h : ∀ c ∈ s.head?, isBlank c = false) :
    trimChars s = trimRightChars s := by
  cases s with
  | nil => rfl
  | cons c s => rw [trimChars, List.dropWhile_cons_of_neg (by simp [h c (by simp)])]

/-- Nothing is left of a text of blanks, and of no other. -/
theorem trimChars_eq_nil {s : List Char} : trimChars s = [] ↔ s.all isBlank = true := by
  constructor
  · intro h
    obtain ⟨before, after, hbefore, hafter, hs, -⟩ := trimChars_spec s
    rw [h, List.append_nil] at hs
    rw [hs, List.all_append, Bool.and_eq_true, List.all_eq_true, List.all_eq_true]
    exact ⟨hbefore, hafter⟩
  · intro h
    have hdrop : s.dropWhile isBlank = [] := by
      rw [List.dropWhile_eq_nil_iff]
      exact List.all_eq_true.1 h
    rw [trimChars, hdrop, trimRightChars]

theorem mem_of_mem_trimRight {s : String} {c : Char} (h : c ∈ (trimRight s).toList) : c ∈ s.toList := by
  obtain ⟨after, -, hs, -⟩ := trimRight_spec s
  rw [hs]
  exact List.mem_append_left _ h

theorem mem_of_mem_trim {s : String} {c : Char} (h : c ∈ (trim s).toList) : c ∈ s.toList := by
  obtain ⟨before, after, -, -, hs, -⟩ := trim_spec s
  rw [hs]
  simp [h]

end WeaveStep.Text
