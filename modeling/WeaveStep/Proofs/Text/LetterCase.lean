import WeaveStep.Text.LetterCase

/-!
# Texts in small letters

* `smallLettersAfter_eq_map`: a text is put in small letters character by character, but for the
  capital sigma, which looks around, and the dotted capital i, which leaves its dot behind
  (`dot_mem_smallLettersAfter`).
* **`smallLetters_eq_self`**: a text of plain characters without capitals stays as it is.
-/

namespace WeaveStep.Text

theorem smallLettersAfter_eq_map {before s : List Char} (h : ∀ c ∈ s, c ≠ 'Σ' ∧ c ≠ 'İ') :
    smallLettersAfter before s = s.map smallLetter := by
  induction s generalizing before with
  | nil => rfl
  | cons c rest ih =>
    obtain ⟨hs, hi⟩ := h c (by simp)
    rw [smallLettersAfter, if_neg hs, if_neg hi, ih fun d hd => h d (by simp [hd])]
    rfl

/-- In small letters, a dotted capital i leaves its dot behind. -/
theorem dot_mem_smallLettersAfter {before s : List Char} (h : 'İ' ∈ s) :
    '\u0307' ∈ smallLettersAfter before s := by
  induction s generalizing before with
  | nil => simp at h
  | cons c rest ih =>
    rw [smallLettersAfter]
    rcases List.mem_cons.1 h with rfl | hr
    · simp
    · exact List.mem_append_right _ (ih hr)

/-! ## What is in small letters -/

/-- Characters before the first accented letter, and no capitals. -/
def IsSmall (c : Char) : Prop := c.toNat < 0xc0 ∧ c.isUpper = false

instance : DecidablePred IsSmall := fun _ => inferInstanceAs (Decidable (_ ∧ _))

theorem smallLetter_eq_self {c : Char} (h : IsSmall c) : smallLetter c = c := by
  obtain ⟨hlow, hcapital⟩ := h
  have hruns : ∀ r ∈ caseRuns, r.first = 0x41 ∧ r.last = 0x5a ∨ 0xc0 ≤ r.first := by decide +kernel
  have hcapital : ¬ (0x41 ≤ c.toNat ∧ c.toNat ≤ 0x5a) := by
    rintro ⟨hfirst, hlast⟩
    have hupper : c.isUpper = true := decide_eq_true ⟨hfirst, hlast⟩
    rw [hupper] at hcapital
    cases hcapital
  have hnone : caseRuns.findSome? (fun r => r.small? c.toNat) = none := by
    refine List.findSome?_eq_none_iff.2 fun r hr => if_neg ?_
    rintro ⟨hfirst, hlast, -⟩
    rcases hruns r hr with ⟨heq, heq'⟩ | hhigh
    · exact hcapital ⟨heq ▸ hfirst, heq' ▸ hlast⟩
    · omega
  rw [smallLetter, hnone]
  rfl

/-- **Texts without capitals** stay as they are. -/
theorem smallLetters_eq_self {s : String} (h : ∀ c ∈ s.toList, IsSmall c) : smallLetters s = s := by
  have hplain : ∀ c ∈ s.toList, c ≠ 'Σ' ∧ c ≠ 'İ' := by
    intro c hc
    constructor
    · rintro rfl
      exact absurd (h _ hc) (by decide)
    · rintro rfl
      exact absurd (h _ hc) (by decide)
  have hsame : s.toList.map smallLetter = s.toList :=
    (List.map_congr_left fun c hc => smallLetter_eq_self (h c hc)).trans (List.map_id' _)
  rw [smallLetters, smallLettersAfter_eq_map hplain, hsame, String.ofList_toList]

end WeaveStep.Text
