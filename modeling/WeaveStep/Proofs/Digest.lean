import WeaveStep.Digest
import WeaveStep.Proofs.Text.LetterCase

/-!
# How digests are written

A digest is written in 64 digits (`length_ofBytes`), and these are small (`digit_of_mem_ofBytes`), so
that it stays as it is in small letters (`smallLetters_ofBytes`).
-/

namespace WeaveStep.Digest

open Text

/-- The digits of base sixteen. -/
def digits : List Char := "0123456789abcdef".toList

theorem digit_of_mem_hexWord {w : UInt32} {c : Char} (h : c ∈ hexWord w) : c ∈ digits := by
  have hdigit : ∀ n < 16, Nat.digitChar n ∈ digits := by decide
  obtain ⟨i, -, rfl⟩ := List.mem_map.1 h
  exact hdigit _ (Nat.mod_lt _ (by decide))

theorem digit_of_mem_ofBytes {bytes : List UInt8} {c : Char} (h : c ∈ (ofBytes bytes).toList) :
    c ∈ digits := by
  rw [ofBytes, State.finish, String.toList_ofList] at h
  obtain ⟨w, -, hw⟩ := List.mem_flatMap.1 h
  exact digit_of_mem_hexWord hw

theorem length_ofBytes (bytes : List UInt8) : (ofBytes bytes).toList.length = 64 := by
  simp [ofBytes, State.finish, Words.toList, hexWord]

theorem length_shortOf (s : String) : (shortOf s).toList.length = 16 := by
  simp [shortOf, length_ofBytes]

theorem digit_of_mem_shortOf {s : String} {c : Char} (h : c ∈ (shortOf s).toList) : c ∈ digits := by
  rw [shortOf, String.toList_ofList] at h
  exact digit_of_mem_ofBytes (List.mem_of_mem_take h)

theorem smallLetters_ofBytes (bytes : List UInt8) : smallLetters (ofBytes bytes) = ofBytes bytes := by
  -- as a test of the list, which is run; characters are too many to go through
  have hdigits : (digits.all fun c => IsSmall c) = true := by decide
  exact smallLetters_eq_self fun c hc =>
    of_decide_eq_true (List.all_eq_true.1 hdigits c (digit_of_mem_ofBytes hc))

end WeaveStep.Digest
