/-! # Sets of code points

A character class of a standard is a list of closed intervals of code points in ascending order;
a search stops at the first interval that starts beyond the character. -/

namespace WeaveStep.Text

/-- A set of characters as ascending, disjoint, closed intervals of code points. -/
structure CodeSet where
  intervals : List (Nat × Nat)

/-- The interval of an ascending list that holds `n`. -/
def intervalOf? (n : Nat) : List (Nat × Nat) → Option (Nat × Nat)
  | [] => none
  | i :: rest => if n < i.1 then none else if n ≤ i.2 then some i else intervalOf? n rest

/-- The interval that holds the character. -/
def CodeSet.interval? (s : CodeSet) (c : Char) : Option (Nat × Nat) := intervalOf? c.toNat s.intervals

/-- Membership. -/
def CodeSet.contains (s : CodeSet) (c : Char) : Bool := (s.interval? c).isSome

theorem intervalOf?_mem {n : Nat} {l : List (Nat × Nat)} {i : Nat × Nat}
    (h : intervalOf? n l = some i) : i ∈ l ∧ i.1 ≤ n ∧ n ≤ i.2 := by
  induction l with
  | nil => simp [intervalOf?] at h
  | cons j rest ih =>
    rw [intervalOf?] at h
    split at h
    · simp at h
    · split at h
      · obtain rfl := Option.some.inj h
        exact ⟨List.mem_cons_self, by omega, by assumption⟩
      · exact ⟨List.mem_cons_of_mem _ (ih h).1, (ih h).2⟩

end WeaveStep.Text
