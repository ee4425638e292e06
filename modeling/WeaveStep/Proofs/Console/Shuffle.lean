import WeaveStep.Console.Messages

/-!
# Shuffles

`IsShuffle u v w`: the list `w` holds what is in `u` and in `v`, each of them in its order. Two
lists that agree on what belongs to every key hold the same (`perm_of_filter_eq`), and a list is a
shuffle of its elements of one kind and those of the other (`isShuffle_filter`).
-/

namespace WeaveStep.Console

/-- `w` is `u` and `v` put into one list, either of them in its order. -/
inductive IsShuffle {α : Type} : List α → List α → List α → Prop
  | nil : IsShuffle [] [] []
  | left {a : α} {u v w : List α} : IsShuffle u v w → IsShuffle (a :: u) v (a :: w)
  | right {a : α} {u v w : List α} : IsShuffle u v w → IsShuffle u (a :: v) (a :: w)

section

variable {α : Type} {u v w : List α}

theorem IsShuffle.eq_left (h : IsShuffle u [] w) : w = u := by
  generalize hv : ([] : List α) = v at h
  induction h with
  | nil => rfl
  | left _ ih => rw [ih hv]
  | right => cases hv

theorem IsShuffle.eq_right (h : IsShuffle [] v w) : w = v := by
  generalize hu : ([] : List α) = u at h
  induction h with
  | nil => rfl
  | left => cases hu
  | right _ ih => rw [ih hu]

end

/-- Lists of which the same belongs to every key, in the same order, hold the same. -/
theorem perm_of_filter_eq {α κ : Type} [DecidableEq α] [DecidableEq κ] (key : α → κ) {u v : List α}
    (h : ∀ k, u.filter (key · = k) = v.filter (key · = k)) : u.Perm v := by
  rw [List.perm_iff_count]
  intro a
  have hcount := congrArg (List.count a) (h (key a))
  rwa [List.count_filter (by simp), List.count_filter (by simp)] at hcount

/-- A list whose elements are of two kinds is a shuffle of those of one kind and those of the
other. -/
theorem isShuffle_filter {α : Type} {p q : α → Bool} {w : List α} (h : ∀ a ∈ w, p a = !q a) :
    IsShuffle (w.filter p) (w.filter q) w := by
  induction w with
  | nil => exact .nil
  | cons a w ih =>
    have ha := h a (by simp)
    have hw := ih fun b hb => h b (by simp [hb])
    cases hq : q a with
    | false => simpa [hq, ha] using IsShuffle.left hw
    | true => simpa [hq, ha] using IsShuffle.right hw

end WeaveStep.Console
