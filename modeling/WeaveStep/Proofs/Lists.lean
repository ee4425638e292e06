import Mathlib.Data.List.Forall2
import Mathlib.Data.List.Sort

/-!
# Lists

Facts about lists whose elements are related one by one, about lists without repetitions, about
sorted lists of names and about looking up in lists.
-/

namespace WeaveStep

variable {ε α β : Type} {R : α → β → Prop} {as : List α} {bs : List β}

theorem exists_congr_of_forall₂ {P : α → Prop} {Q : β → Prop} (h : List.Forall₂ R as bs)
    (hR : ∀ a b, R a b → (P a ↔ Q b)) : (∃ a ∈ as, P a) ↔ ∃ b ∈ bs, Q b := by
  induction h with
  | nil => simp
  | cons hab _ ih => simp [hR _ _ hab, ih]

theorem exists_of_mem_forall₂ (h : List.Forall₂ R as bs) {a : α} (ha : a ∈ as) :
    ∃ b ∈ bs, R a b := by
  induction h with
  | nil => cases ha
  | cons hab _ ih =>
    rcases List.mem_cons.1 ha with rfl | ha
    · exact ⟨_, List.mem_cons_self, hab⟩
    · obtain ⟨b, hb, hab⟩ := ih ha
      exact ⟨b, List.mem_cons_of_mem _ hb, hab⟩

theorem nodup_eraseDups {α : Type} [DecidableEq α] (as : List α) : as.eraseDups.Nodup := by
  match as with
  | [] => simp
  | a :: as =>
    have := List.length_filter_le (fun b => !b == a) as
    rw [List.eraseDups_cons, List.nodup_cons]
    exact ⟨by simp, nodup_eraseDups _⟩
termination_by as.length

theorem pairwise_mergeSort (names : List String) :
    (names.mergeSort (fun a b => a ≤ b)).Pairwise (· ≤ ·) := by
  have h := @List.pairwise_mergeSort _ (fun a b : String => decide (a ≤ b))
    (fun a b c => by simpa using String.le_trans) (fun a b => by simpa using String.le_total a b)
    names
  simpa using h

theorem mergeSort_eq {names sorted : List String} (hperm : names.Perm sorted)
    (hsorted : sorted.Pairwise (· ≤ ·)) : names.mergeSort (fun a b => a ≤ b) = sorted :=
  ((List.mergeSort_perm _ _).trans hperm).eq_of_pairwise
    (fun _ _ _ _ => String.le_antisymm) (pairwise_mergeSort names) hsorted

theorem lookup_of_mem [DecidableEq α] {l : List (α × β)} {a : α} {b : β}
    (hdistinct : (l.map Prod.fst).Nodup) (h : (a, b) ∈ l) : l.lookup a = some b := by
  induction l with
  | nil => cases h
  | cons p l ih =>
    obtain ⟨hfirst, hdistinct⟩ := List.nodup_cons.1 hdistinct
    rcases List.mem_cons.1 h with rfl | h
    · exact List.lookup_cons_self
    · have hne : (a == p.1) = false := by
        rw [beq_eq_false_iff_ne]
        exact fun heq => hfirst (List.mem_map.2 ⟨(a, b), h, heq⟩)
      rw [List.lookup_cons, hne]
      exact ih hdistinct h

theorem lookup_of_not_mem [DecidableEq α] {l : List (α × β)} {a : α} (h : a ∉ l.map Prod.fst) :
    l.lookup a = none := by
  rw [List.lookup_eq_none_iff]
  intro p hp
  rw [bne_iff_ne]
  rintro rfl
  exact h (List.mem_map_of_mem hp)

/-- Looking up among things with keys finds the first of that key. -/
theorem lookup_map_find? {γ : Type} [DecidableEq α] (key : β → α) (f : β → γ) (bs : List β) (a : α) :
    (bs.map fun b => (key b, f b)).lookup a = (bs.find? (key · = a)).map f := by
  induction bs with
  | nil => rfl
  | cons b bs ih =>
    rw [List.map_cons, List.lookup_cons, ih, List.find?_cons]
    by_cases h : key b = a
    · simp [h]
    · have hne : (a == key b) = false := by simpa using Ne.symm h
      simp [h, hne]

theorem lookup_map_snd {γ : Type} [DecidableEq α] (f : α → β → γ) (l : List (α × β)) (a : α) :
    (l.map fun p => (p.1, f p.1 p.2)).lookup a = (l.lookup a).map (f a) := by
  induction l with
  | nil => rfl
  | cons p l ih =>
    rw [List.map_cons, List.lookup_cons, List.lookup_cons, ih]
    by_cases h : a = p.1
    · simp [h]
    · have hne : (a == p.1) = false := by simpa using h
      simp [hne]

end WeaveStep
