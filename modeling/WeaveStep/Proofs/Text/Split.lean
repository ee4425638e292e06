import Mathlib.Logic.Basic
import WeaveStep.Text.Split

/-!
# Pieces of text

The pieces that `splitAt` cuts have no separator (`not_mem_of_mem_splitAt`), a text with no separator
is one piece (`splitAt_of_not_mem`), and pieces with separators between them are cut apart again
(`piecesAt_joined`). Texts that are joined by a separator come back exactly if none of them holds it
(`splitAt_intercalate_iff`), and where two texts meet the pieces at the ends become one
(`splitAt_append`). A text occurs in another where it is a part of it (`occursIn_iff`), and one that
holds the separator where its pieces stand across those of the other (`occursIn_iff_standAcross`). What
`without` leaves was there before (`mem_of_mem_without`).
-/

namespace WeaveStep.Text

variable {sep : Char}

theorem piecesAt_of_not_mem {s : List Char} (h : sep ∉ s) : piecesAt sep s = [s] := by
  induction s with
  | nil => rfl
  | cons c rest ih =>
    obtain ⟨hc, hrest⟩ : c ≠ sep ∧ sep ∉ rest := by simpa [eq_comm] using h
    rw [piecesAt, if_neg hc, ih hrest]

theorem piecesAt_append {sep : Char} {s : List Char} (h : sep ∉ s) (rest : List Char) :
    piecesAt sep (s ++ sep :: rest) = s :: piecesAt sep rest := by
  induction s with
  | nil => simp [piecesAt]
  | cons c s ih =>
    obtain ⟨hc, hs⟩ := not_or.1 (List.mem_cons.not.1 h)
    rw [List.cons_append, piecesAt, if_neg (Ne.symm hc), ih hs]

theorem piecesAt_joined {sep : Char} {s : List Char} {ss : List (List Char)} (hs : sep ∉ s)
    (hss : ∀ s ∈ ss, sep ∉ s) : piecesAt sep (s ++ ss.flatMap (sep :: ·)) = s :: ss := by
  induction ss generalizing s with
  | nil => rw [List.flatMap_nil, List.append_nil, piecesAt_of_not_mem hs]
  | cons s' ss ih =>
    obtain ⟨hs', hss⟩ := List.forall_mem_cons.1 hss
    rw [List.flatMap_cons, List.cons_append, piecesAt_append hs, ih hs' hss]

theorem not_mem_of_mem_piecesAt {s piece : List Char} (h : piece ∈ piecesAt sep s) :
    sep ∉ piece := by
  induction s generalizing piece with
  | nil =>
    obtain rfl : piece = [] := by simpa [piecesAt] using h
    simp
  | cons c rest ih =>
    rw [piecesAt] at h
    split at h
    · rcases List.mem_cons.1 h with rfl | h
      · simp
      · exact ih h
    · rename_i hc
      cases hrest : piecesAt sep rest with
      | nil => exact absurd hrest (piecesAt_ne_nil sep rest)
      | cons first pieces =>
        rw [hrest] at h ih
        rcases List.mem_cons.1 h with rfl | h
        · simpa [Ne.symm hc] using ih List.mem_cons_self
        · exact ih (List.mem_cons_of_mem _ h)

theorem mem_of_mem_piecesAt {s piece : List Char} {c : Char} (h : piece ∈ piecesAt sep s)
    (hc : c ∈ piece) : c ∈ s := by
  induction s generalizing piece with
  | nil =>
    obtain rfl : piece = [] := by simpa [piecesAt] using h
    cases hc
  | cons d rest ih =>
    rw [piecesAt] at h
    split at h
    · rcases List.mem_cons.1 h with rfl | h
      · cases hc
      · exact List.mem_cons_of_mem _ (ih h hc)
    · cases hrest : piecesAt sep rest with
      | nil => exact absurd hrest (piecesAt_ne_nil sep rest)
      | cons first pieces =>
        rw [hrest] at h ih
        rcases List.mem_cons.1 h with rfl | h
        · rcases List.mem_cons.1 hc with rfl | hc
          · exact List.mem_cons_self
          · exact List.mem_cons_of_mem _ (ih List.mem_cons_self hc)
        · exact List.mem_cons_of_mem _ (ih (List.mem_cons_of_mem _ h) hc)

theorem splitAt_of_not_mem {s : String} (h : sep ∉ s.toList) : splitAt sep s = [s] := by
  simp [splitAt, piecesAt_of_not_mem h]

theorem not_mem_of_mem_splitAt {s piece : String} (h : piece ∈ splitAt sep s) :
    sep ∉ piece.toList := by
  obtain ⟨chars, hchars, rfl⟩ := List.mem_map.1 h
  simpa using not_mem_of_mem_piecesAt hchars

theorem mem_of_mem_splitAt {s piece : String} {c : Char} (h : piece ∈ splitAt sep s)
    (hc : c ∈ piece.toList) : c ∈ s.toList := by
  obtain ⟨chars, hchars, rfl⟩ := List.mem_map.1 h
  rw [String.toList_ofList] at hc
  exact mem_of_mem_piecesAt hchars hc

/-! ## Joined texts -/

theorem piecesAt_append_sep (s rest : List Char) :
    piecesAt sep (s ++ sep :: rest) = piecesAt sep s ++ piecesAt sep rest := by
  induction s with
  | nil => simp [piecesAt]
  | cons c s ih =>
    rw [List.cons_append, piecesAt, piecesAt, ih]
    by_cases hc : c = sep
    · simp [hc]
    · cases hs : piecesAt sep s with
      | nil => exact absurd hs (piecesAt_ne_nil sep s)
      | cons piece pieces => simp [hc]

/-- Joined texts are cut apart into the pieces of each. -/
theorem splitAt_intercalate (sep : Char) {ss : List String} (h : ss ≠ []) :
    splitAt sep ((String.singleton sep).intercalate ss) = ss.flatMap (splitAt sep) := by
  induction ss with
  | nil => exact absurd rfl h
  | cons s ss ih =>
    cases ss with
    | nil => simp
    | cons s' ss =>
      rw [List.flatMap_cons, ← ih (by simp), String.intercalate_cons_cons]
      simp [splitAt, piecesAt_append_sep]

/-- Joined texts come back exactly if none of them holds the separator. -/
theorem splitAt_intercalate_iff (sep : Char) {ss : List String} (h : ss ≠ []) :
    splitAt sep ((String.singleton sep).intercalate ss) = ss ↔ ∀ s ∈ ss, sep ∉ s.toList := by
  rw [splitAt_intercalate sep h]
  constructor
  · intro heq s hs
    rw [← heq] at hs
    obtain ⟨_, -, hpiece⟩ := List.mem_flatMap.1 hs
    exact not_mem_of_mem_splitAt hpiece
  · intro hfree
    clear h
    induction ss with
    | nil => rfl
    | cons s ss ih =>
      obtain ⟨hs, hss⟩ := List.forall_mem_cons.1 hfree
      rw [List.flatMap_cons, ih hss, splitAt_of_not_mem hs]
      rfl

/-- Joined texts come back, even if there are none, once the pieces that are no texts are left out. -/
theorem filter_splitAt_intercalate (sep : Char) {keep : String → Bool} {ss : List String}
    (hempty : keep "" = false) (h : ∀ s ∈ ss, keep s = true ∧ sep ∉ s.toList) :
    (splitAt sep ((String.singleton sep).intercalate ss)).filter keep = ss := by
  by_cases hss : ss = []
  · have hnone : splitAt sep "" = [""] := splitAt_of_not_mem (by simp)
    simp [hss, hnone, hempty]
  · rw [(splitAt_intercalate_iff sep hss).2 fun s hs => (h s hs).2]
    exact List.filter_eq_self.2 fun s hs => (h s hs).1

/-! ## Texts put together -/

/-- Where two texts meet, the last piece of the one and the first of the other are one piece. -/
theorem piecesAt_append_glued {s t : List Char} {front : List (List Char)} {last first : List Char}
    {rest : List (List Char)} (hs : piecesAt sep s = front ++ [last])
    (ht : piecesAt sep t = first :: rest) :
    piecesAt sep (s ++ t) = front ++ (last ++ first) :: rest := by
  induction s generalizing front last with
  | nil =>
    obtain ⟨rfl, rfl⟩ : front = [] ∧ last = [] := by
      cases front <;> simp_all [piecesAt]
    simpa using ht
  | cons c s ih =>
    rw [List.cons_append, piecesAt]
    rw [piecesAt] at hs
    by_cases hc : c = sep
    · rw [if_pos hc] at hs ⊢
      cases front with
      | nil =>
        -- what follows a separator has a piece of its own
        exact absurd (List.cons.inj hs).2 (piecesAt_ne_nil sep s)
      | cons piece front =>
        simp only [List.cons_append, List.cons.injEq] at hs
        rw [ih hs.2, ← hs.1]
        rfl
    · rw [if_neg hc] at hs ⊢
      cases hpieces : piecesAt sep s with
      | nil => exact absurd hpieces (piecesAt_ne_nil sep s)
      | cons piece pieces =>
        rw [hpieces] at hs
        cases front with
        | nil =>
          obtain ⟨rfl, rfl⟩ := List.cons.inj hs
          have hmeet : piecesAt sep (s ++ t) = [] ++ (piece ++ first) :: rest := ih hpieces
          rw [hmeet]
          simp
        | cons piece' front =>
          obtain ⟨rfl, rfl⟩ := List.cons.inj hs
          have hmeet : piecesAt sep (s ++ t) = (piece :: front) ++ (last ++ first) :: rest := ih hpieces
          rw [hmeet]
          simp

theorem splitAt_eq_iff {s : String} {pieces : List String} :
    splitAt sep s = pieces ↔ piecesAt sep s.toList = pieces.map String.toList := by
  constructor
  · rintro rfl
    simp [splitAt]
  · intro h
    simp [splitAt, h]

theorem splitAt_append {s t last first : String} {front rest : List String}
    (hs : splitAt sep s = front ++ [last]) (ht : splitAt sep t = first :: rest) :
    splitAt sep (s ++ t) = front ++ (last ++ first) :: rest := by
  rw [splitAt_eq_iff] at hs ht ⊢
  rw [List.map_append] at hs
  rw [String.toList_append, piecesAt_append_glued hs ht]
  simp

theorem splitAt_ne_nil (sep : Char) (s : String) : splitAt sep s ≠ [] := by
  simp [splitAt, piecesAt_ne_nil]

theorem exists_splitAt_eq_append (sep : Char) (s : String) :
    ∃ front last, splitAt sep s = front ++ [last] :=
  ⟨_, _, (List.dropLast_concat_getLast (splitAt_ne_nil sep s)).symm⟩

theorem splitAt_injective (sep : Char) : Function.Injective (splitAt sep) := by
  intro s t h
  rw [splitAt_eq_iff, splitAt, List.map_map] at h
  have hpieces : piecesAt sep s.toList = piecesAt sep t.toList := by simpa using h
  rw [String.toList_inj.symm, ← intercalate_piecesAt sep s.toList, hpieces, intercalate_piecesAt]

/-! ## Occurrences -/

theorem startsWith_iff {part s : List Char} : startsWith part s = true ↔ part <+: s := by
  unfold startsWith
  induction part generalizing s with
  | nil => simp [after?]
  | cons p part ih =>
    cases s with
    | nil => simp [after?]
    | cons c s =>
      rw [after?, List.cons_prefix_cons, ← ih]
      split
      · rename_i hpc
        simp [hpc]
      · rename_i hpc
        simp [hpc]

theorem occursInChars_iff {part s : List Char} : occursInChars part s = true ↔ part <:+: s := by
  induction s with
  | nil => simp [occursInChars]
  | cons c s ih => rw [occursInChars, Bool.or_eq_true, startsWith_iff, ih, List.infix_cons_iff]

theorem occursIn_iff {part s : String} : occursIn part s = true ↔ part.toList <:+: s.toList :=
  occursInChars_iff

/-- The names stand in a row across the pieces: the first at the end of a piece, the last at the
beginning of one, and those between them as whole pieces. -/
def StandAcross (names pieces : List String) : Prop :=
  ∃ first middle last, names = first :: (middle ++ [last]) ∧
    ∃ before head tail after, pieces = before ++ (head ++ first) :: (middle ++ (last ++ tail) :: after)

theorem exists_splitAt_of_mem {s : String} (h : sep ∈ s.toList) :
    ∃ first middle last, splitAt sep s = first :: (middle ++ [last]) := by
  obtain ⟨pre, post, hs⟩ := List.append_of_mem h
  have hpieces : splitAt sep s =
      splitAt sep (String.ofList pre) ++ splitAt sep (String.ofList post) := by
    simp [splitAt, hs, piecesAt_append_sep]
  obtain ⟨first, middle, hpre⟩ := List.exists_cons_of_ne_nil (splitAt_ne_nil sep (String.ofList pre))
  obtain ⟨middle', last, hpost⟩ :=
    exists_splitAt_eq_append sep (String.ofList post)
  exact ⟨first, middle ++ middle', last, by rw [hpieces, hpre, hpost]; simp⟩

/-- A text that holds the separator occurs where its pieces stand across those of the other. -/
theorem occursIn_iff_standAcross {part s : String} (hpart : sep ∈ part.toList) :
    occursIn part s = true ↔ StandAcross (splitAt sep part) (splitAt sep s) := by
  obtain ⟨first, middle, last, hnames⟩ := exists_splitAt_of_mem hpart
  -- the pieces of the text around `part` are glued to its own at both ends
  have hglued : ∀ {pre post head tail : String} {before after : List String},
      splitAt sep pre = before ++ [head] → splitAt sep post = tail :: after →
      splitAt sep (pre ++ part ++ post) =
        before ++ (head ++ first) :: (middle ++ (last ++ tail) :: after) := by
    intro pre post head tail before after hpre hpost
    have hfront : splitAt sep (pre ++ part) = (before ++ (head ++ first) :: middle) ++ [last] := by
      rw [splitAt_append hpre hnames]
      simp
    rw [splitAt_append hfront hpost]
    simp
  rw [hnames]
  constructor
  · intro h
    obtain ⟨pre, post, hs⟩ := occursIn_iff.1 h
    obtain ⟨before, head, hpre⟩ := exists_splitAt_eq_append sep (String.ofList pre)
    obtain ⟨tail, after, hpost⟩ :=
      List.exists_cons_of_ne_nil (splitAt_ne_nil sep (String.ofList post))
    have hs : s = String.ofList pre ++ part ++ String.ofList post := by
      rw [← String.toList_inj, ← hs]
      simp
    exact ⟨first, middle, last, rfl, before, head, tail, after, by rw [hs, hglued hpre hpost]⟩
  · rintro ⟨first', middle', last', heq, before, head, tail, after, hs⟩
    have hfree : ∀ piece ∈ splitAt sep s, sep ∉ piece.toList := fun _ => not_mem_of_mem_splitAt
    have hpre : splitAt sep ((String.singleton sep).intercalate (before ++ [head])) =
        before ++ [head] := by
      refine (splitAt_intercalate_iff sep (by simp)).2 fun piece hpiece => ?_
      rcases List.mem_append.1 hpiece with hpiece | hpiece
      · exact hfree piece (by simp [hs, hpiece])
      · obtain rfl := List.mem_singleton.1 hpiece
        exact fun hsep => hfree (piece ++ first') (by simp [hs]) (by simp [hsep])
    have hpost : splitAt sep ((String.singleton sep).intercalate (tail :: after)) = tail :: after := by
      refine (splitAt_intercalate_iff sep (by simp)).2 fun piece hpiece => ?_
      rcases List.mem_cons.1 hpiece with rfl | hpiece
      · exact fun hsep => hfree (last' ++ piece) (by simp [hs]) (by simp [hsep])
      · exact hfree piece (by simp [hs, hpiece])
    obtain ⟨rfl, rfl, rfl⟩ : first = first' ∧ middle = middle' ∧ last = last' := by simpa using heq
    have hs : s = _ := splitAt_injective sep (hs.trans (hglued hpre hpost).symm)
    rw [occursIn_iff, hs, String.toList_append, String.toList_append]
    exact List.infix_append _ _ _

/-- Empty pieces in front make no difference to where a name that is not empty stands. -/
theorem standAcross_append_iff {first : String} {names front pieces : List String}
    (hfirst : first ≠ "") (hfront : ∀ s ∈ front, s = "") :
    StandAcross (first :: names) (front ++ pieces) ↔ StandAcross (first :: names) pieces := by
  induction front with
  | nil => rfl
  | cons s front ih =>
    obtain ⟨rfl, hrest⟩ := List.forall_mem_cons.1 hfront
    rw [← ih hrest, List.cons_append]
    constructor
    · rintro ⟨first', middle, last, hnames, before, head, tail, after, hpieces⟩
      cases before with
      | nil =>
        obtain rfl := (List.cons.inj hnames).1
        have hempty : "" = head ++ first := (List.cons.inj hpieces).1
        exact absurd (String.append_eq_empty_iff.1 hempty.symm).2 hfirst
      | cons _ before =>
        exact ⟨first', middle, last, hnames, before, head, tail, after, (List.cons.inj hpieces).2⟩
    · rintro ⟨first', middle, last, hnames, before, head, tail, after, hpieces⟩
      exact ⟨first', middle, last, hnames, "" :: before, head, tail, after, by rw [hpieces]; rfl⟩

/-! ## What is left out -/

theorem mem_of_mem_withoutChars {part s : List Char} {skip : Nat} {c : Char}
    (h : c ∈ withoutChars part skip s) : c ∈ s := by
  fun_induction withoutChars part skip s with
  | case1 => exact h
  | case2 _ _ _ ih => exact List.mem_cons_of_mem _ (ih h)
  | case3 _ _ _ ih => exact List.mem_cons_of_mem _ (ih h)
  | case4 first rest _ ih =>
    rcases List.mem_cons.1 h with rfl | h
    · exact List.mem_cons_self
    · exact List.mem_cons_of_mem _ (ih h)

theorem mem_of_mem_without {part s : String} {c : Char} (h : c ∈ (without part s).toList) :
    c ∈ s.toList :=
  mem_of_mem_withoutChars (by simpa [without] using h)

end WeaveStep.Text
