import WeaveStep.Files.Path
import WeaveStep.Proofs.Text.Split

/-!
# Paths and their texts

A path whose names can be written with slashes between them (`Path.IsReadable`) is read back as it is
shown: `Path.ofString_text`. So such paths have different texts if they are different
(`Path.eq_of_text_eq`), and no text is empty (`Path.text_ne_empty`).
-/

namespace WeaveStep.Path

open Text

variable {p q : Path}

/-- The path has only names that stand between the slashes of a text. -/
def IsReadable (p : Path) : Prop := ∀ name ∈ p.parts, isName name = true ∧ '/' ∉ name.toList

theorem text_eq (p : Path) :
    p.text = p.anchor.text ++ "/".intercalate p.parts ∨ p = ⟨.relative, []⟩ := by
  obtain ⟨anchor, parts⟩ := p
  cases anchor <;> cases parts <;> simp [text]

theorem not_slash_head_joined (h : p.IsReadable) (rest : List Char) :
    ("/".intercalate p.parts).toList ≠ '/' :: rest := by
  intro heq
  obtain ⟨anchor, parts⟩ := p
  cases parts with
  | nil => simp at heq
  | cons name names =>
    obtain ⟨hname, hslash⟩ := h name (by simp)
    cases hchars : name.toList with
    | nil => simp [isName, String.toList_eq_nil_iff.1 hchars] at hname
    | cons c cs =>
      have hc : c ≠ '/' := by
        rintro rfl
        simp [hchars] at hslash
      cases names <;> simp_all

theorem anchorOf_text (h : p.IsReadable) : anchorOf p.text.toList = p.anchor := by
  have hplain : ∀ cs : List Char, (∀ rest, cs ≠ '/' :: rest) →
      anchorOf cs = .relative ∧ anchorOf ('/' :: cs) = .root ∧
        anchorOf ('/' :: '/' :: cs) = .doubleRoot := by
    intro cs hcs
    cases cs with
    | nil => exact ⟨rfl, rfl, rfl⟩
    | cons c cs =>
      have hc : c ≠ '/' := fun heq => hcs cs (by rw [heq])
      simp [anchorOf, hc]
  obtain ⟨hrelative, hroot, hdouble⟩ := hplain _ (not_slash_head_joined h)
  rcases text_eq p with htext | rfl
  · rw [htext, String.toList_append]
    cases p.anchor
    · exact hrelative
    · exact hroot
    · exact hdouble
  · rfl

theorem splitAt_slash (s : String) : splitAt '/' ("/" ++ s) = "" :: splitAt '/' s := by
  simp [splitAt, piecesAt]

/-- Before the first slash of a name there are only the slashes of the anchor. -/
theorem exists_splitAt_text (h : p.IsReadable) (hparts : p.parts ≠ []) :
    ∃ front, splitAt '/' p.text = front ++ p.parts ∧ ∀ s ∈ front, s = "" := by
  have hjoined : splitAt '/' ("/".intercalate p.parts) = p.parts :=
    (splitAt_intercalate_iff '/' hparts).2 fun name hname => (h name hname).2
  have hdouble : "//" ++ "/".intercalate p.parts = "/" ++ ("/" ++ "/".intercalate p.parts) := by
    rw [← String.append_assoc]
    rfl
  rcases text_eq p with htext | rfl
  · rw [htext]
    cases p.anchor with
    | relative => exact ⟨[], by simp [Anchor.text, hjoined], by simp⟩
    | root => exact ⟨[""], by simp [Anchor.text, splitAt_slash, hjoined], by simp⟩
    | doubleRoot => exact ⟨["", ""], by simp [Anchor.text, hdouble, splitAt_slash, hjoined], by simp⟩
  · exact absurd rfl hparts

theorem parts_text (h : p.IsReadable) : (splitAt '/' p.text).filter isName = p.parts := by
  by_cases hparts : p.parts = []
  · obtain ⟨anchor, parts⟩ := p
    cases hparts
    cases anchor <;> decide
  · obtain ⟨front, hpieces, hfront⟩ := exists_splitAt_text h hparts
    have hnone : front.filter isName = [] :=
      List.filter_eq_nil_iff.2 fun s hs => by simp [hfront s hs, isName]
    have hall : p.parts.filter isName = p.parts :=
      List.filter_eq_self.2 fun name hname => (h name hname).1
    rw [hpieces, List.filter_append, hnone, hall, List.nil_append]

/-- A path is read back as it is shown. -/
theorem ofString_text (h : p.IsReadable) : ofString p.text = p := by
  rw [ofString, anchorOf_text h, parts_text h]

theorem eq_of_text_eq (hp : p.IsReadable) (hq : q.IsReadable) (h : p.text = q.text) : p = q := by
  rw [← ofString_text hp, h, ofString_text hq]

theorem isReadable_ofString (s : String) : (ofString s).IsReadable := fun _ hname =>
  ⟨(List.mem_filter.1 hname).2, not_mem_of_mem_splitAt (List.mem_filter.1 hname).1⟩

theorem IsReadable.child (h : p.IsReadable) (s : String) : (p.child s).IsReadable := by
  intro name hname
  unfold Path.child join at hname
  split at hname
  · exact isReadable_ofString s name hname
  · exact (List.mem_append.1 hname).elim (h name) (isReadable_ofString s name)

theorem text_ne_empty (h : p.IsReadable) : p.text ≠ "" := by
  intro heq
  have hp := ofString_text h
  rw [heq] at hp
  subst hp
  revert heq
  decide

theorem text_ne_empty_of_isAbsolute (h : p.isAbsolute = true) : p.text ≠ "" := by
  obtain ⟨anchor, parts⟩ := p
  cases anchor with
  | relative => cases h
  | root | doubleRoot => cases parts <;> simp [text, Anchor.text]

/-! ## Paths above -/

theorem length_lt_of_mem_ancestors (h : q ∈ p.ancestors) : q.parts.length < p.parts.length := by
  obtain ⟨n, hn, rfl⟩ := List.mem_map.1 h
  have hlt : n < p.parts.length := List.mem_range.1 (List.mem_reverse.1 hn)
  simp only [List.length_take]
  omega

end WeaveStep.Path
