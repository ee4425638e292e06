import Mathlib.Data.List.Basic
import WeaveStep.Proofs.Text.Split
import WeaveStep.Proofs.Text.Trim
import WeaveStep.Settings.Load

/-!
# Items of a list

The items of a list value are those of its lines (`items_eq`), so that lines that are put together come
apart again (`items_lines`), and blanks around the value make no difference (`items_trim`). A line is its
own item exactly if it holds no comma (`flatMap_itemsIn_iff`).
-/

namespace WeaveStep.Settings

open Text

/-- The items in one line. -/
def itemsIn (line : String) : List String := ((splitAt ',' line).map trim).filter (· ≠ "")

theorem items_eq (raw : String) : items raw = (splitAt '\n' raw).flatMap itemsIn := by
  rw [items, List.map_flatMap, List.filter_flatMap]
  rfl

/-! ## Blanks -/

section

variable {s gap : String}

theorem splitAt_comma_of_blanks (h : Blanks gap.toList) : splitAt ',' gap = [gap] :=
  splitAt_of_not_mem fun hc => absurd (h _ hc) (by decide)

theorem itemsIn_append_blanks (h : Blanks gap.toList) : itemsIn (s ++ gap) = itemsIn s := by
  obtain ⟨front, last, hs⟩ := exists_splitAt_eq_append ',' s
  have htrim : trim (last ++ gap) = trim last := by
    rw [trim, String.toList_append, trimChars_append_blanks h, ← trim]
  rw [itemsIn, itemsIn, splitAt_append hs (splitAt_comma_of_blanks h), hs, List.map_append,
    List.map_append, List.map_singleton, List.map_singleton, htrim]

theorem itemsIn_blanks_append (h : Blanks gap.toList) : itemsIn (gap ++ s) = itemsIn s := by
  obtain ⟨first, rest, hs⟩ := List.exists_cons_of_ne_nil (splitAt_ne_nil ',' s)
  have hgap : splitAt ',' gap = [] ++ [gap] := splitAt_comma_of_blanks h
  have htrim : trim (gap ++ first) = trim first := by
    rw [trim, String.toList_append, trimChars, List.dropWhile_append_of_pos h, ← trimChars, ← trim]
  rw [itemsIn, itemsIn, splitAt_append hgap hs, hs, List.nil_append, List.map_cons, List.map_cons, htrim]

theorem itemsIn_of_blanks (h : Blanks gap.toList) : itemsIn gap = [] := by
  have hempty : itemsIn "" = [] := by decide
  rw [← hempty, ← itemsIn_append_blanks (s := "") h, String.empty_append]

theorem blanks_of_mem_splitAt {piece : String} (h : Blanks gap.toList)
    (hpiece : piece ∈ splitAt '\n' gap) : Blanks piece.toList :=
  fun _ hc => h _ (mem_of_mem_splitAt hpiece hc)

theorem flatMap_itemsIn_of_blanks {pieces : List String} (h : ∀ piece ∈ pieces, Blanks piece.toList) :
    pieces.flatMap itemsIn = [] :=
  List.flatMap_eq_nil_iff.2 fun piece hpiece => itemsIn_of_blanks (h piece hpiece)

theorem items_append_blanks (h : Blanks gap.toList) : items (s ++ gap) = items s := by
  obtain ⟨front, last, hs⟩ := exists_splitAt_eq_append '\n' s
  obtain ⟨first, rest, hgap⟩ := List.exists_cons_of_ne_nil (splitAt_ne_nil '\n' gap)
  have hblanks : ∀ piece ∈ first :: rest, Blanks piece.toList := fun _ hpiece =>
    blanks_of_mem_splitAt h (hgap ▸ hpiece)
  obtain ⟨hfirst, hrest⟩ := List.forall_mem_cons.1 hblanks
  rw [items_eq, items_eq, splitAt_append hs hgap, hs, List.flatMap_append, List.flatMap_append,
    List.flatMap_cons, itemsIn_append_blanks hfirst, flatMap_itemsIn_of_blanks hrest,
    List.flatMap_singleton, List.append_nil]

theorem items_of_blanks (h : Blanks gap.toList) : items gap = [] := by
  have hempty : items "" = [] := by decide
  rw [← hempty, ← items_append_blanks (s := "") h, String.empty_append]

theorem items_blanks_append (h : Blanks gap.toList) : items (gap ++ s) = items s := by
  obtain ⟨front, last, hgap⟩ := exists_splitAt_eq_append '\n' gap
  obtain ⟨first, rest, hs⟩ := List.exists_cons_of_ne_nil (splitAt_ne_nil '\n' s)
  have hblanks : ∀ piece ∈ front ++ [last], Blanks piece.toList := fun _ hpiece =>
    blanks_of_mem_splitAt h (hgap ▸ hpiece)
  obtain ⟨hfront, hlast⟩ := List.forall_mem_append.1 hblanks
  rw [items_eq, items_eq, splitAt_append hgap hs, hs, List.flatMap_append,
    flatMap_itemsIn_of_blanks hfront, List.nil_append, List.flatMap_cons, List.flatMap_cons,
    itemsIn_blanks_append (hlast last (List.mem_singleton_self last))]

/-- Blanks around a list make no difference. -/
theorem items_trim (s : String) : items (trim s) = items s := by
  obtain ⟨before, after, hbefore, hafter, hs, -⟩ := trim_spec s
  have hparts : s = String.ofList before ++ (trim s ++ String.ofList after) := by
    rw [← String.toList_inj, hs]
    simp
  calc items (trim s)
      = items (trim s ++ String.ofList after) := (items_append_blanks (by simpa using hafter)).symm
    _ = items (String.ofList before ++ (trim s ++ String.ofList after)) :=
        (items_blanks_append (by simpa using hbefore)).symm
    _ = items s := by rw [← hparts]

theorem items_trimRight (s : String) : items (trimRight s) = items s := by
  have htrim : trim (trimRight s) = trim s := by
    rw [trim, trimRight, String.toList_ofList, trimChars_trimRightChars, ← trim]
  rw [← items_trim (trimRight s), htrim, items_trim]

end

/-- A list key gives the items of its value. -/
theorem list_of_resolved? {d : Ini.Document} {name key raw : String} (path : String)
    (h : d.resolved? name key = .ok (some raw)) : list d path name key = .ok (items raw) := by
  rw [list, value?, h]
  dsimp only
  split
  · next hblank =>
    have hblanks : Blanks raw.toList := List.all_eq_true.1 hblank
    rw [items_of_blanks hblanks]
    rfl
  · exact congrArg Except.ok (items_trim raw)

/-! ## Lines -/

/-- Lines that are put together come apart again. -/
theorem items_lines {ls : List (List Char)} (h : ∀ l ∈ ls, '\n' ∉ l) :
    items (String.ofList (ls.flatMap ('\n' :: ·))) = ls.flatMap fun l => itemsIn (String.ofList l) := by
  have hpieces : piecesAt '\n' (ls.flatMap ('\n' :: ·)) = [] :: ls :=
    piecesAt_joined List.not_mem_nil h
  have hempty : itemsIn (String.ofList []) = [] := by decide
  rw [items_eq, splitAt, String.toList_ofList, hpieces, List.map_cons, List.flatMap_cons, hempty,
    List.nil_append, List.flatMap_map]

theorem itemsIn_of_plain {s : String} (htold : s ≠ "") (hbare : HasBareEnds s.toList)
    (hcomma : ',' ∉ s.toList) : itemsIn s = [s] := by
  rw [itemsIn, splitAt_of_not_mem hcomma, List.map_singleton, trim_of_bare hbare]
  simp [htold]

theorem not_mem_of_mem_itemsIn {s item : String} (h : item ∈ itemsIn s) : ',' ∉ item.toList := by
  obtain ⟨piece, hpiece, rfl⟩ := List.mem_map.1 (List.mem_filter.1 h).1
  exact fun hc => not_mem_of_mem_splitAt hpiece (mem_of_mem_trim hc)

/-- Lines are items as they are exactly if none of them holds a comma. -/
theorem flatMap_itemsIn_iff {ls : List String} (htold : ∀ s ∈ ls, s ≠ "")
    (hbare : ∀ s ∈ ls, HasBareEnds s.toList) :
    ls.flatMap itemsIn = ls ↔ ∀ s ∈ ls, ',' ∉ s.toList := by
  constructor
  · intro h s hs
    rw [← h] at hs
    obtain ⟨_, -, hitem⟩ := List.mem_flatMap.1 hs
    exact not_mem_of_mem_itemsIn hitem
  · intro h
    rw [List.flatMap_congr fun s hs => itemsIn_of_plain (htold s hs) (hbare s hs) (h s hs),
      List.flatMap_singleton']

end WeaveStep.Settings
