import WeaveStep.Proofs.Text.Trim
import WeaveStep.Text.Utf8

/-!
# Lines of text

A text is cut into lines in two ways: `lines` cuts it at every kind of line boundary, and a reader is
fed lines that end with line feeds alone, once all line ends are unified (`fedLines`). Cutting the
lines that a reader is fed again, at every boundary, gives the others (`linesFrom_eq_flatMap`). So
the two tell the same (`told_linesFrom`), blank lines and blanks at the end of a line apart, where
no line has a boundary within what is told on it.
-/

namespace WeaveStep.Text

variable {begun line rest s : List Char} {c : Char}

/-! ## Line ends -/

theorem linesFrom_cons (h : c ≠ '\r') : linesFrom begun (c :: rest) =
    if isLineBoundary c then begun.reverse :: linesFrom [] rest else linesFrom (c :: begun) rest := by
  rw [linesFrom]
  exact fun _ hc => absurd hc h

theorem unifyLineEnds_cons (h : c ≠ '\r') : unifyLineEnds (c :: s) = c :: unifyLineEnds s := by
  rw [unifyLineEnds] <;> simp [h]

theorem not_mem_unifyLineEnds (s : List Char) : '\r' ∉ unifyLineEnds s := by
  fun_induction unifyLineEnds s with
  | case1 => simp
  | case2 _ ih => simp [ih]
  | case3 _ _ ih => simp [ih]
  | case4 c _ _ hc ih => simpa [ih] using fun h => hc h.symm

theorem unifyLineEnds_of_not_mem (h : '\r' ∉ s) : unifyLineEnds s = s := by
  induction s with
  | nil => rfl
  | cons c s ih =>
    obtain ⟨hc, hs⟩ := not_or.1 (List.mem_cons.not.1 h)
    rw [unifyLineEnds_cons (Ne.symm hc), ih hs]

/-- A carriage return ends a line as a line feed does. -/
theorem linesFrom_unifyLineEnds (begun s : List Char) :
    linesFrom begun (unifyLineEnds s) = linesFrom begun s := by
  fun_induction unifyLineEnds s generalizing begun with
  | case1 => rfl
  | case2 rest ih =>
    rw [linesFrom_cons (by decide), if_pos (by decide), ih, linesFrom]
  | case3 rest hrest ih =>
    rw [linesFrom_cons (by decide), if_pos (by decide), ih, linesFrom, if_pos (by decide)]
    exact fun _ _ hr => hrest _ hr
  | case4 c rest _ hc ih =>
    rw [linesFrom_cons hc, linesFrom_cons hc, ih, ih]

/-! ## Fed lines -/

theorem fedLinesFrom_append (h : '\n' ∉ line) :
    fedLinesFrom begun (line ++ '\n' :: rest) =
      (begun.reverse ++ line ++ ['\n']) :: fedLinesFrom [] rest := by
  induction line generalizing begun with
  | nil => simp [fedLinesFrom]
  | cons c line ih =>
    obtain ⟨hc, hline⟩ := not_or.1 (List.mem_cons.not.1 h)
    rw [List.cons_append, fedLinesFrom, if_neg (Ne.symm hc), ih hline]
    simp

/-- Lines that are written down one after the other are fed as they are. -/
theorem fedLines_flatMap {written : List (List Char)} (h : ∀ line ∈ written, '\n' ∉ line) :
    fedLines (written.flatMap (· ++ ['\n'])) = written.map (· ++ ['\n']) := by
  induction written with
  | nil => rfl
  | cons line written ih =>
    obtain ⟨hline, hwritten⟩ := List.forall_mem_cons.1 h
    rw [fedLines, List.flatMap_cons, List.append_assoc, List.singleton_append,
      fedLinesFrom_append hline, ← fedLines, ih hwritten]
    rfl

/-! ## Cutting fed lines again -/

theorem linesFrom_append_lineFeed (h : '\r' ∉ line) :
    linesFrom begun (line ++ '\n' :: rest) =
      linesFrom begun (line ++ ['\n']) ++ linesFrom [] rest := by
  induction line generalizing begun with
  | nil =>
    rw [List.nil_append, List.nil_append, linesFrom_cons (by decide), linesFrom_cons (by decide),
      if_pos (by decide), if_pos (by decide)]
    rfl
  | cons c line ih =>
    obtain ⟨hc, hline⟩ := not_or.1 (List.mem_cons.not.1 h)
    rw [List.cons_append, List.cons_append, linesFrom_cons (Ne.symm hc),
      linesFrom_cons (Ne.symm hc)]
    split
    · rw [ih hline, List.cons_append]
    · exact ih hline

/-- `begun` is all that there is of a line so far, other boundaries included. -/
theorem linesFrom_eq_flatMap_from (hbegun : '\r' ∉ begun) (hs : '\r' ∉ s) :
    linesFrom [] (begun.reverse ++ s) = (fedLinesFrom begun s).flatMap (linesFrom []) := by
  induction s generalizing begun with
  | nil =>
    rw [fedLinesFrom, List.append_nil]
    split
    · rename_i h
      rw [List.isEmpty_iff.1 h]
      rfl
    · exact (List.flatMap_singleton ..).symm
  | cons c s ih =>
    obtain ⟨hc, hrest⟩ := not_or.1 (List.mem_cons.not.1 hs)
    rw [fedLinesFrom]
    split
    · rename_i hfeed
      subst hfeed
      rw [linesFrom_append_lineFeed (by simpa using hbegun), List.flatMap_cons, List.reverse_cons,
        ← ih List.not_mem_nil hrest]
      rfl
    · rw [← ih (by simp [hc, hbegun]) hrest]
      simp

/-- The lines of a text are those of the lines that a reader of it is fed. -/
theorem linesFrom_eq_flatMap (s : List Char) :
    linesFrom [] s = (fedLines (unifyLineEnds s)).flatMap (linesFrom []) := by
  rw [← linesFrom_unifyLineEnds]
  exact linesFrom_eq_flatMap_from List.not_mem_nil (not_mem_unifyLineEnds s)

/-! ## What lines tell -/

/-- What lines tell: those that are not blank, without the blanks at their ends. -/
def told (ls : List (List Char)) : List (List Char) :=
  (ls.map trimRightChars).filter fun line => !line.isEmpty

@[simp] theorem told_append (ls ls' : List (List Char)) : told (ls ++ ls') = told ls ++ told ls' := by
  simp [told]

theorem told_cons (line : List Char) (ls : List (List Char)) :
    told (line :: ls) = told [line] ++ told ls := told_append [line] ls

theorem told_flatMap {α : Type} (f : α → List (List Char)) (as : List α) :
    told (as.flatMap f) = as.flatMap fun a => told (f a) := by
  induction as with
  | nil => rfl
  | cons a as ih => rw [List.flatMap_cons, told_append, ih, List.flatMap_cons]

theorem told_singleton_congr {line line' : List Char}
    (h : trimRightChars line = trimRightChars line') : told [line] = told [line'] := by
  simp only [told, List.map_cons, List.map_nil, h]

/-- Boundaries among the blanks at the end of a line tell nothing. -/
theorem told_linesFrom_blanks {gap : List Char} (h : Blanks gap) (begun : List Char) :
    told (linesFrom begun gap) = told [begun.reverse] := by
  have hempty : told (linesFrom [] []) = [] := rfl
  fun_induction linesFrom begun gap with
  | case1 begun hnone =>
    rw [List.isEmpty_iff.1 hnone]
    rfl
  | case2 => rfl
  | case3 begun rest ih =>
    obtain ⟨-, -, hrest⟩ := by simpa only [blanks_cons] using h
    rw [told_cons, ih hrest]
    simp [told, trimRightChars]
  | case4 begun c rest _ _ ih =>
    rw [told_cons, ih (blanks_cons.1 h).2]
    simp [told, trimRightChars]
  | case5 begun c rest _ _ ih =>
    obtain ⟨hc, hrest⟩ := blanks_cons.1 h
    rw [ih hrest, List.reverse_cons]
    exact told_singleton_congr (trimRightChars_append_blanks (by simpa [blanks_cons] using hc) _)

theorem linesFrom_append_of_plain {line : List Char} (h : ∀ c ∈ line, isLineBoundary c = false)
    (begun rest : List Char) :
    linesFrom begun (line ++ rest) = linesFrom (line.reverse ++ begun) rest := by
  induction line generalizing begun with
  | nil => rfl
  | cons c line ih =>
    obtain ⟨hc, hline⟩ := List.forall_mem_cons.1 h
    have hne : c ≠ '\r' := by
      rintro rfl
      exact absurd hc (by decide)
    rw [List.cons_append, linesFrom_cons hne, if_neg (by simp [hc]), ih hline]
    simp

/-- A line without a boundary in what it tells is not cut. -/
theorem told_linesFrom_of_plain {line : List Char}
    (h : ∀ c ∈ trimRightChars line, isLineBoundary c = false) :
    told (linesFrom [] line) = told [line] := by
  obtain ⟨gap, hgap, hline, -⟩ := trimRightChars_spec line
  have hcut : linesFrom [] line = linesFrom (trimRightChars line).reverse gap := by
    rw [← List.append_nil (trimRightChars line).reverse, ← linesFrom_append_of_plain h, ← hline]
  rw [hcut, told_linesFrom_blanks hgap, List.reverse_reverse]
  exact told_singleton_congr (by rw [← trimRightChars_append_blanks hgap, ← hline])

/-- The two ways of cutting a text tell the same where no fed line has a boundary in what it
tells. -/
theorem told_linesFrom {s : List Char}
    (h : ∀ line ∈ fedLines (unifyLineEnds s), ∀ c ∈ trimRightChars line, isLineBoundary c = false) :
    told (linesFrom [] s) = told (fedLines (unifyLineEnds s)) := by
  rw [linesFrom_eq_flatMap, told_flatMap]
  generalize fedLines (unifyLineEnds s) = fed at h
  induction fed with
  | nil => rfl
  | cons line fed ih =>
    obtain ⟨hline, hfed⟩ := List.forall_mem_cons.1 h
    rw [List.flatMap_cons, told_linesFrom_of_plain hline, ih hfed, ← told_cons]

end WeaveStep.Text
