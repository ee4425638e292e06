import WeaveStep.Launch.Process
import WeaveStep.Proofs.Text.Lines
import WeaveStep.Proofs.Text.Utf8
import WeaveStep.Proofs.Weave.Interleaving

/-!
# Parsing and running agree

A text can be parsed as a whole, or be printed by a process and read line by line. The messages go
by what the lines tell (`collect_told`), so the two come to the same diagnostics, or fail with the
same tag, where the text has no boundary but line ends within what a line tells
(**`runWeaver_agrees_with_parse`**). Other boundaries, a form feed say, cut only the text that is
parsed (`not_runWeaver_agrees_with_parse`).
-/

namespace WeaveStep

open Console Text

namespace Console

/-- The lines that a reader is fed of a stream on which this text is printed. -/
def fedOf (s : Stream) (text : String) : List String :=
  (Launch.linesOf s (utf8Bytes text)).map (·.text)

theorem fedOf_eq (s : Stream) (text : String) :
    fedOf s text = (fedLines (unifyLineEnds text.toList)).map String.ofList := by
  rw [fedOf, Launch.linesOf, decodeLeniently_utf8Bytes, List.map_map]
  rfl

/-! ## What is told counts -/

theorem read_trimRight (s : Stream) (line : List Char) :
    (Line.mk s (String.ofList (trimRightChars line))).read =
      (Line.mk s (String.ofList line)).read := by
  obtain ⟨-, -, -, hlast⟩ := trimRightChars_spec line
  simp only [Line.read, String.toList_ofList, trimChars_trimRightChars, trimRightChars_of_bare hlast]

theorem read_of_blank {s : Stream} {line : List Char} (h : trimRightChars line = []) :
    (Line.mk s (String.ofList line)).read = .ok .blank := by
  rw [← read_trimRight, h]
  rfl

/-- A list of lines is collected by what it tells. -/
theorem collect_told (s : Stream) (ls : List (List Char)) :
    collect (ls.map fun line => ⟨s, String.ofList line⟩) =
      collect ((told ls).map fun line => ⟨s, String.ofList line⟩) := by
  have hfold : ∀ latest : List Message,
      (ls.map fun line => (⟨s, String.ofList line⟩ : Line)).foldlM takeIn latest =
        ((told ls).map fun line => ⟨s, String.ofList line⟩).foldlM takeIn latest := by
    induction ls with
    | nil => exact fun _ => rfl
    | cons line ls ih =>
      intro latest
      by_cases hblank : trimRightChars line = []
      · have hline : takeIn latest ⟨s, String.ofList line⟩ = .ok latest := by
          rw [takeIn, read_of_blank hblank]
          rfl
        have htold : told (line :: ls) = told ls := by simp [told, hblank]
        rw [List.map_cons, List.foldlM_cons, hline, htold]
        exact ih latest
      · have htold : told (line :: ls) = trimRightChars line :: told ls := by simp [told, hblank]
        have hline : takeIn latest ⟨s, String.ofList (trimRightChars line)⟩ =
            takeIn latest ⟨s, String.ofList line⟩ := by
          rw [takeIn, takeIn, read_trimRight]
        rw [List.map_cons, List.foldlM_cons, htold, List.map_cons, List.foldlM_cons, hline]
        exact congrArg _ (funext ih)
  unfold collect
  rw [hfold]

theorem collect_fedOf {s : Stream} {text : String}
    (h : ∀ line ∈ fedOf s text, ∀ c ∈ trimRightChars line.toList, isLineBoundary c = false) :
    collect ((fedOf s text).map (Line.mk s)) = collect ((lines text).map (Line.mk s)) := by
  have hplain : ∀ line ∈ fedLines (unifyLineEnds text.toList),
      ∀ c ∈ trimRightChars line, isLineBoundary c = false := by
    intro line hline
    have hmem : String.ofList line ∈ fedOf s text := by
      rw [fedOf_eq]
      exact List.mem_map_of_mem hline
    simpa using h _ hmem
  rw [fedOf_eq, lines, List.map_map, List.map_map]
  exact (collect_told s _).trans ((told_linesFrom hplain ▸ (collect_told s _).symm))

/-! ## A console with one stream -/

/-- When nothing is printed on the other stream, the console holds the lines of the one. -/
theorem Readers.console_eq {s : Stream} (hs : s = .stdout ∨ s = .stderr) {fed : List String}
    {schedule : List Stream} {r : Readers}
    (h : (Readers.start (if s = .stdout then fed else []) (if s = .stderr then fed else [])).run
      schedule = some r) (hf : r.IsFinished) : r.console = fed.map (Line.mk s) := by
  have hshuffle := Readers.isShuffle_console h hf
  rcases hs with rfl | rfl
  · exact hshuffle.eq_left
  · exact hshuffle.eq_right

end Console

/-- A text that is parsed, and the same text printed on that stream by a process that prints nothing
on the other and ends well, come to the same diagnostics, or fail with the same tag, however the
readers step: as long as no line that is read has a boundary before the blanks at its end. -/
theorem runWeaver_agrees_with_parse {s : Stream} (hs : s = .stdout ∨ s = .stderr) {text : String}
    {schedule : List Stream} {r : Readers}
    (hrun : (Readers.start (if s = .stdout then fedOf s text else [])
      (if s = .stderr then fedOf s text else [])).run schedule = some r) (hf : r.IsFinished)
    (hplain : ∀ line ∈ fedOf s text, ∀ c ∈ trimRightChars line.toList, isLineBoundary c = false)
    (command : List String) (i : Invocation) (w : World) :
    ∃ w', runWeaver command i (w.showing 0 r.console) =
      match parse s text with
      | .ok ds => .ok ds w'
      | .error why => .error (.unknownTag why.tag) w' := by
  have hsame : collect r.console = collect ((lines text).map (Line.mk s)) := by
    rw [Readers.console_eq hs hrun hf, collect_fedOf hplain]
  unfold parse
  cases hcollect : collect ((lines text).map (Line.mk s)) with
  | ok messages =>
    obtain ⟨w', hw'⟩ := runWeaver_showing_ok 0 command i w (hsame.trans hcollect)
    exact ⟨w', hw'⟩
  | error why =>
    obtain ⟨w', hw'⟩ := runWeaver_showing_error 0 command i w (hsame.trans hcollect)
    exact ⟨w', hw'⟩

/-- Two lines with line ends of two kinds, and a form feed at the very end. -/
theorem runWeaver_agrees_with_parse_line_ends :
    ∃ r : Readers, r.console = [⟨.stderr, "[error] no\n"⟩, ⟨.stderr, "  at x\n"⟩, ⟨.stderr, "\x0c"⟩] ∧
      ∃ w', runWeaver ["ajc"] ⟨"", "", "", "", "", "", .ofString "out"⟩
        (World.showing { files := ⟨[], [], none⟩ } 0 r.console) =
          match parse .stderr "[error] no\r\n  at x\r\x0c" with
          | .ok ds => .ok ds w'
          | .error why => .error (.unknownTag why.tag) w' := by
  have hfed : fedOf .stderr "[error] no\r\n  at x\r\x0c" = ["[error] no\n", "  at x\n", "\x0c"] := by
    rw [fedOf_eq]
    decide +kernel
  have hplain : ["[error] no\n", "  at x\n", "\x0c"].all (fun line =>
      (trimRightChars line.toList).all fun c => !isLineBoundary c) = true := by
    decide +kernel
  have hshuffle : IsShuffle (([] : List String).map (Line.mk .stdout))
      (["[error] no\n", "  at x\n", "\x0c"].map (Line.mk .stderr)) _ :=
    .right (.right (.right .nil))
  obtain ⟨schedule, r, hrun, hf, hconsole⟩ := Readers.finished_iff_isShuffle.2 hshuffle
  exact ⟨r, hconsole, runWeaver_agrees_with_parse (.inr rfl) (by rw [hfed]; exact hrun) hf
    (by rw [hfed]; simpa only [List.all_eq_true, Bool.not_eq_true'] using hplain) ["ajc"]
    ⟨"", "", "", "", "", "", .ofString "out"⟩ { files := ⟨[], [], none⟩ }⟩

/-- A vertical tab cuts a text that is parsed, but not one that is printed. -/
theorem not_runWeaver_agrees_with_parse :
    ¬ ∀ (s : Stream) (text : String) (schedule : List Stream) (r : Readers),
      (s = .stdout ∨ s = .stderr) →
      (Readers.start (if s = .stdout then fedOf s text else [])
        (if s = .stderr then fedOf s text else [])).run schedule = some r → r.IsFinished →
      ∀ (command : List String) (i : Invocation) (w w' : World) (ds ds' : List Diagnostic),
        runWeaver command i (w.showing 0 r.console) = .ok ds w' → parse s text = .ok ds' →
        ds = ds' := by
  intro hall
  have hfed : fedOf .stdout "a\x0bb\n" = ["a\x0bb\n"] := by
    rw [fedOf_eq]
    decide +kernel
  have hshuffle : IsShuffle (["a\x0bb\n"].map (Line.mk .stdout))
      (([] : List String).map (Line.mk .stderr)) _ := .left .nil
  obtain ⟨schedule, r, hrun, hf, hconsole⟩ := Readers.finished_iff_isShuffle.2 hshuffle
  have hcollect : collect r.console = .ok [⟨.info, "a\x0bb", .stdout, none, false, []⟩] :=
    hconsole ▸ rfl
  obtain ⟨w', hw'⟩ := runWeaver_showing_ok 0 ["ajc"] ⟨"", "", "", "", "", "", .ofString "out"⟩
    { files := ⟨[], [], none⟩ } hcollect
  have hds := hall .stdout "a\x0bb\n" schedule r (.inl rfl) (by rw [hfed]; exact hrun) hf _ _ _ w'
    _ [⟨.info, "a", none, none, ["b"]⟩] hw' rfl
  exact absurd (congrArg (List.map Diagnostic.text) hds) (by decide +kernel)

end WeaveStep
