import WeaveStep.Proofs.Weave.Interleaving

/-!
# Which consoles are answered

A tag is recognised by the forms of its letters, and looked up by its small letters. The two agree on
all characters but one, the dotted capital i, whose small letter leaves a dot behind
(`ofTag?_of_tagged?`). So a console is answered, by the executor and where the text is parsed, as
soon as none of its tags holds that character, and only then (**`runWeaver_answers_iff`**).
-/

namespace WeaveStep

open Console Text

namespace Console

/-- Whether a line has a tag with the dotted capital i. -/
def Line.hasDottedTag (l : Line) : Bool :=
  (tagged? (trimChars l.text.toList)).any fun found => 'İ' ∈ found.tag.toList

variable {line : List Char} {found : Tagged} {l : Line}

/-- A recognised tag stands for what it is spelled as, or for nothing where its i is dotted. -/
theorem ofTag?_of_tagged? (h : tagged? line = some found) :
    if 'İ' ∈ found.tag.toList then Severity.ofTag? found.tag = none
    else Severity.ofTag? found.tag = some .error ∨ Severity.ofTag? found.tag = some .warning := by
  obtain ⟨_, _, _, _, htag⟩ := tagged?_eq_some h
  rw [← String.ofList_toList (s := found.tag), String.toList_ofList]
  rcases htag.spelled with hspelled | hspelled
  · rw [if_neg hspelled.dotless]
    exact .inl (ofTag?_error hspelled)
  · split
    · rename_i hdot
      rw [ofTag?_warning hspelled, if_pos hdot]
    · rename_i hdot
      rw [ofTag?_warning hspelled, if_neg hdot]
      exact .inr rfl

/-- A line is read unless its tag stands for nothing. -/
theorem Line.exists_read_iff : (∃ r, l.read = .ok r) ↔ l.hasDottedTag = false := by
  unfold Line.read Line.hasDottedTag
  dsimp only
  split
  · rename_i hblank
    simp [List.isEmpty_iff.1 hblank, tagged?, locatedTag?, tagAndText?]
  · split
    · rename_i found htag
      have hstands := ofTag?_of_tagged? htag
      rw [htag, Option.any_some, decide_eq_false_iff_not]
      split at hstands
      · rename_i hdot
        simp [hstands, hdot]
      · rename_i hdot
        rcases hstands with h | h <;> simp [h, hdot]
    · rename_i hnone
      rw [hnone]
      split
      · simp
      · split <;> simp

theorem parse_isOk_iff {stream : Stream} {text : String} :
    (∃ ds, parse stream text = .ok ds) ↔ ∃ messages, collect ((lines text).map (Line.mk stream)) =
      .ok messages := by
  unfold parse
  cases collect ((lines text).map (Line.mk stream)) <;> simp [Functor.map, Except.map]

end Console

theorem runWeaver_showing_isOk_iff (status : Int) (lines : List Line) (command : List String)
    (i : Invocation) (w : World) :
    (∃ ds w', runWeaver command i (w.showing status lines) = .ok ds w') ↔
      ∃ messages, collect lines = .ok messages := by
  cases h : collect lines with
  | ok messages =>
    obtain ⟨w', hrun⟩ := runWeaver_showing_ok status command i w h
    exact iff_of_true ⟨_, w', hrun⟩ ⟨messages, rfl⟩
  | error why =>
    obtain ⟨w', hrun⟩ := runWeaver_showing_error status command i w h
    simp [hrun]

/-- Whatever the exit status, a console is answered exactly where none of its lines has a tag with
the dotted capital i, and so is text that is parsed, on any stream. That character is all that keeps
a recognised tag from standing for an error or a warning. -/
theorem runWeaver_answers_iff (status : Int) (lines : List Line) (command : List String)
    (i : Invocation) (w : World) :
    ((∃ ds w', runWeaver command i (w.showing status lines) = .ok ds w') ↔
      ∀ l ∈ lines, l.hasDottedTag = false) ∧
    (∀ stream text, (∃ ds, parse stream text = .ok ds) ↔
      ∀ line ∈ Text.lines text, (Line.mk stream line).hasDottedTag = false) ∧
    ∀ line found, tagged? line = some found →
      ((Severity.ofTag? found.tag = some .error ∨ Severity.ofTag? found.tag = some .warning) ↔
        'İ' ∉ found.tag.toList) := by
  refine ⟨?_, fun stream text => ?_, fun line found htag => ?_⟩
  · rw [runWeaver_showing_isOk_iff, collect_isOk_iff]
    simp only [Line.exists_read_iff]
  · rw [parse_isOk_iff, collect_isOk_iff]
    simp only [Line.exists_read_iff, List.forall_mem_map]
  · have hstands := ofTag?_of_tagged? htag
    split at hstands
    · rename_i hdot
      simp [hstands, hdot]
    · rename_i hdot
      simp only [hdot, not_false_eq_true, iff_true]
      exact hstands

/-- The dotless small i in a tag does no harm. -/
theorem runWeaver_answers_dotless :
    (∃ ds w', runWeaver ["ajc"] ⟨"", "", "", "", "", "", .ofString "out"⟩
      (World.showing { files := ⟨[], [], none⟩ } 1 [⟨.stdout, "A.java:3 [WARNıNG] x\n"⟩]) =
        .ok ds w') ∧
    (∃ ds, parse .stderr "A.java:3 [WARNıNG] x" = .ok ds) ∧
    (Severity.ofTag? "WARNıNG" = some .error ∨ Severity.ofTag? "WARNıNG" = some .warning) := by
  obtain ⟨hrun, hparse, htag⟩ := runWeaver_answers_iff 1 [⟨.stdout, "A.java:3 [WARNıNG] x\n"⟩] ["ajc"]
    ⟨"", "", "", "", "", "", .ofString "out"⟩ { files := ⟨[], [], none⟩ }
  exact ⟨hrun.2 (by decide +kernel), (hparse _ _).2 (by decide +kernel),
    (htag "A.java:3 [WARNıNG] x".toList ⟨some "A.java:3", "WARNıNG", "x"⟩ (by decide +kernel)).2
      (by decide +kernel)⟩

/-- The dotted capital i is a letter of a tag that stands for nothing: neither the executor nor the
parser answers. -/
theorem not_runWeaver_answers :
    ¬ ∀ (status : Int) (lines : List Line) (command : List String) (i : Invocation) (w : World),
      (∃ ds w', runWeaver command i (w.showing status lines) = .ok ds w') ∧
      ∀ stream text, ∃ ds, parse stream text = .ok ds := by
  intro hall
  obtain ⟨-, hparse⟩ := hall 0 [] [] ⟨"", "", "", "", "", "", .ofString "out"⟩
    { files := ⟨[], [], none⟩ }
  obtain ⟨_, hok⟩ := parse_isOk_iff.1 (hparse .stdout "[warnİng] x")
  have hread := Line.exists_read_iff.1 (collect_isOk_iff.1 ⟨_, hok⟩ ⟨.stdout, "[warnİng] x"⟩
    (by decide +kernel))
  revert hread
  decide +kernel

end WeaveStep
