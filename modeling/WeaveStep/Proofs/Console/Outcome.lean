import WeaveStep.Proofs.Console.Blocks
import WeaveStep.Proofs.Lists

/-!
# What a failed run is told by

Errors among the messages are errors among the lines (`exists_isFatal_iff`). Where there is none, a
failed run is told by its first message on the error stream, if that begins on a plain line: only
the first message of a stream can do so (`Account.first_on`), so no other one is unexplained.

* `outcome_has_error_iff`: a run has an error or worse exactly if it failed or a line says so.
* `explained_of_plain`, `explained_of_not_plain`: how a failed run without an error is told.
-/

namespace WeaveStep.Console

open Text

/-- The first line of a stream that is not blank. -/
def firstLineOn? (s : Stream) (lines : List Line) : Option Line :=
  lines.find? fun l => !l.isBlank && l.stream = s

/-! ## Errors -/

theorem Message.isFatal_finish (m : Message) : m.finish.isFatal = m.isFatal := rfl

theorem Line.SaysError.isBlank_eq {l : Line} (h : l.SaysError) : l.isBlank = false := by
  rw [← Bool.not_eq_true, Line.isBlank_iff]
  intro hempty
  obtain ⟨found, hfound, -⟩ := h
  rw [hempty] at hfound
  cases hfound

/-- A message is an error or worse exactly if its first line says so. -/
theorem Block.Makes.isFatal_iff {b : Block} {m : Message} (h : b.Makes m) :
    m.isFatal = true ↔ b.head.1.SaysError := by
  rcases h.opening with hread | ⟨-, hcalm, hopening⟩
  · cases hread with
    | head _ _ _ _ _ fatal => exact fatal
  · have hinfo : m.severity = .info := congrArg Message.severity hopening
    exact iff_of_false (by simp [Message.isFatal, hinfo, Severity.level]) hcalm

namespace Account

variable {seen : List (Line × Nat)} {blocks : List Block} {latest : List Message}

/-- The lines of the blocks are those that were seen, but for the blank ones. -/
theorem mem_lines_iff (h : Account seen blocks latest) (p : Line × Nat) :
    (∃ b ∈ blocks, p ∈ b.lines) ↔ p ∈ seen ∧ p.1.isBlank = false := by
  have hon : p ∈ Block.linesOn p.1.stream blocks ↔ p ∈ seen ∧ p.1.isBlank = false := by
    rw [h.onStream]
    simp
  rw [← hon, Block.linesOn]
  simp only [List.mem_flatMap, List.mem_filter, List.mem_reverse, decide_eq_true_eq]
  constructor
  · rintro ⟨b, hb, hp⟩
    obtain ⟨m, -, hbm⟩ := exists_of_mem_forall₂ h.makes hb
    exact ⟨b, ⟨hb, (hbm.tells.stream_of_mem hp).symm⟩, hp⟩
  · rintro ⟨b, ⟨hb, -⟩, hp⟩
    exact ⟨b, hb, hp⟩

/-- Only the first line of a message can say that it is an error. -/
theorem exists_isFatal_iff (h : Account seen blocks latest) :
    (∃ m ∈ latest, m.isFatal = true) ↔ ∃ p ∈ seen, p.1.SaysError := by
  rw [← exists_congr_of_forall₂ h.makes fun b m hbm => hbm.isFatal_iff.symm]
  constructor
  · rintro ⟨b, hb, herror⟩
    exact ⟨b.head, ((h.mem_lines_iff b.head).1 ⟨b, hb, List.mem_cons_self⟩).1, herror⟩
  · rintro ⟨p, hp, herror⟩
    obtain ⟨b, hb, hpb⟩ := (h.mem_lines_iff p).2 ⟨hp, herror.isBlank_eq⟩
    obtain ⟨m, -, hbm⟩ := exists_of_mem_forall₂ h.makes hb
    rcases List.mem_cons.1 hpb with rfl | hrest
    · exact ⟨b, hb, herror⟩
    · exact absurd herror (hbm.rest p hrest).2

end Account

/-- There is an error or worse among the messages exactly if some line says so. -/
theorem exists_isFatal_iff {lines : List Line} {messages : List Message}
    (h : collect lines = .ok messages) :
    messages.any Message.isFatal = true ↔ ∃ l ∈ lines, l.SaysError := by
  obtain ⟨blocks, hacc⟩ := exists_account_of_collect h
  have hlines : (∃ p ∈ lines.zipIdx, p.1.SaysError) ↔ ∃ l ∈ lines, l.SaysError := by
    conv_rhs => rw [← List.zipIdx_map_fst 0 lines]
    simp only [List.mem_map, exists_exists_and_eq_and]
  rw [← hlines, ← hacc.exists_isFatal_iff, List.any_eq_true]
  simp only [List.mem_reverse]

/-! ## Unexplained messages -/

/-- A message is unexplained exactly if it begins on a plain line of the error stream. -/
theorem Block.Makes.isUnexplained_eq {b : Block} {m : Message} (h : b.Makes m) :
    m.isUnexplained = (decide (b.stream = .stderr) && b.head.1.isPlain) := by
  rcases h.opening with hread | ⟨hplain, -, hopening⟩
  · cases hread with
    | head _ plain _ _ explained _ =>
      rw [plain, Bool.and_false]
      exact explained
  · have htagged : m.tagged = false := congrArg Message.tagged hopening
    have hinfo : m.severity = .info := congrArg Message.severity hopening
    simp [Message.isUnexplained, htagged, hinfo, hplain, h.stream]

/-- The first message of a stream begins on its first line that is not blank, and no later one is
unexplained. -/
theorem Account.first_on {lines : List Line} {messages : List Message} {blocks : List Block}
    (h : Account lines.zipIdx blocks messages.reverse) (s : Stream) :
    match firstLineOn? s lines with
    | none => messages.filter (·.stream = s) = []
    | some first => ∃ (b : Block) (m : Message) (later : List Message),
        b.head.1 = first ∧ b.Makes m ∧ messages.filter (·.stream = s) = m :: later ∧
          ∀ m' ∈ later, m'.isUnexplained = false := by
  have hfirst : firstLineOn? s lines = ((Block.linesOn s blocks).map Prod.fst).head? := by
    rw [h.onStream, firstLineOn?, ← List.head?_filter]
    conv_lhs => rw [← List.zipIdx_map_fst 0 lines]
    rw [List.filter_map]
    rfl
  have hmakes : List.Forall₂ Block.Makes (blocks.reverse.filter (·.stream = s))
      (messages.filter (·.stream = s)) := by
    have hrev := List.rel_reverse h.makes
    rw [List.reverse_reverse] at hrev
    exact List.rel_filter (fun b m hbm => by simp [hbm.stream]) hrev
  have hplain : (blocks.reverse.filter (·.stream = s)).Pairwise fun _ later =>
      later.head.1.isPlain = false := by
    have hopened := (List.pairwise_reverse.2 (List.pairwise_map.1 h.opened)).filter (·.stream = s)
    refine hopened.imp_of_mem fun {earlier later} hearlier hlater hpair => hpair ?_
    simp only [List.mem_filter, decide_eq_true_eq] at hearlier hlater
    exact hlater.2.trans hearlier.2.symm
  -- from here on only the messages of this stream, with their blocks
  rw [hfirst, Block.linesOn]
  generalize blocks.reverse.filter (·.stream = s) = own at hmakes hplain
  generalize messages.filter (·.stream = s) = ownMessages at hmakes
  cases hmakes with
  | nil => simp
  | @cons b m bs later hbm hrest =>
    refine ⟨b, m, later, rfl, hbm, rfl, ?_⟩
    by_contra hsome
    have hex : ∃ m' ∈ later, m'.isUnexplained = true := by simpa using hsome
    obtain ⟨b', hb', hunexplained⟩ :=
      (exists_congr_of_forall₂ hrest fun _ _ hbm' => by rw [hbm'.isUnexplained_eq]).2 hex
    have hcalm := (List.pairwise_cons.1 hplain).1 b' hb'
    rw [hcalm, Bool.and_false] at hunexplained
    cases hunexplained

/-! ## Failed runs -/

section

variable {before after messages messages' : List Message} {m : Message}

theorem promote?_eq_none (h : ∀ m ∈ messages, m.isUnexplained = false) :
    promote? messages = none := by
  induction messages with
  | nil => rfl
  | cons m later ih =>
    rw [promote?, h m (by simp), ih fun m hm => h m (by simp [hm])]
    rfl

theorem promote?_append (hbefore : ∀ m' ∈ before, m'.isUnexplained = false)
    (hm : m.isUnexplained = true) :
    promote? (before ++ m :: after) = some (before ++ { m with severity := .abort } :: after) := by
  induction before with
  | nil => simp [promote?, hm]
  | cons m' before ih =>
    rw [List.cons_append, promote?, hbefore m' (by simp), ih fun m hm => hbefore m (by simp [hm])]
    rfl

theorem any_isFatal_of_promote? (h : promote? messages = some messages') :
    messages'.any Message.isFatal = true := by
  induction messages generalizing messages' with
  | nil => cases h
  | cons m later ih =>
    rw [promote?] at h
    split at h
    · cases h
      simp [Message.isFatal, Severity.level]
    · obtain ⟨later', hlater, rfl⟩ := Option.map_eq_some_iff.1 h
      simp [ih hlater]

/-- A run has an error or worse if it failed, and if its messages have one. -/
theorem any_isFatal_explained (status : Int) (messages : List Message) :
    (explained status messages).any Message.isFatal = true ↔
      status ≠ 0 ∨ messages.any Message.isFatal = true := by
  unfold explained
  split
  · rename_i hfail
    refine iff_of_true ?_ (.inl hfail.1)
    cases hp : promote? messages with
    | none => simp [statusMessage, Message.isFatal, Severity.level]
    | some messages' => exact any_isFatal_of_promote? hp
  · rename_i hfine
    refine ⟨.inr, fun h => h.elim (fun hstatus => ?_) id⟩
    by_contra hcalm
    exact hfine ⟨hstatus, by simpa using hcalm⟩

end

section

variable {status : Int} {lines : List Line} {messages : List Message} {first : Line}

theorem explained_eq_self (hc : collect lines = .ok messages)
    (h : status = 0 ∨ ∃ l ∈ lines, l.SaysError) : explained status messages = messages := by
  unfold explained
  refine if_neg fun hfail => ?_
  rcases h with hstatus | herror
  · exact hfail.1 hstatus
  · rw [(exists_isFatal_iff hc).2 herror] at hfail
    exact Bool.noConfusion hfail.2

theorem explained_of_failed (hc : collect lines = .ok messages) (hstatus : status ≠ 0)
    (hcalm : ¬ ∃ l ∈ lines, l.SaysError) :
    explained status messages =
      (promote? messages).getD (messages ++ [statusMessage status]) := by
  unfold explained
  exact if_pos ⟨hstatus, by rw [← exists_isFatal_iff hc] at hcalm; simpa using hcalm⟩

/-- Where the error stream begins with a plain line, the message that begins there becomes an
abort. -/
theorem explained_of_plain (hc : collect lines = .ok messages) (hstatus : status ≠ 0)
    (hcalm : ¬ ∃ l ∈ lines, l.SaysError) (hfirst : firstLineOn? .stderr lines = some first)
    (hplain : first.isPlain = true) :
    ∃ before m after, messages = before ++ m :: after ∧ (∀ m' ∈ before, m'.stream ≠ .stderr) ∧
      m.stream = .stderr ∧ m.text = trim first.text ∧
      explained status messages = before ++ { m with severity := .abort } :: after := by
  obtain ⟨blocks, hacc⟩ := exists_account_of_collect hc
  have hon := hacc.first_on .stderr
  rw [hfirst] at hon
  obtain ⟨b, m, later, rfl, hbm, hown, -⟩ := hon
  obtain ⟨before, after, rfl, hbefore, hm, -⟩ := List.filter_eq_cons_iff.1 hown
  have hbefore' : ∀ m' ∈ before, m'.stream ≠ .stderr := by simpa using hbefore
  have hstream : m.stream = .stderr := by simpa using hm
  have hunexplained : m.isUnexplained = true := by
    rw [hbm.isUnexplained_eq, hplain, ← hbm.stream, hstream]
    rfl
  have htext : m.text = trim b.head.1.text := by
    rcases hbm.opening with hread | ⟨-, -, hopening⟩
    · cases hread with
      | head _ plain => rw [hplain] at plain; cases plain
    · exact congrArg Message.text hopening
  refine ⟨before, m, after, rfl, hbefore', hstream, htext, ?_⟩
  have hcalm' : ∀ m' ∈ before, m'.isUnexplained = false := fun m' hm' => by
    simp [Message.isUnexplained, hbefore' m' hm']
  rw [explained_of_failed hc hstatus hcalm, promote?_append hcalm' hunexplained, Option.getD_some]

/-- Where it does not, the exit status is reported. -/
theorem explained_of_not_plain (hc : collect lines = .ok messages) (hstatus : status ≠ 0)
    (hcalm : ¬ ∃ l ∈ lines, l.SaysError)
    (hfirst : ∀ first, firstLineOn? .stderr lines = some first → first.isPlain = false) :
    explained status messages = messages ++ [statusMessage status] := by
  obtain ⟨blocks, hacc⟩ := exists_account_of_collect hc
  have hon := hacc.first_on .stderr
  have hnone : ∀ m ∈ messages.filter (·.stream = .stderr), m.isUnexplained = false := by
    cases hf : firstLineOn? .stderr lines with
    | none =>
      rw [hf] at hon
      simp [show messages.filter (·.stream = .stderr) = [] from hon]
    | some first =>
      rw [hf] at hon
      obtain ⟨b, m, later, rfl, hbm, hown, hlater⟩ := hon
      rw [hown]
      intro m' hm'
      rcases List.mem_cons.1 hm' with rfl | hm'
      · rw [hbm.isUnexplained_eq, hfirst _ hf, Bool.and_false]
      · exact hlater m' hm'
  have hcalm' : ∀ m ∈ messages, m.isUnexplained = false := by
    intro m hm
    by_cases hs : m.stream = .stderr
    · exact hnone m (by simp [hm, hs])
    · simp [Message.isUnexplained, hs]
  rw [explained_of_failed hc hstatus hcalm, promote?_eq_none hcalm', Option.getD_none]

end

/-! ## The diagnostics of a run -/

/-- The diagnostic of a message that was made an abort: it has a cause exactly if it has detail. -/
def Message.aborting (m : Message) : Diagnostic :=
  { m.finish with
    severity := .abort
    cause := if m.detail = [] then none else some (.trace ("\n".intercalate m.detail)) }

/-- The diagnostic that reports an exit status. -/
def statusDiagnostic (status : Int) : Diagnostic :=
  ⟨.error, "Weaver exited with status " ++ toString status, none, none, []⟩

theorem Message.finish_abort (m : Message) :
    Message.finish { m with severity := .abort } = m.aborting := by
  by_cases hdetail : m.detail = [] <;> simp [finish, aborting, hdetail, Severity.level]

theorem outcome_eq_ok {status : Int} {lines : List Line} {ds : List Diagnostic} :
    outcome status lines = .ok ds ↔
      ∃ messages, collect lines = .ok messages ∧
        ds = (explained status messages).map Message.finish := by
  unfold outcome
  cases collect lines with
  | error why => simp [Functor.map, Except.map]
  | ok messages => simp [Functor.map, Except.map, eq_comm]

/-- A run has an error or worse exactly if it failed or a line says so. -/
theorem outcome_has_error_iff {status : Int} {lines : List Line} {ds : List Diagnostic}
    (h : outcome status lines = .ok ds) :
    (∃ d ∈ ds, d.isFatal = true) ↔ status ≠ 0 ∨ ∃ l ∈ lines, l.SaysError := by
  obtain ⟨messages, hc, rfl⟩ := outcome_eq_ok.1 h
  rw [← exists_isFatal_iff hc, ← any_isFatal_explained, List.any_eq_true]
  simp only [List.mem_map, exists_exists_and_eq_and, Message.isFatal_finish]

end WeaveStep.Console
