import Mathlib.Data.List.Induction
import WeaveStep.Proofs.Console.Line
import WeaveStep.Proofs.Console.Shuffle

/-!
# The messages of a stream

What is read on one stream does not depend on the lines of the others: the messages of a stream are
those of its lines alone (`collect_filter`). So lists with the same lines on every stream are either
all refused (`collect_isOk_iff`) or have the same messages on every stream, also after a failed run
was explained (`filter_explained`), since only the error stream has a say in that.
-/

namespace WeaveStep.Console

variable {s t : Stream} {latest latest' messages messages' : List Message} {l : Line}
  {lines lines' : List Line}

/-! ## One line -/

theorem filter_goOn?_other {line : String} (hs : t ≠ s) (h : goOn? t line latest = some latest') :
    latest'.filter (·.stream = s) = latest.filter (·.stream = s) := by
  induction latest generalizing latest' with
  | nil => simp [goOn?] at h
  | cons m earlier ih =>
    rw [goOn?] at h
    split at h
    · rename_i hm
      cases h
      simp [hm, hs]
    · obtain ⟨earlier', he, rfl⟩ := Option.map_eq_some_iff.1 h
      simp only [List.filter_cons, ih he]

theorem filter_goOn? (s : Stream) (line : String) (latest : List Message) :
    (goOn? s line latest).map (·.filter (·.stream = s)) =
      goOn? s line (latest.filter (·.stream = s)) := by
  induction latest with
  | nil => rfl
  | cons m earlier ih =>
    by_cases hm : m.stream = s
    · simp [goOn?, hm]
    · rw [goOn?, if_neg hm, List.filter_cons_of_neg (by simpa using hm), ← ih,
        Option.map_map]
      congr 1
      funext found
      simp [hm]

/-- The message that a line begins is on the stream of the line. -/
theorem Line.stream_of_read {r : Reading} (h : l.read = .ok r) :
    match r with
    | .blank => True
    | .head m | .plain _ m => m.stream = l.stream := by
  cases Line.reads h with
  | blank => trivial
  | head _ _ begins => exact begins.stream
  | plain => rfl

/-- The step on another stream: the messages of a stream stay what they are. -/
theorem filter_takeIn_other (hs : l.stream ≠ s) (h : takeIn latest l = .ok latest') :
    latest'.filter (·.stream = s) = latest.filter (·.stream = s) := by
  unfold takeIn at h
  cases hr : l.read with
  | error e => rw [hr] at h; cases h
  | ok r =>
    rw [hr] at h
    have hstream := Line.stream_of_read hr
    cases r with
    | blank => cases h; rfl
    | head m =>
      cases h
      exact List.filter_cons_of_neg (by simpa [hstream] using hs)
    | plain line m =>
      have hgot : (goOn? l.stream line latest).getD (m :: latest) = latest' := Except.ok.inj h
      cases hgo : goOn? l.stream line latest with
      | some found =>
        rw [hgo] at hgot
        cases hgot
        exact filter_goOn?_other hs hgo
      | none =>
        rw [hgo] at hgot
        cases hgot
        exact List.filter_cons_of_neg (by simpa [hstream] using hs)

/-- The step on the stream itself takes the line in as if there were no other messages. -/
theorem filter_takeIn (hs : l.stream = s) (h : takeIn latest l = .ok latest') :
    takeIn (latest.filter (·.stream = s)) l = .ok (latest'.filter (·.stream = s)) := by
  unfold takeIn at h ⊢
  cases hr : l.read with
  | error e => rw [hr] at h; cases h
  | ok r =>
    rw [hr] at h
    have hstream := Line.stream_of_read hr
    cases r with
    | blank => cases h; rfl
    | head m =>
      cases h
      rw [List.filter_cons_of_pos (by simpa [hstream] using hs)]
      rfl
    | plain line m =>
      have hgot : (goOn? l.stream line latest).getD (m :: latest) = latest' := Except.ok.inj h
      refine congrArg Except.ok (?_ : (goOn? l.stream line _).getD _ = _)
      rw [hs, ← filter_goOn?, ← hgot, hs]
      cases goOn? s line latest with
      | some found => rfl
      | none => exact (List.filter_cons_of_pos (by simpa [hstream] using hs)).symm

/-! ## All lines -/

theorem foldlM_takeIn_concat {init : List Message} :
    (lines ++ [l]).foldlM takeIn init = .ok latest' ↔
      ∃ latest, lines.foldlM takeIn init = .ok latest ∧ takeIn latest l = .ok latest' := by
  rw [List.foldlM_append]
  cases lines.foldlM takeIn init with
  | error e => simp [bind, Except.bind]
  | ok latest =>
    cases ht : takeIn latest l with
    | error e => simp [bind, Except.bind, ht]
    | ok m => simp [bind, Except.bind, pure, Except.pure, ht]

/-- The run, seen from one stream. -/
theorem foldlM_takeIn_filter (s : Stream) (h : lines.foldlM takeIn [] = .ok latest) :
    (lines.filter (·.stream = s)).foldlM takeIn [] = .ok (latest.filter (·.stream = s)) := by
  induction lines using List.reverseRecOn generalizing latest with
  | nil => cases h; rfl
  | append_singleton front l ih =>
    obtain ⟨mid, hfront, hl⟩ := foldlM_takeIn_concat.1 h
    rw [List.filter_append]
    by_cases hs : l.stream = s
    · rw [List.filter_cons_of_pos (by simpa using hs)]
      exact foldlM_takeIn_concat.2 ⟨_, ih hfront, filter_takeIn hs hl⟩
    · rw [List.filter_cons_of_neg (by simpa using hs), List.filter_nil, List.append_nil,
        filter_takeIn_other hs hl]
      exact ih hfront

/-- Lines are taken in as soon as each of them can be read. -/
theorem foldlM_takeIn_isOk_iff :
    (∃ latest, lines.foldlM takeIn [] = .ok latest) ↔ ∀ l ∈ lines, ∃ r, l.read = .ok r := by
  have hstep : ∀ (latest : List Message) (l : Line),
      (∃ latest', takeIn latest l = .ok latest') ↔ ∃ r, l.read = .ok r := by
    intro latest l
    unfold takeIn
    cases l.read with
    | error e => simp [bind, Except.bind]
    | ok r => cases r <;> simp [bind, Except.bind, pure, Except.pure]
  induction lines using List.reverseRecOn with
  | nil => simp [pure, Except.pure]
  | append_singleton front l ih =>
    simp only [foldlM_takeIn_concat, List.mem_append, List.mem_singleton, or_imp, forall_and,
      forall_eq, ← ih]
    constructor
    · rintro ⟨latest', latest, hfront, hl⟩
      exact ⟨⟨latest, hfront⟩, (hstep latest l).1 ⟨latest', hl⟩⟩
    · rintro ⟨⟨latest, hfront⟩, hl⟩
      obtain ⟨latest', hl⟩ := (hstep latest l).2 hl
      exact ⟨latest', latest, hfront, hl⟩

theorem collect_eq_ok :
    collect lines = .ok messages ↔ lines.foldlM takeIn [] = .ok messages.reverse := by
  unfold collect
  cases lines.foldlM takeIn [] with
  | error e => simp [Functor.map, Except.map]
  | ok latest => simp [Functor.map, Except.map, List.reverse_eq_iff]

/-- The messages of a stream are those of its lines. -/
theorem collect_filter (s : Stream) (h : collect lines = .ok messages) :
    collect (lines.filter (·.stream = s)) = .ok (messages.filter (·.stream = s)) := by
  rw [collect_eq_ok] at h ⊢
  rw [← List.filter_reverse]
  exact foldlM_takeIn_filter s h

theorem collect_isOk_iff :
    (∃ messages, collect lines = .ok messages) ↔ ∀ l ∈ lines, ∃ r, l.read = .ok r := by
  rw [← foldlM_takeIn_isOk_iff]
  constructor
  · rintro ⟨messages, h⟩
    exact ⟨_, collect_eq_ok.1 h⟩
  · rintro ⟨latest, h⟩
    exact ⟨latest.reverse, collect_eq_ok.2 (by rwa [List.reverse_reverse])⟩

/-! ## Failed runs -/

theorem filter_promote?_other (hs : s ≠ .stderr) (h : promote? messages = some messages') :
    messages'.filter (·.stream = s) = messages.filter (·.stream = s) := by
  induction messages generalizing messages' with
  | nil => simp [promote?] at h
  | cons m later ih =>
    rw [promote?] at h
    split at h
    · rename_i hm
      have hstream : m.stream = .stderr := by simp [Message.isUnexplained] at hm; exact hm.1.1
      cases h
      simp [hstream, hs.symm]
    · obtain ⟨later', hl, rfl⟩ := Option.map_eq_some_iff.1 h
      simp only [List.filter_cons, ih hl]

theorem filter_promote? (messages : List Message) :
    (promote? messages).map (·.filter (·.stream = .stderr)) =
      promote? (messages.filter (·.stream = .stderr)) := by
  induction messages with
  | nil => rfl
  | cons m later ih =>
    by_cases hm : m.stream = .stderr
    · rw [promote?, List.filter_cons_of_pos (by simpa using hm), promote?, ← ih]
      split
      · simp [hm]
      · rw [Option.map_map, Option.map_map]
        congr 1
        funext found
        simp [hm]
    · rw [promote?, if_neg (by simp [Message.isUnexplained, hm]),
        List.filter_cons_of_neg (by simpa using hm), ← ih, Option.map_map]
      congr 1
      funext found
      simp [hm]

/-- Only messages on the error stream are explained, and it takes no others to tell how. -/
theorem filter_explained (status : Int) (messages : List Message) (s : Stream) :
    (explained status messages).filter (·.stream = s) =
      if status ≠ 0 ∧ !messages.any Message.isFatal ∧ s = .stderr then
        (promote? (messages.filter (·.stream = .stderr))).getD
          (messages.filter (·.stream = .stderr) ++ [statusMessage status])
      else messages.filter (·.stream = s) := by
  unfold explained
  by_cases hfail : status ≠ 0 ∧ !messages.any Message.isFatal
  · rw [if_pos hfail]
    by_cases hs : s = .stderr
    · subst hs
      rw [if_pos ⟨hfail.1, hfail.2, rfl⟩, ← filter_promote?]
      cases promote? messages with
      | some found => rfl
      | none => simp [statusMessage]
    · rw [if_neg fun h => hs h.2.2]
      cases hp : promote? messages with
      | some found => exact filter_promote?_other hs hp
      | none => simp [statusMessage, Ne.symm hs]
  · rw [if_neg hfail, if_neg fun h => hfail ⟨h.1, h.2.1⟩]

/-- Messages that are the same on every stream are so after a failed run was explained. -/
theorem filter_explained_congr (status : Int)
    (h : ∀ s, messages.filter (·.stream = s) = messages'.filter (·.stream = s)) (s : Stream) :
    (explained status messages).filter (·.stream = s) =
      (explained status messages').filter (·.stream = s) := by
  rw [filter_explained, filter_explained, h, h, (perm_of_filter_eq Message.stream h).any_eq]

end WeaveStep.Console
