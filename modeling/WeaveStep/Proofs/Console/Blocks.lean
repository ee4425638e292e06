import WeaveStep.Proofs.Console.Streams

/-!
# The lines of a message

Every message stands for a block of lines (`Block`): the line that begins it and the lines that go
on it, each with its number. `Account` is the invariant of `collect` that links the messages with
the blocks of the lines taken in so far:

* a message is what its block makes of it (`Block.Makes`);
* the blocks of a stream hold the lines of that stream that are not blank, in order (`onStream`);
* a later message begins on a later line (`ordered`), and only the first message of a stream begins
  on a plain line (`opened`).

`Account.takeIn` is the step, `exists_account` the whole run. From it: no line is lost or told twice
(`collect_accounts_for_lines`).
-/

namespace WeaveStep.Console

open Text

/-- The lines of one message, numbered as they were read. -/
structure Block where
  head : Line × Nat
  rest : List (Line × Nat) := []

/-- The message without the lines that go on it. -/
def Message.opening (m : Message) : Message := { m with detail := [] }

namespace Block

/-- All lines of a block. -/
def lines (b : Block) : List (Line × Nat) := b.head :: b.rest

/-- The stream of a block. -/
def stream (b : Block) : Stream := b.head.1.stream

/-- `m` is made of the lines of the block: by the head and the lines that go on it. -/
structure Makes (b : Block) (m : Message) : Prop where
  opening : b.head.1.Reads (.head m.opening) ∨
    b.head.1.isPlain = true ∧ ¬ b.head.1.SaysError ∧ m.opening = b.head.1.plainMessage
  begins : b.head.1.Begins m.opening
  detail : m.detail = b.rest.map fun p => trimRight p.1.text
  rest : ∀ p ∈ b.rest, p.1.stream = b.stream ∧ ¬ p.1.SaysError

/-- Adds a line to the latest block of its stream, if there is one; the latest block comes first. -/
def extend? (p : Line × Nat) : List Block → Option (List Block)
  | [] => none
  | b :: earlier =>
    if b.stream = p.1.stream then some ({ b with rest := b.rest ++ [p] } :: earlier)
    else (extend? p earlier).map (b :: ·)

variable {p : Line × Nat} {blocks blocks' : List Block}

theorem Makes.stream {b : Block} {m : Message} (h : b.Makes m) : m.stream = b.stream :=
  h.begins.stream

/-- One more line makes one more entry of the detail. -/
theorem Makes.extend {b : Block} {m : Message} (h : b.Makes m) (hs : p.1.stream = b.stream)
    (hp : ¬ p.1.SaysError) :
    Makes { b with rest := b.rest ++ [p] }
      { m with detail := m.detail ++ [trimRight p.1.text] } where
  opening := h.opening
  begins := h.begins
  detail := by simp [h.detail]
  rest q hq := by
    rcases List.mem_append.1 hq with hq | hq
    · exact h.rest q hq
    · obtain rfl := List.mem_singleton.1 hq
      exact ⟨hs, hp⟩

/-! ## Adding a line -/

theorem heads_extend? (h : extend? p blocks = some blocks') :
    blocks'.map (·.head) = blocks.map (·.head) := by
  induction blocks generalizing blocks' with
  | nil => simp [extend?] at h
  | cons b earlier ih =>
    rw [extend?] at h
    split at h
    · cases h; rfl
    · obtain ⟨earlier', he, rfl⟩ := Option.map_eq_some_iff.1 h
      simp [ih he]

theorem stream_ne_of_extend? (h : extend? p blocks = none) :
    ∀ b ∈ blocks, b.stream ≠ p.1.stream := by
  induction blocks with
  | nil => simp
  | cons b earlier ih =>
    rw [extend?] at h
    split at h
    · cases h
    · rename_i hb
      intro b' hb'
      rcases List.mem_cons.1 hb' with rfl | hb'
      · exact hb
      · exact ih (by simpa using h) b' hb'

/-- The lines of a stream, as the blocks hold them; the latest block comes first. -/
def linesOn (s : Stream) (blocks : List Block) : List (Line × Nat) :=
  (blocks.reverse.filter (·.stream = s)).flatMap lines

theorem linesOn_cons (s : Stream) (b : Block) (earlier : List Block) :
    linesOn s (b :: earlier) = linesOn s earlier ++ if b.stream = s then b.lines else [] := by
  by_cases hb : b.stream = s <;> simp [linesOn, hb]

theorem linesOn_extend? (h : extend? p blocks = some blocks') (s : Stream) :
    linesOn s blocks' = linesOn s blocks ++ if p.1.stream = s then [p] else [] := by
  induction blocks generalizing blocks' with
  | nil => simp [extend?] at h
  | cons b earlier ih =>
    rw [extend?] at h
    split at h
    · rename_i hb
      cases h
      rw [linesOn_cons, linesOn_cons, ← hb]
      by_cases hs : b.stream = s
      · simp [stream, lines, show b.head.1.stream = s from hs]
      · simp [stream, show b.head.1.stream ≠ s from hs]
    · rename_i hb
      obtain ⟨earlier', he, rfl⟩ := Option.map_eq_some_iff.1 h
      rw [linesOn_cons, linesOn_cons, ih he]
      by_cases hs : b.stream = s
      · simp [hs, show p.1.stream ≠ s from fun hp => hb (hs.trans hp.symm)]
      · simp [hs]

/-- A line that goes on a message goes on its block, and where there is no message there is no
block. -/
theorem makes_goOn? {latest : List Message} (h : List.Forall₂ Makes blocks latest)
    (hp : ¬ p.1.SaysError) :
    Option.Rel (List.Forall₂ Makes) (extend? p blocks)
      (goOn? p.1.stream (trimRight p.1.text) latest) := by
  induction h with
  | nil => exact .none
  | @cons b m earlier earlier' hb hrest ih =>
    rw [extend?, goOn?, ← hb.stream]
    split
    · rename_i hs
      exact .some (.cons (hb.extend (hs ▸ hb.stream.symm ▸ rfl) hp) hrest)
    · generalize extend? p earlier = found, goOn? p.1.stream (trimRight p.1.text) earlier' = found'
        at ih
      cases ih with
      | none => exact .none
      | some hr => exact .some (.cons hb hr)

end Block

/-! ## The invariant -/

/-- The messages taken in so far, with the blocks of the lines seen (module doc); the latest message
and the latest block come first. -/
structure Account (seen : List (Line × Nat)) (blocks : List Block) (latest : List Message) :
    Prop where
  makes : List.Forall₂ Block.Makes blocks latest
  onStream : ∀ s, Block.linesOn s blocks = seen.filter fun p => !p.1.isBlank && p.1.stream = s
  below : ∀ b ∈ blocks, b.head.2 < seen.length
  ordered : (blocks.map (·.head)).Pairwise fun later earlier => earlier.2 < later.2
  opened : (blocks.map (·.head)).Pairwise fun later earlier =>
    later.1.stream = earlier.1.stream → later.1.isPlain = false

namespace Account

variable {seen : List (Line × Nat)} {blocks : List Block} {latest latest' : List Message}

theorem start : Account [] [] [] where
  makes := .nil
  onStream _ := rfl
  below := by simp
  ordered := .nil
  opened := .nil

/-- A blank line changes nothing. -/
theorem skip (h : Account seen blocks latest) {l : Line} (hl : l.isBlank = true) :
    Account (seen ++ [(l, seen.length)]) blocks latest where
  makes := h.makes
  onStream s := by simp [h.onStream s, hl]
  below b hb := by have := h.below b hb; simp; omega
  ordered := h.ordered
  opened := h.opened

/-- A line that begins a message begins a block; it may be plain where it is the first of its
stream. -/
theorem begin (h : Account seen blocks latest) {l : Line} {m : Message}
    (hm : Block.Makes ⟨(l, seen.length), []⟩ m) (hl : l.isBlank = false)
    (hfirst : l.isPlain = false ∨ ∀ b ∈ blocks, b.stream ≠ l.stream) :
    Account (seen ++ [(l, seen.length)]) (⟨(l, seen.length), []⟩ :: blocks) (m :: latest) where
  makes := .cons hm h.makes
  onStream s := by
    rw [Block.linesOn_cons, h.onStream s]
    by_cases hs : l.stream = s <;> simp [hl, hs, Block.stream, Block.lines]
  below b hb := by
    rcases List.mem_cons.1 hb with rfl | hb
    · simp
    · have := h.below b hb; simp; omega
  ordered := by
    refine List.pairwise_cons.2 ⟨fun q hq => ?_, h.ordered⟩
    obtain ⟨b, hb, rfl⟩ := List.mem_map.1 hq
    exact h.below b hb
  opened := by
    refine List.pairwise_cons.2 ⟨fun q hq hs => ?_, h.opened⟩
    obtain ⟨b, hb, rfl⟩ := List.mem_map.1 hq
    exact hfirst.resolve_right fun hne => hne b hb hs.symm

/-- A line that goes on a message goes on its block. -/
theorem goOn (h : Account seen blocks latest) {l : Line} {blocks' : List Block}
    (hl : l.isBlank = false) (hb : Block.extend? (l, seen.length) blocks = some blocks')
    (hm : List.Forall₂ Block.Makes blocks' latest') :
    Account (seen ++ [(l, seen.length)]) blocks' latest' where
  makes := hm
  onStream s := by
    rw [Block.linesOn_extend? hb, h.onStream s]
    by_cases hs : l.stream = s <;> simp [hl, hs]
  below b hb' := by
    have hmem : b.head ∈ blocks.map (·.head) :=
      Block.heads_extend? hb ▸ List.mem_map_of_mem hb'
    obtain ⟨b', hb', he⟩ := List.mem_map.1 hmem
    have := h.below b' hb'
    rw [he] at this
    simp; omega
  ordered := by rw [Block.heads_extend? hb]; exact h.ordered
  opened := by rw [Block.heads_extend? hb]; exact h.opened

/-- The step: taking in a line keeps the account. -/
theorem takeIn (h : Account seen blocks latest) {l : Line}
    (ht : Console.takeIn latest l = .ok latest') :
    ∃ blocks', Account (seen ++ [(l, seen.length)]) blocks' latest' := by
  unfold Console.takeIn at ht
  cases hr : l.read with
  | error e => rw [hr] at ht; cases ht
  | ok r =>
    rw [hr] at ht
    have hreads := Line.reads hr
    cases hreads with
    | blank hblank =>
      cases ht
      exact ⟨blocks, h.skip hblank⟩
    | @head m told hplain begins detail explained fatal =>
      cases ht
      have hopening : m.opening = m := by rw [Message.opening, ← detail]
      refine ⟨_, h.begin ⟨.inl ?_, ?_, detail, by simp⟩ told (.inl hplain)⟩
      · rw [hopening]
        exact .head told hplain begins detail explained fatal
      · rw [hopening]
        exact begins
    | plain told hplain begins calm =>
      -- the line goes on the latest message of its stream, or begins the first one
      have hgot : (goOn? l.stream (trimRight l.text) latest).getD (l.plainMessage :: latest) =
          latest' := Except.ok.inj ht
      have hrel := Block.makes_goOn? (p := (l, seen.length)) h.makes calm
      generalize goOn? l.stream (trimRight l.text) latest = found at hgot hrel
      cases hblocks : Block.extend? (l, seen.length) blocks with
      | some blocks' =>
        rw [hblocks] at hrel
        cases hrel with
        | some hmakes =>
          cases hgot
          exact ⟨blocks', h.goOn told hblocks hmakes⟩
      | none =>
        rw [hblocks] at hrel
        cases hrel
        cases hgot
        exact ⟨_, h.begin ⟨.inr ⟨hplain, calm, rfl⟩, begins, rfl, by simp⟩ told
          (.inr (Block.stream_ne_of_extend? hblocks))⟩

end Account

/-- The run: every list of lines that is taken in has an account. -/
theorem exists_account {lines : List Line} {latest : List Message}
    (h : lines.foldlM takeIn [] = .ok latest) : ∃ blocks, Account lines.zipIdx blocks latest := by
  induction lines using List.reverseRecOn generalizing latest with
  | nil =>
    cases h
    exact ⟨[], .start⟩
  | append_singleton front l ih =>
    obtain ⟨latest', hf, htake⟩ := foldlM_takeIn_concat.1 h
    obtain ⟨blocks, hblocks⟩ := ih hf
    obtain ⟨blocks', hblocks'⟩ := hblocks.takeIn htake
    refine ⟨blocks', ?_⟩
    rw [List.zipIdx_append]
    simpa using hblocks'

/-- The messages of a list of lines have an account. -/
theorem exists_account_of_collect {lines : List Line} {messages : List Message}
    (h : collect lines = .ok messages) :
    ∃ blocks, Account lines.zipIdx blocks messages.reverse :=
  exists_account (collect_eq_ok.1 h)

/-! ## All lines are told -/

/-- `m` is told by the lines of the block: the head begins it, and every other line is an entry of
its detail, with nothing but the blanks at its end left out. -/
structure Block.Tells (b : Block) (m : Message) : Prop where
  begins : b.head.1.Begins m
  detail : List.Forall₂ (fun p entry => IsRightTrim p.1.text.toList entry.toList) b.rest m.detail
  together : ∀ p ∈ b.rest, p.1.stream = b.stream

theorem Block.Makes.tells {b : Block} {m : Message} (h : b.Makes m) : b.Tells m where
  begins := ⟨h.begins.stream, h.begins.untagged, h.begins.tagged⟩
  detail := by
    rw [h.detail, List.forall₂_map_right_iff]
    exact List.forall₂_same.2 fun p _ => trimRight_spec p.1.text
  together p hp := (h.rest p hp).1

/-- All lines of a block are on its stream. -/
theorem Block.Tells.stream_of_mem {b : Block} {m : Message} (h : b.Tells m) {p : Line × Nat}
    (hp : p ∈ b.lines) : p.1.stream = b.stream := by
  rcases List.mem_cons.1 hp with rfl | hp
  · rfl
  · exact h.together p hp

theorem Block.Tells.filter_lines {b : Block} {m : Message} (h : b.Tells m) (s : Stream) :
    b.lines.filter (·.1.stream = s) = if b.stream = s then b.lines else [] := by
  split
  · rename_i hs
    exact List.filter_eq_self.2 fun p hp => by simp [h.stream_of_mem hp, hs]
  · rename_i hs
    exact List.filter_eq_nil_iff.2 fun p hp => by simp [h.stream_of_mem hp, hs]

theorem filter_flatMap_lines {blocks : List Block} {messages : List Message}
    (h : List.Forall₂ Block.Tells blocks messages) (s : Stream) :
    (blocks.flatMap Block.lines).filter (·.1.stream = s) =
      (blocks.filter (·.stream = s)).flatMap Block.lines := by
  induction h with
  | nil => rfl
  | @cons b _ blocks _ hb _ ih =>
    rw [List.flatMap_cons, List.filter_append, hb.filter_lines, ih]
    by_cases hs : b.stream = s <;> simp [hs]

/-- Every line that is not blank is told once, as the head of one message or as one entry of its
detail. The lines of the messages of a stream are the lines of that stream, in order, and messages
are ordered as their heads are. -/
theorem collect_accounts_for_lines {lines : List Line} {messages : List Message}
    (h : collect lines = .ok messages) :
    ∃ blocks : List Block,
      List.Forall₂ Block.Tells blocks messages ∧
      (blocks.flatMap Block.lines).Perm (lines.zipIdx.filter fun p => !p.1.isBlank) ∧
      (∀ s, (blocks.filter (·.stream = s)).flatMap Block.lines =
        lines.zipIdx.filter fun p => !p.1.isBlank && p.1.stream = s) ∧
      (blocks.map (·.head.2)).Pairwise (· < ·) := by
  obtain ⟨blocks, hacc⟩ := exists_account_of_collect h
  have htells : List.Forall₂ Block.Tells blocks.reverse messages := by
    have hrev := List.rel_reverse (hacc.makes.imp fun _ _ hm => hm.tells)
    rwa [List.reverse_reverse] at hrev
  refine ⟨blocks.reverse, htells, ?_, hacc.onStream, ?_⟩
  · refine perm_of_filter_eq (fun p => p.1.stream) fun s => ?_
    rw [filter_flatMap_lines htells s, List.filter_filter]
    exact (hacc.onStream s).trans (List.filter_congr fun p _ => Bool.and_comm _ _)
  · rw [List.map_reverse, List.pairwise_reverse]
    have hordered := hacc.ordered
    rw [List.pairwise_map] at hordered ⊢
    exact hordered

/-- A trace on the error stream, with a located error and its source line in between. -/
theorem interleaved_trace_accounts_for_lines :
    ∃ blocks : List Block,
      List.Forall₂ Block.Tells blocks
        [⟨.info, "boom", .stderr, none, false, ["  at x"]⟩,
          ⟨.error, "no", .stdout, some "A.java:1", true, ["\tint i;"]⟩] ∧
      (blocks.map (·.head.2)).Pairwise (· < ·) := by
  have hcollect : collect [⟨.stderr, "boom\n"⟩, ⟨.stdout, "A.java:1 [error] no\n"⟩,
      ⟨.stderr, "  at x \n"⟩, ⟨.stdout, " \n"⟩, ⟨.stdout, "\tint i;\n"⟩] =
      .ok [⟨.info, "boom", .stderr, none, false, ["  at x"]⟩,
        ⟨.error, "no", .stdout, some "A.java:1", true, ["\tint i;"]⟩] := rfl
  obtain ⟨blocks, htells, -, -, hordered⟩ := collect_accounts_for_lines hcollect
  exact ⟨blocks, htells, hordered⟩

end WeaveStep.Console
