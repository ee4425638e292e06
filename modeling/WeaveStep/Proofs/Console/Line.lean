import Mathlib.Data.List.Forall2
import WeaveStep.Console.Messages
import WeaveStep.Proofs.Text.LetterCase
import WeaveStep.Proofs.Text.Trim

/-!
# What a line of the console is read as

Facts on one line, apart from the lines around it.

* **Tags** (`tagged?_eq_some`): a line with a tag is its location, blanks, the tag in brackets and
  its text. The tag is a form of "error" or of "warning" (`Spells`), and it stands for that severity
  or for none (`ofTag?_error`, `ofTag?_warning`).
* **Readings** (`Line.read_head`, `Line.read_plain`): what the message looks like that a line begins
  (`Line.Begins`).
-/

namespace WeaveStep.Console

open Text

/-! ## Taking a line with a tag apart -/

/-- The text spells a word of small letters, each of them in some form. -/
def Spells (word text : List Char) : Prop :=
  List.Forall₂ (fun letter c => isForm letter c = true) word text

/-- A tag in brackets, at most blanks, and a text. -/
structure IsTagAndText (s tag text : List Char) : Prop where
  parts : ∃ gap, Blanks gap ∧ s = '[' :: (tag ++ ']' :: (gap ++ text))
  spelled : Spells "error".toList tag ∨ Spells "warning".toList tag

theorem spelled?_eq_some {word s front after : List Char}
    (h : spelled? word s = some (front, after)) :
    s = front ++ after ∧ Spells word front := by
  induction word generalizing s front after with
  | nil =>
    simp only [spelled?, Option.some.injEq, Prod.mk.injEq] at h
    obtain ⟨rfl, rfl⟩ := h
    exact ⟨rfl, List.Forall₂.nil⟩
  | cons letter word ih =>
    cases s with
    | nil => simp [spelled?] at h
    | cons c s =>
      rw [spelled?] at h
      split at h
      · rename_i hc
        obtain ⟨⟨front', after'⟩, hs, heq⟩ := Option.map_eq_some_iff.1 h
        simp only [Prod.mk.injEq] at heq
        obtain ⟨rfl, rfl⟩ := heq
        obtain ⟨rfl, hw⟩ := ih hs
        exact ⟨rfl, List.Forall₂.cons hc hw⟩
      · cases h

theorem message?_eq_some {s text : List Char} (h : message? s = some text) :
    ∃ gap, Blanks gap ∧ s = gap ++ text := by
  have hsome : ∀ t : List Char,
      (if t.contains '\n' then none else some t) = some text → t = text := by
    intro t ht
    split at ht
    · cases ht
    · exact Option.some.inj ht
  unfold message? at h
  cases s with
  | nil => exact ⟨[], .nil, by simpa using hsome _ h⟩
  | cons c rest =>
    have heq := hsome _ h
    simp only at heq
    split at heq
    · rename_i hc
      exact ⟨[c], by simp [Blanks, hc], by rw [heq]; rfl⟩
    · exact ⟨[], .nil, heq⟩

theorem tagAndText?_eq_some {s tag text : List Char} (h : tagAndText? s = some (tag, text)) :
    IsTagAndText s tag text := by
  unfold tagAndText? at h
  split at h
  · rename_i s
    obtain ⟨⟨tag', after⟩, htag, h⟩ := Option.bind_eq_some_iff.1 h
    have hspell : s = tag' ++ after ∧
        (Spells "error".toList tag' ∨ Spells "warning".toList tag') := by
      cases he : spelled? "error".toList s with
      | some found =>
        rw [he] at htag
        cases htag
        exact ⟨(spelled?_eq_some he).1, .inl (spelled?_eq_some he).2⟩
      | none =>
        rw [he] at htag
        have hw : spelled? "warning".toList s = some (tag', after) := htag
        exact ⟨(spelled?_eq_some hw).1, .inr (spelled?_eq_some hw).2⟩
    simp only at h
    split at h
    · rename_i rest
      obtain ⟨text', htext, h⟩ := Option.bind_eq_some_iff.1 h
      obtain ⟨rfl, rfl⟩ : tag' = tag ∧ text' = text := by simpa using h
      obtain ⟨gap, hgap, rfl⟩ := message?_eq_some htext
      exact ⟨⟨gap, hgap, by rw [hspell.1]⟩, hspell.2⟩
    · cases h
  · cases h

theorem number?_eq_some {s number after : List Char} (h : number? s = some (number, after)) :
    s = number ++ after := by
  unfold number? at h
  split at h
  · rename_i s
    split at h
    · cases h
    · simp only [Option.some.injEq, Prod.mk.injEq] at h
      obtain ⟨rfl, rfl⟩ := h
      simp
  · cases h

theorem lineNumber?_eq_some {s number after : List Char}
    (h : lineNumber? s = some (number, after)) : s = number ++ after := by
  unfold lineNumber? at h
  obtain ⟨⟨line, after'⟩, hline, h⟩ := Option.bind_eq_some_iff.1 h
  have hs := number?_eq_some hline
  simp only at h
  split at h
  · rename_i column after'' hcolumn
    obtain ⟨rfl, rfl⟩ : line ++ column = number ∧ after'' = after := by simpa using h
    rw [hs, number?_eq_some hcolumn, List.append_assoc]
  · obtain ⟨rfl, rfl⟩ : line = number ∧ after' = after := by simpa using h
    exact hs

theorem numberAndTag?_eq_some {s number tag text : List Char}
    (h : numberAndTag? s = some (number, tag, text)) :
    ∃ gap rest, Blanks gap ∧ s = number ++ gap ++ rest ∧ IsTagAndText rest tag text := by
  unfold numberAndTag? at h
  obtain ⟨⟨number', after⟩, hnumber, h⟩ := Option.bind_eq_some_iff.1 h
  have hfound : (tagAndText? (after.dropWhile isBlank)).map (number', ·) =
      some (number, tag, text) := by
    cases after with
    | nil => simp at h
    | cons c rest =>
      by_cases hc : isBlank c = true
      · simpa [hc, Option.map_eq_bind, Function.comp_def] using h
      · simp [hc] at h
  obtain ⟨⟨tag', text'⟩, htag, heq⟩ := Option.map_eq_some_iff.1 hfound
  obtain ⟨rfl, rfl, rfl⟩ : number' = number ∧ tag' = tag ∧ text' = text := by simpa using heq
  refine ⟨after.takeWhile isBlank, after.dropWhile isBlank, blanks_takeWhile after, ?_,
    tagAndText?_eq_some htag⟩
  rw [List.append_assoc, List.takeWhile_append_dropWhile, ← lineNumber?_eq_some hnumber]

theorem located?_eq_some {s location tag text : List Char}
    (h : located? s = some (location, tag, text)) :
    ∃ gap rest, Blanks gap ∧ s = location ++ gap ++ rest ∧ IsTagAndText rest tag text := by
  induction s generalizing location with
  | nil => simp [located?] at h
  | cons c rest ih =>
    rw [located?] at h
    split at h
    · rename_i found hfound
      cases h
      exact numberAndTag?_eq_some hfound
    · split at h
      · cases h
      · obtain ⟨⟨location', tag', text'⟩, hrest, heq⟩ := Option.map_eq_some_iff.1 h
        obtain ⟨rfl, rfl, rfl⟩ : c :: location' = location ∧ tag' = tag ∧ text' = text := by
          simpa using heq
        obtain ⟨gap, rest', hgap, hs, htag⟩ := ih hrest
        exact ⟨gap, rest', hgap, by rw [hs]; rfl, htag⟩

theorem locatedTag?_eq_some {s location tag text : List Char}
    (h : locatedTag? s = some (location, tag, text)) :
    ∃ gap rest, Blanks gap ∧ s = location ++ gap ++ rest ∧ IsTagAndText rest tag text := by
  cases s with
  | nil => simp [locatedTag?] at h
  | cons c rest =>
    rw [locatedTag?] at h
    split at h
    · cases h
    · obtain ⟨⟨location', tag', text'⟩, hrest, heq⟩ := Option.map_eq_some_iff.1 h
      obtain ⟨rfl, rfl, rfl⟩ : c :: location' = location ∧ tag' = tag ∧ text' = text := by
        simpa using heq
      obtain ⟨gap, rest', hgap, hs, htag⟩ := located?_eq_some hrest
      exact ⟨gap, rest', hgap, by rw [hs]; rfl, htag⟩

/-- A line with a tag is its location, if it has one, blanks, and the tag with its text. -/
theorem tagged?_eq_some {line : List Char} {found : Tagged} (h : tagged? line = some found) :
    ∃ gap rest, Blanks gap ∧ line = (found.location.getD "").toList ++ gap ++ rest ∧
      IsTagAndText rest found.tag.toList found.text.toList := by
  unfold tagged? at h
  split at h
  · rename_i location tag text hlocated
    cases h
    simpa using locatedTag?_eq_some hlocated
  · obtain ⟨⟨tag, text⟩, htag, rfl⟩ := Option.map_eq_some_iff.1 h
    exact ⟨[], line, .nil, by simp, by simpa using tagAndText?_eq_some htag⟩

/-! ## The severity of a tag -/

/-- The letters that tags are spelled with. -/
def tagLetters : List Char := ['e', 'r', 'o', 'w', 'a', 'n', 'i', 'g']

/-- The forms of a letter of a tag, but for the dotted capital i. -/
def forms (letter : Char) : List Char :=
  [letter, letter.toUpper] ++ if letter = 'i' then ['ı'] else []

theorem mem_forms {letter c : Char} (h : isForm letter c = true) (hdot : c ≠ 'İ') :
    c ∈ forms letter := by
  simp only [isForm, Bool.or_eq_true, Bool.and_eq_true, decide_eq_true_eq] at h
  rcases h with (rfl | rfl) | ⟨rfl, rfl | rfl⟩
  · simp [forms]
  · simp [forms]
  · simp [forms]
  · exact absurd rfl hdot

/-- Every form of a letter of a tag has the capital of that letter, and is no blank and no sigma. -/
theorem capital_of_mem_forms : ∀ letter ∈ tagLetters, ∀ c ∈ forms letter,
    isBlank c = false ∧ c ≠ 'Σ' ∧ Severity.capital (smallLetter c) = letter.toUpper := by
  -- as a test of the two lists, which is run; characters are too many to go through
  have htest : (tagLetters.all fun letter => (forms letter).all fun c =>
      isBlank c = false ∧ c ≠ 'Σ' ∧ Severity.capital (smallLetter c) = letter.toUpper) = true := by
    decide +kernel
  intro letter hl c hc
  exact of_decide_eq_true (List.all_eq_true.1 (List.all_eq_true.1 htest letter hl) c hc)

theorem mem_tagLetters {word : List Char} (h : word = "error".toList ∨ word = "warning".toList) :
    ∀ letter ∈ word, letter ∈ tagLetters := by
  have htest : word.all (fun letter => letter ∈ tagLetters) = true := by
    rcases h with rfl | rfl <;> decide
  exact fun letter hl => of_decide_eq_true (List.all_eq_true.1 htest letter hl)

/-- The dotted capital i is a form of no letter but the i. -/
theorem isForm_dotted {letter : Char} (hl : letter ∈ tagLetters) (h : isForm letter 'İ' = true) :
    letter = 'i' := by
  simp only [tagLetters, List.mem_cons, List.not_mem_nil, or_false] at hl
  rcases hl with rfl | rfl | rfl | rfl | rfl | rfl | rfl | rfl
  all_goals first | rfl | exact absurd h (by decide)

theorem Spells.exists_letter {word tag : List Char} (h : Spells word tag) {c : Char}
    (hc : c ∈ tag) :
    ∃ letter ∈ word, isForm letter c = true := by
  induction h with
  | nil => simp at hc
  | @cons letter d _ _ hd _ ih =>
    rcases List.mem_cons.1 hc with rfl | hr
    · exact ⟨letter, by simp, hd⟩
    · obtain ⟨l, hl, hf⟩ := ih hr
      exact ⟨l, by simp [hl], hf⟩

section
variable {word tag : List Char} (hw : word = "error".toList ∨ word = "warning".toList)
  (h : Spells word tag)
include hw h

theorem Spells.bare : ∀ c ∈ tag, isBlank c = false := by
  intro c hc
  obtain ⟨letter, hl, hf⟩ := h.exists_letter hc
  by_cases hdot : c = 'İ'
  · subst hdot; decide
  · exact (capital_of_mem_forms letter (mem_tagLetters hw letter hl) c (mem_forms hf hdot)).1

theorem Spells.trim_eq : trim (String.ofList tag) = String.ofList tag := by
  have hbare : HasBareEnds tag :=
    ⟨fun c hc => h.bare hw c (List.mem_of_mem_head? hc),
      fun c hc => h.bare hw c (List.mem_of_getLast? hc)⟩
  rw [trim, String.toList_ofList, hbare.trimChars_eq]

theorem Spells.map_capital (hdot : 'İ' ∉ tag) :
    (tag.map smallLetter).map Severity.capital = word.map Char.toUpper := by
  have hl := mem_tagLetters hw
  clear hw
  induction h with
  | nil => rfl
  | @cons letter c word tag hc _ ih =>
    have hne : c ≠ 'İ' := fun he => hdot (by simp [he])
    have hcap := (capital_of_mem_forms letter (hl letter (by simp)) c (mem_forms hc hne)).2.2
    simp only [List.map_cons, hcap]
    rw [ih (fun hm => hdot (by simp [hm])) fun l hm => hl l (by simp [hm])]

theorem Spells.smallLetters_eq (hdot : 'İ' ∉ tag) :
    smallLetters (trim (String.ofList tag)) = String.ofList (tag.map smallLetter) := by
  have hplain : ∀ c ∈ tag, c ≠ 'Σ' ∧ c ≠ 'İ' := by
    intro c hc
    have hne : c ≠ 'İ' := fun he => hdot (he ▸ hc)
    obtain ⟨letter, hl, hf⟩ := h.exists_letter hc
    have hcapital := capital_of_mem_forms letter (mem_tagLetters hw letter hl) c (mem_forms hf hne)
    exact ⟨hcapital.2.1, hne⟩
  rw [h.trim_eq hw, smallLetters, String.toList_ofList, smallLettersAfter_eq_map hplain]

theorem Spells.ofTag?_eq (hdot : 'İ' ∉ tag) :
    Severity.ofTag? (String.ofList tag) =
      Severity.ofName? (String.ofList (word.map Char.toUpper)) := by
  have hcap := h.map_capital hw hdot
  have htask : smallLetters (trim (String.ofList tag)) ≠ "task" := by
    intro he
    rw [h.smallLetters_eq hw hdot] at he
    have hlist : tag.map smallLetter = "task".toList := by simpa using congrArg String.toList he
    rw [hlist] at hcap
    rcases hw with rfl | rfl <;> revert hcap <;> decide
  rw [Severity.ofTag?, if_neg htask, Severity.spelled, h.smallLetters_eq hw hdot,
    String.toList_ofList, hcap]

end

/-- No letter of "error" has a dotted form. -/
theorem Spells.dotless {tag : List Char} (h : Spells "error".toList tag) : 'İ' ∉ tag := by
  intro hm
  obtain ⟨letter, hl, hf⟩ := h.exists_letter hm
  obtain rfl := isForm_dotted (mem_tagLetters (.inl rfl) letter hl) hf
  revert hl
  decide

/-- A tag that is spelled "error" stands for an error. -/
theorem ofTag?_error {tag : List Char} (h : Spells "error".toList tag) :
    Severity.ofTag? (String.ofList tag) = some .error := by
  rw [h.ofTag?_eq (.inl rfl) h.dotless]
  decide

/-- A dot that is left behind makes a tag stand for nothing. -/
theorem ofTag?_eq_none_of_dot {tag : String} (h : '\u0307' ∈ (smallLetters (trim tag)).toList) :
    Severity.ofTag? tag = none := by
  have htask : smallLetters (trim tag) ≠ "task" := by
    intro he
    rw [he] at h
    revert h
    decide
  have hdot : '\u0307' ∈ (Severity.spelled tag).toList := by
    rw [Severity.spelled, String.toList_ofList]
    exact List.mem_map.2 ⟨'\u0307', h, by decide⟩
  rw [Severity.ofTag?, if_neg htask, Severity.ofName?, List.find?_eq_none]
  intro severity _ he
  rw [← of_decide_eq_true he] at hdot
  cases severity <;> revert hdot <;> decide

/-- A tag that is spelled "warning" stands for a warning, or for nothing where its i is the dotted
capital one. -/
theorem ofTag?_warning {tag : List Char} (h : Spells "warning".toList tag) :
    Severity.ofTag? (String.ofList tag) = if 'İ' ∈ tag then none else some .warning := by
  split
  · rename_i hdot
    refine ofTag?_eq_none_of_dot ?_
    rw [h.trim_eq (.inr rfl), smallLetters, String.toList_ofList, String.toList_ofList]
    exact dot_mem_smallLettersAfter hdot
  · rename_i hdot
    rw [h.ofTag?_eq (.inr rfl) hdot]
    decide

/-! ## Readings -/

namespace Line

/-- Whether there is nothing but blanks on the line. -/
def isBlank (l : Line) : Bool := isBlankText l.text

/-- Whether a line is read as an error: it has a tag, and the tag is spelled "error". -/
def SaysError (l : Line) : Prop :=
  ∃ found, tagged? (trimChars l.text.toList) = some found ∧ Spells "error".toList found.tag.toList

/-- Whether a line does not say of itself what it is: it has no tag, and is neither weave
information nor a summary. -/
def isPlain (l : Line) : Bool :=
  (tagged? (trimChars l.text.toList)).isNone && !isWeaveInfo (trimRightChars l.text.toList) &&
    !isSummary (trimChars l.text.toList)

/-- `m` is the message that a line begins, apart from its detail. -/
structure Begins (l : Line) (m : Message) : Prop where
  stream : m.stream = l.stream
  /-- Without a tag the text is the whole line. -/
  untagged : tagged? (trimChars l.text.toList) = none →
    m.location = none ∧ IsTrim l.text.toList m.text.toList
  /-- With a tag the line is the location, the tag and the text, with blanks around them. -/
  tagged : ∀ found, tagged? (trimChars l.text.toList) = some found →
    Severity.ofTag? found.tag = some m.severity ∧
    ∃ gap₀ gap₁ gap₂ gap₃, (Blanks gap₀ ∧ Blanks gap₁ ∧ Blanks gap₂ ∧ Blanks gap₃) ∧
      l.text.toList = gap₀ ++ (m.location.getD "").toList ++ gap₁ ++ '[' :: found.tag.toList ++
        ']' :: gap₂ ++ m.text.toList ++ gap₃

variable {l : Line} {m : Message}

theorem isBlank_iff : l.isBlank = true ↔ trimChars l.text.toList = [] := trimChars_eq_nil.symm

theorem begins_untagged (h : tagged? (trimChars l.text.toList) = none) (severity : Severity)
    (tagged : Bool) :
    l.Begins ⟨severity, String.ofList (trimChars l.text.toList), l.stream, none, tagged, []⟩ where
  stream := rfl
  untagged _ := ⟨rfl, by simpa using trimChars_spec l.text.toList⟩
  tagged found hf := by rw [h] at hf; cases hf

theorem begins_tagged {found : Tagged} {severity : Severity}
    (h : tagged? (trimChars l.text.toList) = some found)
    (hs : Severity.ofTag? found.tag = some severity) :
    l.Begins ⟨severity, trim found.text, l.stream, found.location, true, []⟩ where
  stream := rfl
  untagged hn := by rw [h] at hn; cases hn
  tagged found' hf := by
    rw [h] at hf
    cases hf
    refine ⟨hs, ?_⟩
    obtain ⟨before, after, hbefore, hafter, hline, -⟩ := trimChars_spec l.text.toList
    obtain ⟨gap₁, rest, hgap₁, htrimmed, htag⟩ := tagged?_eq_some h
    obtain ⟨gap, hgap, hrest⟩ := htag.parts
    obtain ⟨front, back, hfront, hback, htext, -⟩ := trim_spec found.text
    refine ⟨before, gap₁, gap ++ front, back ++ after,
      ⟨hbefore, hgap₁, hgap.append hfront, hback.append hafter⟩, ?_⟩
    rw [hline, htrimmed, hrest, htext]
    simp

/-- The message that a plain line begins where it goes on none. -/
def plainMessage (l : Line) : Message := ⟨.info, trim l.text, l.stream, none, false, []⟩

/-- What a line can be read as, with all that is known of the reading. -/
inductive Reads (l : Line) : Reading → Prop
  | blank (blank : l.isBlank = true) : l.Reads .blank
  | head {m : Message} (told : l.isBlank = false) (plain : l.isPlain = false) (begins : l.Begins m)
      (detail : m.detail = []) (explained : m.isUnexplained = false)
      (fatal : m.isFatal = true ↔ l.SaysError) : l.Reads (.head m)
  | plain (told : l.isBlank = false) (plain : l.isPlain = true) (begins : l.Begins l.plainMessage)
      (fatal : ¬ l.SaysError) : l.Reads (.plain (trimRight l.text) l.plainMessage)

/-- A tag stands for an error exactly where it is spelled "error", and never for anything worse. -/
theorem isFatal_tagged {found : Tagged} {severity : Severity}
    (h : tagged? (trimChars l.text.toList) = some found)
    (hs : Severity.ofTag? found.tag = some severity) :
    Severity.error.level ≤ severity.level ↔ l.SaysError := by
  obtain ⟨_, _, _, _, htag⟩ := tagged?_eq_some h
  have hof : Severity.ofTag? (String.ofList found.tag.toList) = some severity := by
    rw [String.ofList_toList]
    exact hs
  constructor
  · intro hle
    refine ⟨found, h, htag.spelled.resolve_right fun hw => ?_⟩
    rw [ofTag?_warning hw] at hof
    split at hof
    · cases hof
    · cases hof
      revert hle
      decide
  · rintro ⟨found', h', hspell⟩
    rw [h] at h'
    cases h'
    rw [ofTag?_error hspell] at hof
    cases hof
    exact Nat.le_refl _

theorem reads {r : Reading} (h : l.read = .ok r) : l.Reads r := by
  unfold read at h
  simp only at h
  split at h
  · rename_i hempty
    cases h
    exact .blank (isBlank_iff.2 (List.isEmpty_iff.1 hempty))
  · rename_i hempty
    have htold : l.isBlank = false := by
      rw [← Bool.not_eq_true, isBlank_iff]
      simpa using hempty
    split at h
    · rename_i found hfound
      split at h
      · rename_i severity hseverity
        cases h
        have hfatal := isFatal_tagged hfound hseverity
        exact .head htold (by simp [isPlain, hfound]) (begins_tagged hfound hseverity) rfl
          (by simp [Message.isUnexplained]) (by simpa [Message.isFatal] using hfatal)
      · cases h
    · rename_i hnone
      have hcalm : ¬ l.SaysError := fun ⟨_, hf, _⟩ => by rw [hnone] at hf; cases hf
      have hbegins := begins_untagged hnone
      split at h
      · rename_i hinfo
        cases h
        exact .head htold (by simp [isPlain, hinfo]) (hbegins _ _) rfl
          (by simp [Message.isUnexplained])
          (iff_of_false (by simp [Message.isFatal, Severity.level]) hcalm)
      · rename_i hinfo
        split at h
        · rename_i hsummary
          cases h
          exact .head htold (by simp [isPlain, hsummary]) (hbegins _ _) rfl
            (by simp [Message.isUnexplained])
            (iff_of_false (by simp [Message.isFatal, Severity.level]) hcalm)
        · rename_i hsummary
          cases h
          exact .plain htold (by simp [isPlain, hnone, hinfo, hsummary]) (hbegins _ _) hcalm

end Line

end WeaveStep.Console
