import WeaveStep.Ini.Reference
import WeaveStep.Proofs.Ini.Written

/-!
# Dollar signs in values

A text in which every dollar sign is doubled refers to nothing and stands for the text
(`expand_doubled`). Doubling keeps what makes a text one that can be written (`IsPlain.doubled`), so
a document may hold any such text (`resolved?_of_doubled`).
-/

namespace WeaveStep.Ini

open Text

/-- The text with every dollar sign doubled. -/
def doubled (s : List Char) : List Char := s.flatMap fun c => if c = '$' then ['$', '$'] else [c]

section

variable {s t : List Char} {c : Char}

theorem doubled_cons (c : Char) (s : List Char) :
    doubled (c :: s) = (if c = '$' then ['$', '$'] else [c]) ++ doubled s := List.flatMap_cons

theorem doubled_append (s t : List Char) : doubled (s ++ t) = doubled s ++ doubled t :=
  List.flatMap_append

theorem mem_doubled : c ∈ doubled s ↔ c ∈ s := by
  unfold doubled
  rw [List.mem_flatMap]
  constructor
  · rintro ⟨d, hd, hc⟩
    split at hc
    · next h => simp_all
    · simp_all
  · intro hc
    refine ⟨c, hc, ?_⟩
    split
    · next h => simp [h]
    · simp

theorem head?_doubled (s : List Char) : (doubled s).head? = s.head? := by
  cases s with
  | nil => rfl
  | cons c s =>
    rw [doubled_cons]
    split
    · next h => simp [h]
    · simp

theorem getLast?_doubled (s : List Char) : (doubled s).getLast? = s.getLast? := by
  rcases List.eq_nil_or_concat s with rfl | ⟨front, c, rfl⟩
  · rfl
  · rw [List.concat_eq_append, doubled_append, doubled_cons]
    split
    · next h => simp [h, doubled]
    · simp [doubled]

theorem IsPlain.doubled (h : IsPlain s) : IsPlain (doubled s) where
  told := by
    have hhead := head?_doubled s
    intro hnone
    rw [hnone] at hhead
    exact h.told (List.head?_eq_none_iff.1 hhead.symm)
  bare := ⟨by rw [head?_doubled]; exact h.bare.1, by rw [getLast?_doubled]; exact h.bare.2⟩
  single := ⟨fun hc => h.single.noFeed (mem_doubled.1 hc), fun hc => h.single.noReturn (mem_doubled.1 hc)⟩

theorem isComment_doubled (h : isComment s = false) : isComment (doubled s) = false := by
  refine isComment_of_front fun c hc => ?_
  rw [head?_doubled] at hc
  obtain ⟨s, rfl⟩ := List.head?_eq_some_iff.1 hc
  constructor
  all_goals
    rintro rfl
    cases h

/-- A doubled text refers to nothing. -/
theorem expand_doubled (d : Document) (depth : Nat) (name key raw : String) (s : List Char) :
    expand d depth name key raw (doubled s) = .ok s := by
  induction s with
  | nil =>
    rw [doubled, List.flatMap_nil, expand]
  | cons c s ih =>
    rw [doubled_cons]
    split
    · next h =>
      rw [List.cons_append, List.singleton_append, expand, ih, h]
      rfl
    · next h =>
      rw [List.singleton_append, expand, ih]
      · rfl
      all_goals
        intros
        exact h ‹_›

end

theorem doubled_of_not_mem (h : '$' ∉ s) : doubled s = s := by
  have hkept : ∀ c ∈ s, (if c = '$' then ['$', '$'] else [c]) = [c] := by
    rintro c hc
    refine if_neg ?_
    rintro rfl
    exact h hc
  rw [doubled, List.flatMap_congr hkept, List.flatMap_singleton']

/-- A value without a dollar sign is what the key gives. -/
theorem Document.resolved?_of_not_mem {d : Document} {name key raw : String}
    (hname : d.hasSection name = true) (hvalue : d.value? name key = some (some raw))
    (hraw : '$' ∉ raw.toList) : d.resolved? name key = .ok (some raw) := by
  have hexpand := expand_doubled d (maxDepth - 1) name key raw raw.toList
  rw [doubled_of_not_mem hraw] at hexpand
  rw [resolved?, if_pos hname, hvalue]
  dsimp only
  rw [hexpand]
  exact congrArg (Except.ok ∘ some) String.ofList_toList

/-! ## Fields -/

namespace Field

/-- What is written where dollar signs stand for themselves. -/
def doubled : Field → Field
  | value text => .value (Ini.doubled text)
  | items texts => .items (texts.map Ini.doubled)

/-- The text of a field; a list is one text with its items in lines of their own. -/
def text : Field → List Char
  | value text => text
  | items texts => texts.flatMap ('\n' :: ·)

theorem IsWritable.doubled {field : Field} (h : field.IsWritable) : field.doubled.IsWritable := by
  cases field with
  | value text => exact IsPlain.doubled h
  | items texts =>
    intro text htext
    obtain ⟨text, hmem, rfl⟩ := List.mem_map.1 htext
    exact ⟨(h text hmem).1.doubled, isComment_doubled (h text hmem).2⟩

theorem text_bare {field : Field} (h : field.IsWritable) :
    ∀ c ∈ field.text.getLast?, isBlank c = false := by
  cases field with
  | value text => exact h.bare.2
  | items texts =>
    rcases List.eq_nil_or_concat texts with rfl | ⟨front, last, rfl⟩
    · rintro c ⟨⟩
    · obtain ⟨hplain, -⟩ := h last (by simp)
      intro c hc
      rw [text, List.concat_eq_append, List.flatMap_append, List.flatMap_singleton,
        List.getLast?_append_of_ne_nil _ (List.cons_ne_nil _ _)] at hc
      obtain ⟨d, rest, rfl⟩ := List.exists_cons_of_ne_nil hplain.told
      exact hplain.bare.2 c hc

theorem intercalate_told (field : Field) : ['\n'].intercalate field.told = field.text := by
  have hlines : ∀ (l : List Char) (ls : List (List Char)),
      ['\n'].intercalate (l :: ls) = l ++ ls.flatMap ('\n' :: ·) := by
    intro l ls
    induction ls generalizing l with
    | nil => simp
    | cons l' ls ih =>
      have hnext := ih l'
      simp only [List.intercalate] at hnext ⊢
      rw [List.intersperse_cons_cons, List.flatten_cons, List.flatten_cons, hnext]
      simp
  cases field with
  | value text => exact (hlines text []).trans (List.append_nil text)
  | items texts => exact hlines [] texts

theorem text_doubled (field : Field) : field.doubled.text = Ini.doubled field.text := by
  cases field with
  | value text => rfl
  | items texts =>
    rw [doubled, text, text, List.flatMap_map, Ini.doubled, List.flatMap_assoc]
    rfl

/-- What the reader makes of a field with its dollar signs doubled. -/
theorem joined_doubled {field : Field} (h : field.IsWritable) :
    Reading.joined field.doubled.told = String.ofList (Ini.doubled field.text) := by
  rw [Reading.joined, intercalate_told, trimRightChars_of_bare (text_bare h.doubled), text_doubled]

end Field

/-- What a key with such a field gives. -/
theorem Document.resolved?_of_doubled {d : Document} {name key : String} {field : Field}
    (h : field.IsWritable) (hname : d.hasSection name = true)
    (hvalue : d.value? name key = some (some (Reading.joined field.doubled.told))) :
    d.resolved? name key = .ok (some (String.ofList field.text)) := by
  rw [resolved?, if_pos hname, hvalue, Field.joined_doubled h]
  dsimp only
  rw [String.toList_ofList, expand_doubled]
  rfl

end WeaveStep.Ini
