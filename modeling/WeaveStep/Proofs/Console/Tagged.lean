import WeaveStep.Proofs.Console.Line

/-!
# Lines that are written with a tag

A line with a location, blanks, a tag in brackets, a space and a text is read as exactly that
(`read_located`), whatever the text says. Without a location in front the same holds only as long as
the text does not hide another tag (`HidesTag`): a number after a colon, blanks, and a tag in
brackets. Such a line is taken for one whose location goes up to that number, its own tag included.

* `located?_location`: the shortest location that a tag follows is the one that was written.
* `locatedTag?_eq_none_iff`: where no location is found.
* **`collect_written_iff`**: what such a line is collected as.
-/

namespace WeaveStep.Console

open Text

/-! ## What is written -/

/-- A word of small letters, with any of its letters as capitals. -/
def IsCasing (word text : List Char) : Prop :=
  List.Forall₂ (fun letter c => c = letter ∨ c = letter.toUpper) word text

/-- A tag, and the severity that it stands for. -/
inductive IsTag : List Char → Severity → Prop
  | error {tag : List Char} (casing : IsCasing "error".toList tag) : IsTag tag .error
  | warning {tag : List Char} (casing : IsCasing "warning".toList tag) : IsTag tag .warning

/-- A tag in brackets stands in the text, in whichever form. -/
def HasTag (s : List Char) : Prop :=
  ∃ front tag rest, s = front ++ '[' :: (tag ++ ']' :: rest) ∧
    (Spells "error".toList tag ∨ Spells "warning".toList tag)

/-- A colon with digits after it. -/
def IsNumber (s : List Char) : Prop :=
  ∃ digits, s = ':' :: digits ∧ digits ≠ [] ∧ ∀ d ∈ digits, isDigit d = true

/-- A location: a text on one line that does not begin with a blank, has a number at its end after
at least one character, and holds no tag. -/
structure IsLocation (s : List Char) : Prop where
  bare : ∀ c ∈ s.head?, isBlank c = false
  numbered : ∃ front number, s = front ++ number ∧ front ≠ [] ∧ IsNumber number
  untagged : ¬ HasTag s
  oneLine : '\n' ∉ s

/-- A number, blanks, and a tag in brackets stand in the text. -/
def HidesTag (s : List Char) : Prop :=
  ∃ front number gap tag rest, s = front ++ number ++ gap ++ '[' :: (tag ++ ']' :: rest) ∧
    IsNumber number ∧ Blanks gap ∧ gap ≠ [] ∧
    (Spells "error".toList tag ∨ Spells "warning".toList tag)

/-- A tag in brackets, a space and a text. -/
def written (tag text : List Char) : List Char := '[' :: (tag ++ ']' :: ' ' :: text)

/-! ## Characters -/

theorem isDigit_of_isBlank {c : Char} (h : isBlank c = true) : isDigit c = false := by
  -- the digits are few enough to go through
  have htest : (decimalDigits.intervals.all fun i => (List.range (i.2 + 1 - i.1)).all fun k =>
      !isBlank (Char.ofNat (i.1 + k))) = true := by
    decide +kernel
  cases hd : isDigit c with
  | false => rfl
  | true =>
    obtain ⟨i, hi⟩ := Option.isSome_iff_exists.1 hd
    obtain ⟨hmem, hle, hge⟩ := intervalOf?_mem hi
    have hc := List.all_eq_true.1 (List.all_eq_true.1 htest i hmem) (c.toNat - i.1)
      (List.mem_range.2 (by omega))
    rw [Nat.add_sub_cancel' hle, Char.ofNat_toNat, h] at hc
    cases hc

section
variable {word tag : List Char}

theorem colon_not_mem_tag (h : Spells "error".toList tag ∨ Spells "warning".toList tag) :
    ':' ∉ tag := by
  have htest : (tagLetters.all fun letter => !isForm letter ':') = true := by decide
  intro hm
  obtain ⟨letter, hl, hf⟩ : ∃ letter ∈ tagLetters, isForm letter ':' = true := by
    rcases h with h | h
    · obtain ⟨letter, hl, hf⟩ := h.exists_letter hm
      exact ⟨letter, mem_tagLetters (.inl rfl) letter hl, hf⟩
    · obtain ⟨letter, hl, hf⟩ := h.exists_letter hm
      exact ⟨letter, mem_tagLetters (.inr rfl) letter hl, hf⟩
  simpa [hf] using List.all_eq_true.1 htest letter hl

theorem bare_of_mem_tag (h : Spells "error".toList tag ∨ Spells "warning".toList tag) :
    ∀ c ∈ tag, isBlank c = false := by
  rcases h with h | h
  · exact h.bare (.inl rfl)
  · exact h.bare (.inr rfl)

theorem IsCasing.spells (h : IsCasing word tag) : Spells word tag :=
  List.Forall₂.imp (fun letter c hc => by rcases hc with rfl | rfl <;> simp [isForm]) h

theorem IsCasing.exists_letter (h : IsCasing word tag) {c : Char} (hc : c ∈ tag) :
    ∃ letter ∈ word, c = letter ∨ c = letter.toUpper := by
  induction h with
  | nil => simp at hc
  | @cons letter d _ _ hd _ ih =>
    rcases List.mem_cons.1 hc with rfl | hr
    · exact ⟨letter, by simp, hd⟩
    · obtain ⟨l, hl, hf⟩ := ih hr
      exact ⟨l, by simp [hl], hf⟩

theorem IsTag.spells {severity : Severity} (h : IsTag tag severity) :
    Spells "error".toList tag ∨ Spells "warning".toList tag := by
  cases h with
  | error casing => exact .inl casing.spells
  | warning casing => exact .inr casing.spells

theorem IsTag.ofTag?_eq {severity : Severity} (h : IsTag tag severity) :
    Severity.ofTag? (String.ofList tag) = some severity := by
  cases h with
  | error casing => exact ofTag?_error casing.spells
  | warning casing =>
    have hdot : 'İ' ∉ tag := by
      intro hm
      obtain ⟨letter, hl, hc⟩ := casing.exists_letter hm
      have htest : ("warning".toList.all fun l => 'İ' ≠ l ∧ 'İ' ≠ l.toUpper) = true := by decide
      have := of_decide_eq_true (List.all_eq_true.1 htest letter hl)
      tauto
    rw [ofTag?_warning casing.spells, if_neg hdot]

end

/-! ## Tags -/

theorem spelled?_of_spells {word tag : List Char} (h : Spells word tag) (s : List Char) :
    spelled? word (tag ++ s) = some (tag, s) := by
  induction h with
  | nil => simp [spelled?]
  | cons hc _ ih => simp [spelled?, hc, ih]

/-- Nothing spells both words. -/
theorem spelled?_error_of_warning {tag : List Char} (h : Spells "warning".toList tag)
    (s : List Char) : spelled? "error".toList (tag ++ s) = none := by
  cases h with
  | @cons _ c _ tag hc _ =>
    have hne : isForm 'e' c = false := by
      simp only [isForm, Bool.or_eq_true, Bool.and_eq_true, decide_eq_true_eq] at hc
      rcases hc with (rfl | rfl) | ⟨hi, -⟩
      · decide
      · decide
      · exact absurd hi (by decide)
    have hword : "error".toList = 'e' :: "rror".toList := by decide
    rw [hword, List.cons_append, spelled?, if_neg (by simp [hne])]

theorem message?_of_oneLine {s : List Char} (h : '\n' ∉ s) : ∃ text, message? s = some text := by
  cases s with
  | nil => exact ⟨[], rfl⟩
  | cons c rest =>
    have hrest : '\n' ∉ rest := fun hm => h (by simp [hm])
    by_cases hc : isBlank c = true
    · exact ⟨rest, by simp [message?, hc, hrest]⟩
    · exact ⟨c :: rest, by simp [message?, hc, h]⟩

theorem tagAndText?_of_spells {tag rest text : List Char}
    (h : Spells "error".toList tag ∨ Spells "warning".toList tag) (htext : message? rest = some text) :
    tagAndText? ('[' :: (tag ++ ']' :: rest)) = some (tag, text) := by
  have hspelled : (spelled? "error".toList (tag ++ ']' :: rest) <|>
      spelled? "warning".toList (tag ++ ']' :: rest)) = some (tag, ']' :: rest) := by
    rcases h with h | h
    · rw [spelled?_of_spells h]
      rfl
    · rw [spelled?_error_of_warning h, spelled?_of_spells h]
      rfl
  rw [tagAndText?, hspelled]
  simp [htext]

/-! ## Numbers -/

theorem takeWhile_digits {digits rest : List Char} (h : ∀ d ∈ digits, isDigit d = true)
    (hrest : ∀ c ∈ rest.head?, isDigit c = false) :
    (digits ++ rest).takeWhile isDigit = digits ∧ (digits ++ rest).dropWhile isDigit = rest := by
  have hstop : rest.takeWhile isDigit = [] ∧ rest.dropWhile isDigit = rest := by
    cases rest with
    | nil => simp
    | cons c rest => simp [hrest c (by simp)]
  exact ⟨by rw [List.takeWhile_append_of_pos h, hstop.1, List.append_nil],
    by rw [List.dropWhile_append_of_pos h, hstop.2]⟩

theorem number?_of_isNumber {number rest : List Char} (h : IsNumber number)
    (hrest : ∀ c ∈ rest.head?, isDigit c = false) :
    number? (number ++ rest) = some (number, rest) := by
  obtain ⟨digits, rfl, hne, hdigits⟩ := h
  obtain ⟨htake, hdrop⟩ := takeWhile_digits hdigits hrest
  rw [List.cons_append, number?, htake, hdrop, if_neg (by simpa using hne)]

theorem isNumber_of_number? {s number after : List Char} (h : number? s = some (number, after)) :
    IsNumber number := by
  unfold number? at h
  split at h
  · rename_i s
    split at h
    · cases h
    · rename_i hne
      cases h
      exact ⟨s.takeWhile isDigit, rfl, by simpa using hne, fun d hd => List.mem_takeWhile_imp hd⟩
  · cases h

theorem tag_head {s tag text : List Char} (h : tagAndText? s = some (tag, text)) :
    ∃ rest, s = '[' :: rest := by
  obtain ⟨gap, -, rfl⟩ := (tagAndText?_eq_some h).parts
  exact ⟨_, rfl⟩

/-- A number, blanks and a tag are found where they stand. -/
theorem numberAndTag?_of_number {number gap rest tag text : List Char} (hnumber : IsNumber number)
    (hgap : Blanks gap) (hne : gap ≠ []) (hrest : tagAndText? rest = some (tag, text)) :
    numberAndTag? (number ++ (gap ++ rest)) = some (number, tag, text) := by
  obtain ⟨c, gap, rfl⟩ := List.exists_cons_of_ne_nil hne
  have hc : isBlank c = true := hgap c (by simp)
  have hcolon : c ≠ ':' := by rintro rfl; exact absurd hc (by decide)
  have hline : lineNumber? (number ++ (c :: gap ++ rest)) = some (number, c :: gap ++ rest) := by
    have hnone : number? (c :: (gap ++ rest)) = none := by
      unfold number?
      split
      · rename_i heq
        exact absurd (List.cons.inj heq).1 hcolon
      · rfl
    rw [lineNumber?, number?_of_isNumber hnumber (by simp [isDigit_of_isBlank hc])]
    simp [hnone]
  have hdrop : (c :: gap ++ rest).dropWhile isBlank = rest := by
    obtain ⟨rest', rfl⟩ := tag_head hrest
    rw [List.dropWhile_append_of_pos hgap]
    simp [show isBlank '[' = false by decide]
  rw [numberAndTag?, hline]
  simp only [List.cons_append, Option.bind_eq_bind, Option.bind_some, hc, if_true] at hdrop ⊢
  rw [hdrop, hrest]
  rfl

/-- What is found is a number, or two of them, blanks and a tag. -/
theorem eq_of_numberAndTag? {s number tag text : List Char}
    (h : numberAndTag? s = some (number, tag, text)) :
    ∃ front last gap rest, s = number ++ (gap ++ rest) ∧ number = front ++ last ∧
      (∀ c ∈ front, c = ':' ∨ isDigit c = true) ∧ IsNumber last ∧ Blanks gap ∧ gap ≠ [] ∧
      tagAndText? rest = some (tag, text) := by
  unfold numberAndTag? at h
  obtain ⟨⟨number', after⟩, hnumber, h⟩ := Option.bind_eq_some_iff.1 h
  obtain ⟨c, rest, rfl⟩ : ∃ c rest, after = c :: rest := by
    cases after with
    | nil => simp at h
    | cons c rest => exact ⟨c, rest, rfl⟩
  have hc : isBlank c = true := by
    by_contra hc
    simp [hc] at h
  simp only [hc, if_true] at h
  obtain ⟨⟨tag', text'⟩, htag, heq⟩ := Option.bind_eq_some_iff.1 h
  obtain ⟨rfl, rfl, rfl⟩ : number' = number ∧ tag' = tag ∧ text' = text := by simpa using heq
  have hs := lineNumber?_eq_some hnumber
  have hgap : (c :: rest).takeWhile isBlank ≠ [] := by simp [hc]
  have hsplit : s = number' ++ ((c :: rest).takeWhile isBlank ++ (c :: rest).dropWhile isBlank) := by
    rw [List.takeWhile_append_dropWhile, hs]
  unfold lineNumber? at hnumber
  obtain ⟨⟨line, after'⟩, hline, hnumber⟩ := Option.bind_eq_some_iff.1 hnumber
  simp only at hnumber
  split at hnumber
  · rename_i column after'' hcolumn
    obtain ⟨rfl, rfl⟩ : line ++ column = number' ∧ after'' = c :: rest := by simpa using hnumber
    obtain ⟨digits, rfl, -, hdigits⟩ := isNumber_of_number? hline
    exact ⟨_, _, _, _, hsplit, rfl, by simpa using fun d hd => .inr (hdigits d hd),
      isNumber_of_number? hcolumn, blanks_takeWhile _, hgap, htag⟩
  · obtain ⟨rfl, rfl⟩ : line = number' ∧ after' = c :: rest := by simpa using hnumber
    exact ⟨[], _, _, _, hsplit, rfl, by simp, isNumber_of_number? hline, blanks_takeWhile _, hgap,
      htag⟩

/-! ## Locations -/

/-- Texts that are bare at their ends are the same if they are so with blanks after them. -/
theorem eq_of_append_blanks {s t gap gap' : List Char} (hs : ∀ c ∈ s.getLast?, isBlank c = false)
    (ht : ∀ c ∈ t.getLast?, isBlank c = false) (hgap : Blanks gap) (hgap' : Blanks gap')
    (h : s ++ gap = t ++ gap') : s = t :=
  calc s = trimRightChars s := (trimRightChars_of_bare hs).symm
    _ = trimRightChars (s ++ gap) := (trimRightChars_append_blanks hgap s).symm
    _ = trimRightChars (t ++ gap') := by rw [h]
    _ = trimRightChars t := trimRightChars_append_blanks hgap' t
    _ = t := trimRightChars_of_bare ht

theorem IsNumber.bare {number : List Char} (h : IsNumber number) (front : List Char) :
    ∀ c ∈ (front ++ number).getLast?, isBlank c = false := by
  obtain ⟨digits, rfl, hne, hdigits⟩ := h
  obtain ⟨init, last, rfl⟩ := (List.eq_nil_or_concat digits).resolve_left hne
  intro c hc
  obtain rfl : last = c := by
    have hsplit : front ++ ':' :: (init ++ [last]) = (front ++ ':' :: init) ++ [last] := by simp
    rw [List.concat_eq_append, hsplit, List.getLast?_concat] at hc
    exact Option.some.inj hc
  cases hb : isBlank last with
  | false => rfl
  | true => exact absurd (hdigits last (by simp)) (by simp [isDigit_of_isBlank hb])

theorem IsNumber.bracket_not_mem {front last : List Char} (h : IsNumber last)
    (hfront : ∀ c ∈ front, c = ':' ∨ isDigit c = true) : '[' ∉ front ++ last := by
  have hbracket : ¬ ('[' = ':' ∨ isDigit '[' = true) := by decide +kernel
  obtain ⟨digits, rfl, -, hdigits⟩ := h
  intro hm
  simp only [List.mem_append, List.mem_cons] at hm
  rcases hm with hm | hm | hm
  · exact hbracket (hfront _ hm)
  · exact hbracket (.inl hm)
  · exact hbracket (.inr (hdigits _ hm))

section
variable {s gap rest tag text : List Char}

theorem bracket_not_mem_blanks (h : Blanks gap) : '[' ∉ gap := fun hm =>
  absurd (h _ hm) (by decide)

/-- A tag that begins in a text with blanks after it stands in that text. -/
theorem hasTag_of_split {front back : List Char} (hgap : Blanks gap) (hne : gap ≠ [])
    (hs : s ++ gap = front ++ '[' :: back)
    (htag : tagAndText? ('[' :: (back ++ rest)) = some (tag, text)) : HasTag s := by
  obtain ⟨gap', -, hparts⟩ := (tagAndText?_eq_some htag).parts
  have hspelled := (tagAndText?_eq_some htag).spelled
  have hbare := bare_of_mem_tag hspelled
  obtain ⟨c, gap, rfl⟩ := List.exists_cons_of_ne_nil hne
  have hc : isBlank c = true := hgap c (by simp)
  rcases List.append_eq_append_iff.1 hs with ⟨more, -, hmore⟩ | ⟨more, rfl, hmore⟩
  · exact absurd (hmore ▸ List.mem_append_right more List.mem_cons_self) (bracket_not_mem_blanks hgap)
  -- the tag ends before the blanks, since there is none in it
  cases more with
  | nil =>
    have hhead : '[' ∈ c :: gap := by
      rw [← show '[' :: back = c :: gap by simpa using hmore]
      exact List.mem_cons_self
    exact absurd hhead (bracket_not_mem_blanks hgap)
  | cons d more =>
    obtain ⟨rfl, rfl⟩ := List.cons.inj hmore
    have hparts' : more ++ (c :: gap ++ rest) = tag ++ ']' :: (gap' ++ text) := by
      simpa using hparts
    rcases List.append_eq_append_iff.1 hparts' with ⟨as, rfl, has⟩ | ⟨as, rfl, has⟩
    · cases as with
      | nil => cases (List.cons.inj has).1; exact absurd hc (by decide)
      | cons a as =>
        cases (List.cons.inj has).1
        exact absurd hc (by simp [hbare c (by simp)])
    · cases as with
      | nil => cases (List.cons.inj has).1; exact absurd hc (by decide)
      | cons a as =>
        cases (List.cons.inj has).1
        exact ⟨front, tag, as, by simp, hspelled⟩

/-- Where the tag stands that comes first, with blanks in front of it, is no question. -/
theorem split_unique {number gap' rest' tag' text' : List Char} (hs : ¬ HasTag s)
    (hgap : Blanks gap) (hne : gap ≠ []) (hnumber : '[' ∉ number) (hgap' : Blanks gap')
    (htag : tagAndText? rest = some (tag, text)) (htag' : tagAndText? rest' = some (tag', text'))
    (h : s ++ (gap ++ rest) = number ++ (gap' ++ rest')) :
    s ++ gap = number ++ gap' ∧ rest = rest' := by
  have hfront : '[' ∉ number ++ gap' := by simp [hnumber, bracket_not_mem_blanks hgap']
  rw [← List.append_assoc, ← List.append_assoc] at h
  rcases List.append_eq_append_iff.1 h with ⟨more, hmore, rfl⟩ | ⟨more, hmore, rfl⟩
  · cases more with
    | nil => exact ⟨by simpa using hmore.symm, rfl⟩
    | cons c more =>
      obtain ⟨_, hhead⟩ := tag_head htag
      cases (List.cons.inj hhead).1
      exact absurd (hmore ▸ List.mem_append_right _ List.mem_cons_self) hfront
  · cases more with
    | nil => exact ⟨by simpa using hmore, rfl⟩
    | cons c more =>
      obtain ⟨_, hhead⟩ := tag_head htag'
      cases (List.cons.inj hhead).1
      exact absurd (hasTag_of_split hgap hne hmore htag') hs

/-- The shortest location that a tag follows is the whole text in front of the first tag. -/
theorem located?_location {front number : List Char} (hnumber : IsNumber number)
    (hs : ¬ HasTag (front ++ number)) (hline : '\n' ∉ front) (hgap : Blanks gap) (hne : gap ≠ [])
    (htag : tagAndText? rest = some (tag, text)) :
    located? (front ++ number ++ (gap ++ rest)) = some (front ++ number, tag, text) := by
  induction front with
  | nil =>
    have hfound := numberAndTag?_of_number hnumber hgap hne htag
    obtain ⟨digits, rfl, -⟩ := hnumber
    rw [List.nil_append, List.cons_append] at *
    rw [located?, hfound]
  | cons c front ih =>
    rw [List.cons_append, List.cons_append, located?]
    cases hfound : numberAndTag? (c :: (front ++ number ++ (gap ++ rest))) with
    | some found =>
      obtain ⟨number', tag', text'⟩ := found
      obtain ⟨first, last, gap', rest', hsplit, rfl, hfirst, hlast, hgap', -, htag'⟩ :=
        eq_of_numberAndTag? hfound
      obtain ⟨heq, rfl⟩ := split_unique hs hgap hne (hlast.bracket_not_mem hfirst) hgap' htag htag'
        hsplit
      have hends := eq_of_append_blanks (hnumber.bare _) (hlast.bare _) hgap hgap' heq
      rw [htag] at htag'
      cases htag'
      rw [← hends]
      rfl
    | none =>
      have hrest : ¬ HasTag (front ++ number) := by
        rintro ⟨a, t, b, hab, ht⟩
        exact hs ⟨c :: a, t, b, by rw [List.cons_append, List.cons_append, hab], ht⟩
      have hc : c ≠ '\n' := fun h => hline (by simp [h])
      simp only [hc, if_false]
      rw [ih hrest fun h => hline (by simp [h])]
      rfl

/-- A location in front of a tag is found as it was written. -/
theorem locatedTag?_location {location : List Char} (h : IsLocation location) (hgap : Blanks gap)
    (hne : gap ≠ []) (htag : tagAndText? rest = some (tag, text)) :
    locatedTag? (location ++ (gap ++ rest)) = some (location, tag, text) := by
  obtain ⟨front, number, rfl, hfront, hnumber⟩ := h.numbered
  obtain ⟨c, front, rfl⟩ := List.exists_cons_of_ne_nil hfront
  have hc : isBlank c = false := h.bare c (by simp)
  have hs : ¬ HasTag (front ++ number) := fun ⟨a, t, b, hab, ht⟩ =>
    h.untagged ⟨c :: a, t, b, by rw [List.cons_append, List.cons_append, hab], ht⟩
  have hline : '\n' ∉ front := fun hm => h.oneLine (by simp [hm])
  rw [List.cons_append, List.cons_append, locatedTag?, if_neg (by simp [hc]),
    located?_location hnumber hs hline hgap hne htag]
  rfl

/-! ## Hidden tags -/

theorem located?_isSome {front number : List Char} (hnumber : IsNumber number)
    (hline : '\n' ∉ front) (hgap : Blanks gap) (hne : gap ≠ [])
    (htag : tagAndText? rest = some (tag, text)) :
    (located? (front ++ (number ++ (gap ++ rest)))).isSome := by
  induction front with
  | nil =>
    have hfound := numberAndTag?_of_number hnumber hgap hne htag
    obtain ⟨digits, rfl, -⟩ := hnumber
    rw [List.nil_append, List.cons_append] at *
    rw [located?, hfound]
    rfl
  | cons c front ih =>
    have hc : c ≠ '\n' := fun h => hline (by simp [h])
    rw [List.cons_append, located?]
    cases numberAndTag? (c :: (front ++ (number ++ (gap ++ rest)))) with
    | some found => rfl
    | none => simpa [hc] using ih fun h => hline (by simp [h])

theorem eq_of_located? {s : List Char} {found : List Char × List Char × List Char}
    (h : located? s = some found) :
    ∃ front number gap rest, s = front ++ (number ++ (gap ++ rest)) ∧ IsNumber number ∧
      Blanks gap ∧ gap ≠ [] ∧ ∃ tag text, tagAndText? rest = some (tag, text) := by
  induction s generalizing found with
  | nil => simp [located?] at h
  | cons c s ih =>
    rw [located?] at h
    cases hfound : numberAndTag? (c :: s) with
    | some found =>
      obtain ⟨number, tag, text⟩ := found
      obtain ⟨front, last, gap, rest, hs, rfl, -, hlast, hgap, hne, htag⟩ :=
        eq_of_numberAndTag? hfound
      exact ⟨front, last, gap, rest, by rw [hs, List.append_assoc], hlast, hgap, hne, tag, text,
        htag⟩
    | none =>
      simp only [hfound] at h
      split at h
      · cases h
      · obtain ⟨found', hs, -⟩ := Option.map_eq_some_iff.1 h
        obtain ⟨front, number, gap, rest, rfl, hnumber, hgap, hne, htag⟩ := ih hs
        exact ⟨c :: front, number, gap, rest, rfl, hnumber, hgap, hne, htag⟩

/-- In a line that begins with a tag, a location is found only where its text hides another tag. -/
theorem locatedTag?_eq_none_iff {body : List Char}
    (htag : Spells "error".toList tag ∨ Spells "warning".toList tag) (hline : '\n' ∉ body) :
    locatedTag? ('[' :: (tag ++ ']' :: body)) = none ↔ ¬ HidesTag body := by
  have hbracket : isBlank '[' = false := by decide
  rw [locatedTag?, if_neg (by simp [hbracket]), Option.map_eq_none_iff, ← not_iff_not, not_not,
    ← ne_eq, Option.ne_none_iff_exists']
  constructor
  · rintro ⟨found, hfound⟩
    obtain ⟨front, number, gap, rest, hs, hnumber, hgap, hne, tag', text, htag'⟩ :=
      eq_of_located? hfound
    obtain ⟨gap', -, rfl⟩ := (tagAndText?_eq_some htag').parts
    have hspelled := (tagAndText?_eq_some htag').spelled
    -- the number stands behind the first tag, in which there is no colon
    have hs' : (tag ++ [']']) ++ body = front ++ (number ++ (gap ++ '[' :: (tag' ++ ']' :: (gap' ++ text)))) := by
      simpa using hs
    rcases List.append_eq_append_iff.1 hs' with ⟨more, -, rfl⟩ | ⟨more, hmore, hbody⟩
    · exact ⟨more, number, gap, tag', gap' ++ text, by simp, hnumber, hgap, hne, hspelled⟩
    · cases more with
      | nil =>
        exact ⟨[], number, gap, tag', gap' ++ text, by simpa using hbody.symm, hnumber, hgap, hne,
          hspelled⟩
      | cons c more =>
        obtain ⟨digits, rfl, -⟩ := hnumber
        obtain rfl := (List.cons.inj hbody).1
        have hmem : ':' ∈ tag ++ [']'] := hmore ▸ List.mem_append_right _ List.mem_cons_self
        simp [colon_not_mem_tag htag] at hmem
  · rintro ⟨front, number, gap, tag', rest, rfl, hnumber, hgap, hne, htag'⟩
    obtain ⟨text, htext⟩ := message?_of_oneLine (s := rest) fun hm => hline (by simp [hm])
    have hfront : '\n' ∉ tag ++ ']' :: front := by
      have hnot : '\n' ∉ tag := fun hm => by
        have := bare_of_mem_tag htag _ hm
        revert this
        decide
      have hfront : '\n' ∉ front := fun hm => hline (by simp [hm])
      simp [hnot, hfront]
    have hsome := located?_isSome hnumber hfront hgap hne (tagAndText?_of_spells htag' htext)
    rw [Option.isSome_iff_exists] at hsome
    simpa using hsome

end

/-! ## Reading -/

/-- Trimming takes nothing from a line with a tag but blanks at the end of its text. -/
theorem trimChars_written {front tag text ending : List Char}
    (hfront : ∀ c ∈ front.head?, isBlank c = false) (hending : Blanks ending) :
    trimChars (front ++ written tag text ++ ending) =
      front ++ '[' :: (tag ++ ']' :: trimRightChars (' ' :: text)) := by
  have hhead : ∀ c ∈ (front ++ written tag text).head?, isBlank c = false := by
    intro c hc
    cases front with
    | nil =>
      obtain rfl : '[' = c := by simpa [written] using hc
      decide
    | cons d front => exact hfront c (by simpa using hc)
  have hsplit : front ++ written tag text = (front ++ '[' :: tag) ++ ']' :: ' ' :: text := by
    simp [written]
  rw [trimChars_append_blanks hending, trimChars_of_bare hhead, hsplit,
    trimRightChars_append_cons (by decide)]
  simp

theorem message?_trimRightChars {text : List Char} (h : '\n' ∉ text) :
    message? (trimRightChars (' ' :: text)) = some (trimRightChars text) := by
  have hspace : isBlank ' ' = true := by decide
  obtain ⟨gap, -, htext, -⟩ := trimRightChars_spec text
  have hline : '\n' ∉ trimRightChars text := fun hm =>
    h (htext ▸ List.mem_append_left gap hm)
  cases hkept : trimRightChars text with
  | nil => simp [trimRightChars, hkept, hspace, message?]
  | cons c kept =>
    rw [hkept] at hline
    simp [trimRightChars, hkept, hspace, message?] at hline ⊢
    exact hline

/-- Blanks at the end of a text hide no tag. -/
theorem hidesTag_trimRightChars {text : List Char} :
    HidesTag (trimRightChars (' ' :: text)) ↔ HidesTag text := by
  constructor
  · rintro ⟨front, number, gap, tag, rest, hs, hnumber, hgap, hne, htag⟩
    obtain ⟨after, -, htext, -⟩ := trimRightChars_spec (' ' :: text)
    rw [hs] at htext
    cases front with
    | nil =>
      obtain ⟨digits, rfl, -⟩ := hnumber
      exact absurd (List.cons.inj htext).1 (by decide)
    | cons c front =>
      obtain ⟨-, rfl⟩ := List.cons.inj htext
      exact ⟨front, number, gap, tag, rest ++ after, by simp, hnumber, hgap, hne, htag⟩
  · rintro ⟨front, number, gap, tag, rest, rfl, hnumber, hgap, hne, htag⟩
    refine ⟨' ' :: front, number, gap, tag, trimRightChars rest, ?_, hnumber, hgap, hne, htag⟩
    have hsplit : ' ' :: (front ++ number ++ gap ++ '[' :: (tag ++ ']' :: rest)) =
        (' ' :: (front ++ number ++ gap ++ '[' :: tag)) ++ ']' :: rest := by simp
    rw [hsplit, trimRightChars_append_cons (by decide)]
    simp

/-- A line with a tag begins a message. -/
theorem collect_of_tagged? {l : Line} {found : Tagged} {severity : Severity}
    (hfound : tagged? (trimChars l.text.toList) = some found)
    (hseverity : Severity.ofTag? found.tag = some severity) :
    collect [l] = .ok [⟨severity, trim found.text, l.stream, found.location, true, []⟩] := by
  have hne : (trimChars l.text.toList).isEmpty = false := by
    cases hs : trimChars l.text.toList with
    | nil => rw [hs] at hfound; cases hfound
    | cons c s => rfl
  have hread : l.read =
      .ok (.head ⟨severity, trim found.text, l.stream, found.location, true, []⟩) := by
    simp only [Line.read, hne, hfound, hseverity, Bool.false_eq_true, if_false]
  simp only [collect, List.foldlM_cons, List.foldlM_nil, takeIn, hread]
  rfl

/-- The one message that a line with a tag makes has the location of the line. -/
theorem location_of_collect {l : Line} {found : Tagged} {m : Message}
    (hfound : tagged? (trimChars l.text.toList) = some found) (h : collect [l] = .ok [m]) :
    m.location = found.location := by
  cases hseverity : Severity.ofTag? found.tag with
  | some severity =>
    rw [collect_of_tagged? hfound hseverity] at h
    cases h
    rfl
  | none =>
    have hne : (trimChars l.text.toList).isEmpty = false := by
      cases hs : trimChars l.text.toList with
      | nil => rw [hs] at hfound; cases hfound
      | cons c s => rfl
    have hread : l.read = .error ⟨found.tag⟩ := by
      simp only [Line.read, hne, hfound, hseverity, Bool.false_eq_true, if_false]
    simp only [collect, List.foldlM_cons, List.foldlM_nil, takeIn, hread] at h
    cases h

/-- A line with a location, blanks, a tag, a space and a text, and blanks at its end, is collected as
one message with that location, the severity of the tag and the trimmed text. Without a location in
front it is collected so exactly when its text does not hide another tag. -/
theorem collect_written_iff {tag text ending : List Char} {severity : Severity}
    (htag : IsTag tag severity) (hline : '\n' ∉ text) (hending : Blanks ending) (stream : Stream) :
    (∀ location gap, IsLocation location → Blanks gap → gap ≠ [] →
      collect [⟨stream, String.ofList (location ++ gap ++ written tag text ++ ending)⟩] =
        .ok [⟨severity, trim (String.ofList text), stream, some (String.ofList location), true, []⟩]) ∧
    (collect [⟨stream, String.ofList (written tag text ++ ending)⟩] =
        .ok [⟨severity, trim (String.ofList text), stream, none, true, []⟩] ↔ ¬ HidesTag text) := by
  have htext : tagAndText? ('[' :: (tag ++ ']' :: trimRightChars (' ' :: text))) =
      some (tag, trimRightChars text) :=
    tagAndText?_of_spells htag.spells (message?_trimRightChars hline)
  have htrim : trim (String.ofList (trimRightChars text)) = trim (String.ofList text) := by
    simp only [trim, String.toList_ofList, trimChars_trimRightChars]
  constructor
  · intro location gap hlocation hgap hne
    have hhead : ∀ c ∈ (location ++ gap).head?, isBlank c = false := by
      obtain ⟨front, number, rfl, hfront, -⟩ := hlocation.numbered
      obtain ⟨c, front, rfl⟩ := List.exists_cons_of_ne_nil hfront
      exact fun d hd => hlocation.bare d (by simpa using hd)
    let l : Line := ⟨stream, String.ofList (location ++ gap ++ written tag text ++ ending)⟩
    have hfound : tagged? (trimChars l.text.toList) =
        some ⟨some (String.ofList location), String.ofList tag, String.ofList (trimRightChars text)⟩ := by
      rw [String.toList_ofList, trimChars_written hhead hending, tagged?, List.append_assoc,
        locatedTag?_location hlocation hgap hne htext]
    have hcollect := collect_of_tagged? hfound htag.ofTag?_eq
    rw [htrim] at hcollect
    exact hcollect
  · have hbody : '\n' ∉ trimRightChars (' ' :: text) := by
      obtain ⟨gap, -, hs, -⟩ := trimRightChars_spec (' ' :: text)
      intro hm
      have hmem : '\n' ∈ ' ' :: text := hs ▸ List.mem_append_left gap hm
      simp [hline] at hmem
    have hnone := locatedTag?_eq_none_iff htag.spells hbody
    rw [hidesTag_trimRightChars] at hnone
    let l : Line := ⟨stream, String.ofList (written tag text ++ ending)⟩
    have hstripped : trimChars l.text.toList = '[' :: (tag ++ ']' :: trimRightChars (' ' :: text)) := by
      rw [String.toList_ofList, ← List.nil_append (written tag text)]
      exact trimChars_written (by simp) hending
    rw [← hnone]
    constructor
    · intro hcollect
      cases hlocated : locatedTag? ('[' :: (tag ++ ']' :: trimRightChars (' ' :: text))) with
      | none => rfl
      | some found =>
        obtain ⟨location, tag', text'⟩ := found
        have hfound : tagged? (trimChars l.text.toList) =
            some ⟨some (String.ofList location), String.ofList tag', String.ofList text'⟩ := by
          rw [hstripped, tagged?, hlocated]
        cases location_of_collect hfound hcollect
    · intro hlocated
      have hfound : tagged? (trimChars l.text.toList) =
          some ⟨none, String.ofList tag, String.ofList (trimRightChars text)⟩ := by
        rw [hstripped, tagged?, hlocated, htext]
        rfl
      have hcollect := collect_of_tagged? hfound htag.ofTag?_eq
      rw [htrim] at hcollect
      exact hcollect

/-- An error whose text holds a number and another tag is read well behind a location. -/
theorem collect_written_behind_location :
    IsTag "eRRor".toList .error ∧ '\n' ∉ "A.java:3 [warning] x".toList ∧ Blanks ['\n'] ∧
    collect [⟨.stderr, "B.java:8:1  [eRRor] A.java:3 [warning] x\n"⟩] =
      .ok [⟨.error, "A.java:3 [warning] x", .stderr, some "B.java:8:1", true, []⟩] := by
  have htag : IsTag "eRRor".toList .error := by
    refine .error ?_
    have hword : "error".toList = ['e', 'r', 'r', 'o', 'r'] := by decide
    have htext : "eRRor".toList = ['e', 'R', 'R', 'o', 'r'] := by decide
    rw [IsCasing, hword, htext]
    simp only [List.forall₂_cons, List.forall₂_nil_right_iff]
    decide
  have hline : '\n' ∉ "A.java:3 [warning] x".toList := by decide
  have hending : Blanks ['\n'] := by simp [Blanks]; decide
  have hlocation : IsLocation "B.java:8:1".toList := by
    have hhead : "B.java:8:1".toList.head? = some 'B' := by decide
    refine ⟨by rw [hhead]; rintro c ⟨⟩; decide, ⟨"B.java:8".toList, ":1".toList, by decide, by decide, ['1'], by decide,
      by decide, by simp; decide +kernel⟩, ?_, by decide⟩
    rintro ⟨front, tag, rest, hs, -⟩
    have hbracket : '[' ∈ "B.java:8:1".toList := hs ▸ List.mem_append_right _ List.mem_cons_self
    exact absurd hbracket (by decide)
  refine ⟨htag, hline, hending, ?_⟩
  have hcollect := (collect_written_iff htag hline hending .stderr).1 _ [' ', ' '] hlocation
    (by simp [Blanks]; decide) (by simp)
  have htext : String.ofList ("B.java:8:1".toList ++ [' ', ' '] ++
      written "eRRor".toList "A.java:3 [warning] x".toList ++ ['\n']) =
        "B.java:8:1  [eRRor] A.java:3 [warning] x\n" := by decide +kernel
  have htrim : trim "A.java:3 [warning] x" = "A.java:3 [warning] x" := by decide +kernel
  rw [htext, String.ofList_toList, String.ofList_toList, htrim] at hcollect
  exact hcollect

/-- The same line without the location is no error: its own tag is read as part of a location. -/
theorem error_read_as_warning :
    collect [⟨.stderr, "[error] A.java:3 [warning] x"⟩] =
      .ok [⟨.warning, "x", .stderr, some "[error] A.java:3", true, []⟩] := by
  decide +kernel

end WeaveStep.Console
