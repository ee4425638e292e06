import WeaveStep.Proofs.Ini.Reader
import WeaveStep.Proofs.Lists
import WeaveStep.Proofs.Text.LetterCase
import WeaveStep.Proofs.Text.Lines
import WeaveStep.Proofs.Text.Trim

/-!
# Written INI documents

Sections are written down with a header each, a key in a line with its value, or in a line of its own
above the indented lines of a list (`written`). The reader gathers from these lines what was written
(**`readLines_written`**): below a header, each line of a key opens one draft (`line_keyLine`), and each
indented line goes to the last one (`line_item`).
-/

namespace WeaveStep.Ini

open Text

/-! ## Writing -/

/-- What is written of a key: a value in its line, or items in lines below it. -/
inductive Field
  | value (text : List Char)
  | items (texts : List (List Char))
  deriving DecidableEq

/-- A section by its name, with what is written of its keys. -/
abbrev Section := String × List (String × Field)

namespace Field

/-- The lines of the value as they are read. -/
def told : Field → List (List Char)
  | value text => [text]
  | items texts => [] :: texts

/-- What stands in the line of the key after the delimiter. -/
def tail : Field → List Char
  | value text => ' ' :: text
  | items _ => []

/-- The indented lines below that of the key. -/
def below (indent : List Char) : Field → List (List Char)
  | value _ => []
  | items texts => texts.map (indent ++ ·)

end Field

def headerLine (name : String) : List Char := '[' :: name.toList ++ [']']

/-- The line that begins the value of a key. -/
def keyLine (key : String) (rest : List Char) : List Char := key.toList ++ ' ' :: '=' :: rest

/-- The lines of a section. -/
def sectionLines (indent : List Char) (s : Section) : List (List Char) :=
  headerLine s.1 :: s.2.flatMap fun f => keyLine f.1 f.2.tail :: f.2.below indent

/-- The text of the sections, in which the items of a list are indented so far. -/
def written (indent : List Char) (sections : List Section) : List Char :=
  (sections.flatMap (sectionLines indent)).flatMap (· ++ ['\n'])

/-- The drafts that the reader makes of fields. -/
def draftsOf (fields : List (String × Field)) : List Draft :=
  fields.map fun f => ⟨f.1, some f.2.told⟩

/-- The document that was written. -/
def Document.ofSections (sections : List Section) : Document :=
  ⟨sections.map fun s => (s.1, s.2.map fun f => (f.1, some (Reading.joined f.2.told)))⟩

/-! ## What can be written -/

/-- A text in one line. -/
structure SingleLine (s : List Char) : Prop where
  noFeed : '\n' ∉ s
  noReturn : '\r' ∉ s

theorem SingleLine.append {s t : List Char} (hs : SingleLine s) (ht : SingleLine t) :
    SingleLine (s ++ t) :=
  ⟨fun h => (List.mem_append.1 h).elim hs.noFeed ht.noFeed,
    fun h => (List.mem_append.1 h).elim hs.noReturn ht.noReturn⟩

/-- A text in one line with something in it and no blanks around it. -/
structure IsPlain (s : List Char) : Prop where
  told : s ≠ []
  bare : HasBareEnds s
  single : SingleLine s

theorem IsPlain.around {s t : List Char} (hs : IsPlain s) (ht : IsPlain t) {mid : List Char}
    (hmid : SingleLine mid) : IsPlain (s ++ mid ++ t) where
  told := by simp [hs.told]
  bare := by
    constructor
    · rw [List.append_assoc, List.head?_append_of_ne_nil _ hs.told]
      exact hs.bare.1
    · rw [List.getLast?_append_of_ne_nil _ ht.told]
      exact ht.bare.2
  single := (hs.single.append hmid).append ht.single

/-- A key as it is looked up, which nothing else can be taken for. -/
structure IsKey (key : String) : Prop where
  plain : IsPlain key.toList
  small : smallLetters key = key
  noDelimiter : ∀ c ∈ key.toList, isDelimiter c = false
  front : ∀ c ∈ key.toList.head?, c ≠ '[' ∧ c ≠ '#' ∧ c ≠ ';'

instance (s : List Char) : Decidable (SingleLine s) :=
  decidable_of_iff ('\n' ∉ s ∧ '\r' ∉ s) ⟨fun h => ⟨h.1, h.2⟩, fun h => ⟨h.1, h.2⟩⟩

instance (s : List Char) : Decidable (IsPlain s) :=
  decidable_of_iff (s ≠ [] ∧ HasBareEnds s ∧ SingleLine s)
    ⟨fun h => ⟨h.1, h.2.1, h.2.2⟩, fun h => ⟨h.1, h.2, h.3⟩⟩

/-- What keys are usually made of. -/
def keyLetters : List Char :=
  ['_', 'a', 'b', 'c', 'd', 'e', 'f', 'g', 'h', 'i', 'j', 'k', 'l', 'm', 'n', 'o', 'p', 'q', 'r', 's',
    't', 'u', 'v', 'w', 'x', 'y', 'z']

/-- A key of such letters, as a test that can be run. -/
theorem isKey_of_letters {key : String} (hsome : key.toList ≠ [])
    (hkey : key.toList.all keyLetters.contains = true) : IsKey key := by
  have htest : (keyLetters.all fun c => IsSmall c ∧ isBlank c = false ∧ isDelimiter c = false ∧
      c ∉ ['\n', '\r', '[', '#', ';']) = true := by decide
  have hletter : ∀ c ∈ key.toList, IsSmall c ∧ isBlank c = false ∧ isDelimiter c = false ∧
      c ∉ ['\n', '\r', '[', '#', ';'] := fun c hc =>
    of_decide_eq_true (List.all_eq_true.1 htest c (by simpa using List.all_eq_true.1 hkey c hc))
  have hbare : HasBareEnds key.toList :=
    ⟨fun c hc => (hletter c (List.mem_of_mem_head? hc)).2.1,
      fun c hc => (hletter c (List.mem_of_getLast? hc)).2.1⟩
  have hmark : ∀ mark ∈ ['\n', '\r', '[', '#', ';'], mark ∉ key.toList := fun mark hmark hin =>
    (hletter mark hin).2.2.2 hmark
  refine ⟨⟨hsome, hbare, hmark _ (by simp), hmark _ (by simp)⟩,
    smallLetters_eq_self fun c hc => (hletter c hc).1, fun c hc => (hletter c hc).2.2.1, fun c hc => ?_⟩
  have hnone := (hletter c (List.mem_of_mem_head? hc)).2.2.2
  simp_all

def Field.IsWritable : Field → Prop
  | value text => IsPlain text
  | items texts => ∀ text ∈ texts, IsPlain text ∧ isComment text = false

structure Section.IsWritable (s : Section) : Prop where
  named : s.1 ≠ ""
  single : SingleLine s.1.toList
  keys : ∀ f ∈ s.2, IsKey f.1
  distinct : (s.2.map Prod.fst).Nodup
  fields : ∀ f ∈ s.2, f.2.IsWritable

/-- What lists are indented by. -/
structure IsIndent (indent : List Char) : Prop where
  told : indent ≠ []
  blanks : Blanks indent
  single : SingleLine indent

/-! ## Lines -/

section

variable {s indent rest : List Char} {key : String}

theorem keyAndValue_keyLine (h : IsKey key) :
    keyAndValue (keyLine key rest) = (key.toList, some (trimChars rest)) := by
  have hfront : ∀ c ∈ key.toList ++ [' '], (!isDelimiter c) = true := by
    intro c hc
    rcases List.mem_append.1 hc with hc | hc
    · rw [h.noDelimiter c hc, Bool.not_false]
    · rw [List.mem_singleton.1 hc]
      rfl
  have hline : keyLine key rest = (key.toList ++ [' ']) ++ '=' :: rest := by simp [keyLine]
  have hblank : Blanks [' '] := by simp [blanks_cons, isBlank]
  rw [keyAndValue, hline, List.takeWhile_append_of_pos hfront, List.dropWhile_append_of_pos hfront,
    List.takeWhile_cons_of_neg (by decide), List.dropWhile_cons_of_neg (by decide), List.append_nil,
    trimRightChars_append_blanks hblank, trimRightChars_of_bare h.plain.bare.2]

theorem headerName?_headerLine {name : String} (h : name ≠ "") :
    headerName? (headerLine name) = some name.toList := by
  have hne : name.toList.reverse.isEmpty = false := by simpa using h
  simp [headerLine, headerName?, hne]

theorem headerName?_of_front (h : ∀ c ∈ s.head?, c ≠ '[') : headerName? s = none := by
  unfold headerName?
  split
  · exact absurd rfl (h _ rfl)
  · rfl

theorem isComment_of_front (h : ∀ c ∈ s.head?, c ≠ '#' ∧ c ≠ ';') : isComment s = false := by
  unfold isComment
  split
  · exact absurd rfl (h _ rfl).1
  · exact absurd rfl (h _ rfl).2
  · rfl

theorem head?_keyLine (h : IsKey key) : (keyLine key rest).head? = key.toList.head? := by
  rw [keyLine, List.head?_append_of_ne_nil _ h.plain.told]

theorem hasBareEnds_headerLine (name : String) : HasBareEnds (headerLine name) := by
  constructor
  · rintro c ⟨⟩
    rfl
  · intro c hc
    rw [headerLine, List.getLast?_concat] at hc
    cases hc
    rfl

theorem hasBareEnds_keyLine (h : IsKey key) (hrest : ∀ c ∈ ('=' :: rest).getLast?, isBlank c = false) :
    HasBareEnds (keyLine key rest) := by
  refine ⟨fun c hc => h.plain.bare.1 c (head?_keyLine h ▸ hc), fun c hc => hrest c ?_⟩
  rwa [keyLine, List.getLast?_append_of_ne_nil _ (List.cons_ne_nil _ _), List.getLast?_cons_cons] at hc

theorem trimChars_line (h : HasBareEnds s) : trimChars (s ++ ['\n']) = s := by
  rw [trimChars_append_blanks (by simp [blanks_cons, isBlank]), h.trimChars_eq]

theorem indentation_line (hne : s ≠ []) (h : HasBareEnds s) : indentation (s ++ ['\n']) = 0 := by
  obtain ⟨c, s, rfl⟩ := List.exists_cons_of_ne_nil hne
  simp [indentation, h.1 c rfl]

theorem trimChars_item (hindent : IsIndent indent) (hs : IsPlain s) :
    trimChars (indent ++ s ++ ['\n']) = s := by
  obtain ⟨c, rest, rfl⟩ := List.exists_cons_of_ne_nil hs.told
  have hdrop : (indent ++ (c :: rest)).dropWhile isBlank = c :: rest := by
    rw [List.dropWhile_append_of_pos hindent.blanks,
      List.dropWhile_cons_of_neg (by simp [hs.bare.1 c rfl])]
  rw [trimChars_append_blanks (by simp [blanks_cons, isBlank]), trimChars, hdrop,
    trimRightChars_of_bare hs.bare.2]

theorem indentation_item (hindent : IsIndent indent) : 0 < indentation (indent ++ s ++ ['\n']) := by
  rw [indentation, List.append_assoc, List.takeWhile_append_of_pos hindent.blanks, List.length_append]
  exact Nat.add_pos_left (List.length_pos_of_ne_nil hindent.told) _

end

/-! ## Reading line by line -/

namespace Reading

variable {done : List (String × List Draft)} {name key : String} {drafts : List Draft}
  {key? : Option String} {s indent : List Char} {number : Nat}

/-- The reader below the header of the last section so far. -/
def within (done : List (String × List Draft)) (name : String) (drafts : List Draft)
    (key? : Option String) : Reading :=
  { sections := done ++ [(name, drafts)], open? := some name, key? }

theorem drafts_within (hnew : name ∉ done.map Prod.fst) :
    (within done name drafts key?).drafts name = drafts := by
  simp [Reading.drafts, within, List.lookup_append, lookup_of_not_mem hnew]

theorem onSection_within (hnew : name ∉ done.map Prod.fst) (f : List Draft → List Draft) :
    (within done name drafts key?).onSection name f = within done name (f drafts) key? := by
  have hdone : done.map (fun s => if s.1 = name then (s.1, f s.2) else s) = done := by
    refine (List.map_congr_left fun s hs => ?_).trans (List.map_id done)
    refine if_neg ?_
    rintro rfl
    exact hnew (List.mem_map_of_mem hs)
  simp [onSection, within, hdone]

section

variable {r : Reading} (hne : s ≠ []) (hbare : HasBareEnds s) (hcomment : isComment s = false)

include hne hbare hcomment

theorem line_of_headerName? {found : List Char} (h : headerName? s = some found) :
    r.line number (s ++ ['\n']) =
      ({ r with indent := 0 }.header number (String.ofList found)).mapError .failure := by
  simp [line, trimChars_line hbare, hne, hcomment, indentation_line hne hbare, h]

theorem line_of_no_headerName? (h : headerName? s = none) (hopen : r.open? = some name) :
    r.line number (s ++ ['\n']) =
      ({ r with indent := 0 }.option number name (s ++ ['\n']) s).mapError .failure := by
  simp [line, trimChars_line hbare, hne, hcomment, indentation_line hne hbare, h, hopen]

end

theorem line_headerLine (r : Reading) (hname : name ≠ "") (hnew : name ∉ r.sections.map Prod.fst) :
    r.line number (headerLine name ++ ['\n']) = .ok
      { r with sections := r.sections ++ [(name, [])], open? := some name, key? := none, indent := 0 } := by
  rw [line_of_headerName? (by simp [headerLine]) (hasBareEnds_headerLine name) rfl
    (headerName?_headerLine hname), String.ofList_toList]
  simp [header, lookup_of_not_mem hnew, Except.mapError]

/-- The line of a key opens a draft. -/
theorem line_keyLine (hnew : name ∉ done.map Prod.fst) (hkey : IsKey key)
    (hfirst : key ∉ drafts.map (·.key)) {rest : List Char}
    (hrest : ∀ c ∈ ('=' :: rest).getLast?, isBlank c = false) :
    (within done name drafts key?).line number (keyLine key rest ++ ['\n']) =
      .ok (within done name (drafts ++ [⟨key, some [trimChars rest]⟩]) (some key)) := by
  have hhead : (keyLine key rest).head? = key.toList.head? := head?_keyLine hkey
  have hheader : headerName? (keyLine key rest) = none :=
    headerName?_of_front fun c hc => (hkey.front c (hhead ▸ hc)).1
  have hcomment : isComment (keyLine key rest) = false :=
    isComment_of_front fun c hc => (hkey.front c (hhead ▸ hc)).2
  have htold : keyLine key rest ≠ [] := by simp [keyLine]
  have hraw : key.toList.isEmpty = false := by simpa using hkey.plain.told
  have hany : ((within done name drafts key?).drafts name).any (·.key = key) = false := by
    rw [drafts_within hnew]
    simpa using hfirst
  have hwithin : { within done name drafts key? with indent := 0 } = within done name drafts key? := rfl
  rw [line_of_no_headerName? htold (hasBareEnds_keyLine hkey hrest) hcomment hheader rfl, hwithin, option,
    keyAndValue_keyLine hkey]
  simp only [hraw, Bool.false_eq_true, if_false, String.ofList_toList, hkey.small, hany,
    onSection_within hnew]
  rfl

theorem continued?_within (hnew : name ∉ done.map Prod.fst) (hkey : key ≠ "")
    (hfirst : key ∉ drafts.map (·.key)) (ls : List (List Char)) :
    (within done name (drafts ++ [⟨key, some ls⟩]) (some key)).continued? =
      some (name, ⟨key, some ls⟩) := by
  have hnone : drafts.find? (·.key = key) = none := by simpa using hfirst
  have hfind : (drafts ++ [(⟨key, some ls⟩ : Draft)]).find? (·.key = key) = some ⟨key, some ls⟩ := by
    rw [List.find?_append, hnone]
    simp
  have hdrafts : (within done name (drafts ++ [⟨key, some ls⟩]) (some key)).drafts name =
      drafts ++ [⟨key, some ls⟩] := drafts_within hnew
  have hopen : (within done name (drafts ++ [⟨key, some ls⟩]) (some key)).open? = some name := rfl
  have hlast : (within done name (drafts ++ [⟨key, some ls⟩]) (some key)).key? = some key := rfl
  rw [continued?, hopen, hlast]
  dsimp only
  rw [if_neg hkey, hdrafts, hfind]
  rfl

theorem extend_within (hnew : name ∉ done.map Prod.fst) (hfirst : key ∉ drafts.map (·.key))
    (ls : List (List Char)) (l : List Char) :
    (within done name (drafts ++ [⟨key, some ls⟩]) (some key)).extend name key l =
      within done name (drafts ++ [⟨key, some (ls ++ [l])⟩]) (some key) := by
  have hdrafts : drafts.map (fun d => if d.key = key then { d with lines := d.lines.map (· ++ [l]) }
      else d) = drafts := by
    refine (List.map_congr_left fun d hd => ?_).trans (List.map_id drafts)
    refine if_neg ?_
    rintro rfl
    exact hfirst (List.mem_map_of_mem hd)
  rw [extend, onSection_within hnew, List.map_append, hdrafts]
  simp

/-- An indented line goes to the last draft. -/
theorem line_item (hnew : name ∉ done.map Prod.fst) (hkey : key ≠ "")
    (hfirst : key ∉ drafts.map (·.key)) (hindent : IsIndent indent) (hs : IsPlain s)
    (hcomment : isComment s = false) (ls : List (List Char)) :
    (within done name (drafts ++ [⟨key, some ls⟩]) (some key)).line number (indent ++ s ++ ['\n']) =
      .ok (within done name (drafts ++ [⟨key, some (ls ++ [s])⟩]) (some key)) := by
  have hdeep : (within done name (drafts ++ [⟨key, some ls⟩]) (some key)).indent <
      indentation (indent ++ s ++ ['\n']) := indentation_item hindent
  have htold : s.isEmpty = false := by simpa using hs.told
  unfold line
  simp only [trimChars_item hindent hs, htold, hcomment, if_pos hdeep, continued?_within hnew hkey hfirst,
    extend_within hnew hfirst]
  rfl

/-! ## Reading fields and sections -/

theorem lines_items (hnew : name ∉ done.map Prod.fst) (hkey : key ≠ "")
    (hfirst : key ∉ drafts.map (·.key)) (hindent : IsIndent indent) {texts : List (List Char)}
    (htexts : ∀ text ∈ texts, IsPlain text ∧ isComment text = false) (ls : List (List Char)) :
    (within done name (drafts ++ [⟨key, some ls⟩]) (some key)).lines number
        ((texts.map (indent ++ ·)).map (· ++ ['\n'])) =
      .ok (within done name (drafts ++ [⟨key, some (ls ++ texts)⟩]) (some key)) := by
  induction texts generalizing number ls with
  | nil => rw [List.append_nil]; rfl
  | cons text texts ih =>
    obtain ⟨⟨hplain, hcomment⟩, htexts⟩ := List.forall_mem_cons.1 htexts
    rw [List.map_cons, List.map_cons, lines, line_item hnew hkey hfirst hindent hplain hcomment]
    refine (ih htexts (ls ++ [text])).trans ?_
    rw [List.append_assoc, List.singleton_append]

/-- The lines of a key open a draft and fill it. -/
theorem lines_field (hnew : name ∉ done.map Prod.fst) (hkey : IsKey key)
    (hfirst : key ∉ drafts.map (·.key)) (hindent : IsIndent indent) {field : Field}
    (hfield : field.IsWritable) :
    (within done name drafts key?).lines number
        ((keyLine key field.tail :: field.below indent).map (· ++ ['\n'])) =
      .ok (within done name (drafts ++ [⟨key, some field.told⟩]) (some key)) := by
  have hne : key ≠ "" := by simpa using hkey.plain.told
  rw [List.map_cons, lines]
  cases field with
  | value text =>
    have hrest : ∀ c ∈ ('=' :: ' ' :: text).getLast?, isBlank c = false := by
      intro c hc
      obtain ⟨d, text, rfl⟩ := List.exists_cons_of_ne_nil hfield.told
      exact hfield.bare.2 c hc
    have htrim : trimChars (' ' :: text) = text := by
      rw [trimChars, List.dropWhile_cons_of_pos (by rfl), ← trimChars, hfield.bare.trimChars_eq]
    rw [Field.tail, line_keyLine hnew hkey hfirst hrest, htrim]
    rfl
  | items texts =>
    rw [Field.tail, line_keyLine hnew hkey hfirst (by simp [isBlank])]
    exact lines_items hnew hne hfirst hindent hfield [[]]

/-- The lines of some keys. -/
theorem lines_fields (hnew : name ∉ done.map Prod.fst) (hindent : IsIndent indent)
    {fields : List (String × Field)} (hkeys : ∀ f ∈ fields, IsKey f.1)
    (hdistinct : (drafts.map (·.key) ++ fields.map Prod.fst).Nodup)
    (hfields : ∀ f ∈ fields, f.2.IsWritable) :
    ∃ last?, (within done name drafts key?).lines number
        ((fields.flatMap fun f => keyLine f.1 f.2.tail :: f.2.below indent).map (· ++ ['\n'])) =
      .ok (within done name (drafts ++ draftsOf fields) last?) := by
  induction fields generalizing number drafts key? with
  | nil =>
    refine ⟨key?, ?_⟩
    rw [draftsOf, List.map_nil, List.append_nil]
    rfl
  | cons f fields ih =>
    obtain ⟨hkey, hkeys⟩ := List.forall_mem_cons.1 hkeys
    obtain ⟨hfield, hfields⟩ := List.forall_mem_cons.1 hfields
    have hfirst : f.1 ∉ drafts.map (·.key) := by
      intro hmem
      exact (List.nodup_append.1 hdistinct).2.2 _ hmem _ List.mem_cons_self rfl
    have hlast : ((drafts ++ [(⟨f.1, some f.2.told⟩ : Draft)]).map (·.key) ++
        fields.map Prod.fst).Nodup := by
      simpa using hdistinct
    rw [List.flatMap_cons, List.map_append, lines_append, lines_field hnew hkey hfirst hindent hfield]
    obtain ⟨last?, hrest⟩ := ih hkeys hlast hfields
    exact ⟨last?, hrest.trans (by rw [List.append_assoc]; rfl)⟩

/-- The lines of a section. -/
theorem lines_section (number : Nat) {r : Reading} (hindent : IsIndent indent) (hmalformed : r.malformed = [])
    {s : Section} (hnew : s.1 ∉ r.sections.map Prod.fst) (hs : Section.IsWritable s) :
    ∃ last?, r.lines number ((sectionLines indent s).map (· ++ ['\n'])) =
      .ok (within r.sections s.1 (draftsOf s.2) last?) := by
  have hbelow : ({ r with
      sections := r.sections ++ [(s.1, [])], open? := some s.1, key? := none, indent := 0 } : Reading) =
        within r.sections s.1 [] none := by
    rw [within, hmalformed]
  rw [sectionLines, List.map_cons, lines, line_headerLine r hs.named hnew, hbelow]
  exact lines_fields hnew hindent hs.keys (by simpa using hs.distinct) hs.fields

/-- The lines of some sections. -/
theorem lines_sections (number : Nat) {r : Reading} (hindent : IsIndent indent) (hmalformed : r.malformed = [])
    {sections : List Section}
    (hdistinct : (r.sections.map Prod.fst ++ sections.map Prod.fst).Nodup)
    (hs : ∀ s ∈ sections, Section.IsWritable s) :
    ∃ r', r.lines number ((sections.flatMap (sectionLines indent)).map (· ++ ['\n'])) = .ok r' ∧
      r'.malformed = [] ∧ r'.sections = r.sections ++ sections.map fun s => (s.1, draftsOf s.2) := by
  induction sections generalizing number r with
  | nil => exact ⟨r, rfl, hmalformed, (List.append_nil _).symm⟩
  | cons s sections ih =>
    obtain ⟨hwritable, hs⟩ := List.forall_mem_cons.1 hs
    have hnew : s.1 ∉ r.sections.map Prod.fst := by
      intro hmem
      exact (List.nodup_append.1 hdistinct).2.2 _ hmem _ List.mem_cons_self rfl
    rw [List.flatMap_cons, List.map_append, lines_append]
    obtain ⟨last?, hfirst⟩ := lines_section number hindent hmalformed hnew hwritable
    have hrest : ((within r.sections s.1 (draftsOf s.2) last?).sections.map Prod.fst ++
        sections.map Prod.fst).Nodup := by
      simpa [within] using hdistinct
    obtain ⟨r', hr', hnone, hsections⟩ := ih _ rfl hrest hs
    refine ⟨r', by rw [hfirst]; exact hr', hnone, hsections.trans ?_⟩
    rw [within, List.append_assoc, List.map_cons]
    rfl

end Reading

/-! ## The text -/

theorem SingleLine.of_indent {indent s : List Char} (hindent : IsIndent indent) (hs : IsPlain s) :
    SingleLine (indent ++ s) :=
  hindent.single.append hs.single

theorem SingleLine.keyLine {key : String} (hkey : IsKey key) {rest : List Char} (h : SingleLine rest) :
    SingleLine (keyLine key rest) := by
  have hmid : SingleLine [' ', '='] := ⟨by decide, by decide⟩
  simpa [Ini.keyLine] using hkey.plain.single.append (hmid.append h)

/-- What is written of a section are lines. -/
theorem Section.IsWritable.singleLines {indent : List Char} (hindent : IsIndent indent) {s : Section}
    (hs : Section.IsWritable s) : ∀ l ∈ sectionLines indent s, SingleLine l := by
  intro l hl
  rcases List.mem_cons.1 hl with rfl | hl
  · have hopening : SingleLine ['['] := ⟨by decide, by decide⟩
    have hclosing : SingleLine [']'] := ⟨by decide, by decide⟩
    exact (hopening.append hs.single).append hclosing
  · obtain ⟨⟨key, field⟩, hf, hl⟩ := List.mem_flatMap.1 hl
    have hkey := hs.keys _ hf
    have hfield := hs.fields _ hf
    cases field with
    | value text =>
      have hblank : SingleLine [' '] := ⟨by decide, by decide⟩
      rw [List.mem_singleton.1 hl]
      exact .keyLine hkey (hblank.append hfield.single)
    | items texts =>
      rcases List.mem_cons.1 hl with rfl | hl
      · exact .keyLine hkey ⟨List.not_mem_nil, List.not_mem_nil⟩
      · obtain ⟨text, htext, rfl⟩ := List.mem_map.1 hl
        exact .of_indent hindent (hfield text htext).1

/-- The lines that are written are fed to the reader. -/
theorem fedLines_written {indent : List Char} (hindent : IsIndent indent) {sections : List Section}
    (hs : ∀ s ∈ sections, Section.IsWritable s) :
    fedLines (unifyLineEnds (written indent sections)) =
      (sections.flatMap (sectionLines indent)).map (· ++ ['\n']) := by
  have hlines : ∀ l ∈ sections.flatMap (sectionLines indent), SingleLine l := by
    intro l hl
    obtain ⟨s, hmem, hl⟩ := List.mem_flatMap.1 hl
    exact (hs s hmem).singleLines hindent l hl
  have hreturn : '\r' ∉ written indent sections := by
    intro hmem
    obtain ⟨l, hl, hmem⟩ := List.mem_flatMap.1 hmem
    rcases List.mem_append.1 hmem with hmem | hmem
    · exact (hlines l hl).noReturn hmem
    · exact absurd (List.mem_singleton.1 hmem) (by decide)
  rw [unifyLineEnds_of_not_mem hreturn, written, fedLines_flatMap fun l hl => (hlines l hl).noFeed]

/-- **Written sections are read back** as they were written. -/
theorem readLines_written {indent : List Char} (hindent : IsIndent indent) {sections : List Section}
    (hdistinct : (sections.map Prod.fst).Nodup) (hs : ∀ s ∈ sections, Section.IsWritable s) :
    readLines (fedLines (unifyLineEnds (written indent sections))) = .ok (.ofSections sections) := by
  obtain ⟨r, hr, hmalformed, hsections⟩ :=
    Reading.lines_sections 1 (r := {}) hindent rfl (by simpa using hdistinct) hs
  have hdocument : r.document = .ofSections sections := by
    simp [Reading.document, hsections, Document.ofSections, draftsOf, Function.comp_def]
  rw [fedLines_written hindent hs, readLines, hr, ← hdocument]
  exact if_pos (by rw [hmalformed]; rfl)

end WeaveStep.Ini
