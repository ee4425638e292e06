import Mathlib
import WeaveStep.Proofs.Ini.Reference
import WeaveStep.Proofs.Settings.Items
import WeaveStep.Proofs.Settings.Load
import WeaveStep.Proofs.Text.Split

/-!
# Written settings

Settings can be written down as a file: a section for each part, in any order, with a line for each
setting that is given, in any order, and every dollar sign doubled (`IsArrangement`). They are loaded
from it as they were (**`Settings.load_written`**), since each key gives what was written of it
(`resolved?_of_mem`), and the items of a list are cut apart where they were joined (`items_text`).
-/

namespace WeaveStep

open Ini Text

namespace Settings

/-! ## Writing settings -/

/-- How settings are written: the words for the two states of a switch, and what items are indented
by. -/
structure Layout where
  word : Bool → String
  indent : List Char
  stated : ∀ state, switchState? (word state) = some state
  plain : ∀ state, IsPlain (word state).toList
  isIndent : IsIndent indent

def valueField (s : String) : Field := .value s.toList

def listField (ss : List String) : Field := .items (ss.map String.toList)

/-! The keys of each section, and what each key is given, if anything. -/

def mainFields (layout : Layout) (s : Settings) : List (String × Option Field) :=
  [("enabled", valueField (layout.word s.enabled)),
    ("javart_needed", valueField (layout.word s.runtimeNeeded)),
    ("verbose", valueField (layout.word s.verbose)),
    ("bootclasspath", listField s.bootClasspath),
    ("compile_sdk", s.compileSdk.map valueField),
    ("android_sdk", s.androidSdk.map valueField),
    ("java_home", s.javaHome.map valueField),
    ("weaver_version", valueField s.weaverVersion),
    ("weaver_jar", s.weaverJar.map valueField),
    ("java", valueField s.java)]

def optionsFields (s : Settings) : List (String × Option Field) :=
  [("source_compatibility", valueField s.compileOptions.source),
    ("target_compatibility", valueField s.compileOptions.target),
    ("encoding", valueField s.compileOptions.encoding)]

def excludeFields (s : Settings) : List (String × Option Field) :=
  [("rules", listField (s.excludeRules.map ExcludeRule.text))]

/-- The sections with all their keys. -/
def table (layout : Layout) (s : Settings) : List (String × List (String × Option Field)) :=
  [(mainSection, mainFields layout s), (optionsSection, optionsFields s),
    (excludeSection, excludeFields s)]

/-- The keys that are given something, with their dollar signs doubled. -/
def present (fields : List (String × Option Field)) : List (String × Field) :=
  fields.filterMap fun f => f.2.map fun field => (f.1, field.doubled)

/-- The sections are those of the settings, in some order, with the keys that are given something, in
some order. -/
structure IsArrangement (layout : Layout) (s : Settings) (sections : List Section) : Prop where
  names : (sections.map Prod.fst).Perm [mainSection, optionsSection, excludeSection]
  keys : ∀ written ∈ sections, ∀ e ∈ table layout s, e.1 = written.1 → written.2.Perm (present e.2)

/-- All texts of the settings. -/
def texts (s : Settings) : List String :=
  [s.compileOptions.source, s.compileOptions.target, s.compileOptions.encoding, s.weaverVersion, s.java] ++
    [s.compileSdk, s.androidSdk, s.javaHome, s.weaverJar].reduceOption ++ s.bootClasspath ++
    s.excludeRules.flatMap fun r => [r.group, r.moduleName]

/-- Settings that can be written down. -/
structure IsWritable (s : Settings) : Prop where
  plain : ∀ text ∈ s.texts, IsPlain text.toList
  parts : ∀ r ∈ s.excludeRules, ∀ part ∈ [r.group, r.moduleName],
    ':' ∉ part.toList ∧ ',' ∉ part.toList
  rules : ∀ r ∈ s.excludeRules, isComment r.text.toList = false
  entries : ∀ entry ∈ s.bootClasspath, ',' ∉ entry.toList ∧ isComment entry.toList = false

/-! ## Items -/

/-- The items of a list that was written. -/
theorem items_text {ss : List String} (hwritable : (listField ss).IsWritable)
    (hcommas : ∀ s ∈ ss, ',' ∉ s.toList) : items (String.ofList (listField ss).text) = ss := by
  have hplain : ∀ s ∈ ss, IsPlain s.toList := fun s hs =>
    (hwritable s.toList (List.mem_map_of_mem hs)).1
  have htold : ∀ s ∈ ss, s ≠ "" := fun s hs => by simpa using (hplain s hs).told
  have hlines : items (String.ofList (listField ss).text) = ss.flatMap itemsIn := by
    rw [listField, Field.text, items_lines, List.flatMap_map]
    · simp only [String.ofList_toList]
    · intro l hl
      obtain ⟨s, hs, rfl⟩ := List.mem_map.1 hl
      exact (hplain s hs).single.noFeed
  rw [hlines, (flatMap_itemsIn_iff htold fun s hs => (hplain s hs).bare).2 hcommas]

/-! ## What is written -/

section

variable {layout : Layout} {s : Settings} {name key : String} {fields : List (String × Option Field)}

theorem mem_present {f : String × Field} :
    f ∈ present fields ↔ ∃ field, (f.1, some field) ∈ fields ∧ field.doubled = f.2 := by
  obtain ⟨key, field⟩ := f
  simp only [present, List.mem_filterMap, Option.map_eq_some_iff, Prod.mk.injEq]
  constructor
  · rintro ⟨⟨key, given⟩, hmem, field, hgiven, rfl, rfl⟩
    exact ⟨field, hgiven ▸ hmem, rfl⟩
  · rintro ⟨field, hmem, rfl⟩
    exact ⟨(key, some field), hmem, field, rfl, rfl, rfl⟩

theorem present_keys (fields : List (String × Option Field)) :
    ((present fields).map Prod.fst).Sublist (fields.map Prod.fst) := by
  induction fields with
  | nil => exact .slnil
  | cons f fields ih =>
    obtain ⟨key, field?⟩ := f
    cases field? with
    | none => exact ih.cons key
    | some field => exact ih.cons_cons key

theorem nodup_keys (hfields : (name, fields) ∈ table layout s) : (fields.map Prod.fst).Nodup := by
  simp only [table, List.mem_cons, Prod.mk.injEq, List.not_mem_nil, or_false] at hfields
  rcases hfields with ⟨-, rfl⟩ | ⟨-, rfl⟩ | ⟨-, rfl⟩
  all_goals
    simp only [mainFields, optionsFields, excludeFields, List.map_cons, List.map_nil]
    decide

theorem isKey_of_mem (hfields : (name, fields) ∈ table layout s) (hkey : key ∈ fields.map Prod.fst) :
    IsKey key := by
  have hletters : key.toList ≠ [] ∧ key.toList.all keyLetters.contains = true := by
    simp only [table, List.mem_cons, Prod.mk.injEq, List.not_mem_nil, or_false] at hfields
    rcases hfields with ⟨-, rfl⟩ | ⟨-, rfl⟩ | ⟨-, rfl⟩
    all_goals
      simp only [mainFields, optionsFields, excludeFields, List.map_cons, List.map_nil] at hkey
      revert key
      decide +kernel
  exact isKey_of_letters hletters.1 hletters.2

theorem IsWritable.rule (hs : s.IsWritable) {r : ExcludeRule} (hr : r ∈ s.excludeRules) :
    IsPlain r.text.toList := by
  have htexts : ∀ part ∈ [r.group, r.moduleName], part ∈ s.texts := fun part hpart =>
    List.mem_append_right _ (List.mem_flatMap.2 ⟨r, hr, hpart⟩)
  have hgroup := hs.plain r.group (htexts _ (by simp))
  have hmodule := hs.plain r.moduleName (htexts _ (by simp))
  have hcolon : SingleLine [':'] := ⟨by decide, by decide⟩
  simpa [ExcludeRule.text] using hgroup.around hmodule hcolon

/-- What is given to the keys can be written. -/
theorem IsWritable.given (hs : s.IsWritable) :
    ∀ e ∈ table layout s, ∀ f ∈ e.2, ∀ field ∈ f.2, field.IsWritable := by
  have hvalue : ∀ text : String, IsPlain text.toList →
      ∀ field ∈ some (valueField text), field.IsWritable := by
    rintro text htext _ ⟨⟩
    exact htext
  have hoptional : ∀ text? : Option String, (∀ text ∈ text?, text ∈ s.texts) →
      ∀ field ∈ text?.map valueField, field.IsWritable := by
    intro text? htexts field hfield
    obtain ⟨text, htext, rfl⟩ := Option.map_eq_some_iff.1 hfield
    exact hs.plain text (htexts text htext)
  have hboot : ∀ field ∈ some (listField s.bootClasspath), field.IsWritable := by
    rintro _ ⟨⟩ text htext
    obtain ⟨entry, hentry, rfl⟩ := List.mem_map.1 htext
    exact ⟨hs.plain entry (by simp [texts, hentry]), (hs.entries entry hentry).2⟩
  have hrules : ∀ field ∈ some (listField (s.excludeRules.map ExcludeRule.text)),
      field.IsWritable := by
    rintro _ ⟨⟩ text htext
    rw [List.map_map] at htext
    obtain ⟨r, hr, rfl⟩ := List.mem_map.1 htext
    exact ⟨hs.rule hr, hs.rules r hr⟩
  simp only [table, mainFields, optionsFields, excludeFields, List.forall_mem_cons]
  refine ⟨⟨hvalue _ (layout.plain _), hvalue _ (layout.plain _), hvalue _ (layout.plain _), hboot,
    hoptional _ ?_, hoptional _ ?_, hoptional _ ?_, hvalue _ (hs.plain _ (by simp [texts])),
    hoptional _ ?_, hvalue _ (hs.plain _ (by simp [texts])), by simp⟩,
    ⟨hvalue _ (hs.plain _ (by simp [texts])), hvalue _ (hs.plain _ (by simp [texts])),
    hvalue _ (hs.plain _ (by simp [texts])), by simp⟩, ⟨hrules, by simp⟩, by simp⟩
  all_goals
    intro text htext
    simp [texts, List.reduceOption_mem_iff, Option.mem_def.1 htext]

theorem fields_mem_table (layout : Layout) (s : Settings) :
    (mainSection, mainFields layout s) ∈ table layout s ∧
    (optionsSection, optionsFields s) ∈ table layout s ∧
    (excludeSection, excludeFields s) ∈ table layout s := by
  simp [table]

theorem names_table (layout : Layout) (s : Settings) :
    (table layout s).map Prod.fst = [mainSection, optionsSection, excludeSection] := rfl

/-! ## What a document holds -/

variable {sections : List Section}

namespace IsArrangement

theorem nodup_names (h : IsArrangement layout s sections) : (sections.map Prod.fst).Nodup :=
  h.names.nodup_iff.2 (by decide)

theorem mem_table (h : IsArrangement layout s sections) {written : Section} (hmem : written ∈ sections) :
    ∃ fields, (written.1, fields) ∈ table layout s ∧ written.2.Perm (present fields) := by
  have hname := h.names.mem_iff.1 (List.mem_map_of_mem hmem)
  rw [← names_table layout s] at hname
  obtain ⟨⟨_, fields⟩, hfields, rfl⟩ := List.mem_map.1 hname
  exact ⟨fields, hfields, h.keys written hmem (_, fields) hfields rfl⟩

/-- The sections can be written and read back. -/
theorem isWritable (h : IsArrangement layout s sections) (hs : s.IsWritable) {written : Section}
    (hmem : written ∈ sections) : Section.IsWritable written := by
  have hname := h.names.mem_iff.1 (List.mem_map_of_mem hmem)
  obtain ⟨fields, hfields, hperm⟩ := h.mem_table hmem
  refine ⟨?_, ?_, fun f hf => ?_, ?_, fun f hf => ?_⟩
  · revert hname
    generalize written.1 = name
    revert name
    decide
  · revert hname
    generalize written.1 = name
    revert name
    decide
  · exact isKey_of_mem hfields ((present_keys fields).subset (List.mem_map_of_mem (hperm.mem_iff.1 hf)))
  · exact (hperm.map Prod.fst).nodup_iff.2 ((nodup_keys hfields).sublist (present_keys fields))
  · obtain ⟨field, hfield, hdoubled⟩ := mem_present.1 (hperm.mem_iff.1 hf)
    exact hdoubled ▸ (hs.given _ hfields _ hfield field rfl).doubled

/-- A section of the settings is in the document. -/
theorem lookup_section (h : IsArrangement layout s sections) (hfields : (name, fields) ∈ table layout s) :
    ∃ written : List (String × Field), written.Perm (present fields) ∧
      (Document.ofSections sections).sections.lookup name =
        some (written.map fun f => (f.1, some (Reading.joined f.2.told))) := by
  have hname : name ∈ sections.map Prod.fst :=
    h.names.mem_iff.2 (names_table layout s ▸ List.mem_map_of_mem hfields)
  obtain ⟨⟨_, written⟩, hmem, rfl⟩ := List.mem_map.1 hname
  refine ⟨written, h.keys _ hmem (_, fields) hfields rfl, lookup_of_mem ?_ (List.mem_map_of_mem hmem)⟩
  simpa [Document.ofSections, Function.comp_def] using h.nodup_names

theorem value?_of_mem (h : IsArrangement layout s sections) (hfields : (name, fields) ∈ table layout s)
    {field? : Option Field} (hkey : (key, field?) ∈ fields) :
    (Document.ofSections sections).value? name key =
      field?.map fun field => some (Reading.joined field.doubled.told) := by
  obtain ⟨written, hperm, hsection⟩ := h.lookup_section hfields
  have hdefault : (Document.ofSections sections).sections.lookup defaultSection = none := by
    refine lookup_of_not_mem ?_
    have hnames : defaultSection ∉ sections.map Prod.fst := fun hmem =>
      absurd (h.names.mem_iff.1 hmem) (by decide)
    simpa [Document.ofSections, Function.comp_def] using hnames
  have hdistinct : (written.map Prod.fst).Nodup :=
    (hperm.map Prod.fst).nodup_iff.2 ((nodup_keys hfields).sublist (present_keys fields))
  rw [Document.value?, Document.entries, Document.entries, hsection, hdefault]
  cases field? with
  | some field =>
    have hmem : (key, field.doubled) ∈ written := hperm.mem_iff.2 (mem_present.2 ⟨field, hkey, rfl⟩)
    have hfound := lookup_of_mem
      (l := written.map fun f => (f.1, some (Reading.joined f.2.told)))
      (by simpa [Function.comp_def] using hdistinct) (List.mem_map_of_mem hmem)
    rw [Option.getD_some, hfound]
    rfl
  | none =>
    have hnone : key ∉ written.map Prod.fst := by
      intro hmem
      obtain ⟨⟨_, field⟩, hfield, rfl⟩ := List.mem_map.1 hmem
      obtain ⟨given, hgiven, -⟩ := mem_present.1 (hperm.mem_iff.1 hfield)
      have hsome := lookup_of_mem (nodup_keys hfields) hgiven
      rw [lookup_of_mem (nodup_keys hfields) hkey] at hsome
      cases hsome
    have hfound := lookup_of_not_mem
      (l := written.map fun f => (f.1, some (Reading.joined f.2.told)))
      (by simpa [Function.comp_def] using hnone)
    rw [Option.getD_some, hfound]
    rfl

theorem resolved?_of_mem (h : IsArrangement layout s sections) (hs : s.IsWritable)
    (hfields : (name, fields) ∈ table layout s) {field? : Option Field} (hkey : (key, field?) ∈ fields) :
    (Document.ofSections sections).resolved? name key =
      .ok (field?.map fun field => String.ofList field.text) := by
  obtain ⟨written, -, hsection⟩ := h.lookup_section hfields
  have hname : (Document.ofSections sections).hasSection name = true := by
    rw [Document.hasSection, hsection, Option.isSome_some, Bool.or_true]
  have hvalue := h.value?_of_mem hfields hkey
  cases field? with
  | none =>
    rw [Document.resolved?, if_pos hname, hvalue]
    rfl
  | some field =>
    exact Document.resolved?_of_doubled (hs.given _ hfields _ hkey field rfl) hname hvalue

/-- A key gives the text that was written of it. -/
theorem value?_eq (h : IsArrangement layout s sections) (hs : s.IsWritable)
    (hfields : (name, fields) ∈ table layout s) {text? : Option String}
    (hkey : (key, text?.map valueField) ∈ fields) (path : String) :
    Settings.value? (Document.ofSections sections) path name key = .ok text? := by
  rw [Settings.value?, h.resolved?_of_mem hs hfields hkey]
  cases text? with
  | none => rfl
  | some text =>
    have hplain : IsPlain text.toList := hs.given _ hfields _ hkey _ rfl
    have hgiven : isBlankText text = false := by
      rw [isBlankText, ← Bool.not_eq_true, ← trimChars_eq_nil, hplain.bare.trimChars_eq]
      exact hplain.told
    have htext : String.ofList (valueField text).text = text := String.ofList_toList
    simp only [Option.map_some, htext, hgiven, trim_of_bare hplain.bare]
    rfl

/-- A switch has the state that its word stands for. -/
theorem switch_eq (h : IsArrangement layout s sections) (hs : s.IsWritable) {state : Bool}
    (hfields : (mainSection, fields) ∈ table layout s)
    (hkey : (key, some (valueField (layout.word state))) ∈ fields) (path : String) (otherwise : Bool) :
    switch (Document.ofSections sections) path key otherwise = .ok state := by
  have hvalue : Settings.value? (Document.ofSections sections) path mainSection key =
      .ok (some (layout.word state)) := h.value?_eq hs hfields hkey path
  rw [switch, hvalue]
  simp only [bind, Except.bind, layout.stated state]
  rfl

/-- A list has the items that were written of it. -/
theorem list_eq (h : IsArrangement layout s sections) (hs : s.IsWritable)
    (hfields : (name, fields) ∈ table layout s) {ss : List String}
    (hkey : (key, some (listField ss)) ∈ fields) (hcommas : ∀ s ∈ ss, ',' ∉ s.toList) (path : String) :
    list (Document.ofSections sections) path name key = .ok ss := by
  have hwritable : (listField ss).IsWritable := hs.given _ hfields _ hkey _ rfl
  rw [list_of_resolved? path (h.resolved?_of_mem hs hfields hkey), items_text hwritable hcommas]

end IsArrangement

/-! ## The settings -/

theorem rule_text (hs : s.IsWritable) {r : ExcludeRule} (hr : r ∈ s.excludeRules) :
    rule r.text = .ok r := by
  have hpart : ∀ part ∈ [r.group, r.moduleName], IsPlain part.toList ∧ ':' ∉ part.toList :=
    fun part hpart => ⟨hs.plain part (List.mem_append_right _ (List.mem_flatMap.2 ⟨r, hr, hpart⟩)),
      (hs.parts r hr part hpart).1⟩
  obtain ⟨⟨hgroup, hgroupColon⟩, ⟨hmodule, hmoduleColon⟩, -⟩ := by
    simpa only [List.forall_mem_cons] using hpart
  have hpieces : splitAt ':' r.text = [r.group, r.moduleName] := by
    have htext : r.text.toList = r.group.toList ++ ':' :: r.moduleName.toList := by
      simp [ExcludeRule.text]
    rw [splitAt, htext, piecesAt_append hgroupColon, piecesAt_of_not_mem hmoduleColon]
    simp
  have hgroupGiven : r.group ≠ "" := by simpa using hgroup.told
  have hmoduleGiven : r.moduleName ≠ "" := by simpa using hmodule.told
  rw [rule, ExcludeRule.parse?, trim_of_bare (hs.rule hr).bare, hpieces]
  simp [trim_of_bare hgroup.bare, trim_of_bare hmodule.bare, hgroupGiven, hmoduleGiven]

theorem mapM_rule {rs : List ExcludeRule} (h : ∀ r ∈ rs, rule r.text = .ok r) :
    (rs.map ExcludeRule.text).mapM rule = .ok rs := by
  induction rs with
  | nil => rfl
  | cons r rs ih =>
    obtain ⟨hr, hrs⟩ := List.forall_mem_cons.1 h
    rw [List.map_cons, List.mapM_cons, hr, ih hrs]
    rfl

theorem rules_eq (h : IsArrangement layout s sections) (hs : s.IsWritable) (path : String) :
    rules (Document.ofSections sections) path = .ok s.excludeRules := by
  have hcommas : ∀ text ∈ s.excludeRules.map ExcludeRule.text, ',' ∉ text.toList := by
    intro text htext
    obtain ⟨r, hr, rfl⟩ := List.mem_map.1 htext
    have hpart := hs.parts r hr
    simp [ExcludeRule.text, (hpart r.group (by simp)).2, (hpart r.moduleName (by simp)).2]
  rw [rules, h.list_eq hs (fields_mem_table layout s).2.2 (List.mem_singleton.2 rfl) hcommas]
  exact mapM_rule fun r hr => rule_text hs hr

/-- The document that was written of settings spells them. -/
theorem ofDocument_eq (h : IsArrangement layout s sections) (hs : s.IsWritable) (path : String) :
    ofDocument (Document.ofSections sections) path = .ok s := by
  obtain ⟨hmain, hoptions, -⟩ := fields_mem_table layout s
  have hcommas : ∀ entry ∈ s.bootClasspath, ',' ∉ entry.toList := fun entry hentry =>
    (hs.entries entry hentry).1
  have hoption : ∀ key text?, (key, text?.map valueField) ∈ optionsFields s →
      value? (Document.ofSections sections) path optionsSection key = .ok text? :=
    fun _ _ hkey => h.value?_eq hs hoptions hkey path
  have hvalue : ∀ key text?, (key, text?.map valueField) ∈ mainFields layout s →
      value? (Document.ofSections sections) path mainSection key = .ok text? :=
    fun _ _ hkey => h.value?_eq hs hmain hkey path
  have hswitch : ∀ key state, (key, some (valueField (layout.word state))) ∈ mainFields layout s →
      ∀ otherwise, switch (Document.ofSections sections) path key otherwise = .ok state :=
    fun _ _ hkey => h.switch_eq hs hmain hkey path
  have hboot := h.list_eq hs hmain (show ("bootclasspath", some (listField s.bootClasspath)) ∈ _ by
    simp [mainFields]) hcommas path
  unfold ofDocument
  dsimp only
  rw [hoption "source_compatibility" (some s.compileOptions.source) (by simp [optionsFields]),
    hoption "target_compatibility" (some s.compileOptions.target) (by simp [optionsFields]),
    hoption "encoding" (some s.compileOptions.encoding) (by simp [optionsFields]),
    hswitch "enabled" s.enabled (by simp [mainFields]),
    hswitch "javart_needed" s.runtimeNeeded (by simp [mainFields]),
    hswitch "verbose" s.verbose (by simp [mainFields]), rules_eq h hs path, hboot,
    hvalue "compile_sdk" s.compileSdk (by simp [mainFields]),
    hvalue "android_sdk" s.androidSdk (by simp [mainFields]),
    hvalue "java_home" s.javaHome (by simp [mainFields]),
    hvalue "weaver_version" (some s.weaverVersion) (by simp [mainFields]),
    hvalue "weaver_jar" s.weaverJar (by simp [mainFields]),
    hvalue "java" (some s.java) (by simp [mainFields])]
  rfl

/-- **Settings are loaded as they were written**, whatever the order of the sections and of the keys in
them. -/
theorem load_written (hs : s.IsWritable) (h : IsArrangement layout s sections) {t : FileTree} {p : Path}
    (hread : t.read p = .ok (utf8Bytes (String.ofList (written layout.indent sections)))) :
    load t p = .ok s := by
  have hdecoded := decodeInBlocks_utf8Bytes (String.ofList (written layout.indent sections))
  have hlines := readLines_written layout.isIndent h.nodup_names fun _ hmem => h.isWritable hs hmem
  rw [String.toList_ofList] at hdecoded
  rw [load_of_read (exists?_of_read hread) hread, documentOf_of_text p.text hdecoded, readFrom, hlines]
  exact ofDocument_eq h hs p.text

end

/-- The plain layout. -/
def plainLayout : Layout where
  word state := if state then "true" else "false"
  indent := "    ".toList
  stated := by decide +kernel
  plain := by decide +kernel
  isIndent := ⟨by decide, List.all_eq_true.1 (by decide), by decide⟩

/-- Settings with texts in which other characters of the format stand. -/
def oddSettings : Settings where
  verbose := true
  excludeRules := [⟨"a=b", "[$c]"⟩]
  bootClasspath := ["lib/$a.jar", "d: e"]
  compileSdk := some "#34 ${x}"

/-- Those settings, all backwards. -/
def oddSections : List Section :=
  (table plainLayout oddSettings).reverse.map fun e => (e.1, (present e.2).reverse)

/-- They are loaded as they were. -/
theorem load_written_backwards :
    load ⟨[([], .directory), (["aspectj.ini"],
        .file (utf8Bytes (String.ofList (written plainLayout.indent oddSections))) false)], [], none⟩
      ⟨.root, ["aspectj.ini"]⟩ = .ok oddSettings := by
  have hwritable : oddSettings.IsWritable :=
    ⟨by decide +kernel, by decide +kernel, by decide +kernel, by decide +kernel⟩
  have harranged : IsArrangement plainLayout oddSettings oddSections :=
    ⟨by decide +kernel, by decide +kernel⟩
  have hread : ∀ bytes, FileTree.read ⟨[([], .directory), (["aspectj.ini"], .file bytes false)], [], none⟩
      ⟨.root, ["aspectj.ini"]⟩ = .ok bytes := by
    intro bytes
    cbv
  exact load_written hwritable harranged (hread _)

end Settings

end WeaveStep
