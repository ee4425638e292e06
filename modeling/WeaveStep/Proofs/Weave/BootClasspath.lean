import Mathlib
import WeaveStep.Proofs.Ini.Listed
import WeaveStep.Proofs.Ini.Reference
import WeaveStep.Proofs.Settings.Items
import WeaveStep.Proofs.Settings.Load
import WeaveStep.Proofs.Weave.Entries

/-!
# Listed boot class paths

A boot class path is listed below its key, one entry in each line, whatever else the settings file says.
Then loading gives its entries in order, each cut at its commas (**`load_listed`**), and a weave goes by
what was loaded, up to the option of the weaver (`goesBy_bootClasspath`).

A load goes through all settings in turn, so that it can fail at another one. `EndsUnlessElsewhere` is
the way around that: what the load ends with, unless another setting fails (`ofDocument_of_list`).
-/

namespace WeaveStep

open Ini Text

namespace Settings

/-! ## What else can fail -/

/-- The keys of the settings that are looked up as they are, but for the boot class path. -/
def plainKeys : List (String × String) :=
  [(optionsSection, "source_compatibility"), (optionsSection, "target_compatibility"),
    (optionsSection, "encoding"), (mainSection, "compile_sdk"), (mainSection, "android_sdk"),
    (mainSection, "java_home"), (mainSection, "weaver_version"), (mainSection, "weaver_jar"),
    (mainSection, "java")]

/-- The keys of the settings that are switches. -/
def switchKeys : List String := ["enabled", "javart_needed", "verbose"]

/-- What fails is another setting than the boot class path. -/
inductive FailsElsewhere (d : Document) (path : String) (why : LoadFailure) : Prop
  | plain {name key : String} (other : (name, key) ∈ plainKeys)
      (fails : value? d path name key = .error why)
  | switch {key : String} {otherwise : Bool} (other : key ∈ switchKeys)
      (fails : switch d path key otherwise = .error why)
  | rules (fails : rules d path = .error why)

/-- It ends with a value of which `P` holds, or another setting than the boot class path fails. -/
def EndsUnlessElsewhere {α : Type} (d : Document) (path : String) (P : α → Prop)
    (x : Except LoadFailure α) : Prop :=
  (∃ a, x = .ok a ∧ P a) ∨ ∃ why, x = .error why ∧ FailsElsewhere d path why

section

variable {α β : Type} {d : Document} {path : String} {P : α → Prop} {Q : β → Prop}

theorem EndsUnlessElsewhere.bind {x : Except LoadFailure α} {f : α → Except LoadFailure β}
    (hx : EndsUnlessElsewhere d path P x) (hf : ∀ a, P a → EndsUnlessElsewhere d path Q (f a)) :
    EndsUnlessElsewhere d path Q (x >>= f) := by
  obtain ⟨a, rfl, ha⟩ | ⟨why, rfl, hwhy⟩ := hx
  · exact hf a ha
  · exact .inr ⟨why, rfl, hwhy⟩

theorem EndsUnlessElsewhere.of_fails {x : Except LoadFailure α}
    (h : ∀ why, x = .error why → FailsElsewhere d path why) :
    EndsUnlessElsewhere d path (fun _ => True) x := by
  cases x with
  | ok a => exact .inl ⟨a, rfl, trivial⟩
  | error why => exact .inr ⟨why, rfl, h why rfl⟩

/-- A load ends with the boot class path that is listed, unless another setting fails. -/
theorem ofDocument_of_list {boot : List String}
    (hboot : list d path mainSection "bootclasspath" = .ok boot) :
    EndsUnlessElsewhere d path (·.bootClasspath = boot) (ofDocument d path) := by
  have hplain : ∀ name key, (name, key) ∈ plainKeys →
      EndsUnlessElsewhere d path (fun _ => True) (value? d path name key) :=
    fun _ _ hother => .of_fails fun _ hfails => .plain hother hfails
  -- a setting with a default
  have hoption : ∀ name key otherwise, (name, key) ∈ plainKeys →
      EndsUnlessElsewhere d path (fun _ => True)
        ((·.getD otherwise) <$> value? d path name key : Except LoadFailure String) := by
    intro name key otherwise hother
    refine .of_fails fun why hfails => .plain hother ?_
    cases hvalue : value? d path name key with
    | ok s =>
      rw [hvalue] at hfails
      cases hfails
    | error e =>
      rw [hvalue] at hfails
      cases hfails
      rfl
  have hswitch : ∀ key otherwise, key ∈ switchKeys →
      EndsUnlessElsewhere d path (fun _ => True) (switch d path key otherwise) :=
    fun _ _ hother => .of_fails fun _ hfails => .switch hother hfails
  unfold ofDocument
  -- in the order in which they are looked up
  refine (hoption _ _ _ (by decide)).bind fun source _ => ?_
  refine (hoption _ _ _ (by decide)).bind fun target _ => ?_
  refine (hoption _ _ _ (by decide)).bind fun encoding _ => ?_
  refine (hswitch _ _ (by decide)).bind fun enabled _ => ?_
  refine (hswitch _ _ (by decide)).bind fun runtimeNeeded _ => ?_
  refine (hswitch _ _ (by decide)).bind fun verbose _ => ?_
  refine EndsUnlessElsewhere.bind (.of_fails fun _ => .rules) fun excludeRules _ => ?_
  rw [hboot]
  refine EndsUnlessElsewhere.bind (P := (· = boot)) (.inl ⟨boot, rfl, rfl⟩) fun _ hsame => ?_
  refine (hplain _ _ (by decide)).bind fun compileSdk _ => ?_
  refine (hplain _ _ (by decide)).bind fun androidSdk _ => ?_
  refine (hplain _ _ (by decide)).bind fun javaHome _ => ?_
  refine (hoption _ _ _ (by decide)).bind fun weaverVersion _ => ?_
  refine (hplain _ _ (by decide)).bind fun weaverJar _ => ?_
  exact (hoption _ _ _ (by decide)).bind fun java _ => .inl ⟨_, rfl, hsame⟩

/-- Keys that are missing do not fail. -/
theorem not_failsElsewhere
    (hmissing : ∀ k ∈ plainKeys ++ switchKeys.map (mainSection, ·) ++ [(excludeSection, "rules")],
      d.value? k.1 k.2 = none) (why : LoadFailure) : ¬ FailsElsewhere d path why := by
  have hvalue : ∀ name key, d.value? name key = none → value? d path name key = .ok none := by
    intro name key hnone
    rw [value?, Document.resolved?, hnone, ite_self]
  rintro (⟨hother, hfails⟩ | ⟨hother, hfails⟩ | hfails)
  · rw [hvalue _ _ (hmissing (_, _) (by simp [hother]))] at hfails
    cases hfails
  · rw [Settings.switch, hvalue _ _ (hmissing (_, _) (by simp [hother]))] at hfails
    cases hfails
  · rw [Settings.rules, list, hvalue _ _ (hmissing (_, _) (by simp))] at hfails
    cases hfails

end

end Settings

/-! ## What comes of a boot class path -/

theorem optionValue?_bootclasspath (i : Invocation) :
    optionValue? "-bootclasspath" i.arguments = some i.bootClasspath := by
  simp [Invocation.arguments, optionValue?, flagOption]

/-- The settings hold this boot class path, and a weave goes by it: it is what the weaver is told. An empty
one leaves it to the platform. -/
structure GoesBy (settings : Settings) (boot : List String) : Prop where
  held : settings.bootClasspath = boot
  resolved : (boot = [] → given? settings.compileSdk = none) →
    ∀ t environment, bootClasspath t settings environment = .ok boot
  told : (boot = [] → given? settings.compileSdk = none) →
    ∀ {root version input w routing invocation opened},
      Prepares settings root version input w routing invocation opened →
      optionValue? "-bootclasspath" invocation.arguments = some (joinPaths boot)

theorem bootClasspath_eq {settings : Settings}
    (h : settings.bootClasspath = [] → given? settings.compileSdk = none) (t : FileTree)
    (environment : Environment) :
    bootClasspath t settings environment = .ok settings.bootClasspath := by
  unfold bootClasspath
  split
  · rfl
  · rename_i hnone
    have hempty : settings.bootClasspath = [] := not_not.1 hnone
    rw [h hempty, hempty]

theorem goesBy_bootClasspath (settings : Settings) : GoesBy settings settings.bootClasspath where
  held := rfl
  resolved := bootClasspath_eq
  told := by
    intro hplatform _ _ _ _ _ invocation _ h
    rw [optionValue?_bootclasspath]
    cases h with
    | intro enabled clears announces finds copies routes sums boots opens =>
      rw [bootClasspath_eq hplatform] at boots
      cases boots
      rfl

/-! ## Settings that are nothing but a boot class path -/

namespace Settings

/-- A project with this settings file. -/
def projectWith (bytes : List UInt8) : FileTree :=
  ⟨[([], .directory), (["aspectj.ini"], .file bytes false)], [], none⟩

/-- Where it is. -/
def projectSettings : Path := ⟨.root, ["aspectj.ini"]⟩

theorem read_projectWith (bytes : List UInt8) : (projectWith bytes).read projectSettings = .ok bytes := by
  cbv

/-- The document that says only this. -/
def onlyBoot (value : String) : Document := ⟨[("aspectj", [("bootclasspath", some value)])]⟩

theorem value?_onlyBoot (value : String) :
    (onlyBoot value).value? mainSection "bootclasspath" = some (some value) ∧
    ∀ k ∈ plainKeys ++ switchKeys.map (mainSection, ·) ++ [(excludeSection, "rules")],
      (onlyBoot value).value? k.1 k.2 = none := by
  simp [onlyBoot, Document.value?, Document.entries, plainKeys, switchKeys, mainSection, optionsSection,
    excludeSection, defaultSection, List.lookup]

theorem endsWithKey_onlyBoot :
    EndsWithKey mainSection "bootclasspath" ["[aspectj]\n".toList, "bootclasspath =\n".toList] := by
  have hkeyLine : IsKeyLine "bootclasspath" "bootclasspath =\n".toList := ⟨by decide, by decide⟩
  have hread : ({} : Reading).lines 1 ["[aspectj]\n".toList] =
      .ok { sections := [("aspectj", [])], open? := some "aspectj" } := by rfl
  exact .intro hread rfl hkeyLine

/-- Settings that are nothing but a boot class path are loaded. -/
theorem load_onlyBoot {text : List Char} {value : String} (hvalue : '$' ∉ value.toList)
    (hreads : Ini.readLines (readFrom text) = .ok (onlyBoot value)) :
    ∃ s, load (projectWith (utf8Bytes (String.ofList text))) projectSettings = .ok s ∧
      s.bootClasspath = items value := by
  obtain ⟨hboot, hmissing⟩ := value?_onlyBoot value
  have hsection : (onlyBoot value).hasSection mainSection = true := by
    simp [Document.hasSection, onlyBoot, mainSection]
  have hlist : list (onlyBoot value) projectSettings.text mainSection "bootclasspath" =
      .ok (items value) :=
    list_of_resolved? _ (Document.resolved?_of_not_mem hsection hboot hvalue)
  rw [load_of_document (read_projectWith _) hreads]
  obtain hloaded | ⟨why, -, hfails⟩ := ofDocument_of_list hlist
  · exact hloaded
  · exact absurd hfails (not_failsElsewhere hmissing why)

/-! ## Listed entries -/

/-- What can be listed as an entry of the boot class path. -/
structure IsEntry (entry : String) : Prop where
  plain : IsPlain entry.toList
  noReference : '$' ∉ entry.toList
  noComment : isComment entry.toList = false

instance (entry : String) : Decidable (IsEntry entry) :=
  decidable_of_iff (IsPlain entry.toList ∧ '$' ∉ entry.toList ∧ isComment entry.toList = false)
    ⟨fun h => ⟨h.1, h.2.1, h.2.2⟩, fun h => ⟨h.1, h.2, h.3⟩⟩

theorem flatMap_itemsIn_filter (told : List (List Char)) :
    (told.flatMap fun l => itemsIn (String.ofList l)) =
      (told.filter (!·.isEmpty)).flatMap fun l => itemsIn (String.ofList l) := by
  have hempty : itemsIn (String.ofList []) = [] := by decide
  induction told with
  | nil => rfl
  | cons l told ih =>
    cases l with
    | nil => rw [List.flatMap_cons, hempty, List.nil_append, ih]; rfl
    | cons c l => rw [List.flatMap_cons, ih]; rfl

/-- Entries that were read line by line are the list, but for commas. -/
theorem list_of_told {d : Document} {entries : List String} {told : List (List Char)}
    (hsection : d.hasSection mainSection = true)
    (hfilter : told.filter (!·.isEmpty) = entries.map String.toList)
    (hvalue : d.value? mainSection "bootclasspath" = some (some (Reading.joined ([] :: told))))
    (hentries : ∀ entry ∈ entries, IsEntry entry) (path : String) :
    list d path mainSection "bootclasspath" = .ok (entries.flatMap itemsIn) := by
  have hlines : ∀ l ∈ told, '\n' ∉ l ∧ '$' ∉ l := by
    intro l hl
    by_cases hempty : l = []
    · simp [hempty]
    · have hmem : l ∈ entries.map String.toList :=
        hfilter ▸ List.mem_filter.2 ⟨hl, by simpa using hempty⟩
      obtain ⟨entry, hentry, rfl⟩ := List.mem_map.1 hmem
      exact ⟨(hentries entry hentry).plain.single.noFeed, (hentries entry hentry).noReference⟩
  have hjoined : Reading.joined ([] :: told) =
      trimRight (String.ofList (told.flatMap ('\n' :: ·))) := by
    have htext : ['\n'].intercalate ([] :: told) = told.flatMap ('\n' :: ·) :=
      Field.intercalate_told (.items told)
    rw [Reading.joined, htext, trimRight, String.toList_ofList]
  have hreference : '$' ∉ (Reading.joined ([] :: told)).toList := by
    intro hmem
    rw [hjoined] at hmem
    have hmem := mem_of_mem_trimRight hmem
    rw [String.toList_ofList] at hmem
    obtain ⟨l, hl, hc⟩ := List.mem_flatMap.1 hmem
    exact (hlines l hl).2 ((List.mem_cons.1 hc).resolve_left (by decide))
  rw [list_of_resolved? path (Document.resolved?_of_not_mem hsection hvalue hreference), hjoined,
    items_trimRight, items_lines fun l hl => (hlines l hl).1, flatMap_itemsIn_filter, hfilter,
    List.flatMap_map]
  simp only [String.ofList_toList]

/-- **What is listed below the key is the boot class path, each entry cut at its commas**, and a weave goes
by it, unless the rest of the file spells no document or another setting fails. It is the entries as they
are exactly if none of them holds a comma. -/
theorem load_listed {t : FileTree} {p : Path} {text : List Char} {front below rest : List (List Char)}
    {entries : List String} (hread : t.read p = .ok (utf8Bytes (String.ofList text)))
    (hlines : readFrom text = front ++ below ++ rest)
    (hfront : EndsWithKey mainSection "bootclasspath" front)
    (hbelow : Below below (entries.map String.toList)) (hrest : BeginsAtFront rest)
    (hentries : ∀ entry ∈ entries, IsEntry entry) :
    ((∃ s, load t p = .ok s ∧ GoesBy s (entries.flatMap itemsIn)) ∨
      ∃ why, load t p = .error why ∧ ((¬ ∃ d, Ini.readLines (front ++ rest) = .ok d) ∨
        ∃ d, Ini.readLines (readFrom text) = .ok d ∧ FailsElsewhere d p.text why)) ∧
    (entries.flatMap itemsIn = entries ↔ ∀ entry ∈ entries, ',' ∉ entry.toList) := by
  have htexts : ∀ text ∈ entries.map String.toList, text ≠ [] ∧ isComment text = false := by
    intro text htext
    obtain ⟨entry, hentry, rfl⟩ := List.mem_map.1 htext
    exact ⟨(hentries entry hentry).plain.told, (hentries entry hentry).noComment⟩
  obtain ⟨hreads, hlisted⟩ := readLines_listed
    (isKey_of_letters (by decide) (by decide)) hfront hbelow htexts hrest
  rw [← hlines] at hreads hlisted
  have hload := load_of_text hread
  refine ⟨?_, flatMap_itemsIn_iff (fun entry hentry => ?_)
    fun entry hentry => (hentries entry hentry).plain.bare⟩
  · cases hd : Ini.readLines (readFrom text) with
    | error stop =>
      rw [hd] at hload hreads
      exact .inr ⟨_, hload, .inl fun h => by simpa using hreads.2 h⟩
    | ok d =>
      rw [hd] at hload
      obtain ⟨hsection, told, hfilter, hvalue⟩ := hlisted d hd
      obtain ⟨s, hs, hheld⟩ | ⟨why, hfails, hwhy⟩ :=
        ofDocument_of_list (list_of_told hsection hfilter hvalue hentries p.text)
      · exact .inl ⟨s, hload.trans hs, hheld ▸ goesBy_bootClasspath s⟩
      · exact .inr ⟨why, hload.trans hfails, .inr ⟨d, rfl, hwhy⟩⟩
  · simpa using (hentries entry hentry).plain.told

/-- Entries in which other characters of the format stand, with a blank line and a comment between them. -/
def oddlyListed : List Char := "[aspectj]\nbootclasspath =\n  /a b.jar\n\n ;\n\t[c]=D:.jar".toList

/-- These entries are loaded as they are. -/
theorem load_listed_oddly : ∃ s,
    load (projectWith (utf8Bytes (String.ofList oddlyListed))) projectSettings = .ok s ∧
    GoesBy s ["/a b.jar", "[c]=D:.jar"] := by
  have hreads : Ini.readLines (readFrom oddlyListed) = .ok (onlyBoot "\n/a b.jar\n\n[c]=D:.jar") := by cbv
  have hbelow : Below ["  /a b.jar\n".toList, "\n".toList, " ;\n".toList, "\t[c]=D:.jar".toList]
      (["/a b.jar", "[c]=D:.jar"].map String.toList) :=
    .item (by decide) (by decide) <| .aside (by decide) <| .aside (by decide) <|
      .item (by decide) (by decide) .nil
  obtain ⟨s, hloaded, -⟩ := load_onlyBoot (by decide) hreads
  obtain ⟨⟨s', hloaded', hgoes⟩ | ⟨why, hfails, -⟩, hentries⟩ :=
    load_listed (read_projectWith (utf8Bytes (String.ofList oddlyListed))) (by rfl)
      endsWithKey_onlyBoot hbelow beginsAtFront_nil (by decide)
  · rw [hentries.2 (by decide)] at hgoes
    exact ⟨s', hloaded', hgoes⟩
  · rw [hloaded] at hfails
    cases hfails

/-- An entry that holds a comma. -/
def commaListed : List Char := "[aspectj]\nbootclasspath =\n /a,b.jar\n".toList

/-- It is loaded as two. -/
theorem not_load_listed :
    ¬ ∀ (t : FileTree) (p : Path) (text : List Char) (front below rest : List (List Char))
      (entries : List String) (s : Settings), t.read p = .ok (utf8Bytes (String.ofList text)) →
      readFrom text = front ++ below ++ rest → EndsWithKey mainSection "bootclasspath" front →
      Below below (entries.map String.toList) → BeginsAtFront rest →
      (∀ entry ∈ entries, IsEntry entry) → load t p = .ok s → s.bootClasspath = entries := by
  intro h
  have hreads : Ini.readLines (readFrom commaListed) = .ok (onlyBoot "\n/a,b.jar") := by cbv
  obtain ⟨s, hloaded, hboot⟩ := load_onlyBoot (by decide) hreads
  have hbelow : Below [" /a,b.jar\n".toList] (["/a,b.jar"].map String.toList) :=
    .item (by decide) (by decide) .nil
  have hentries : s.bootClasspath = ["/a,b.jar"] :=
    h _ _ commaListed _ _ _ _ s (read_projectWith _) (by rfl) endsWithKey_onlyBoot hbelow
      beginsAtFront_nil (by decide) hloaded
  rw [hboot] at hentries
  revert hentries
  decide

end Settings

end WeaveStep
