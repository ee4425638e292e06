import WeaveStep.Proofs.Files.PathText
import WeaveStep.Proofs.Weave.Discovery
import WeaveStep.Proofs.Weave.LaunchCondition

/-!
# The lists that the weaver reads

The weaver is told what to weave and what to see in two lists, each joined by colons into one
argument, and cuts them apart again.

* `optionValue?`: how the weaver finds the value of an option among its arguments.
* `IsListOf value entries`: cut apart, the value gives the pieces of the entries, and so the entries
  themselves exactly if no entry holds a colon.
* **`told_entries`**: the two lists are those of the artifacts that are woven, and of what is only
  seen with the runtime library last. An artifact whose path holds a colon is not read as one entry
  (`not_told_entries`).
-/

namespace WeaveStep

open FileTree Text

/-! ## Arguments -/

/-- The option that stands without a value. -/
def flagOption : String := "-showWeaveInfo"

/-- The value of an option among arguments; every option but the flag stands before its value. -/
def optionValue? (option : String) : List String → Option String
  | name :: value :: rest =>
    if name = flagOption then optionValue? option (value :: rest)
    else if name = option then some value
    else optionValue? option rest
  | _ => none

theorem optionValue?_inpath (i : Invocation) : optionValue? "-inpath" i.arguments = some i.inpath := by
  simp [Invocation.arguments, optionValue?, flagOption]

theorem optionValue?_classpath (i : Invocation) : optionValue? "-classpath" i.arguments =
    if i.classpath = "" then none else some i.classpath := by
  by_cases h : i.classpath = "" <;> simp [Invocation.arguments, optionValue?, flagOption, h]

/-! ## Lists of paths -/

/-- Cut apart at colons, the value gives the pieces of the entries, one after the other; these are the
entries exactly if none of them holds a colon. -/
structure IsListOf (value : String) (entries : List String) : Prop where
  pieces : splitAt ':' value = entries.flatMap (splitAt ':')
  entries : splitAt ':' value = entries ↔ ∀ entry ∈ entries, ':' ∉ entry.toList

theorem isListOf_joinPaths {entries : List String} (h : entries ≠ []) :
    IsListOf (joinPaths entries) entries :=
  ⟨splitAt_intercalate ':' h, splitAt_intercalate_iff ':' h⟩

theorem joinPaths_eq_empty_iff {entries : List String} (h : "" ∉ entries) :
    joinPaths entries = "" ↔ entries = [] := by
  cases entries with
  | nil => exact ⟨fun _ => rfl, fun _ => rfl⟩
  | cons entry rest =>
    have hentry : entry ≠ "" := fun heq => h (by simp [heq])
    cases rest <;> simp [joinPaths, String.intercalate_cons_cons, hentry]

/-! ## What is listed -/

/-- What is woven: the artifacts that no rule marks. -/
def wovenEntries (rules : List ExcludeRule) (inputs : List Bundle) : List String :=
  ((discovered inputs).filter fun a => ¬ a.IsMarked rules).map (·.path.text)

/-- What is only seen: the artifacts that are referred to, those that a rule marks, and the runtime
library. -/
def seenEntries (rules : List ExcludeRule) (inputs referenced : List Bundle)
    (library : Option String) : List String :=
  (discovered referenced ++ markedOf rules (discovered inputs)).map (·.path.text) ++ library.toList

theorem seenEntries_ne_nil {rules : List ExcludeRule} {inputs referenced : List Bundle}
    {library : Option String} : seenEntries rules inputs referenced library ≠ [] ↔
      discovered referenced ≠ [] ∨ (∃ a ∈ discovered inputs, a.IsMarked rules) ∨ library ≠ none := by
  have hmarked : markedOf rules (discovered inputs) ≠ [] ↔
      ∃ a ∈ discovered inputs, a.IsMarked rules := by
    simp [markedOf]
  rw [← hmarked, seenEntries]
  cases library <;> simp [Classical.or_iff_not_imp_left]

/-- The runtime library that a weave finds, after earlier outputs are removed. -/
def FindsLibrary (settings : Settings) (root : Path) (version : Option String) (input : WeaveInput)
    (w : World) (library : Option String) : Prop :=
  ∃ cleared announced, clearSlots root w.files = .ok () cleared ∧
    announced = { w with files := cleared }.announced version input.incremental ∧
    neededLibrary settings input.javaClasspath announced = .ok library announced

section

variable {settings : Settings} {root : Path} {version : Option String} {input : WeaveInput}
  {library : Option String} {w : World}

/-- The library is an entry that shows it, or the text of a path. -/
theorem ne_empty_of_runtimeLibrary? {t : FileTree} {entries : List String} {javaHome : Option String}
    {entry : String} (h : runtimeLibrary? t entries javaHome = .ok (some entry)) : entry ≠ "" := by
  unfold runtimeLibrary? at h
  split at h
  · rename_i shown hshown
    cases h
    obtain ⟨-, hoccurs⟩ := List.mem_filter.1 (List.mem_of_getLast? hshown)
    rintro rfl
    revert hoccurs
    decide
  · split at h
    · cases h
    · rename_i home hhome
      have hpath : ∀ s, ((Path.ofString home).child s).text ≠ "" := fun s =>
        Path.text_ne_empty ((Path.isReadable_ofString home).child s)
      obtain ⟨isInner, -, h⟩ := except_bind_eq_ok.1 h
      split at h
      · cases h
        exact hpath _
      · obtain ⟨isOuter, -, h⟩ := except_bind_eq_ok.1 h
        split at h
        · cases h
          exact hpath _
        · cases h

theorem given?_of_neededLibrary {javaClasspath : List String} {w' : World}
    (h : neededLibrary settings javaClasspath w = .ok library w') :
    given? library = library ∧ (settings.runtimeNeeded = false → library = none) := by
  unfold neededLibrary at h
  split at h
  · rename_i hneeded
    obtain ⟨_, _, hget, h⟩ := bind_eq_ok h
    cases hget
    obtain ⟨hfound, -⟩ := Run.ask_eq_ok.1 h
    refine ⟨?_, by simp [hneeded]⟩
    cases library with
    | none => rfl
    | some entry => simp [given?, Option.filter, ne_empty_of_runtimeLibrary? hfound]
  · cases h
    exact ⟨rfl, fun _ => rfl⟩

variable {routing : Routing} {invocation : Invocation} {opened told w' : World}

theorem texts_toWeave {rules : List ExcludeRule} {logger : String} {inputs referenced : List Bundle}
    (h : route root rules logger inputs referenced w = .ok routing w') :
    (routing.toWeave.map (·.path)).map (·.text) = wovenEntries rules inputs := by
  obtain ⟨rfl, -⟩ := route_isOk h
  rw [toWeave_of_verdicts, List.map_map]
  rfl

theorem classpathEntries_of_route {logger : String} {inputs referenced : List Bundle}
    (h : route root settings.excludeRules logger inputs referenced w = .ok routing w')
    (hgiven : given? library = library) (hnone : settings.runtimeNeeded = false → library = none) :
    classpathEntries settings (routing.classpathOnly.map (·.path)) library =
      seenEntries settings.excludeRules inputs referenced library := by
  have hlibrary : (if settings.runtimeNeeded then library.toList else []) = library.toList := by
    cases hneeded : settings.runtimeNeeded with
    | true => rfl
    | false => rw [hnone hneeded]; rfl
  obtain ⟨rfl, -⟩ := route_isOk h
  rw [classpathEntries, classpathOnly_of_verdicts, hgiven, hlibrary, List.map_map]
  rfl

/-- The lists of a prepared invocation. -/
theorem Prepares.lists (h : Prepares settings root version input w routing invocation opened) :
    ∃ library, FindsLibrary settings root version input w library ∧
      invocation.inpath = joinPaths (wovenEntries settings.excludeRules input.inputs) ∧
      invocation.classpath =
        joinPaths (seenEntries settings.excludeRules input.inputs input.referenced library) := by
  cases h with
  | @intro cleared files library verdicts announced copied routed boot output routing enabled clears
      announces finds copies routes sums boots opens =>
    have hroute := route_eq_ok.2 ⟨_, _, copies, routes, rfl⟩
    obtain ⟨hgiven, hnone⟩ := given?_of_neededLibrary finds
    exact ⟨library, ⟨cleared, announced, clears, announces, finds⟩,
      congrArg joinPaths (texts_toWeave hroute),
      congrArg joinPaths (classpathEntries_of_route hroute hgiven hnone)⟩

theorem FindsLibrary.none_of_not_needed (h : FindsLibrary settings root version input w library)
    (hneeded : settings.runtimeNeeded = false) : library = none := by
  obtain ⟨_, _, -, -, hfinds⟩ := h
  exact (given?_of_neededLibrary hfinds).2 hneeded

theorem FindsLibrary.ne_empty (h : FindsLibrary settings root version input w library) :
    "" ∉ library.toList := by
  obtain ⟨_, _, -, -, hfinds⟩ := h
  have hgiven := (given?_of_neededLibrary hfinds).1
  rintro hempty
  rw [Option.mem_toList.1 hempty] at hgiven
  cases hgiven

theorem ne_empty_of_isAbsolute {as : List Artifact} (h : ∀ a ∈ as, a.path.isAbsolute = true) :
    "" ∉ as.map (·.path.text) := by
  intro hempty
  obtain ⟨a, ha, htext⟩ := List.mem_map.1 hempty
  exact Path.text_ne_empty_of_isAbsolute (h a ha) htext

end

/-- **What the weaver reads.** Where the artifacts lie at absolute paths, an invocation that the
weaver is told has one list of what is woven and another of what is only seen, the runtime library
last, if it is needed and there is one; the other list is there exactly if there is anything to list.
Cut apart, each list gives the entries in order, one by one, exactly if no entry holds a colon. -/
theorem told_entries {settings : Settings} {root : Path} {version : Option String} {input : WeaveInput}
    {w : World} {routing : Routing} {invocation : Invocation} {told : World}
    (hinputs : ∀ a ∈ discovered input.inputs, a.path.isAbsolute = true)
    (hreferenced : ∀ a ∈ discovered input.referenced, a.path.isAbsolute = true)
    (h : TellsOnce settings root version input w routing invocation told) :
    ∃ library, FindsLibrary settings root version input w library ∧
      (settings.runtimeNeeded = false → library = none) ∧
      (∃ inpath, optionValue? "-inpath" invocation.arguments = some inpath ∧
        IsListOf inpath (wovenEntries settings.excludeRules input.inputs)) ∧
      ((∃ classpath, optionValue? "-classpath" invocation.arguments = some classpath) ↔
        discovered input.referenced ≠ [] ∨
          (∃ a ∈ discovered input.inputs, a.IsMarked settings.excludeRules) ∨ library ≠ none) ∧
      ∀ classpath, optionValue? "-classpath" invocation.arguments = some classpath →
        IsListOf classpath
          (seenEntries settings.excludeRules input.inputs input.referenced library) := by
  obtain ⟨opened, hprepares, ⟨a, ha, hkept⟩, -⟩ := tellsOnce_iff.1 h
  obtain ⟨library, hfinds, hinpath, hclasspath⟩ := hprepares.lists
  have hempty : "" ∉ seenEntries settings.excludeRules input.inputs input.referenced library := by
    unfold seenEntries
    rw [List.mem_append, not_or]
    refine ⟨ne_empty_of_isAbsolute fun a ha => ?_, hfinds.ne_empty⟩
    rcases List.mem_append.1 ha with ha | ha
    · exact hreferenced a ha
    · exact hinputs a (List.mem_filter.1 ha).1
  have hnone : invocation.classpath = "" ↔
      seenEntries settings.excludeRules input.inputs input.referenced library = [] := by
    rw [hclasspath, joinPaths_eq_empty_iff hempty]
  refine ⟨library, hfinds, hfinds.none_of_not_needed, ⟨_, optionValue?_inpath _, ?_⟩, ?_, ?_⟩
  · rw [hinpath]
    apply isListOf_joinPaths
    apply List.ne_nil_of_mem (a := a.path.text)
    refine List.mem_map.2 ⟨a, List.mem_filter.2 ⟨ha, ?_⟩, rfl⟩
    simpa [← isExcluded_iff] using hkept
  · rw [optionValue?_classpath, ← seenEntries_ne_nil, ne_eq, ← hnone]
    by_cases hvalue : invocation.classpath = "" <;> simp [hvalue]
  · intro classpath hvalue
    rw [optionValue?_classpath] at hvalue
    split at hvalue
    · cases hvalue
    · rename_i hsome
      cases hvalue
      rw [hclasspath]
      exact isListOf_joinPaths (hnone.not.1 hsome)

/-! ## One artifact -/

/-- The archive of that name. -/
def archiveAt (name : String) : Artifact := ⟨⟨.root, [name]⟩, name, .archive⟩

/-- One artifact to be woven, where the runtime library is on the class path of the compiler. -/
def oneWoven (a : Artifact) (referenced : List Bundle) : WeaveInput where
  inputs := [⟨[], [a]⟩]
  referenced
  javaClasspath := ["/jdk/jre/lib/rt.jar"]

theorem tellsOnce_oneWoven (a : Artifact) (referenced : List Bundle) : ∃ routing invocation told,
    TellsOnce { runtimeNeeded := true } rootBeside none (oneWoven a referenced)
      { files := filesBeside } routing invocation told := by
  have hclear : clearSlots rootBeside filesBeside = .ok () filesBeside := by cbv
  have hopen : ∃ files, openSlot rootBeside mainSlot filesBeside =
      .ok (slotPath rootBeside mainSlot) files := by
    rw [openSlot_mainSlot]
    exact ⟨_, bind_ok openSlot_beside⟩
  obtain ⟨files, hopen⟩ := hopen
  have hprepares : ∃ routing invocation opened, Prepares { runtimeNeeded := true } rootBeside none
      (oneWoven a referenced) { files := filesBeside } routing invocation opened :=
    ⟨_, _, _, .intro rfl hclear rfl rfl (.kept rfl .nil) rfl rfl rfl hopen⟩
  obtain ⟨_, _, _, hprepares⟩ := hprepares
  exact ⟨_, _, _, hprepares.tellsOnce ⟨a, List.mem_singleton_self a, rfl⟩⟩

theorem library_of_oneWoven {a : Artifact} {referenced : List Bundle} {library : Option String}
    (h : FindsLibrary { runtimeNeeded := true } rootBeside none (oneWoven a referenced)
      { files := filesBeside } library) : library = some "/jdk/jre/lib/rt.jar" := by
  obtain ⟨_, announced, -, -, hfinds⟩ := h
  have hfound : neededLibrary { runtimeNeeded := true } (oneWoven a referenced).javaClasspath
      announced = .ok (some "/jdk/jre/lib/rt.jar") announced := rfl
  rw [hfound] at hfinds
  cases hfinds
  rfl

/-- One archive is woven and another is referred to. -/
theorem told_entries_of_archives : ∃ routing invocation told inpath classpath,
    TellsOnce { runtimeNeeded := true } rootBeside none
      (oneWoven (archiveAt "a.jar") [⟨[], [archiveAt "b.jar"]⟩]) { files := filesBeside }
      routing invocation told ∧
    optionValue? "-inpath" invocation.arguments = some inpath ∧ splitAt ':' inpath = ["/a.jar"] ∧
    optionValue? "-classpath" invocation.arguments = some classpath ∧
    splitAt ':' classpath = ["/b.jar", "/jdk/jre/lib/rt.jar"] := by
  obtain ⟨routing, invocation, told, htells⟩ :=
    tellsOnce_oneWoven (archiveAt "a.jar") [⟨[], [archiveAt "b.jar"]⟩]
  obtain ⟨library, hfinds, -, ⟨inpath, hinpath, hwoven⟩, hpresent, hlisted⟩ :=
    told_entries (by decide) (by decide) htells
  obtain rfl := library_of_oneWoven hfinds
  obtain ⟨classpath, hvalue⟩ := hpresent.2 (.inr (.inr (by decide)))
  exact ⟨routing, invocation, told, inpath, classpath, htells, hinpath,
    hwoven.entries.2 (by decide), hvalue, (hlisted classpath hvalue).entries.2 (by decide)⟩

/-- An artifact whose path holds a colon is read as two entries. -/
theorem not_told_entries :
    ¬ ∀ (settings : Settings) (root : Path) (version : Option String) (input : WeaveInput) (w : World)
      (routing : Routing) (invocation : Invocation) (told : World),
      (∀ a ∈ discovered input.inputs, a.path.isAbsolute = true) →
      TellsOnce settings root version input w routing invocation told →
      ∃ inpath, optionValue? "-inpath" invocation.arguments = some inpath ∧
        splitAt ':' inpath = wovenEntries settings.excludeRules input.inputs := by
  intro h
  obtain ⟨routing, invocation, told, htells⟩ :=
    tellsOnce_oneWoven (archiveAt "a:b.jar") []
  obtain ⟨inpath, -, hentries⟩ := h _ _ _ _ _ _ _ _ (by decide) htells
  have hone : wovenEntries [] [⟨[], [archiveAt "a:b.jar"]⟩] = ["/a:b.jar"] := by decide
  have hcolon : "/a:b.jar" ∈ splitAt ':' inpath := by
    rw [hentries]
    exact hone ▸ List.mem_singleton_self _
  exact not_mem_of_mem_splitAt hcolon (by decide)

end WeaveStep
