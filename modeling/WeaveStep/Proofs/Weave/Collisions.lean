import WeaveStep.Proofs.Files.PathText
import WeaveStep.Proofs.Lists
import WeaveStep.Proofs.Weave.Discovery
import WeaveStep.Weave.Step

/-!
# Slots do not collide

The path of a slot says what the slot is for, as long as digests tell the texts apart that they are
made of (`Digest.TellsApart`).

* `OpensAt root key p`: opening a slot gives the path `p`.
* `slotPath_eq_iff`: slots at one path are slots for the same.
* **`slots_told_apart`**: this, and what it says of the slots of the excluded artifacts and of the
  slot of the woven classes.
-/

namespace WeaveStep

open Text

/-! ## Keys of names -/

/-- The text whose digest is the key of names. -/
def keyText (names : List String) : String := ",".intercalate (names.mergeSort (fun a b => a ≤ b))

/-- Names that stand between commas. -/
def ArePlain (names : List String) : Prop := ∀ name ∈ names, name ≠ "" ∧ ',' ∉ name.toList

/-- The text says which names there are, in whichever order they are told. -/
theorem keyText_eq_iff {names names' : List String} (h : ArePlain names) (h' : ArePlain names') :
    keyText names = keyText names' ↔ names.Perm names' := by
  have hread : ∀ {names : List String}, ArePlain names →
      (splitAt ',' (keyText names)).filter (· ≠ "") = names.mergeSort (fun a b => a ≤ b) := by
    intro names h
    refine filter_splitAt_intercalate ',' (by simp) fun name hname => ?_
    obtain ⟨hne, hcomma⟩ := h name ((List.mergeSort_perm _ _).mem_iff.1 hname)
    exact ⟨by simpa using hne, hcomma⟩
  constructor
  · intro heq
    have hsorted := hread h
    rw [heq, hread h'] at hsorted
    exact (List.mergeSort_perm names _).symm.trans (hsorted ▸ List.mergeSort_perm names' _)
  · intro hperm
    rw [keyText, mergeSort_eq (hperm.trans (List.mergeSort_perm names' _).symm)
      (pairwise_mergeSort names'), keyText]

/-- So does the key, where no other text has the same digest. -/
theorem nameKey_eq_iff {names names' : List String} (h : ArePlain names) (h' : ArePlain names')
    (hdigest : Digest.shortOf (keyText names) = Digest.shortOf (keyText names') →
      keyText names = keyText names') :
    nameKey names = nameKey names' ↔ names.Perm names' := by
  rw [← keyText_eq_iff h h']
  exact ⟨hdigest, congrArg Digest.shortOf⟩

theorem ContentType.name_injective : Function.Injective ContentType.name := by
  intro a b _
  cases a
  cases b
  rfl

theorem Scope.name_injective : Function.Injective Scope.name := by
  intro a b
  cases a <;> cases b <;> decide

theorem arePlain_types (types : List ContentType) : ArePlain (types.map (·.name)) := by
  intro name hname
  obtain ⟨type, -, rfl⟩ := List.mem_map.1 hname
  cases type
  decide

theorem arePlain_scopes (scopes : List Scope) : ArePlain (scopes.map (·.name)) := by
  intro name hname
  obtain ⟨scope, -, rfl⟩ := List.mem_map.1 hname
  cases scope <;> decide

/-- No two of these texts have the same digest. -/
def Digest.TellsApart (texts : List String) : Prop :=
  ∀ s ∈ texts, ∀ s' ∈ texts, shortOf s = shortOf s' → s = s'

theorem Digest.tellsApart_pair {s s' : String} (h : shortOf s ≠ shortOf s') :
    TellsApart [s, s'] := by
  intro x hx y hy heq
  rcases List.mem_pair.1 hx with rfl | rfl <;> rcases List.mem_pair.1 hy with rfl | rfl
  · rfl
  · exact absurd heq h
  · exact absurd heq.symm h
  · rfl

/-! ## Paths of slots -/

namespace SlotKey

/-- The texts whose digests the path of a slot holds. -/
def keyTexts (key : SlotKey) : List String :=
  [keyText (key.types.map (·.name)), keyText (key.scopes.map (·.name))]

/-- The last name on the path of a slot. -/
def lastName (key : SlotKey) : String :=
  match key.format with
  | .folder => key.name
  | .jar => key.name ++ ".jar"

/-- The slot is named by one name of an entry, and no type or scope is told twice. -/
structure IsProper (key : SlotKey) : Prop where
  name : IsPlainName key.name
  types : key.types.Nodup
  scopes : key.scopes.Nodup

end SlotKey

section

variable {root : Path} {key key' : SlotKey}

theorem isPlainName_lastName (h : IsPlainName key.name) : IsPlainName key.lastName := by
  unfold SlotKey.lastName
  split
  · exact h
  · have hletter : 'j' ∈ (key.name ++ ".jar").toList := by simp
    refine ⟨⟨?_, ?_, ?_⟩, by simp [h.noSlash]⟩ <;> intro heq <;> rw [heq] at hletter <;>
      simp at hletter

theorem slotPath_eq (h : IsPlainName key.name) :
    slotPath root key = ⟨root.anchor, root.parts ++ (key.above ++ [key.lastName])⟩ := by
  have hlast : slotPath root key = (slotBase root key).child key.lastName := by
    unfold slotPath SlotKey.lastName
    cases key.format <;> rfl
  rw [hlast, (isPlainName_lastName h).child, slotBase_eq, Path.entry, List.append_assoc]

theorem length_slotPath (h : IsPlainName key.name) :
    (slotPath root key).parts.length = root.parts.length + 4 := by
  simp [slotPath_eq h, SlotKey.above]

theorem slotPath_eq_iff_keys (h : IsPlainName key.name) (h' : IsPlainName key'.name) :
    slotPath root key = slotPath root key' ↔ key.name = key'.name ∧ key.format = key'.format ∧
      nameKey (key.types.map (·.name)) = nameKey (key'.types.map (·.name)) ∧
      nameKey (key.scopes.map (·.name)) = nameKey (key'.scopes.map (·.name)) := by
  have hfolder : key.format.folderName = key'.format.folderName ↔ key.format = key'.format := by
    cases key.format <;> cases key'.format <;> decide
  rw [slotPath_eq h, slotPath_eq h', Path.mk.injEq]
  simp only [true_and, List.append_cancel_left_eq, SlotKey.above, List.cons_append, List.nil_append,
    List.cons.injEq, and_true, hfolder]
  constructor
  · rintro ⟨hformat, htypes, hscopes, hlast⟩
    refine ⟨?_, hformat, htypes, hscopes⟩
    unfold SlotKey.lastName at hlast
    rw [hformat] at hlast
    cases hkey : key'.format <;> simpa [hkey] using hlast
  · rintro ⟨hname, hformat, htypes, hscopes⟩
    exact ⟨hformat, htypes, hscopes, by rw [SlotKey.lastName, SlotKey.lastName, hname, hformat]⟩

/-- Slots at one path are slots for the same. -/
theorem slotPath_eq_iff (h : IsPlainName key.name) (h' : IsPlainName key'.name)
    (hdigests : Digest.TellsApart (key.keyTexts ++ key'.keyTexts)) :
    slotPath root key = slotPath root key' ↔ key.name = key'.name ∧ key.format = key'.format ∧
      key.types.Perm key'.types ∧ key.scopes.Perm key'.scopes := by
  have htypes : nameKey (key.types.map (·.name)) = nameKey (key'.types.map (·.name)) ↔
      key.types.Perm key'.types :=
    (nameKey_eq_iff (arePlain_types _) (arePlain_types _)
      (hdigests _ (by simp [SlotKey.keyTexts]) _ (by simp [SlotKey.keyTexts]))).trans
      (List.map_perm_map_iff ContentType.name_injective)
  have hscopes : nameKey (key.scopes.map (·.name)) = nameKey (key'.scopes.map (·.name)) ↔
      key.scopes.Perm key'.scopes :=
    (nameKey_eq_iff (arePlain_scopes _) (arePlain_scopes _)
      (hdigests _ (by simp [SlotKey.keyTexts]) _ (by simp [SlotKey.keyTexts]))).trans
      (List.map_perm_map_iff Scope.name_injective)
  rw [slotPath_eq_iff_keys h h', htypes, hscopes]

/-- No slot lies inside another. -/
theorem slotPath_not_mem_ancestors (h : IsPlainName key.name) (h' : IsPlainName key'.name) :
    slotPath root key' ∉ (slotPath root key).ancestors := by
  intro hmem
  have hlt := Path.length_lt_of_mem_ancestors hmem
  rw [length_slotPath h, length_slotPath h'] at hlt
  omega

end

/-! ## Slots that are opened -/

/-- Opening the slot gives the path `p`, in files in which that goes well. -/
def OpensAt (root : Path) (key : SlotKey) (p : Path) : Prop :=
  ∃ t t', openSlot root key t = .ok p t'

theorem OpensAt.eq {root p : Path} {key : SlotKey} (h : OpensAt root key p) :
    p = slotPath root key := by
  obtain ⟨t, t', hopen⟩ := h
  exact slot_of_openSlot hopen

section

variable {root : Path} {rules : List ExcludeRule} {logger : String} {a b : Artifact}
  {as : List Artifact} {w w' : World} {made : FileTree} {inputs : List Bundle}

theorem opensAt_of_copiesInTurn (h : CopiesInTurn root logger w as w') (ha : a ∈ as) :
    OpensAt root a.slotKey (slotPath root a.slotKey) := by
  induction h with
  | nil => cases ha
  | @cons w _ b _ slot _ hcopy _ ih =>
    rcases List.mem_cons.1 ha with rfl | ha
    · obtain ⟨opened, files, hopen, -⟩ := bind_eq_ok hcopy
      rw [slot_of_openSlot hopen] at hopen
      exact ⟨_, _, hopen⟩
    · exact ih ha

/-- The name of a slot ends in the digest of its artifact's path. -/
theorem digest_eq_of_slotTitle (h : a.slotTitle = b.slotTitle) :
    Digest.shortOf a.path.text = Digest.shortOf b.path.text := by
  have hchars := congrArg String.toList h
  simp only [Artifact.slotTitle, String.toList_append] at hchars
  apply String.toList_inj.1
  apply List.append_inj_right' hchars
  rw [Digest.length_shortOf, Digest.length_shortOf]

theorem slotTitle_ne_main : a.slotTitle ≠ "main" := by
  intro heq
  have hdash : '-' ∈ a.slotTitle.toList := by simp [Artifact.slotTitle]
  rw [heq] at hdash
  simp at hdash

/-- Artifacts of written paths have readable paths. -/
theorem isReadable_path (hhere : ∀ name ∈ made.workingDirectory, IsPlainName name)
    (hwritten : AreWritten made inputs) (ha : a ∈ discovered inputs) : a.path.IsReadable := by
  obtain ⟨b, hb, hab⟩ := List.mem_flatMap.1 ha
  obtain ⟨written, hmade⟩ := hwritten b hb
  obtain ⟨p, hp, hofPath⟩ := artifact_of_mem_bundle hmade hab
  obtain ⟨s, -, rfl⟩ := List.mem_map.1 hp
  intro name hname
  rcases parts_of_absolute (isAt_of_ofPath hofPath).path hname with hname | hname
  · exact Path.isReadable_ofString s name hname
  · have hplain := hhere name hname
    exact ⟨by simp [Path.isName, hplain.entry.1, hplain.entry.2.1], hplain.noSlash⟩

end

/-- **Slots do not collide.** Where no two of the texts have the same digest that the paths are made
of, two slots are opened at one path exactly if their names, types, scopes and formats are the same,
in whichever order types and scopes are told. The slots of excluded artifacts at different paths are
different, and different from the slot of the woven classes, and none of all these lies inside
another; these are the slots that routing gives the artifacts. -/
theorem slots_told_apart (root : Path) :
    (∀ (key key' : SlotKey) (p q : Path), key.IsProper → key'.IsProper →
      Digest.TellsApart (key.keyTexts ++ key'.keyTexts) → OpensAt root key p → OpensAt root key' q →
      (p = q ↔ key.name = key'.name ∧ key.format = key'.format ∧
        (∀ type, type ∈ key.types ↔ type ∈ key'.types) ∧
        ∀ scope, scope ∈ key.scopes ↔ scope ∈ key'.scopes)) ∧
    ∀ (made : FileTree) (inputs : List Bundle) (rules : List ExcludeRule),
      (∀ name ∈ made.workingDirectory, IsPlainName name) → AreWritten made inputs →
      Digest.TellsApart ((markedOf rules (discovered inputs)).map (·.path.text)) →
      (∀ a ∈ markedOf rules (discovered inputs), ∀ b ∈ markedOf rules (discovered inputs), ∀ p q main,
        OpensAt root a.slotKey p → OpensAt root b.slotKey q → OpensAt root mainSlot main →
        (a.path ≠ b.path → p ≠ q) ∧ p ≠ main ∧
          q ∉ p.ancestors ∧ main ∉ p.ancestors ∧ p ∉ main.ancestors) ∧
      ∀ logger referenced routing w w',
        route root rules logger inputs referenced w = .ok routing w' →
        ∀ v ∈ routing.excluded, v.artifact ∈ markedOf rules (discovered inputs) ∧
          ∃ slot, v.output = some slot ∧ OpensAt root v.artifact.slotKey slot := by
  refine ⟨?_, ?_⟩
  · rintro key key' p q hkey hkey' hdigests hp hq
    rw [hp.eq, hq.eq, slotPath_eq_iff hkey.name hkey'.name hdigests,
      List.perm_ext_iff_of_nodup hkey.types hkey'.types,
      List.perm_ext_iff_of_nodup hkey.scopes hkey'.scopes]
  · intro made inputs rules hhere hwritten hdigests
    have hplain : ∀ a ∈ markedOf rules (discovered inputs), IsPlainName a.slotKey.name := by
      intro a ha
      have hnoSlash : ∀ name ∈ made.workingDirectory, '/' ∉ name.toList :=
        fun name hname => (hhere name hname).noSlash
      exact Artifact.isPlainName_slotTitle
        (hwritten.not_slash_mem hnoSlash (List.mem_of_mem_filter ha)).1
    have hmain : IsPlainName mainSlot.name := ⟨⟨by decide, by decide, by decide⟩, by decide⟩
    refine ⟨?_, ?_⟩
    · rintro a ha b hb p q main hp hq hopened
      rw [hp.eq, hq.eq, hopened.eq]
      refine ⟨?_, ?_, slotPath_not_mem_ancestors (hplain a ha) (hplain b hb),
        slotPath_not_mem_ancestors (hplain a ha) hmain,
        slotPath_not_mem_ancestors hmain (hplain a ha)⟩
      · intro hne heq
        have htitle := ((slotPath_eq_iff_keys (hplain a ha) (hplain b hb)).1 heq).1
        have htext := hdigests _ (List.mem_map_of_mem ha) _ (List.mem_map_of_mem hb)
          (digest_eq_of_slotTitle htitle)
        apply hne
        apply Path.eq_of_text_eq _ _ htext
        · exact isReadable_path hhere hwritten (List.mem_of_mem_filter ha)
        · exact isReadable_path hhere hwritten (List.mem_of_mem_filter hb)
      · intro heq
        exact slotTitle_ne_main ((slotPath_eq_iff_keys (hplain a ha) hmain).1 heq).1
    · intro logger referenced routing w w' hroute v hv
      obtain ⟨rfl, mid, hcopies⟩ := route_isOk hroute
      obtain ⟨hv, hexcluded⟩ := List.mem_filter.1 hv
      obtain ⟨a, ha, rfl⟩ := List.mem_map.1 hv
      have hmarked : a.IsMarked rules := by
        by_contra hkept
        simp [verdictOn, hkept, Verdict.isExcluded] at hexcluded
      have hmem : a ∈ markedOf rules (discovered inputs) := by
        rw [markedOf, List.mem_filter]
        exact ⟨ha, by simpa using hmarked⟩
      refine ⟨hmem, slotPath root a.slotKey, ?_, opensAt_of_copiesInTurn hcopies hmem⟩
      rw [verdictOn, if_pos hmarked]

/-! ## The slots of a small library -/

theorem opensAt_of_ensureDirectory {root p : Path} {key : SlotKey} {t t' : FileTree}
    (hformat : key.format = .folder) (hpath : slotPath root key = p)
    (h : FileTree.ensureDirectory p t = .ok () t') : OpensAt root key p := by
  refine ⟨t, t', ?_⟩
  unfold openSlot
  rw [hformat, hpath]
  exact bind_ok h

/-- The slot of the library, with its scopes told the other way round. -/
def upSlotReversed : SlotKey := { upFolder.slotKey with scopes := fullProject.reverse }

theorem keyText_fullProject_reverse :
    keyText (upSlotReversed.scopes.map (·.name)) = keyText (fullProject.map (·.name)) :=
  (keyText_eq_iff (arePlain_scopes _) (arePlain_scopes _)).2 ((List.reverse_perm _).map _)

theorem opensAt_upFolder : OpensAt ⟨.root, ["out"]⟩ upFolder.slotKey upSlot ∧
    OpensAt ⟨.root, ["out"]⟩ upSlotReversed upSlot := by
  have hplain : IsPlainName upFolder.slotTitle := Artifact.isPlainName_slotTitle (by decide)
  have hreversed : slotPath ⟨.root, ["out"]⟩ upSlotReversed = upSlot := by
    rw [← slotPath_upFolder]
    apply (slotPath_eq_iff_keys hplain hplain).2
    exact ⟨rfl, rfl, rfl, congrArg Digest.shortOf keyText_fullProject_reverse⟩
  exact ⟨opensAt_of_ensureDirectory rfl slotPath_upFolder copy_upFolder.1,
    opensAt_of_ensureDirectory rfl hreversed copy_upFolder.1⟩

theorem opensAt_classFolder :
    OpensAt ⟨.root, ["out"]⟩ classFolder.slotKey ⟨.root, "out" :: classSlot⟩ := by
  have hpath : slotPath ⟨.root, ["out"]⟩ classFolder.slotKey = ⟨.root, "out" :: classSlot⟩ := by
    rw [slotPath_eq (Artifact.isPlainName_slotTitle (by decide)), ← classFolder_opened]
    rfl
  obtain ⟨_, _, hopen, -⟩ := bind_eq_ok copy_classFolder
  exact opensAt_of_ensureDirectory rfl hpath hopen

theorem opensAt_mainSlot : OpensAt ⟨.root, ["out"]⟩ mainSlot
    ⟨.root, ["out", "folders", "7b3bb6b022108418", "8c76cc24a0efdcc0", "main"]⟩ := by
  have hmain : IsPlainName mainSlot.name := ⟨⟨by decide, by decide, by decide⟩, by decide⟩
  have habove : mainSlot.above = ["folders", "7b3bb6b022108418", "8c76cc24a0efdcc0"] :=
    above_of_folder (a := upFolder) rfl
  have hpath : slotPath ⟨.root, ["out"]⟩ mainSlot =
      ⟨.root, ["out", "folders", "7b3bb6b022108418", "8c76cc24a0efdcc0", "main"]⟩ := by
    rw [slotPath_eq hmain, habove]
    rfl
  have hopen : ∃ t', FileTree.ensureDirectory
      ⟨.root, ["out", "folders", "7b3bb6b022108418", "8c76cc24a0efdcc0", "main"]⟩ nestedFiles =
        .ok () t' := ⟨_, by cbv⟩
  obtain ⟨t', hopen⟩ := hopen
  exact opensAt_of_ensureDirectory rfl hpath hopen

theorem tellsApart_slots : Digest.TellsApart (upFolder.slotKey.keyTexts ++ upSlotReversed.keyTexts) ∧
    Digest.TellsApart [classFolder.path.text, upFolder.path.text] := by
  obtain ⟨htypes, hscopes, hclass, hup, -⟩ := slot_hashes
  have hkeys : Digest.TellsApart upFolder.slotKey.keyTexts := by
    apply Digest.tellsApart_pair
    intro heq
    have hnames := htypes.symm.trans (heq.trans hscopes)
    revert hnames
    decide
  have hreversed : upSlotReversed.keyTexts = upFolder.slotKey.keyTexts := by
    rw [SlotKey.keyTexts, keyText_fullProject_reverse]
    rfl
  refine ⟨?_, Digest.tellsApart_pair fun heq => ?_⟩
  · rw [hreversed]
    intro x hx y hy
    exact hkeys x (by simpa using hx) y (by simpa using hy)
  · -- the digests are what the names of the slots end in
    have hends : ∀ a : Artifact, (Digest.shortOf a.path.text).toList <:+ a.slotTitle.toList := by
      intro a
      rw [Artifact.slotTitle, String.toList_append]
      exact List.suffix_append _ _
    have hclass' := hends classFolder
    have hup' := hends upFolder
    rw [hclass, List.suffix_iff_eq_drop, Digest.length_shortOf] at hclass'
    rw [← heq, hup, List.suffix_iff_eq_drop, Digest.length_shortOf, hclass'] at hup'
    revert hup'
    decide

/-- A directory and the library around it, which is given by a path that leads up from the directory:
the library's slot is the same with its scopes told the other way round, and different from the slot
of the directory. -/
theorem slots_told_apart_nested :
    (OpensAt ⟨.root, ["out"]⟩ upFolder.slotKey upSlot ∧
      OpensAt ⟨.root, ["out"]⟩ upSlotReversed upSlot ∧
      ∀ scope, scope ∈ upFolder.slotKey.scopes ↔ scope ∈ upSlotReversed.scopes) ∧
    (AreWritten nestedFiles [⟨[classFolder, upFolder], []⟩] ∧
      OpensAt ⟨.root, ["out"]⟩ classFolder.slotKey ⟨.root, "out" :: classSlot⟩ ∧
      (⟨.root, "out" :: classSlot⟩ : Path) ≠ upSlot ∧
      upSlot ∉ Path.ancestors ⟨.root, "out" :: classSlot⟩) ∧
    ∃ routing w', route ⟨.root, ["out"]⟩ [⟨"lib", "a"⟩] "" [⟨[classFolder], []⟩] []
        { files := libraryFiles } = .ok routing w' ∧
      ∀ v ∈ routing.excluded, ∃ slot, v.output = some slot ∧
        OpensAt ⟨.root, ["out"]⟩ v.artifact.slotKey slot := by
  obtain ⟨hkeys, hpaths⟩ := tellsApart_slots
  obtain ⟨hup, hreversed⟩ := opensAt_upFolder
  obtain ⟨hsame, happart⟩ := slots_told_apart ⟨.root, ["out"]⟩
  refine ⟨⟨hup, hreversed, ?_⟩, ?_, ?_⟩
  · have hplain : IsPlainName upFolder.slotTitle := Artifact.isPlainName_slotTitle (by decide)
    exact ((hsame _ _ _ _ ⟨hplain, by decide, by decide⟩ ⟨hplain, by decide, by decide⟩ hkeys hup
      hreversed).1 rfl).2.2.2
  · have hmade : Bundle.ofPaths nestedFiles [.ofString "lib/a", .ofString "lib/a/.."] =
        .ok ⟨[classFolder, upFolder], []⟩ := by
      cbv
    have hwritten := areWritten_singleton ["lib/a", "lib/a/.."] hmade
    have hmarked : markedOf [⟨"lib", "a"⟩] (discovered [⟨[classFolder, upFolder], []⟩]) =
        [classFolder, upFolder] := by
      decide
    obtain ⟨hslots, -⟩ := happart nestedFiles [⟨[classFolder, upFolder], []⟩] [⟨"lib", "a"⟩]
      (by simp [nestedFiles]) hwritten (hmarked ▸ hpaths)
    rw [hmarked] at hslots
    obtain ⟨hne, -, hinside, -⟩ := hslots classFolder (by simp) upFolder (by simp) _ _ _
      opensAt_classFolder hup opensAt_mainSlot
    exact ⟨hwritten, opensAt_classFolder, hne (by decide), hinside⟩
  · have hmarked : markedOf [⟨"lib", "a"⟩] (discovered [⟨[classFolder], []⟩]) = [classFolder] := by
      decide
    obtain ⟨slot, hcopy⟩ := copyIntoSlot_classFolder
    have hcopies : ∃ w', CopiesInTurn ⟨.root, ["out"]⟩ "" { files := libraryFiles }
        (markedOf [⟨"lib", "a"⟩] (discovered [⟨[classFolder], []⟩])) w' := by
      rw [hmarked]
      exact ⟨_, .cons hcopy .nil⟩
    obtain ⟨w', hcopies⟩ := hcopies
    obtain ⟨w', hroute⟩ := route_eq_of_judged [] (mapM_judge_isOk.2 ⟨rfl, hcopies⟩)
    have hdigests : Digest.TellsApart
        ((markedOf [⟨"lib", "a"⟩] (discovered [⟨[classFolder], []⟩])).map (·.path.text)) := by
      rw [hmarked]
      intro x hx y hy
      exact hpaths x (by simp_all) y (by simp_all)
    obtain ⟨-, hgiven⟩ := happart libraryFiles [⟨[classFolder], []⟩] [⟨"lib", "a"⟩]
      (by simp [libraryFiles]) areWritten_libraries.1 hdigests
    exact ⟨_, w', hroute, fun v hv => (hgiven _ _ _ _ _ hroute v hv).2⟩

end WeaveStep
