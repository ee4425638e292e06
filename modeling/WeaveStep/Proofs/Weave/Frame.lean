import WeaveStep.Proofs.Weave.Clearing
import WeaveStep.Proofs.Weave.RootContents

/-!
# What a weave leaves as it was

Whatever links lie in the inputs and among earlier outputs, a weave changes no file that does not
lie where its root does.

* **`yields_weaveCleared`**: what copying artifacts and opening the main slot keep, and logging, is
  kept until the weaver is told what to do.
* `SparedBy root t t'`: every entry is what it was, or lies where the root does, or is a new
  directory that leads there.
* **`weave_spares`**: so it is when the weaver begins, and if it never does, when the weave ends,
  whether it fails or not. The root must not lead up from something that is missing
  (`not_weave_spares_up_from_missing`).
-/

namespace WeaveStep

open FileTree

variable {t t' : FileTree} {root slot : Path} {place : Location} {names : List String} {a : Artifact}

/-! ## Copies into slots -/

/-- A name without slashes, as seen from a path, is the path itself or an entry of it. -/
theorem child_cases {s : String} (hs : '/' ∉ s.toList) (p : Path) :
    p.child s = p ∨ p.child s = p.entry s ∧ (s = ".." ∨ IsEntryName s) := by
  have hchild : p.child s = ⟨p.anchor, p.parts ++ if Path.isName s then [s] else []⟩ := by
    simp [Path.child, Path.join, ofString_of_noSlash hs, Path.isAbsolute]
  rw [hchild]
  split
  · rename_i hname
    by_cases hup : s = ".."
    · exact .inr ⟨rfl, .inl hup⟩
    · exact .inr ⟨rfl, .inr (isEntryName_of_isName hname hup)⟩
  · exact .inl (by rw [List.append_nil])

section

variable (htree : IsTree t) (hplain : NoLinks place t)
  (hslot : t.look .followed slot = .ok (place ++ names, .directory))
include htree hplain hslot

/-- A copy of a tree goes into its slot, or into the directory of the slot. -/
theorem changesWithin_copyTree_child (hnames : names ≠ []) {s : String} (hs : '/' ∉ s.toList)
    (source : Path) :
    Yields (copyTree source (slot.child s)) t fun _ t' => ChangesWithin place t t' := by
  rcases child_cases hs slot with hself | ⟨hentry, rfl | hname⟩
  · rw [hself]
    refine changesWithin_copyTreeWithin_into htree hplain (fun t' hmade => ?_)
      (fun found node hlook => ?_) _ source
    · obtain ⟨q, hlocate, hfree, -⟩ := makeDirectory_eq_ok hmade
      exact ne_none_of_look hslot hlocate hfree
    · rw [hslot] at hlook
      cases hlook
      exact isWithin_append (isWithin_refl place)
  · -- two dots lead to the directory of the slot, which is below the place
    have hup : ∀ {last q}, t.locate last (slot.entry "..") = .ok q →
        q = place ++ names.dropLast ∧ t.get? q = some .directory := by
      intro last q hlocate
      obtain ⟨mid, budget, hmid, hway⟩ := locate_above hlocate (by simp)
      rw [show (⟨slot.anchor, slot.parts⟩ : Path) = slot from rfl, hslot] at hmid
      cases hmid
      cases hway with
      | stay _ blank => simp at blank
      | up directory way =>
        cases way
        exact ⟨List.dropLast_append_of_ne_nil hnames, htree.dropLast directory⟩
      | own _ step | follow _ step | down _ step => exact absurd rfl step.notUp
    rw [hentry]
    refine changesWithin_copyTreeWithin_into htree hplain (fun t' hmade => ?_)
      (fun found node hlook => ?_) _ source
    · obtain ⟨q, hlocate, hfree, -⟩ := makeDirectory_eq_ok hmade
      rw [(hup hlocate).2] at hfree
      cases hfree
    · rw [(hup (look_eq_ok_iff.1 hlook).1).1]
      exact isWithin_append (isWithin_refl place)
  · rw [hentry]
    exact changesWithin_copyTreeWithin htree _ source ⟨hplain, place ++ names, s,
      ⟨⟨slot, rfl, hslot⟩, hname⟩, isWithin_append (isWithin_append (isWithin_refl place))⟩

theorem changesWithin_copyTo_copyPath (hnames : names ≠ []) (hname : '/' ∉ a.name.toList)
    (hlast : '/' ∉ a.path.name.toList) :
    Yields (a.copyTo (a.copyPath slot)) t fun _ t' => ChangesWithin place t t' := by
  unfold Artifact.copyTo Artifact.copyPath
  cases a.kind with
  | directory => exact changesWithin_copyTree_child htree hplain hslot hnames hlast a.path
  | archive =>
    exact changesWithin_copyFile _ a.path ⟨hplain, place ++ names, _,
      ⟨⟨slot, rfl, hslot⟩, (Artifact.isPlainName_slotTitle_jar hname).entry⟩,
      isWithin_append (isWithin_append (isWithin_refl place))⟩

end

theorem Artifact.opened_ne_nil : a.opened ≠ [] := by
  unfold Artifact.opened
  split <;> simp [SlotKey.above]

/-- The names that lead to the slot of the woven classes. -/
def mainNames : List String := mainSlot.above ++ ["main"]

theorem mainNames_eq : mainNames = ["folders", "7b3bb6b022108418", "8c76cc24a0efdcc0", "main"] := by
  obtain ⟨htypes, hscopes, -⟩ := slot_hashes
  rw [← htypes, ← hscopes]
  rfl

theorem isPlainName_of_mem_mainNames {name : String} (h : name ∈ mainNames) : IsPlainName name := by
  rcases List.mem_append.1 h with h | h
  · exact isPlainName_of_mem_above h
  · rw [List.mem_singleton.1 h]
    exact ⟨⟨by decide, by decide, by decide⟩, by decide⟩

theorem slotPath_mainSlot (root : Path) : slotPath root mainSlot = under root mainNames := by
  have hmain : IsPlainName mainSlot.name := isPlainName_of_mem_mainNames (by simp [mainNames, mainSlot])
  have hslot : slotPath root mainSlot = (slotBase root mainSlot).child mainSlot.name := rfl
  rw [hslot, slotBase_eq, hmain.child, Path.entry, under, List.append_assoc]
  rfl

theorem openSlot_mainSlot (root : Path) : openSlot root mainSlot =
    (do ensureDirectory (under root mainNames); return slotPath root mainSlot) := by
  unfold openSlot
  rw [← slotPath_mainSlot]
  rfl

section

variable (hsteers : Steers root place t)
include hsteers

/-- **An excluded artifact** is copied to where the root is, whether that fails or not. -/
theorem always_grows_copyIntoSlot (hname : '/' ∉ a.name.toList) (hlast : '/' ∉ a.path.name.toList) :
    Always (Keeps (Grows place t)) (copyIntoSlot root a) := by
  have hopened : ∀ name ∈ a.opened, IsEntryName name := fun name h =>
    (Artifact.isPlainName_of_mem_opened hname h).entry
  rw [Artifact.copyIntoSlot_eq_copyTo hname]
  refine .keeps_of fun t₁ h₁ => ?_
  refine Yields.bind (fun _ t₂ hopen => ?_) fun e t₂ he =>
    (always_grows_ensureDirectory hsteers hopened).of_error he h₁
  have h₂ := (always_grows_ensureDirectory hsteers hopened).of_ok hopen h₁
  obtain ⟨q, hslot⟩ := look_of_ensureDirectory hopen
  obtain rfl := hsteers.found h₂ hopened hslot
  have hcopy := changesWithin_copyTo_copyPath h₂.isTree h₂.plain hslot Artifact.opened_ne_nil hname
    hlast
  exact Yields.bind (fun _ t₃ hcopied => h₂.of_changes (hcopy.of_ok hcopied))
    fun e t₃ he => h₂.of_changes (hcopy.of_error he)

/-- The main slot is opened where the root is. -/
theorem always_grows_openSlot : Always (Keeps (Grows place t)) (openSlot root mainSlot) := by
  rw [openSlot_mainSlot]
  exact (always_grows_ensureDirectory hsteers fun _ h => (isPlainName_of_mem_mainNames h).entry).bind
    fun _ => .pure _

end

section

variable (hplaceless : Placeless root t) (hparts : ∀ name ∈ root.parts, Path.isName name = true)
include hplaceless hparts

/-- Where nothing is made by the root, no artifact is copied. -/
theorem always_told_copyIntoSlot (hname : '/' ∉ a.name.toList) :
    Always (Keeps (Told t)) (copyIntoSlot root a) := by
  rw [Artifact.copyIntoSlot_eq_copyTo hname]
  refine .keeps_of fun t₁ h₁ => ?_
  obtain ⟨e, he⟩ := ensureDirectory_of_placeless (hplaceless.of_told h₁) hparts a.opened
  exact yields_bind_of_error he h₁

theorem always_told_openSlot : Always (Keeps (Told t)) (openSlot root mainSlot) := by
  rw [openSlot_mainSlot]
  refine .keeps_of fun t₁ h₁ => ?_
  obtain ⟨e, he⟩ := ensureDirectory_of_placeless (hplaceless.of_told h₁) hparts mainNames
  exact yields_bind_of_error he h₁

end

/-! ## Until the weaver begins -/

section

variable {I : FileTree → Prop} {ε ε' α : Type}
  (htell : ∀ t bytes, I t → I (t.extendHeld bytes))

include htell in
theorem keeps_logAll (verbose : Bool) (logger : String) (w : World) (ds : List Diagnostic) :
    Keeps (fun w : World => I w.files) w (w.logAll verbose logger ds) := by
  unfold World.logAll
  induction ds generalizing w with
  | nil => exact fun hw => hw
  | cons d ds ih => exact fun hw => ih _ (keeps_log htell w _ hw)

include htell in
theorem always_keeps_route {rules : List ExcludeRule} {logger : String}
    {inputs referenced : List Bundle}
    (hcopy : ∀ a ∈ inputs.flatMap (·.artifacts), isExcluded a.path rules = true →
      Always (Keeps I) (copyIntoSlot root a)) :
    Always (Keeps fun w : World => I w.files) (route root rules logger inputs referenced) := by
  have hlog : ∀ message, Always (Keeps fun w : World => I w.files)
      (Run.log (ε := RouteFailure) .quiet logger message) := always_keeps_log htell _ _
  refine Always.bind (.mapM fun a ha => ?_) fun verdicts => ?_
  · unfold judge
    split
    · rename_i hexcluded
      exact (hlog _).bind fun _ => (always_keeps_onFiles _ (hcopy a ha hexcluded)).bind fun _ => .pure _
    · exact .pure _
  · dsimp only
    split
    · exact (hlog _).bind fun _ => .pure _
    · exact .pure _

include htell in
theorem always_keeps_assemble (settings : Settings) (logger : String)
    (toWeave classpathOnly : List Path) (boot : List String) (library : Option String)
    (hopen : Always (Keeps I) (openSlot root mainSlot)) :
    Always (Keeps fun w : World => I w.files)
      (assemble settings root logger toWeave classpathOnly boot library) := by
  have hslot := always_keeps_onFiles (ε := FileFailure) id hopen
  unfold assemble
  split
  · exact (always_keeps_log htell _ _ _).bind fun _ => hslot.bind fun _ => .pure _
  · exact hslot.bind fun _ => .pure _

theorem always_keeps_neededLibrary (settings : Settings) (javaClasspath : List String) :
    Always (Keeps fun w : World => I w.files) (neededLibrary settings javaClasspath) := by
  unfold neededLibrary
  split
  · exact Always.get.bind fun w => .ask _ _
  · exact .pure none

end

/-- The weaver began in a world where `I` holds of the files, or the weave ended in one. After the
weaver there is only more in the file held open. -/
def EndsFrom (weaver : Weaver) (I : FileTree → Prop) (w' : World) : Prop :=
  ∃ mid : World, I mid.files ∧ (w' = mid ∨ ∃ invocation,
    Yields (weaver.run invocation) mid fun _ after => Told after.files w'.files)

/-- After the weaver was told what to do, there is only more in the file held open. -/
theorem yields_runReported (weaver : Weaver) (verbose : Bool) (invocation : Invocation) (w : World) :
    Yields (runReported weaver verbose invocation) w fun _ w' =>
      Yields (weaver.run invocation) { w with invocations := w.invocations ++ [invocation] }
        fun _ after => Told after.files w'.files := by
  have htold : (modify fun w => { w with invocations := w.invocations ++ [invocation] } :
      Run WeaveFailure Unit) w = .ok () { w with invocations := w.invocations ++ [invocation] } := rfl
  have hjudged : ∀ diagnostics after, Yields
      (Run.wrapping WeaveFailure.aborted (judgeReport verbose stepLogger diagnostics)) after
      fun _ w' => w' = after.logAll verbose stepLogger diagnostics := by
    intro diagnostics after
    have hreport : Yields (judgeReport verbose stepLogger diagnostics) after
        fun _ w' => w' = after.logAll verbose stepLogger diagnostics := by
      unfold Yields
      rw [judgeReport_eq]
      cases firstFatal? verbose diagnostics <;> rfl
    exact hreport.wrapping (fun _ _ h => h) fun _ _ h => h
  refine yields_bind_of_ok htold (Yields.bind (fun diagnostics after hrun => ?_) fun e after hrun => ?_)
  · have hran := Run.wrapping_eq_ok.1 hrun
    have hlogged : Told after.files (after.logAll verbose stepLogger diagnostics).files :=
      keeps_logAll (fun t bytes h => trans_of Told h (told_extendHeld t bytes)) verbose stepLogger
        after diagnostics (refl_of Told after.files)
    have hends : Yields (weaver.run invocation) { w with invocations := w.invocations ++ [invocation] }
        fun _ ended => Told ended.files (after.logAll verbose stepLogger diagnostics).files := by
      simpa only [Yields, hran] using hlogged
    refine Yields.bind (fun _ w' hreported => ?_) fun _ w' hfailed => ?_
    · rw [(hjudged diagnostics after).of_ok hreported]
      exact hends
    · rw [(hjudged diagnostics after).of_error hfailed]
      exact hends
  · obtain ⟨why, hran, -⟩ := Run.wrapping_eq_error.1 hrun
    simpa only [Yields, hran] using refl_of Told after.files

/-- **Until the weaver begins**, a weave keeps what copying artifacts, opening the main slot and
logging keep. -/
theorem yields_weaveCleared {settings : Settings} {weaver : Weaver} {input : WeaveInput}
    {I : FileTree → Prop} (htell : ∀ t bytes, I t → I (t.extendHeld bytes))
    (hcopy : ∀ a ∈ input.inputs.flatMap (·.artifacts), Always (Keeps I) (copyIntoSlot root a))
    (hopen : Always (Keeps I) (openSlot root mainSlot)) {w : World} (hw : I w.files) :
    Yields (weaveCleared settings root weaver input) w fun _ w' => EndsFrom weaver I w' := by
  have hends : ∀ w', I w'.files → EndsFrom weaver I w' := fun w' h => ⟨w', h, .inl rfl⟩
  have hpure : ∀ (c : Completion) (w : World), I w.files →
      Yields (pure c : Run WeaveFailure Completion) w fun _ w' => EndsFrom weaver I w' :=
    fun _ w h => hends w h
  have htells : ∀ level message, Always (Keeps fun w : World => I w.files)
      (Run.log (ε := WeaveFailure) level stepLogger message) := fun level message =>
    always_keeps_log htell level stepLogger message
  have hrest : ∀ {α : Type} {act : Run WeaveFailure α} {f : α → Run WeaveFailure Completion},
      Always (Keeps fun w : World => I w.files) act →
      (∀ a w, I w.files → Yields (f a) w fun _ w' => EndsFrom weaver I w') →
      ∀ w, I w.files → Yields (act >>= f) w fun _ w' => EndsFrom weaver I w' :=
    fun hact hf w hw => hact.keeps_bind hw (fun a w' => hf a w') fun _ w' => hends w'
  unfold weaveCleared
  split
  · unfold weaveEnabled
    extract_lets tell rest
    have hafter : ∀ w, I w.files → Yields (rest ()) w fun _ w' => EndsFrom weaver I w' := by
      refine hrest (htells _ _) fun _ => hrest (.wrapping (always_keeps_neededLibrary _ _)) fun library =>
        hrest (htells _ _) fun _ => hrest (htells _ _) fun _ =>
        hrest (.wrapping (always_keeps_route htell fun a ha _ => hcopy a ha)) fun routing =>
        hrest Always.get fun world => hrest (.ofExcept _ _) fun boot =>
        hrest (.wrapping (always_keeps_assemble htell _ _ _ _ _ _ hopen)) fun invocation => ?_
      intro w hw
      split
      · exact hrest (htells _ _) (fun _ => hpure _) w hw
      · refine hrest (htells _ _) (fun _ w hw => ?_) w hw
        have hreported : Yields (runReported weaver settings.verbose invocation) w
            fun _ w' => EndsFrom weaver I w' :=
          (yields_runReported weaver _ invocation w).imp fun _ w' h =>
            ⟨{ w with invocations := w.invocations ++ [invocation] }, hw, .inr ⟨invocation, h⟩⟩
        exact Yields.bind (fun _ w' hran => hreported.of_ok hran) fun _ w' hfailed =>
          hreported.of_error hfailed
    split
    · exact hrest (htells _ _) (fun _ => hafter) w hw
    · exact hafter w hw
  · exact hrest (htells _ _) (fun _ => hpure _) w hw

/-! ## The whole weave -/

/-- Every entry but the file held open is what it was, or it lies where the root does or below, or it
is a new directory that leads there. -/
def SparedBy (root : Path) (t t' : FileTree) : Prop :=
  ∀ q, t.held ≠ some q → t'.get? q ≠ t.get? q → ∃ place, LiesAt t root place ∧
    (isWithin place q = true ∨
      t.get? q = none ∧ t'.get? q = some .directory ∧ isWithin q place = true)

theorem sparedBy_of_told (root : Path) (h : Told t t') : SparedBy root t t' := fun q hheld hq =>
  ((h.kept q).elim hq fun hopen => hheld hopen.1).elim

theorem sparedBy_of_grows {mid : FileTree} (hlies : LiesAt t root place)
    (hmid : ∀ q, isWithin place q = false → mid.get? q = t.get? q)
    (hheld : ∀ q, mid.held = some q → t.held = some q) (h : Grows place mid t') :
    SparedBy root t t' := by
  intro q hnot hq
  refine ⟨place, hlies, ?_⟩
  cases hin : isWithin place q with
  | true => exact .inl rfl
  | false =>
    rcases h.outside q hin with (hsame | ⟨hopen, -⟩) | ⟨hfree, hmade, habove⟩
    · exact absurd (hsame.trans (hmid q hin)) hq
    · exact absurd (hheld q hopen) hnot
    · exact .inr ⟨(hmid q hin).symm.trans hfree, hmade, habove⟩

/-- What a weave keeps until the weaver begins, if it begins in a tree where `I` holds. -/
structure IsKept (root : Path) (I : FileTree → Prop) : Prop where
  told : ∀ t bytes, I t → I (t.extendHeld bytes)
  copied : ∀ a : Artifact, '/' ∉ a.name.toList → '/' ∉ a.path.name.toList →
    Always (Keeps I) (copyIntoSlot root a)
  opened : Always (Keeps I) (openSlot root mainSlot)

theorem isKept_grows (hsteers : Steers root place t) : IsKept root (Grows place t) where
  told _ bytes h := h.extendHeld bytes
  copied _ := always_grows_copyIntoSlot hsteers
  opened := always_grows_openSlot hsteers

theorem isKept_told (hplaceless : Placeless root t)
    (hparts : ∀ name ∈ root.parts, Path.isName name = true) : IsKept root (Told t) where
  told t' bytes h := trans_of Told h (told_extendHeld t' bytes)
  copied _ hname _ := always_told_copyIntoSlot hplaceless hparts hname
  opened := always_told_openSlot hplaceless hparts

theorem liesAt_of_look (h : t.look .own root = .ok (place, .directory)) : LiesAt t root place := by
  obtain ⟨hlocate, hnode⟩ := look_eq_ok_iff.1 h
  exact .found (locate_followed_of_own hlocate (by simp [hnode]))

/-- **After the outputs are cleared**, what is made by the names of the root grows where the root lies, and
nothing else was changed, or nothing is made by them. -/
theorem steers_or_placeless (htree : IsTree t) (habsolute : root.anchor ≠ .relative)
    (hparts : ∀ name ∈ root.parts, Path.isName name = true)
    (hsteady : IsSteady t root) (hcleared : Cleared root t (.ok ()) t') :
    Placeless root t ∧ t' = t ∨ ∃ place, LiesAt t root place ∧ Steers root place t' ∧
      (∀ q, isWithin place q = false → t'.get? q = t.get? q) ∧
      (∀ q, t'.held = some q → t.held = some q) ∧ t'.workingDirectory = t.workingDirectory := by
  cases hcleared with
  | absent nothing =>
    by_cases hmissing : ∃ front rest base, MissingAt t root front rest base
    · obtain ⟨front, rest, base, hmissing⟩ := hmissing
      exact .inr ⟨_, .missing hmissing, hmissing.steers htree, fun _ _ => rfl, fun _ => id, rfl⟩
    · have hstart : t.startOf root = [] := by simp [startOf, Path.isAbsolute, habsolute]
      exact .inl ⟨⟨htree, hstart ▸ htree.root, hsteady, fun front rest base h =>
        hmissing ⟨front, rest, base, h⟩, fun place => nothing place _⟩, rfl⟩
  | @removed place found again parts name =>
    have hplace := ne_nil_of_removed habsolute parts hparts name (look_eq_ok_iff.1 found).1
    refine .inr ⟨place, liesAt_of_look found, steers_of_removed htree habsolute hplace again,
      fun q hq => ?_, fun q hq => ?_, rfl⟩
    · rw [get?_removed, hq, if_neg Bool.false_ne_true]
    · rw [(sameView_erase_eraseInside t place).held, without, Option.filter_eq_some_iff] at hq
      exact hq.1

/-- After the outputs are cleared, what a weave keeps spares all that does not lie where the root
does. -/
theorem exists_isKept (htree : IsTree t) (habsolute : root.anchor ≠ .relative)
    (hparts : ∀ name ∈ root.parts, Path.isName name = true)
    (hsteady : IsSteady t root)
    (hcleared : Cleared root t (.ok ()) t') :
    ∃ I, IsKept root I ∧ I t' ∧ ∀ t'', I t'' → SparedBy root t t'' := by
  rcases steers_or_placeless htree habsolute hparts hsteady hcleared with ⟨hplaceless, rfl⟩ |
    ⟨place, hlies, hsteers, hbeside, hheld, -⟩
  · exact ⟨_, isKept_told hplaceless hparts, refl_of Told _, fun t'' => sparedBy_of_told root⟩
  · exact ⟨_, isKept_grows hsteers, hsteers.start, fun t'' => sparedBy_of_grows hlies hbeside hheld⟩

theorem sparedBy_of_failed {e : FileFailure} (h : Cleared root t (.error e) t') :
    SparedBy root t t' := by
  cases h with
  | refused => exact fun q _ hq => absurd rfl hq
  | @emptied place _ found =>
    intro q _ hq
    refine ⟨place, liesAt_of_look found, .inl ?_⟩
    rw [get?_eraseInside] at hq
    split at hq
    · exact ‹_ ∧ _›.1
    · exact absurd rfl hq

/-- **A weave leaves as it was** what does not lie where its root does, whatever links lie in the
inputs and below the root, and whether it fails or not: so it is when the weaver begins, or when the
weave ends without it, and after the weaver there is only more in the file held open. -/
theorem weave_spares (settings : Settings) {root : Path} (habsolute : root.isAbsolute = true)
    (hparts : ∀ name ∈ root.parts, Path.isName name = true) (weaver : Weaver) (input : WeaveInput)
    {w : World} (htree : IsTree w.files)
    (hhere : ∀ name ∈ w.files.workingDirectory, '/' ∉ name.toList)
    (hwritten : AreWritten w.files input.inputs)
    (hsteady : IsSteady w.files root) :
    Yields (weave settings root weaver input) w fun _ w' =>
      EndsFrom weaver (SparedBy root w.files) w' := by
  have hanchor : root.anchor ≠ .relative := by simpa [Path.isAbsolute] using habsolute
  have hcleared := cleared_clearSlots root w.files
  rw [weave_eq]
  refine Yields.bind (fun _ w₁ hclear => ?_) fun e w₁ hclear => ?_
  · obtain ⟨I, hkept, hw₁, hspared⟩ := exists_isKept htree hanchor hparts hsteady
      (hcleared.of_ok (Run.onFiles_eq_ok.1 hclear).1)
    have hcopied : ∀ a ∈ input.inputs.flatMap (·.artifacts),
        Always (Keeps I) (copyIntoSlot root a) := by
      intro a ha
      obtain ⟨hname, hlast⟩ := hwritten.not_slash_mem hhere ha
      exact hkept.copied a hname hlast
    refine (yields_weaveCleared hkept.told hcopied hkept.opened hw₁).imp fun _ w' hends => ?_
    obtain ⟨mid, hmid, hends⟩ := hends
    exact ⟨mid, hspared _ hmid, hends⟩
  · unfold Run.onFiles at hclear
    split at hclear
    · cases hclear
    · rename_i hfailed
      cases hclear
      exact ⟨_, sparedBy_of_failed (hcleared.of_error hfailed), .inl rfl⟩

/-- A weave that clears links among earlier outputs changes nothing but the outputs. -/
theorem weave_spares_linked_files :
    Yields (weave {} ⟨.root, ["out"]⟩ classWriter
        { inputs := [⟨[⟨⟨.root, ["in"]⟩, "in", .directory⟩], []⟩] })
      { files := filesWith [(["out"], .directory), (["out", "folders"], .link "../in"),
          (["in", "link"], .link "A.class")] }
      fun _ w' => EndsFrom classWriter (SparedBy ⟨.root, ["out"]⟩
        (filesWith [(["out"], .directory), (["out", "folders"], .link "../in"),
          (["in", "link"], .link "A.class")])) w' :=
  weave_spares {} rfl (by decide) classWriter _ (isTree_of_entries rfl (by decide)) (by decide)
    (areWritten_singleton ["in"] (by cbv)) ⟨[], _, [], rfl, look_start rfl rfl, by decide⟩

/-! ## Up from what is missing -/

/-- Files with a link among earlier outputs, which leads out of them. -/
def filesBeside : FileTree where
  entries := [([], .directory), (["out"], .directory), (["out", "folders"], .link "..")]
  workingDirectory := []

/-- The outputs, by a path that leads up from what is missing. -/
def rootBeside : Path := ⟨.root, ["missing", "..", "out"]⟩

/-- The files with directories at these places, once the missing one is made. -/
def filesEscaped (made : List Location) : FileTree :=
  { filesBeside with entries := made.map (fun place => (place, .directory)) ++
      (["missing"], .directory) :: filesBeside.entries }

/-- One more directory is made, in the one that was made last. -/
theorem ensureDirectory_beside {name : String} {made : List Location}
    (hfails : filesBeside.makeDirectory (under rootBeside (names ++ [name])) =
      .error (.refusal .noEntry (under rootBeside (names ++ [name])).text))
    (hparent : ensureDirectory (under rootBeside names) filesBeside = .ok () (filesEscaped made))
    (hlocate : (filesEscaped made).locate .own (under rootBeside (names ++ [name])) = .ok place)
    (hfree : (filesEscaped made).get? place = none) :
    ensureDirectory (under rootBeside (names ++ [name])) filesBeside =
      .ok () (filesEscaped (place :: made)) := by
  have hset : (filesEscaped made).set place .directory = filesEscaped (place :: made) :=
    set_of_free hfree .directory
  have hlast : ensureLast (under rootBeside (names ++ [name])) (filesEscaped made) =
      .ok () (filesEscaped (place :: made)) := by
    rw [ensureLast, makeDirectory_of_free hlocate hfree, hset]
  have habove : (under rootBeside (names ++ [name])).parent = under rootBeside names := by
    simp [under, Path.parent, ← List.append_assoc]
  have hparts : (under rootBeside (names ++ [name])).parts ≠ [] := by simp [under]
  have hmissing : (FileFailure.refusal .noEntry (under rootBeside (names ++ [name])).text).isMissing =
      true := rfl
  rw [ensureDirectory, hfails]
  dsimp only
  rw [if_pos hmissing, dif_neg hparts, dealingWith, habove, bind_ok hparent, hlast]

/-- The slot of the woven classes is made where the link leads to. -/
theorem openSlot_beside : ensureDirectory (under rootBeside mainNames) filesBeside =
    .ok () (filesEscaped [["7b3bb6b022108418", "8c76cc24a0efdcc0", "main"],
      ["7b3bb6b022108418", "8c76cc24a0efdcc0"], ["7b3bb6b022108418"]]) := by
  have hfolders : ensureDirectory (under rootBeside ["folders"]) filesBeside =
      .ok () (filesEscaped []) := by cbv
  have htypes : ensureDirectory (under rootBeside (["folders"] ++ ["7b3bb6b022108418"]))
      filesBeside = .ok () (filesEscaped [["7b3bb6b022108418"]]) :=
    ensureDirectory_beside (by cbv) hfolders (by cbv) rfl
  have hscopes : ensureDirectory
      (under rootBeside (["folders", "7b3bb6b022108418"] ++ ["8c76cc24a0efdcc0"])) filesBeside =
      .ok () (filesEscaped [["7b3bb6b022108418", "8c76cc24a0efdcc0"], ["7b3bb6b022108418"]]) :=
    ensureDirectory_beside (by cbv) htypes (by cbv) rfl
  have hmain : ensureDirectory
      (under rootBeside (["folders", "7b3bb6b022108418", "8c76cc24a0efdcc0"] ++ ["main"]))
      filesBeside = .ok () (filesEscaped [["7b3bb6b022108418", "8c76cc24a0efdcc0", "main"],
        ["7b3bb6b022108418", "8c76cc24a0efdcc0"], ["7b3bb6b022108418"]]) :=
    ensureDirectory_beside (by cbv) hscopes (by cbv) rfl
  rw [mainNames_eq]
  exact hmain

/-- A path that leads up from what is missing lies nowhere. -/
theorem not_liesAt_beside : ¬ LiesAt filesBeside rootBeside place := by
  have hnowhere : ∀ {last more q}, more ≠ [] →
      filesBeside.locate last ⟨.root, ["missing"] ++ more⟩ ≠ .ok q := by
    intro last more q hmore h
    obtain ⟨mid, -, hmid, -⟩ := locate_above h hmore
    obtain ⟨hlocate, hnode⟩ := look_eq_ok_iff.1 hmid
    have hway := (locate_eq_ok_iff.1 hlocate).2
    have hfree : filesBeside.get? ["missing"] = none := rfl
    obtain ⟨-, rfl⟩ : _ ∧ mid = ["missing"] := Way.eq_of_free hway (by decide) hfree
    rw [hfree] at hnode
    cases hnode
  intro h
  cases h with
  | found h => exact hnowhere (by simp) h
  | @missing front rest base h =>
    -- two dots are no name of an entry, so they are among the first names
    have hparts : ["missing", "..", "out"] = front ++ rest := h.parts
    have hup : ".." ∉ rest := fun hmem => (h.names ".." hmem).2.2 rfl
    cases front with
    | nil =>
      rw [List.nil_append] at hparts
      simp [← hparts] at hup
    | cons name front =>
      cases front with
      | nil =>
        obtain ⟨-, hrest⟩ : "missing" = name ∧ ["..", "out"] = rest := by simpa using hparts
        simp [← hrest] at hup
      | cons next more =>
        obtain ⟨rfl, rfl, -⟩ : "missing" = name ∧ ".." = next ∧ _ := by simpa using hparts
        exact hnowhere (by simp) (look_eq_ok_iff.1 h.found).1

/-- A weave of nothing opens the slot of the woven classes all the same. -/
theorem weaveCleared_of_nothing (weaver : Weaver) {w : World} (hheld : w.files.held = none)
    (hheld' : t'.held = none) (hopen : ensureDirectory (under root mainNames) w.files = .ok () t') :
    Yields (weaveCleared {} root weaver { inputs := [] }) w fun _ w' => w'.files = t' := by
  have hlog : ∀ level message (w : World), Run.log (ε := WeaveFailure) level stepLogger message w =
      .ok () (w.log { level, logger := stepLogger, message }) := fun _ _ _ => rfl
  have hroute : ∀ w : World, Run.wrapping WeaveFailure.ofRoute
      (route root [] stepLogger [] []) w = .ok ⟨[], []⟩
        (w.log { level := .quiet, logger := stepLogger, message := "Nothing excluded." }) :=
    fun _ => rfl
  have hassemble : ∀ w : World, ensureDirectory (under root mainNames) w.files = .ok () t' →
      ∃ invocation, Run.wrapping WeaveFailure.files
        (assemble {} root stepLogger [] [] [] none) w = .ok invocation { w with files := t' } := by
    intro w hopen
    have hslot : Run.onFiles (ε := FileFailure) id (openSlot root mainSlot) w =
        .ok (slotPath root mainSlot) { w with files := t' } := by
      rw [Run.onFiles_eq_ok, openSlot_mainSlot]
      exact ⟨bind_ok hopen, rfl⟩
    obtain ⟨invocation, hassembled⟩ : ∃ invocation,
        assemble {} root stepLogger [] [] [] none w = .ok invocation { w with files := t' } := by
      unfold assemble
      rw [if_neg (by decide)]
      exact ⟨_, bind_ok hslot⟩
    exact ⟨invocation, Run.wrapping_eq_ok.2 hassembled⟩
  have hsame : ∀ {w : World} (r : LogRecord), w.files.held = none →
      ensureDirectory (under root mainNames) w.files = .ok () t' →
      (w.log r).files.held = none ∧
        ensureDirectory (under root mainNames) (w.log r).files = .ok () t' := by
    intro w r hheld hopen
    rw [files_log hheld r]
    exact ⟨hheld, hopen⟩
  unfold weaveCleared weaveEnabled
  rw [if_pos rfl]
  extract_lets tell rest
  rw [if_neg (by decide)]
  obtain ⟨hheld, hopen⟩ := hsame _ hheld hopen
  refine yields_bind_of_ok (hlog _ _ _) (yields_bind_of_ok (a := none) rfl ?_)
  obtain ⟨hheld, hopen⟩ := hsame _ hheld hopen
  refine yields_bind_of_ok (hlog _ _ _) ?_
  obtain ⟨hheld, hopen⟩ := hsame _ hheld hopen
  refine yields_bind_of_ok (hlog _ _ _) ?_
  obtain ⟨hheld, hopen⟩ := hsame _ hheld hopen
  refine yields_bind_of_ok (hroute _) (yields_bind_of_ok rfl (yields_bind_of_ok (a := []) rfl ?_))
  refine yields_bind_of_ok (hassemble _ hopen).choose_spec ?_
  rw [show (⟨[], []⟩ : Routing).toWeave.isEmpty = true from rfl, if_pos rfl]
  exact yields_bind_of_ok (hlog _ _ _) (files_log hheld' _)

/-- A weaver that does nothing. -/
def idleWeaver : Weaver := ⟨none, fun _ => return []⟩

/-- Through a link among earlier outputs, which are not cleared by a root that leads up from what is
missing, the weave writes to another place. -/
theorem not_weave_spares_up_from_missing :
    ¬ ∀ (settings : Settings) {root : Path}, root.isAbsolute = true →
      (∀ name ∈ root.parts, Path.isName name = true) → ∀ (weaver : Weaver) (input : WeaveInput)
      {w : World}, IsTree w.files → (∀ name ∈ w.files.workingDirectory, '/' ∉ name.toList) →
      AreWritten w.files input.inputs →
      Yields (weave settings root weaver input) w fun _ w' =>
        EndsFrom weaver (SparedBy root w.files) w' := by
  intro h
  let w : World := { files := filesBeside }
  have hclear : Run.onFiles WeaveFailure.files (clearSlots rootBeside) w = .ok () w := by
    rw [Run.onFiles_eq_ok]
    exact ⟨by cbv, rfl⟩
  have hwrote : Yields (weave {} rootBeside idleWeaver { inputs := [] }) w fun _ w' =>
      w'.files.get? ["7b3bb6b022108418"] = some .directory := by
    rw [weave_eq]
    refine yields_bind_of_ok hclear ((weaveCleared_of_nothing idleWeaver rfl rfl
      openSlot_beside).imp fun _ w' hfiles => ?_)
    rw [hfiles]
    rfl
  have hends : Yields (weave {} rootBeside idleWeaver { inputs := [] }) w fun _ w' =>
      EndsFrom idleWeaver (SparedBy rootBeside filesBeside) w' :=
    h {} rfl (by decide) idleWeaver _ (isTree_of_entries rfl (by decide)) (by decide)
      (by simp [AreWritten])
  have hno : ∀ w' : World, w'.files.get? ["7b3bb6b022108418"] = some .directory →
      ¬ EndsFrom idleWeaver (SparedBy rootBeside filesBeside) w' := by
    rintro w' hmade ⟨mid, hspared, hends⟩
    have hbefore : mid.files.get? ["7b3bb6b022108418"] = some .directory := by
      obtain rfl | ⟨_, hidle⟩ := hends
      · exact hmade
      · exact (Told.kept hidle _).directory_iff.1 hmade
    have hfree : filesBeside.get? ["7b3bb6b022108418"] = none := rfl
    obtain ⟨place, hlies, -⟩ := hspared ["7b3bb6b022108418"] (by simp [filesBeside])
      (by simp [hbefore, hfree])
    exact not_liesAt_beside hlies
  cases hrun : weave {} rootBeside idleWeaver { inputs := [] } w with
  | ok _ w' => exact hno w' (hwrote.of_ok hrun) (hends.of_ok hrun)
  | error _ w' => exact hno w' (hwrote.of_error hrun) (hends.of_error hrun)

end WeaveStep
