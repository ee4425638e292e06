import WeaveStep.Proofs.Files.SameLinks
import WeaveStep.Proofs.Weave.LaunchCondition
import WeaveStep.Proofs.Weave.Preparation
import WeaveStep.Proofs.Weave.Weaver

/-!
# What a weave leaves beside its outputs

Where the weaver keeps to the directory that it is told to fill, a whole weave keeps to its outputs.

* `FileTree.ChangesAmong X t t'`: what was changed lies among the places `X`, but for new directories and
  for what was added to the file held open.
* **`changesAmong_weave`**: a weave changes files where its root lies, or below, whether it fails or not.
* `FileTree.MayLieAt t root place`: the root lies at the place, or may come to lie there before the weave
  begins.
* **`look_of_changesAmong`**: by a way that passes nothing at such a place, or below, a path still leads
  to what it led to.
-/

namespace WeaveStep

open World

namespace FileTree

variable {t t' t'' : FileTree} {root p : Path} {place q : Location} {node : Node}
  {X Y : Location → Prop}

/-! ## Changes among some places -/

/-- Only what lies among these places was changed, but for new directories and for what was added to
the file held open. -/
structure ChangesAmong (X : Location → Prop) (t t' : FileTree) : Prop where
  outside : ∀ q, ¬X q → Kept t t' q ∨ t.get? q = none ∧ t'.get? q = some .directory
  workingDirectory : t'.workingDirectory = t.workingDirectory
  held : ∀ q, t'.held = some q → t.held = some q

instance : IsPreorder FileTree (ChangesAmong X) where
  refl _ := ⟨fun _ _ => .inl (.inl rfl), rfl, fun _ => id⟩
  trans _ _ _ h h' := by
    refine ⟨fun q hq => ?_, h'.workingDirectory.trans h.workingDirectory, fun q => h.held q ∘ h'.held q⟩
    rcases h.outside q hq with hkept | ⟨hfree, hmade⟩
    · rcases h'.outside q hq with hkept' | ⟨hfree', hmade'⟩
      · exact .inl (hkept.trans hkept' (h.held q))
      · exact .inr ⟨hkept.none_iff.1 hfree', hmade'⟩
    · rcases h'.outside q hq with hkept' | ⟨hfree', -⟩
      · exact .inr ⟨hfree, hkept'.directory_iff.2 hmade⟩
      · rw [hmade] at hfree'
        cases hfree'

theorem ChangesAmong.mono (h : ChangesAmong X t t') (hXY : ∀ q, X q → Y q) : ChangesAmong Y t t' :=
  ⟨fun q hq => h.outside q fun hX => hq (hXY q hX), h.workingDirectory, h.held⟩

theorem Told.changesAmong (h : Told t t') : ChangesAmong X t t' :=
  ⟨fun q _ => .inl (h.kept q), h.workingDirectory, fun _ => h.held.symm.trans⟩

theorem Grows.changesAmong (h : Grows place t t') : ChangesAmong (isWithin place · = true) t t' where
  outside q hq := (h.outside q (Bool.eq_false_iff.2 hq)).imp_right fun hmade => ⟨hmade.1, hmade.2.1⟩
  workingDirectory := h.workingDirectory
  held _ := h.held.symm.trans

section

variable (h : ChangesAmong X t t')
include h

theorem ChangesAmong.kept (hq : ¬X q) (hheld : t.held ≠ some q) (hnode : t.get? q = some node) :
    t'.get? q = some node := by
  rcases h.outside q hq with (hsame | ⟨hopen, -⟩) | ⟨hfree, -⟩
  · rw [hsame, hnode]
  · exact absurd hopen hheld
  · rw [hnode] at hfree
    cases hfree

theorem ChangesAmong.link_iff (hq : ¬X q) (text : String) :
    t'.get? q = some (.link text) ↔ t.get? q = some (.link text) := by
  rcases h.outside q hq with hkept | ⟨hfree, hmade⟩
  · exact hkept.link_iff
  · rw [hfree, hmade]
    simp

theorem ChangesAmong.directory (hq : ¬X q) (hdirectory : t.get? q = some .directory) :
    t'.get? q = some .directory := by
  rcases h.outside q hq with hkept | ⟨-, hmade⟩
  · exact hkept.directory_iff.2 hdirectory
  · exact hmade

theorem ChangesAmong.sameLinks (hX : ∀ q, ¬X q) : SameLinks t t' :=
  ⟨h.workingDirectory, fun q => h.link_iff (hX q), fun q => h.directory (hX q)⟩

/-- Beside a place, the links are the same if all changes lie at it or below it. -/
theorem ChangesAmong.sameLinks_without (hX : ∀ q, X q → isWithin place q = true) :
    SameLinks (t.without place) (t'.without place) where
  workingDirectory := h.workingDirectory
  link q text := by
    rw [get?_without, get?_without]
    split
    · rfl
    · rename_i hq
      exact h.link_iff (fun hXq => hq (hX q hXq)) text
  directory q hq := by
    rw [get?_without] at hq ⊢
    split at hq
    · cases hq
    · rename_i hout
      rw [if_neg hout]
      exact h.directory (fun hXq => hout (hX q hXq)) hq

end

/-! ## Beside a place -/

theorem stays_of_without (t : FileTree) (place : Location) : Stays (t.without place) t := by
  refine stays_of_kept rfl fun q node hq => ?_
  rw [get?_without] at hq
  split at hq
  · cases hq
  · exact hq

/-- What is found beside a place is found in the whole tree. -/
theorem look_of_without {last : LastName} (h : (t.without place).look last p = .ok (q, node)) :
    t.look last p = .ok (q, node) ∧ isWithin place q = false := by
  obtain ⟨hlocate, hnode⟩ := look_eq_ok_iff.1 h
  have hwhole := locate_of_stays (stays_of_without t place) hlocate (by simp [hnode])
  rw [get?_without] at hnode
  split at hnode
  · cases hnode
  · rename_i hout
    exact ⟨look_eq_ok_iff.2 ⟨hwhole, hnode⟩, Bool.eq_false_iff.2 hout⟩

theorem SameLinks.without (h : SameLinks t t') (place : Location) :
    SameLinks (t.without place) (t'.without place) where
  workingDirectory := h.workingDirectory
  link q text := by
    rw [get?_without, get?_without]
    split
    · rfl
    · exact h.link q text
  directory q hq := by
    rw [get?_without] at hq ⊢
    split at hq
    · cases hq
    · rename_i hout
      rw [if_neg hout]
      exact h.directory q hq

/-! ## The outputs -/

/-- The root lies at this location, or above it. -/
def IsOutput (t : FileTree) (root : Path) (q : Location) : Prop :=
  ∃ place, LiesAt t root place ∧ isWithin place q = true

/-- The root lies at the place, or may come to lie there, however many directories and files are
added. -/
def MayLieAt (t : FileTree) (root : Path) (place : Location) : Prop :=
  ∃ t', SameLinks t t' ∧ LiesAt t' root place

/-- A root that lies somewhere comes to lie nowhere else. -/
theorem MayLieAt.eq_of_liesAt {place' : Location} (h : MayLieAt t root place') (htree : IsTree t)
    (hlies : LiesAt t root place) : place' = place := by
  obtain ⟨t', hsame, hlies'⟩ := h
  exact hlies.eq_of_sameLinks htree hsame hlies'

/-- **What a path leads to stays there**, if it does so by a way that passes nothing where the root may
come to lie. First the links stay everywhere, and then what does not lie where the root does. -/
theorem look_of_changesAmong (hsame : SameLinks t t') (hkept : t'.get? q = some node)
    (h : ChangesAmong (IsOutput t' root) t' t'') (hheld : t'.held ≠ some q)
    (hseen : t.look .followed p = .ok (q, node))
    (hbeside : ∀ place, MayLieAt t root place → (t.without place).look .followed p = .ok (q, node)) :
    t''.look .followed p = .ok (q, node) := by
  by_cases hlies : ∃ place, LiesAt t' root place
  · obtain ⟨place, hlies⟩ := hlies
    have hlook := hbeside place ⟨t', hsame, hlies⟩
    have hout := (look_of_without hlook).2
    have hX : ∀ other, IsOutput t' root other → isWithin place other = true := by
      rintro other ⟨place', hlies', hin⟩
      rwa [hlies.unique hlies']
    have hnode : t''.get? q = some node :=
      h.kept (fun hq => by rw [hX q hq] at hout; cases hout) hheld hkept
    have hlinks := trans_of SameLinks (hsame.without place) (h.sameLinks_without hX)
    refine (look_of_without (look_of_sameLinks hlinks ?_ hlook)).1
    rw [get?_without, hout, if_neg Bool.false_ne_true, hnode]
  · have hX : ∀ other, ¬IsOutput t' root other := fun other ⟨place, hlies', _⟩ => hlies ⟨place, hlies'⟩
    exact look_of_sameLinks (trans_of SameLinks hsame (h.sameLinks hX)) (h.kept (hX q) hheld hkept) hseen

end FileTree

open FileTree

/-! ## The weave -/

section

variable {settings : Settings} {root : Path} {version : Option String} {input : WeaveInput}
  {routing : Routing} {invocation : Invocation} {w opened : World} {t t' : FileTree}

theorem FileTree.Cleared.changesAmong {e : FileFailure} (h : Cleared root t (.error e) t') :
    ChangesAmong (IsOutput t root) t t' := by
  cases h with
  | refused => exact refl_of (ChangesAmong _) t
  | @emptied place _ found =>
    refine ⟨fun q hq => .inl (.inl ?_), rfl, fun q hq => ?_⟩
    · rw [get?_eraseInside, if_neg]
      exact fun hin => hq ⟨place, liesAt_of_look found, hin.1⟩
    · rw [eraseInside, Option.filter_eq_some_iff] at hq
      exact hq.1

/-- The front of a weave leaves as it was what its steps do. -/
theorem always_prepare {R : World → World → Prop} [IsPreorder World R]
    (hlog : ∀ level message, Always R (Run.log (ε := WeaveFailure) level stepLogger message))
    (hlibrary : Always R (neededLibrary settings input.javaClasspath))
    (hroute : Always R (route root settings.excludeRules stepLogger input.inputs input.referenced))
    (hassemble : ∀ toWeave classpathOnly boot library,
      Always R (assemble settings root stepLogger toWeave classpathOnly boot library)) :
    Always R (prepare settings root input) :=
  hlibrary.wrapping.bind fun _ => (hlog _ _).bind fun _ => (hlog _ _).bind fun _ =>
    hroute.wrapping.bind fun _ => Always.get.bind fun _ => Always.bind (.ofExcept _ _) fun _ =>
    (hassemble _ _ _ _).wrapping.bind fun _ => .pure _

/-- Nothing is launched by the front of a weave. -/
theorem sameLaunches_prepare (settings : Settings) (root : Path) (input : WeaveInput) :
    Always SameLaunches (prepare settings root input) :=
  always_prepare (fun _ _ => sameLaunches_log _ _ _) (sameLaunches_neededLibrary _ _)
    (sameLaunches_route _ _ _ _ _) fun _ _ _ _ => sameLaunches_assemble _ _ _ _ _ _ _

theorem always_keeps_prepare {I : FileTree → Prop} (htell : ∀ t bytes, I t → I (t.extendHeld bytes))
    (hcopy : ∀ a ∈ input.inputs.flatMap (·.artifacts), isExcluded a.path settings.excludeRules = true →
      Always (Keeps I) (copyIntoSlot root a))
    (hopen : Always (Keeps I) (openSlot root mainSlot)) :
    Always (Keeps fun w : World => I w.files) (prepare settings root input) :=
  always_prepare (R := Keeps fun w : World => I w.files) (fun _ _ => always_keeps_log htell _ _ _)
    (always_keeps_neededLibrary _ _) (always_keeps_route htell hcopy)
    fun _ _ _ _ => always_keeps_assemble htell _ _ _ _ _ _ hopen

theorem Prepares.output_eq (h : Prepares settings root version input w routing invocation opened) :
    invocation.output = under root mainNames := by
  cases h with
  | intro _ _ _ _ _ _ _ _ opens =>
    rw [openSlot_mainSlot] at opens
    obtain ⟨_, _, -, hdone⟩ := bind_eq_ok opens
    obtain ⟨rfl, -⟩ := pure_eq_ok.1 hdone
    exact slotPath_mainSlot root

/-- The files are as `I` says, and the weaver was not launched since `w`. -/
def World.Unlaunched (w : World) (I : FileTree → Prop) (w' : World) : Prop :=
  w.SameLaunches w' ∧ I w'.files

theorem World.Unlaunched.log {I : FileTree → Prop} (htell : ∀ t bytes, I t → I (t.extendHeld bytes))
    {w' : World} (h : w.Unlaunched I w') (r : LogRecord) : w.Unlaunched I (w'.log r) :=
  ⟨trans_of SameLaunches h.1 (sameLaunches_log w' r), keeps_log htell w' r h.2⟩

theorem World.Unlaunched.announced {I : FileTree → Prop} (htell : ∀ t bytes, I t → I (t.extendHeld bytes))
    {w' : World} (h : w.Unlaunched I w') (version : Option String) (incremental : Bool) :
    w.Unlaunched I (w'.announced version incremental) := by
  unfold World.announced
  split
  · exact (h.log htell _).log htell _
  · exact h.log htell _

theorem always_unlaunched {ε α : Type} {I : FileTree → Prop} {act : Run ε α}
    (hsame : Always SameLaunches act) (hkept : Always (Keeps fun w : World => I w.files) act) :
    Always (Keeps (w.Unlaunched I)) act := by
  refine .keeps_of fun w' hw' => yields_of_cases (fun a w'' hact => ?_) fun e w'' hact => ?_
  · exact ⟨trans_of SameLaunches hw'.1 (hsame.of_ok hact), hkept.of_ok hact hw'.2⟩
  · exact ⟨trans_of SameLaunches hw'.1 (hsame.of_error hact), hkept.of_error hact hw'.2⟩

/-- What a weave keeps until the weaver begins is kept by its front. -/
theorem always_unlaunched_prepare {I : FileTree → Prop} (hkept : IsKept root I)
    (hwritten : ∀ a ∈ input.inputs.flatMap (·.artifacts), '/' ∉ a.name.toList ∧ '/' ∉ a.path.name.toList) :
    Always (Keeps (w.Unlaunched I)) (prepare settings root input) :=
  always_unlaunched (sameLaunches_prepare settings root input) (always_keeps_prepare hkept.told
    (fun a ha _ => hkept.copied a (hwritten a ha).1 (hwritten a ha).2) hkept.opened)

/-- In worlds that a weave into the root comes to from `w`, the weaver changes only what lies in the
directory that it is told to fill. -/
def Weaver.KeepsToOutput (weaver : Weaver) (root : Path) (w : World) : Prop :=
  ∀ v i place, w.SameLaunches v → ChangesAmong (IsOutput w.files root) w.files v.files →
    v.files.look .followed i.output = .ok (place, .directory) →
    Yields (weaver.run i) v fun _ v' => ChangesAmong (isWithin place · = true) v.files v'.files

/-- After the outputs are cleared, what a weave keeps is changed among the outputs, and so is what lies
in the slot of the woven classes. -/
theorem exists_keptAmong (htree : IsTree t) (habsolute : root.anchor ≠ .relative)
    (hparts : ∀ name ∈ root.parts, Path.isName name = true)
    (hsteady : IsSteady t root) (hcleared : Cleared root t (.ok ()) t') :
    ∃ I, IsKept root I ∧ I t' ∧ (∀ t'', I t'' → ChangesAmong (IsOutput t root) t t'') ∧
      ∀ t'' place, I t'' → t''.look .followed (under root mainNames) = .ok (place, .directory) →
        ∀ q, isWithin place q = true → IsOutput t root q := by
  rcases steers_or_placeless htree habsolute hparts hsteady hcleared with ⟨hplaceless, rfl⟩ |
    ⟨place, hlies, hsteers, hbeside, hheld, hdirectory⟩
  · refine ⟨_, isKept_told hplaceless hparts, refl_of FileTree.Told _, fun t'' h => h.changesAmong,
      fun t'' place h hlook => ?_⟩
    obtain ⟨mid, -, hmid, -⟩ := locate_above (look_eq_ok_iff.1 hlook).1 (by simp [mainNames])
    exact absurd hmid ((hplaceless.of_told h).found mid)
  · have hin : ∀ q, isWithin place q = true → IsOutput t root q := fun q hq => ⟨place, hlies, hq⟩
    have hfirst : ChangesAmong (IsOutput t root) t t' :=
      ⟨fun q hq => .inl (.inl (hbeside q (Bool.eq_false_iff.2 fun h => hq (hin q h)))),
        hdirectory, hheld⟩
    refine ⟨_, isKept_grows hsteers, hsteers.start,
      fun t'' h => trans_of (ChangesAmong _) hfirst (h.changesAmong.mono hin), fun t'' d h hlook q hq => ?_⟩
    rw [hsteers.found h (fun _ hname => (isPlainName_of_mem_mainNames hname).entry) hlook] at hq
    exact hin q (isWithin_trans (isWithin_append (isWithin_refl place)) hq)

/-- Once the outputs were cleared, there is something that the front of a weave keeps, and by which all
changes lie among the outputs. -/
theorem exists_prepared (settings : Settings) (version : Option String) (habsolute : root.isAbsolute = true)
    (hparts : ∀ name ∈ root.parts, Path.isName name = true) (htree : IsTree w.files)
    (hhere : ∀ name ∈ w.files.workingDirectory, '/' ∉ name.toList)
    (hwritten : AreWritten w.files input.inputs) (hsteady : IsSteady w.files root)
    (hclear : clearSlots root w.files = .ok () t) :
    ∃ I, IsKept root I ∧ (∀ t', I t' → ChangesAmong (IsOutput w.files root) w.files t') ∧
      (∀ t' place, I t' → t'.look .followed (under root mainNames) = .ok (place, .directory) →
        ∀ q, isWithin place q = true → IsOutput w.files root q) ∧
      w.Unlaunched I { w with files := t } ∧
      Yields (prepare settings root input) ({ w with files := t }.announced version input.incremental)
        fun _ w' => w.Unlaunched I w' := by
  have hanchor : root.anchor ≠ .relative := by simpa [Path.isAbsolute] using habsolute
  obtain ⟨I, hkept, hI, hamong, hmain⟩ := exists_keptAmong htree hanchor hparts hsteady
    ((cleared_clearSlots root w.files).of_ok hclear)
  have hcopied : ∀ a ∈ input.inputs.flatMap (·.artifacts),
      '/' ∉ a.name.toList ∧ '/' ∉ a.path.name.toList := fun a ha => hwritten.not_slash_mem hhere ha
  have hcleared : w.Unlaunched I { w with files := t } :=
    ⟨⟨rfl, rfl, rfl, (hamong _ hI).workingDirectory⟩, hI⟩
  exact ⟨I, hkept, hamong, hmain, hcleared, (always_unlaunched_prepare hkept hcopied).keeps
    (hcleared.announced hkept.told version input.incremental)⟩

/-- Up to the slot of the woven classes, a weave changes its outputs only. -/
theorem Prepares.changesAmong (h : Prepares settings root version input w routing invocation opened)
    (habsolute : root.isAbsolute = true) (hparts : ∀ name ∈ root.parts, Path.isName name = true)
    (htree : IsTree w.files) (hhere : ∀ name ∈ w.files.workingDirectory, '/' ∉ name.toList)
    (hwritten : AreWritten w.files input.inputs) (hsteady : IsSteady w.files root) :
    ChangesAmong (IsOutput w.files root) w.files opened.files := by
  obtain ⟨-, cleared, hclear, hprepared⟩ := prepares_iff.1 h
  obtain ⟨I, -, hamong, -, -, hfront⟩ := exists_prepared settings version habsolute hparts htree hhere
    hwritten hsteady hclear
  have hopened : w.Unlaunched I opened := hfront.of_ok hprepared
  exact hamong _ hopened.2

/-- Once the front of a weave is through, what the weaver changes and what is logged is all that is
changed. -/
theorem changesAmong_conclude {weaver : Weaver} {verbose : Bool} {X : Location → Prop}
    (hopened : ChangesAmong X t opened.files)
    (hweaver : Yields (weaver.run invocation) ((opened.told .quiet "Weaving ...").recorded invocation)
      fun _ w' => ChangesAmong X t w'.files) :
    Yields (conclude weaver verbose routing invocation) opened fun _ w' => ChangesAmong X t w'.files := by
  unfold conclude
  split
  · refine yields_bind_of_ok (a := ()) rfl ?_
    exact keeps_log (I := ChangesAmong X t) (fun t' bytes h =>
      trans_of (ChangesAmong X) h (told_extendHeld t' bytes).changesAmong) opened _ hopened
  · have hreported : Yields (runReported weaver verbose invocation) (opened.told .quiet "Weaving ...")
        fun _ w' => ChangesAmong X t w'.files := by
      refine (yields_runReported weaver verbose invocation _).imp fun _ w' hafter => ?_
      obtain ⟨_, ended, hended, hafter⟩ := hweaver.exists_and hafter
      exact trans_of (ChangesAmong X) hended hafter.changesAmong
    exact yields_bind_of_ok (a := ()) rfl (Yields.bind (fun _ w' hok => hreported.of_ok hok)
      fun _ w' herror => hreported.of_error herror)

/-- **A weave changes its outputs only**, if the weaver keeps to the directory that it is told to fill:
whether the weave fails or not, what was changed lies where its root does, or below, but for new
directories and for what was added to the file held open. -/
theorem changesAmong_weave (settings : Settings) (habsolute : root.isAbsolute = true)
    (hparts : ∀ name ∈ root.parts, Path.isName name = true) {weaver : Weaver} (input : WeaveInput)
    (htree : IsTree w.files) (hhere : ∀ name ∈ w.files.workingDirectory, '/' ∉ name.toList)
    (hwritten : AreWritten w.files input.inputs) (hsteady : IsSteady w.files root)
    (hweaver : settings.enabled = true → weaver.KeepsToOutput root w) :
    Yields (weave settings root weaver input) w fun _ w' =>
      ChangesAmong (IsOutput w.files root) w.files w'.files := by
  rw [weave_eq]
  refine Yields.bind (fun _ w₁ h => ?_) fun e w₁ h => ?_
  · obtain ⟨cleared, hclear, rfl⟩ : ∃ cleared, clearSlots root w.files = .ok () cleared ∧
        w₁ = { w with files := cleared } := ⟨_, Run.onFiles_eq_ok.1 h⟩
    obtain ⟨I, hkept, hamong, hmain, hw₁, hfront⟩ := exists_prepared settings weaver.version habsolute hparts
      htree hhere hwritten hsteady hclear
    unfold weaveCleared
    split
    · rename_i henabled
      refine .of_eq (weaveEnabled_eq weaver) (Yields.bind (fun p opened hprepared => ?_)
        fun e w' hfailed => ?_)
      · obtain ⟨routing, invocation⟩ := p
        have hopened : w.Unlaunched I opened := hfront.of_ok hprepared
        have hprepares := prepares_iff.2 ⟨henabled, cleared, hclear, hprepared⟩
        obtain ⟨place, hthere⟩ := hprepares.output_there .quiet "Weaving ..."
        obtain ⟨hsame, htold⟩ := hopened.log hkept.told ⟨.quiet, stepLogger, "Weaving ...", none⟩
        refine changesAmong_conclude (hamong _ hopened.2) ?_
        have hrecorded : ∀ v : World, v.SameLaunches (v.recorded invocation) := fun _ =>
          ⟨rfl, rfl, rfl, rfl⟩
        refine (hweaver henabled _ invocation place (trans_of SameLaunches hsame (hrecorded _)) (hamong _ htold)
          hthere).imp fun _ w' hran => ?_
        exact trans_of (ChangesAmong _) (hamong _ htold)
          (hran.mono (hmain _ place htold (hprepares.output_eq ▸ hthere)))
      · have hends : w.Unlaunched I w' := hfront.of_error hfailed
        exact hamong _ hends.2
    · exact yields_bind_of_ok rfl (hamong _ (hw₁.log hkept.told _).2)
  · obtain ⟨why, files, hclear, rfl, rfl⟩ := Run.onFiles_eq_error.1 h
    exact ((cleared_clearSlots root w.files).of_error hclear).changesAmong

/-- In worlds that a weave into the root comes to from `w`, what the command launches changes only what
lies in the directory that it is told to fill. -/
def World.LaunchKeepsToOutput (w : World) (root : Path) (command : List String) : Prop :=
  ∀ (v : World) (i : Invocation) (place : Location), w.SameLaunches v →
    ChangesAmong (IsOutput w.files root) w.files v.files →
    v.files.look .followed i.output = .ok (place, .directory) →
    Yields (Run.launch (command ++ i.arguments)) v fun _ v' =>
      ChangesAmong (isWithin place · = true) v.files v'.files

theorem keepsToOutput_ofCommand {command : List String} (h : w.LaunchKeepsToOutput root command) :
    (Weaver.ofCommand command version).KeepsToOutput root w := by
  intro v i place hsame hamong hthere
  obtain ⟨launch, after, -, hattempt, -, hrun⟩ := runWeaver_attempt command i v
  have hlogged : FileTree.Told v.files (v.launching (command ++ i.arguments)).files :=
    keeps_log (I := FileTree.Told v.files) (fun t bytes h => trans_of FileTree.Told h (told_extendHeld t bytes))
      v _ (refl_of FileTree.Told v.files)
  have hlaunch := h (v.launching (command ++ i.arguments)) i place
    (trans_of SameLaunches hsame (v.sameLaunches_launching _))
    (trans_of (ChangesAmong _) hamong hlogged.changesAmong) (look_directory_of_stays hlogged.stays hthere)
  have hafter : ChangesAmong (isWithin place · = true) v.files after.files :=
    trans_of (ChangesAmong _) hlogged.changesAmong (yields_of_attempt hlaunch hattempt)
  -- the launch is recorded, and then it is only read
  let I (v' : World) : Prop := ChangesAmong (isWithin place · = true) v.files v'.files
  have hanswer : Always (Keeps I) (Run.ofExcept id (launchAnswer command launch) :
      Run WeaverFailure (List Diagnostic)) := .ofExcept _ _
  exact .of_eq hrun (hanswer.keeps hafter)

end

end WeaveStep
