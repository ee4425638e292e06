import WeaveStep.Proofs.CommandLine.Notice
import WeaveStep.Proofs.Settings.Written
import WeaveStep.Proofs.Weave.Placement
import WeaveStep.Proofs.Weave.View

/-!
# Weaving that is switched off

Where the settings disable weaving, a weave removes its outputs and does no more to the files
(**`tryWeave_disabled`**). `loadOwn_disabled`: a file of settings that does so.
-/

namespace WeaveStep

open Ini Settings Text FileTree CommandLine

/-! ## The weave -/

/-- Where weaving is disabled, the outputs are removed, and nothing else is done to the files. -/
theorem tryWeave_disabled {o : WeaveOptions} {paths : WeavePaths} {settings : Settings} {root : Path}
    {inputs referenced : Bundle} {cleared : FileTree} {w : World}
    (hsettings : findSettings o.settings o.project w = .ok settings w) (hdisabled : settings.enabled = false)
    (hroot : w.files.absolute paths.output = .ok root)
    (hinputs : Bundle.ofPaths w.files paths.inputs = .ok inputs)
    (hreferenced : Bundle.ofPaths w.files paths.referenced = .ok referenced)
    (hclear : clearSlots root w.files = .ok () cleared) (hheld : cleared.held = none) :
    Yields (tryWeave o paths) w fun r w' => r = .ok () ∧ w'.files = cleared := by
  have henabled : ¬settings.enabled = true := by simp [hdisabled]
  unfold tryWeave
  refine yields_bind_of_ok hsettings ?_
  extract_lets rest
  rw [if_neg henabled]
  refine yields_bind_of_ok (a := []) rfl ?_
  refine yields_bind_of_ok (Run.ask_eq_ok.2 ⟨hroot, rfl⟩) ?_
  refine yields_bind_of_ok (Run.ask_eq_ok.2 ⟨hinputs, rfl⟩) ?_
  refine yields_bind_of_ok (Run.ask_eq_ok.2 ⟨hreferenced, rfl⟩) ?_
  have hcleared : Run.onFiles WeaveFailure.files (clearSlots root) w = .ok () { w with files := cleared } :=
    Run.onFiles_eq_ok.2 ⟨hclear, rfl⟩
  have hweave := fun weaver input => show weave settings root weaver input w =
      .ok .disabled ({ w with files := cleared }.log
        ⟨.quiet, stepLogger, "AspectJ weaving is disabled.", none⟩) by
    rw [weave_eq, bind_ok hcleared, weaveCleared, if_neg henabled]
    rfl
  refine yields_bind_of_ok (Run.wrapping_eq_ok.2 (hweave _ _)) ?_
  have hsays : Says (ε := CommandFailure) (Notice.warning "Weaving skipped: disabled in configuration") () :=
    says_warning _
  exact hsays.yields fun _ => ⟨rfl, files_log hheld _⟩

/-! ## The settings -/

/-- A text that switches weaving off. -/
def disabledText : String := "[aspectj]\nenabled = false\n"

/-- What it spells. -/
def disabledDocument : Document := ⟨[("aspectj", [("enabled", some "false")])]⟩

theorem value?_disabled (path name : String) {key : String} (hkey : key ≠ "enabled") :
    Settings.value? disabledDocument path name key = .ok none := by
  have hnone : disabledDocument.value? name key = none := by
    by_cases hname : name = "aspectj"
    · simp [Document.value?, Document.entries, disabledDocument, hname, List.lookup, defaultSection,
        beq_false_of_ne hkey]
    · simp [Document.value?, Document.entries, disabledDocument, List.lookup, defaultSection,
        beq_false_of_ne hname]
  have hresolved : disabledDocument.resolved? name key = .ok none := by
    rw [Document.resolved?, hnone, ite_self]
  rw [Settings.value?, hresolved]

theorem ofDocument_disabled (path : String) :
    ofDocument disabledDocument path = .ok { enabled := false } := by
  have hvalue := fun name (key : String) (hkey : key ≠ "enabled") => value?_disabled path name hkey
  have hswitch : switch disabledDocument path "enabled" true = .ok false := by
    have hgiven : disabledDocument.value? mainSection "enabled" = some (some "false") := rfl
    have hthere : disabledDocument.hasSection mainSection = true := rfl
    have hexpand : expand disabledDocument (maxDepth - 1) mainSection "enabled" "false" "false".toList =
        .ok "false".toList := expand_doubled _ _ _ _ _ "false".toList
    have hresolved : disabledDocument.resolved? mainSection "enabled" = .ok (some "false") := by
      rw [Document.resolved?, hthere, if_pos rfl, hgiven]
      dsimp only
      rw [hexpand]
      rfl
    rw [switch, Settings.value?, hresolved]
    rfl
  have hother : ∀ key otherwise, key ≠ "enabled" →
      switch disabledDocument path key otherwise = .ok otherwise := by
    intro key otherwise hkey
    rw [switch, hvalue mainSection key hkey]
    rfl
  have hlist : ∀ name key, key ≠ "enabled" →
      Settings.list disabledDocument path name key = .ok [] := by
    intro name key hkey
    rw [Settings.list, hvalue name key hkey]
    rfl
  have hrules : rules disabledDocument path = .ok [] := by
    rw [rules, hlist _ _ (by decide)]
    rfl
  unfold ofDocument
  simp only [hvalue, hswitch, hother, hlist, hrules, ne_eq, String.reduceEq, not_false_eq_true]
  rfl

/-- Where a project's file holds that text, weaving is disabled. -/
theorem loadOwn_disabled {t : FileTree} {project : Path}
    (hread : t.read (project.entry projectFile) = .ok (utf8Bytes disabledText)) :
    loadOwn t project = .ok { enabled := false } := by
  have hlines : Ini.readLines (readFrom disabledText.toList) = .ok disabledDocument := by cbv
  have hdocument : ∀ path, documentOf path (utf8Bytes disabledText) = .ok disabledDocument := by
    intro path
    rw [documentOf_of_text path (decodeInBlocks_utf8Bytes disabledText), hlines]
    rfl
  have hload : load t (project.entry projectFile) = .ok { enabled := false } := by
    rw [load_of_read (exists?_of_read hread) hread, except_bind_eq_ok]
    exact ⟨disabledDocument, hdocument _, ofDocument_disabled _⟩
  have hthere : isThere t (project.entry projectFile) = .ok true := by
    rw [isThere, exists?_of_read hread]
    rfl
  rw [loadOwn, except_bind_eq_ok]
  refine ⟨true, hthere, ?_⟩
  rw [if_pos rfl, hload]

end WeaveStep
