import Mathlib
import WeaveStep.Proofs.Ini.Reader
import WeaveStep.Proofs.Text.Utf8
import WeaveStep.Settings.Load

/-!
# Loading settings

A file is loaded to the settings that its text spells, or is rejected with what is wrong with it, but
for five cases (`Settings.LoadsAstray`): **`Settings.load_settles`**. In four of them another failure
comes out, and in the fifth something that is no file is taken for an empty one.
-/

namespace WeaveStep

open Ini Text

namespace Settings

/-! ## Failures of a document -/

/-- All that can go wrong is that settings are rejected, or that a value refers to a key that stands
alone. -/
def RejectsOrRefers {α : Type} (d : Document) (r : Except LoadFailure α) : Prop :=
  ∀ e, r = .error e → (∃ why, e = .rejected why) ∨
    e = .noValue ∧ ∃ name key, d.resolved? name key = .error .noValue

section

variable {α β : Type} {d : Document}

theorem RejectsOrRefers.ok (a : α) : RejectsOrRefers d (.ok a : Except LoadFailure α) := by
  intro e h
  cases h

theorem RejectsOrRefers.rejected (why : SettingsFailure) :
    RejectsOrRefers d (.error (.rejected why) : Except LoadFailure α) := by
  intro e h
  cases h
  exact .inl ⟨why, rfl⟩

theorem RejectsOrRefers.bind {x : Except LoadFailure α} {f : α → Except LoadFailure β}
    (hx : RejectsOrRefers d x) (hf : ∀ a, RejectsOrRefers d (f a)) : RejectsOrRefers d (x >>= f) := by
  intro e h
  cases x with
  | error why =>
    cases h
    exact hx _ rfl
  | ok a => exact hf a e h

theorem RejectsOrRefers.map {x : Except LoadFailure α} (hx : RejectsOrRefers d x) (f : α → β) :
    RejectsOrRefers d (f <$> x) := by
  intro e h
  cases x with
  | error why =>
    cases h
    exact hx _ rfl
  | ok a => cases h

theorem RejectsOrRefers.mapM {f : α → Except LoadFailure β} (hf : ∀ a, RejectsOrRefers d (f a))
    (as : List α) : RejectsOrRefers d (as.mapM f) := by
  induction as with
  | nil => exact .ok []
  | cons a as ih =>
    rw [List.mapM_cons]
    exact (hf a).bind fun b => ih.bind fun bs => .ok (b :: bs)

variable (d) (path : String)

theorem rejectsOrRefers_value? (name key : String) : RejectsOrRefers d (value? d path name key) := by
  unfold value?
  split
  · exact .rejected _
  · rename_i h
    intro e he
    cases he
    exact .inr ⟨rfl, name, key, h⟩
  · exact .ok _
  · exact .ok _

theorem rejectsOrRefers_switch (key : String) (otherwise : Bool) :
    RejectsOrRefers d (switch d path key otherwise) := by
  refine (rejectsOrRefers_value? d path mainSection key).bind fun s => ?_
  cases s with
  | none => exact .ok _
  | some s =>
    dsimp only
    split
    · exact .ok _
    · exact .rejected _

theorem rejectsOrRefers_list (name key : String) : RejectsOrRefers d (list d path name key) :=
  (rejectsOrRefers_value? d path name key).map _

theorem rejectsOrRefers_rules : RejectsOrRefers d (rules d path) := by
  refine (rejectsOrRefers_list d path excludeSection "rules").bind fun raw => .mapM (fun s => ?_) raw
  unfold rule
  split
  · exact .ok _
  · exact .rejected _

theorem rejectsOrRefers_ofDocument : RejectsOrRefers d (ofDocument d path) := by
  have hvalue := rejectsOrRefers_value? d path
  have hswitch := rejectsOrRefers_switch d path
  unfold ofDocument
  refine ((hvalue _ _).map _).bind fun source => ?_
  refine ((hvalue _ _).map _).bind fun target => ?_
  refine ((hvalue _ _).map _).bind fun encoding => ?_
  refine (hswitch _ _).bind fun enabled => ?_
  refine (hswitch _ _).bind fun runtimeNeeded => ?_
  refine (hswitch _ _).bind fun verbose => ?_
  refine (rejectsOrRefers_rules d path).bind fun excludeRules => ?_
  refine (rejectsOrRefers_list d path _ _).bind fun bootClasspath => ?_
  refine (hvalue _ _).bind fun compileSdk => ?_
  refine (hvalue _ _).bind fun androidSdk => ?_
  refine (hvalue _ _).bind fun javaHome => ?_
  refine ((hvalue _ _).map _).bind fun weaverVersion => ?_
  refine (hvalue _ _).bind fun weaverJar => ?_
  exact ((hvalue _ _).map _).bind fun java => .ok _

end

/-- An empty document leaves all defaults. -/
theorem ofDocument_empty (path : String) : ofDocument ⟨[]⟩ path = .ok {} := rfl

/-! ## What a file is loaded to -/

/-- The lines of a text as the reader gets them. -/
def readFrom (text : List Char) : List (List Char) := fedLines (unifyLineEnds text)

/-- The text spells the settings `s`. -/
def IsSpelling (path : String) (text : List Char) (s : Settings) : Prop :=
  ∃ d, readLines (readFrom text) = .ok d ∧ ofDocument d path = .ok s

/-- The settings in the file at a path are loaded, as its text spells them. -/
def LoadsSpelled (t : FileTree) (p : Path) : Prop :=
  ∃ bytes text s, t.read p = .ok bytes ∧ decodeInBlocks bytes = ⟨text, none⟩ ∧
    IsSpelling p.text text s ∧ load t p = .ok s

/-- What comes of loading settings where they are neither those that a text spells nor rejected. -/
inductive LoadsAstray (t : FileTree) (p : Path) : Except LoadFailure Settings → Prop
  /-- It cannot be told whether there is something at the path. -/
  | inaccessible {why : FileFailure} (fails : t.exists? p = .error why) :
      LoadsAstray t p (.error (.inaccessible why))
  /-- Something is there that cannot be read. It is taken for an empty file. -/
  | unread {why : FileFailure} (there : t.exists? p = .ok true) (fails : t.read p = .error why) :
      LoadsAstray t p (.ok {})
  /-- The file is not that of a text, and nothing is wrong with the lines in front of that. -/
  | undecodable {bytes : List UInt8} {why : DecodeFailure} {r : Reading}
      (there : t.exists? p = .ok true) (reads : t.read p = .ok bytes)
      (fails : (decodeInBlocks bytes).failure = some why) (noText : ∀ s, bytes ≠ utf8Bytes s)
      (front : ({} : Reading).lines 1 (finishedLines (decodeInBlocks bytes).text) = .ok r) :
      LoadsAstray t p (.error (.undecodable why))
  /-- A line goes on the value of a key that stands alone. -/
  | nothingToContinue {bytes : List UInt8} (there : t.exists? p = .ok true)
      (reads : t.read p = .ok bytes)
      (goes : GoOnNothing (if (decodeInBlocks bytes).failure.isNone
        then readFrom (decodeInBlocks bytes).text else finishedLines (decodeInBlocks bytes).text)) :
      LoadsAstray t p (.error .nothingToContinue)
  /-- A value refers to a key that stands alone, and no other key is wrong before. -/
  | noValue {bytes : List UInt8} {text : List Char} {d : Document} {name key : String}
      (there : t.exists? p = .ok true) (reads : t.read p = .ok bytes)
      (decodes : decodeInBlocks bytes = ⟨text, none⟩) (spells : readLines (readFrom text) = .ok d)
      (refers : d.resolved? name key = .error .noValue)
      (first : ofDocument d p.text = .error .noValue) : LoadsAstray t p (.error .noValue)

section

variable {t : FileTree} {p : Path} {bytes : List UInt8}

theorem exists?_of_read (h : t.read p = .ok bytes) :
    t.exists? p = .ok true := by
  unfold FileTree.read at h
  cases hstat : t.stat p with
  | error why =>
    rw [hstat] at h
    cases h
  | ok node => rw [FileTree.exists?, FileTree.ask, hstat]

theorem load_of_read (hthere : t.exists? p = .ok true) (hread : t.read p = .ok bytes) :
    load t p = documentOf p.text bytes >>= (ofDocument · p.text) := by
  rw [load, documentAt, hthere]
  dsimp only
  rw [hread]

theorem documentOf_of_text (path : String) {text : List Char}
    (h : decodeInBlocks bytes = ⟨text, none⟩) :
    documentOf path bytes = (readLines (readFrom text)).mapError (.ofStop path) := by
  rw [documentOf, h]
  rfl

/-- What is loaded from a file that holds a text. -/
theorem load_of_text {text : List Char} (hread : t.read p = .ok (utf8Bytes (String.ofList text))) :
    load t p = (readLines (readFrom text)).mapError (.ofStop p.text) >>= (ofDocument · p.text) := by
  have hdecoded := decodeInBlocks_utf8Bytes (String.ofList text)
  rw [String.toList_ofList] at hdecoded
  rw [load_of_read (exists?_of_read hread) hread, documentOf_of_text p.text hdecoded]

theorem load_of_document {text : List Char} {d : Document}
    (hread : t.read p = .ok (utf8Bytes (String.ofList text)))
    (hspells : readLines (readFrom text) = .ok d) : load t p = ofDocument d p.text := by
  rw [load_of_text hread, hspells]
  rfl

theorem documentOf_of_failure (path : String) {why : DecodeFailure}
    (h : (decodeInBlocks bytes).failure = some why) : documentOf path bytes =
      match ({} : Reading).lines 1 (finishedLines (decodeInBlocks bytes).text) with
      | .ok _ => .error (.undecodable why)
      | .error stop => .error (.ofStop path stop) := by
  unfold documentOf
  dsimp only
  split
  · next hnone => exact absurd (hnone.symm.trans h) (Option.some_ne_none why).symm
  · next other hother =>
    obtain rfl : other = why := Option.some_inj.1 (hother.symm.trans h)
    rfl

/-- Loading goes astray wherever it may. -/
theorem load_of_astray {ending : Except LoadFailure Settings} (h : LoadsAstray t p ending) :
    load t p = ending := by
  cases h with
  | inaccessible fails =>
    rw [load, documentAt, fails]
    rfl
  | unread there fails =>
    rw [load, documentAt, there]
    dsimp only
    rw [fails]
    exact ofDocument_empty p.text
  | undecodable there reads fails noText front =>
    rw [load_of_read there reads, documentOf_of_failure p.text fails, front]
    rfl
  | @nothingToContinue bytes there reads goes =>
    rw [load_of_read there reads]
    cases hfailure : (decodeInBlocks bytes).failure with
    | none =>
      have hdecoded : decodeInBlocks bytes = ⟨(decodeInBlocks bytes).text, none⟩ := by
        rw [← hfailure]
      have hlines := readLines_nothingToContinue_iff.2 (by simpa [hfailure] using goes)
      rw [documentOf_of_text p.text hdecoded, hlines]
      rfl
    | some why =>
      rw [hfailure, Option.isNone_some, if_neg (by decide)] at goes
      have hlines := Reading.lines_nothingToContinue_iff.2 goes
      rw [documentOf_of_failure p.text hfailure, hlines]
      rfl
  | noValue there reads decodes spells refers first =>
    rw [load_of_read there reads, documentOf_of_text p.text decodes, spells]
    exact first

/-- The file at the path is that of a text. -/
theorem settles_of_text {text : List Char} (hthere : t.exists? p = .ok true)
    (hread : t.read p = .ok bytes) (hdecoded : decodeInBlocks bytes = ⟨text, none⟩) :
    LoadsSpelled t p ∨ (∃ why, load t p = .error (.rejected why)) ∨ LoadsAstray t p (load t p) := by
  have hload : load t p =
      (readLines (readFrom text)).mapError (.ofStop p.text) >>= (ofDocument · p.text) := by
    rw [load_of_read hthere hread, documentOf_of_text p.text hdecoded]
  cases hlines : readLines (readFrom text) with
  | error stop =>
    rw [hlines] at hload
    cases stop with
    | failure why => exact .inr (.inl ⟨.unreadable p.text why, hload⟩)
    | nothingToContinue =>
      have hgoes := readLines_nothingToContinue_iff.1 hlines
      exact .inr (.inr (hload ▸ .nothingToContinue hthere hread (by simpa [hdecoded] using hgoes)))
  | ok d =>
    have hspelled : load t p = ofDocument d p.text := by
      rw [hload, hlines]
      rfl
    cases hsettings : ofDocument d p.text with
    | ok s =>
      exact .inl ⟨bytes, text, s, hread, hdecoded, ⟨d, hlines, hsettings⟩, hspelled.trans hsettings⟩
    | error e =>
      rw [hspelled, hsettings]
      obtain ⟨why, rfl⟩ | ⟨rfl, name, key, hrefers⟩ :=
        rejectsOrRefers_ofDocument d p.text e hsettings
      · exact .inr (.inl ⟨why, rfl⟩)
      · exact .inr (.inr (.noValue hthere hread hdecoded hlines hrefers hsettings))

/-- The file at the path is that of no text. -/
theorem settles_of_failure {why : DecodeFailure} (hthere : t.exists? p = .ok true)
    (hread : t.read p = .ok bytes) (hfailure : (decodeInBlocks bytes).failure = some why) :
    LoadsSpelled t p ∨ (∃ why, load t p = .error (.rejected why)) ∨ LoadsAstray t p (load t p) := by
  have hnone : ∀ s, bytes ≠ utf8Bytes s := by
    rintro s rfl
    rw [decodeInBlocks_utf8Bytes] at hfailure
    cases hfailure
  rw [load_of_read hthere hread, documentOf_of_failure p.text hfailure]
  cases hlines : ({} : Reading).lines 1 (finishedLines (decodeInBlocks bytes).text) with
  | ok r => exact .inr (.inr (.undecodable hthere hread hfailure hnone hlines))
  | error stop =>
    cases stop with
    | failure why => exact .inr (.inl ⟨.unreadable p.text why, rfl⟩)
    | nothingToContinue =>
      refine .inr (.inr (.nothingToContinue hthere hread ?_))
      rw [hfailure, Option.isNone_some, if_neg (by decide)]
      exact Reading.lines_nothingToContinue_iff.1 hlines

end

/-- **What loading settings comes to**, whatever stands at a path: the settings that its text spells,
or the path is rejected, or loading goes astray. It does so exactly in the five ways of
`LoadsAstray`. -/
theorem load_settles (t : FileTree) (p : Path) :
    (LoadsSpelled t p ∨ (∃ why, load t p = .error (.rejected why)) ∨ LoadsAstray t p (load t p)) ∧
    ∀ ending, LoadsAstray t p ending → load t p = ending := by
  refine ⟨?_, fun _ => load_of_astray⟩
  cases hthere : t.exists? p with
  | error why =>
    have hastray := LoadsAstray.inaccessible hthere
    exact .inr (.inr (load_of_astray hastray ▸ hastray))
  | ok there =>
    cases there with
    | false =>
      refine .inr (.inl ⟨.notFound p.text, ?_⟩)
      rw [load, documentAt, hthere]
      rfl
    | true =>
      cases hread : t.read p with
      | error why =>
        have hastray := LoadsAstray.unread hthere hread
        exact .inr (.inr (load_of_astray hastray ▸ hastray))
      | ok bytes =>
        cases hfailure : (decodeInBlocks bytes).failure with
        | none =>
          have hdecoded : decodeInBlocks bytes = ⟨(decodeInBlocks bytes).text, none⟩ := by
            rw [← hfailure]
          exact settles_of_text hthere hread hdecoded
        | some why => exact settles_of_failure hthere hread hfailure

/-- A directory is taken for an empty file, and leaves all defaults. -/
theorem load_directory :
    load ⟨[([], .directory), (["aspectj.ini"], .directory)], [], none⟩ ⟨.root, ["aspectj.ini"]⟩ =
      .ok {} := by
  have hread : FileTree.read ⟨[([], .directory), (["aspectj.ini"], .directory)], [], none⟩
      ⟨.root, ["aspectj.ini"]⟩ = .error (.refusal .isDirectory "/aspectj.ini") := by
    cbv
  exact (load_settles _ _).2 _ (.unread (by cbv) hread)

/-- A line that goes on a key that stands alone. -/
def loneKeyText : String := "[aspectj]\njava\n more\n"

/-- The file with that line is neither loaded nor rejected. -/
theorem not_load_settles :
    ¬ ∀ (t : FileTree) (p : Path), LoadsSpelled t p ∨ ∃ why, load t p = .error (.rejected why) := by
  intro hall
  let t : FileTree :=
    ⟨[([], .directory), (["aspectj.ini"], .file (utf8Bytes loneKeyText) false)], [], none⟩
  have hthere : t.exists? ⟨.root, ["aspectj.ini"]⟩ = .ok true := by cbv
  have hread : t.read ⟨.root, ["aspectj.ini"]⟩ = .ok (utf8Bytes loneKeyText) := by cbv
  have hlines : readLines (readFrom loneKeyText.toList) = .error .nothingToContinue := by
    cbv
  have hload : load t ⟨.root, ["aspectj.ini"]⟩ = .error .nothingToContinue := by
    rw [load_of_read hthere hread, documentOf_of_text _ (decodeInBlocks_utf8Bytes loneKeyText), hlines]
    rfl
  obtain ⟨_, _, _, -, -, -, hloaded⟩ | ⟨_, hrejected⟩ := hall t ⟨.root, ["aspectj.ini"]⟩
  · rw [hload] at hloaded
    cases hloaded
  · rw [hload] at hrejected
    cases hrejected

end Settings

end WeaveStep
