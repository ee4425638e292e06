import WeaveStep.Proofs.Ini.Reader
import WeaveStep.Proofs.Lists

/-!
# Drafts

A line changes nothing, or goes on the draft of the last key, or begins something, a section or a key
(`Reading.line_cases`). What begins leaves the drafts before it as they are
(`Reading.settled_of_opening`), and from then on no line goes to them (`Reading.Settled.line`). The
section that keys belong to is always there (`Reading.openIsThere_of_lines`).
-/

namespace WeaveStep.Ini

open Text

namespace Reading

variable {r r' : Reading} {name key name' key' : String} {number : Nat} {l text : List Char}
  {ls : List (List Char)} {draft : Draft}

/-! ## Drafts -/

/-- What the reader has of a key. -/
def drafted? (r : Reading) (name key : String) : Option Draft := (r.drafts name).find? (·.key = key)

theorem lookup_onSection (r : Reading) (name name' : String) (f : List Draft → List Draft) :
    (r.onSection name f).sections.lookup name' =
      (r.sections.lookup name').map fun drafts => if name' = name then f drafts else drafts := by
  have hsections : (r.onSection name f).sections =
      r.sections.map fun s => (s.1, if s.1 = name then f s.2 else s.2) := by
    refine List.map_congr_left fun s _ => ?_
    split <;> rfl
  rw [hsections, lookup_map_snd (fun n drafts => if n = name then f drafts else drafts)]

theorem key_of_drafted? (h : r.drafted? name key = some draft) : draft.key = key := by
  simpa using List.find?_some h

theorem isSome_lookup_of_drafted? (h : r.drafted? name key = some draft) :
    (r.sections.lookup name).isSome := by
  cases hlookup : r.sections.lookup name with
  | some drafts => rfl
  | none =>
    rw [drafted?, drafts, hlookup] at h
    cases h

theorem drafted?_extend (r : Reading) (name key name' key' : String) (l : List Char) :
    (r.extend name key l).drafted? name' key' = (r.drafted? name' key').map fun d =>
      if name' = name ∧ key' = key then { d with lines := d.lines.map (· ++ [l]) } else d := by
  unfold drafted? drafts extend
  rw [lookup_onSection]
  cases r.sections.lookup name' with
  | none => rfl
  | some drafts =>
    simp only [Option.map_some, Option.getD_some]
    by_cases hname : name' = name
    · have hkeys : ((fun d : Draft => decide (d.key = key')) ∘ fun d =>
          if d.key = key then { d with lines := d.lines.map (· ++ [l]) } else d) =
            fun d => decide (d.key = key') := by
        funext d
        dsimp only [Function.comp_apply]
        split <;> rfl
      rw [if_pos hname, List.find?_map, hkeys]
      refine Option.map_congr fun d hd => ?_
      have hfound : d.key = key' := by simpa using List.find?_some hd
      simp [hname, hfound]
    · simp [hname]

theorem continued?_eq_some (h : r.continued? = some (name, draft)) :
    r.open? = some name ∧ r.key? = some draft.key ∧ r.drafted? name draft.key = some draft := by
  unfold continued? at h
  split at h
  · rename_i hopen hlast
    split at h
    · cases h
    · obtain ⟨found, hfound, heq⟩ := Option.map_eq_some_iff.1 h
      cases heq
      have hkey := key_of_drafted? hfound
      rw [hkey]
      exact ⟨hopen, hlast, hfound⟩
  · cases h

/-! ## What a line does -/

/-- Takes in a line that begins something: a section or a key. -/
def opening (r : Reading) (number : Nat) (l : List Char) : Except Stop Reading :=
  match headerName? (trimChars l), r.open? with
  | some name, _ => ({ r with indent := indentation l }.header number (String.ofList name)).mapError .failure
  | none, none => .error (.failure (.noSectionHeader number (String.ofList l)))
  | none, some name =>
    ({ r with indent := indentation l }.option number name l (trimChars l)).mapError .failure

theorem line_eq : r.line number l =
    if (trimChars l).isEmpty then .ok r.blank
    else if isComment (trimChars l) then .ok r
    else
      match if r.indent < indentation l then r.continued? else none with
      | some (_, ⟨_, none⟩) => .error .nothingToContinue
      | some (name, ⟨key, some _⟩) => .ok (r.extend name key (trimChars l))
      | none => r.opening number l := rfl

theorem line_of_aside (h : trimChars l = [] ∨ isComment (trimChars l) = true) :
    r.line number l = .ok (if trimChars l = [] then r.blank else r) := by
  rw [line_eq]
  split
  · rename_i hblank
    rw [if_pos (by simpa using hblank)]
  · rename_i htold
    have hne : trimChars l ≠ [] := by simpa using htold
    rw [if_pos (h.resolve_left hne), if_neg hne]

theorem line_of_front (htold : trimChars l ≠ []) (hcomment : isComment (trimChars l) = false)
    (hfront : ¬ r.indent < indentation l) : r.line number l = r.opening number l := by
  rw [line_eq, if_neg (by simpa using htold), if_neg (by simp [hcomment]), if_neg hfront]

theorem line_of_continued {values : List (List Char)} (htold : trimChars l ≠ [])
    (hcomment : isComment (trimChars l) = false) (hindent : r.indent < indentation l)
    (hdraft : r.continued? = some (name, ⟨key, some values⟩)) :
    r.line number l = .ok (r.extend name key (trimChars l)) := by
  rw [line_eq, if_neg (by simpa using htold), if_neg (by simp [hcomment]), if_pos hindent, hdraft]

theorem header_eq_ok (h : r.header number name = .ok r') :
    r'.open? = some name ∧ r'.key? = none ∧ (r'.sections.lookup name).isSome ∧
      ∀ n, r'.drafts n = r.drafts n := by
  unfold header at h
  dsimp only at h
  split at h
  · rename_i hnew
    cases h
    have hnone : r.sections.lookup name = none := by simpa using hnew
    refine ⟨rfl, rfl, by simp [List.lookup_append], fun n => ?_⟩
    by_cases hn : n = name
    · simp [drafts, List.lookup_append, hn, hnone]
    · have hother : (n == name) = false := by simpa using hn
      simp [drafts, List.lookup_append, List.lookup_cons, hother]
  · rename_i hthere
    split at h
    · cases h
      exact ⟨rfl, rfl, by simpa [Option.isSome_iff_ne_none] using hthere, fun _ => rfl⟩
    · cases h

/-- The key in a line. -/
def keyOf (text : List Char) : String := smallLetters (String.ofList (keyAndValue text).1)

theorem option_eq_ok (h : r.option number name l text = .ok r') :
    r.drafted? name (keyOf text) = none ∧ r'.open? = r.open? ∧ r'.key? = some (keyOf text) ∧
      r'.indent = r.indent ∧ ∀ n, r'.sections.lookup n = (r.sections.lookup n).map fun drafts =>
        if n = name then drafts ++ [⟨keyOf text, (keyAndValue text).2.map fun v => [v]⟩] else drafts := by
  unfold option at h
  dsimp only at h
  generalize hr : (if (keyAndValue text).1.isEmpty then
    { r with malformed := r.malformed ++ [(number, String.ofList l)] } else r) = r₀ at h
  have hsections : r₀.sections = r.sections ∧ r₀.open? = r.open? ∧ r₀.indent = r.indent := by
    rw [← hr]
    split <;> exact ⟨rfl, rfl, rfl⟩
  obtain ⟨hsections, hopen, hindent⟩ := hsections
  split at h
  · cases h
  · rename_i hnew
    cases h
    refine ⟨?_, hopen, rfl, hindent, fun n => ?_⟩
    · rw [drafted?, drafts, ← hsections]
      have hkeys : ∀ d ∈ r₀.drafts name, d.key ≠ keyOf text := by simpa [keyOf] using hnew
      simpa [drafts] using hkeys
    · rw [← hsections]
      exact lookup_onSection r₀ name n (· ++ [⟨keyOf text, (keyAndValue text).2.map fun v => [v]⟩])

theorem opening_eq_ok (h : r.opening number l = .ok r') :
    (∃ found, headerName? (trimChars l) = some found ∧
      { r with indent := indentation l }.header number (String.ofList found) = .ok r') ∨
    headerName? (trimChars l) = none ∧ ∃ name, r.open? = some name ∧
      { r with indent := indentation l }.option number name l (trimChars l) = .ok r' := by
  unfold opening at h
  split at h
  · rename_i hfound
    exact .inl ⟨_, hfound, except_mapError_eq_ok.1 h⟩
  · cases h
  · rename_i hnone hopen
    exact .inr ⟨hnone, _, hopen, except_mapError_eq_ok.1 h⟩

/-- A line changes nothing, or goes on the last draft, or begins something. -/
theorem line_cases (h : r.line number l = .ok r') :
    r' = r ∨ (∃ name draft text, r.continued? = some (name, draft) ∧ r' = r.extend name draft.key text) ∨
      r.opening number l = .ok r' := by
  rw [line_eq] at h
  split at h
  · cases h
    unfold blank
    split
    · rename_i hdraft
      exact .inr (.inl ⟨_, _, [], hdraft, rfl⟩)
    · exact .inl rfl
  · split at h
    · cases h
      exact .inl rfl
    · split at h
      · cases h
      · rename_i name key values hdraft
        cases h
        split at hdraft
        · exact .inr (.inl ⟨name, ⟨key, some values⟩, trimChars l, hdraft, rfl⟩)
        · cases hdraft
      · exact .inr (.inr h)

/-- What every line keeps, reading keeps. -/
theorem lines_keeps {P : Reading → Prop}
    (hstep : ∀ {r r' : Reading} {number : Nat} {l : List Char}, P r → r.line number l = .ok r' → P r')
    (h : P r) (hlines : r.lines number ls = .ok r') : P r' := by
  induction ls generalizing r number with
  | nil =>
    cases hlines
    exact h
  | cons l ls ih =>
    rw [lines] at hlines
    obtain ⟨mid, hline, hrest⟩ := except_bind_eq_ok.1 hlines
    exact ih (hstep h hline) hrest

/-! ## Drafts that are finished -/

/-- The draft of a key to which no further line goes. -/
structure Settled (r : Reading) (name key : String) (draft : Draft) : Prop where
  draft : r.drafted? name key = some draft
  past : r.open? = some name → r.key? ≠ some key

/-- Whatever begins leaves the drafts before it finished. -/
theorem settled_of_opening (hdraft : r.drafted? name key = some draft)
    (h : r.opening number l = .ok r') : r'.Settled name key draft := by
  obtain ⟨found, -, hheader⟩ | ⟨-, name', hopen, hoption⟩ := opening_eq_ok h
  · obtain ⟨-, hlast, -, hdrafts⟩ := header_eq_ok hheader
    refine ⟨?_, fun _ => by simp [hlast]⟩
    rw [drafted?, hdrafts]
    exact hdraft
  · obtain ⟨hnew, hopen', hlast, -, hsections⟩ := option_eq_ok hoption
    constructor
    · rw [drafted?, drafts] at hdraft ⊢
      rw [hsections]
      cases hlookup : r.sections.lookup name with
      | none =>
        rw [hlookup] at hdraft
        cases hdraft
      | some drafts =>
        rw [hlookup, Option.getD_some] at hdraft
        rw [Option.map_some, Option.getD_some]
        split
        · rw [List.find?_append, hdraft, Option.some_or]
        · exact hdraft
    · intro hname hkey
      rw [hopen', hopen] at hname
      rw [hlast] at hkey
      cases hname
      cases hkey
      have hboth : r.drafted? name (keyOf (trimChars l)) = none := hnew
      rw [hdraft] at hboth
      cases hboth

theorem Settled.extend (h : r.Settled name key draft) {draft' : Draft}
    (hdraft : r.continued? = some (name', draft')) (l : List Char) :
    (r.extend name' draft'.key l).Settled name key draft := by
  obtain ⟨hopen, hlast, -⟩ := continued?_eq_some hdraft
  refine ⟨?_, h.past⟩
  have hother : ¬ (name = name' ∧ key = draft'.key) := by
    rintro ⟨rfl, rfl⟩
    exact h.past hopen hlast
  rw [drafted?_extend, h.draft, Option.map_some, if_neg hother]

theorem Settled.line (h : r.Settled name key draft) (hline : r.line number l = .ok r') :
    r'.Settled name key draft := by
  obtain rfl | ⟨name', draft', text, hdraft, rfl⟩ | hopening := line_cases hline
  · exact h
  · exact h.extend hdraft text
  · exact settled_of_opening h.draft hopening

/-! ## The open section -/

/-- The section that keys belong to is there. -/
def OpenIsThere (r : Reading) : Prop := ∀ name, r.open? = some name → (r.sections.lookup name).isSome

theorem OpenIsThere.extend (h : r.OpenIsThere) (name key : String) (l : List Char) :
    (r.extend name key l).OpenIsThere := by
  intro name' hopen
  have hthere := h name' hopen
  rw [Reading.extend, lookup_onSection, Option.isSome_map]
  exact hthere

theorem OpenIsThere.line (h : r.OpenIsThere) (hline : r.line number l = .ok r') : r'.OpenIsThere := by
  obtain rfl | ⟨_, _, _, -, rfl⟩ | hopening := line_cases hline
  · exact h
  · exact h.extend _ _ _
  · intro name hname
    obtain ⟨_, -, hheader⟩ | ⟨-, _, -, hoption⟩ := opening_eq_ok hopening
    · obtain ⟨hopen, -, hthere, -⟩ := header_eq_ok hheader
      rw [hopen] at hname
      cases hname
      exact hthere
    · obtain ⟨-, hopen, -, -, hsections⟩ := option_eq_ok hoption
      rw [hsections, Option.isSome_map]
      exact h name (hopen.symm.trans hname)

/-- It always is. -/
theorem openIsThere_of_lines (h : ({} : Reading).lines 1 ls = .ok r) : r.OpenIsThere :=
  lines_keeps OpenIsThere.line (by rintro name ⟨⟩) h

end Reading

end WeaveStep.Ini
