import WeaveStep.Proofs.Ini.Outline
import WeaveStep.Proofs.Ini.Written

/-!
# Keys with lines below them

A key may stand alone in its line, with the delimiter, and its value in indented lines of their own
(`Below`). Then these lines are the value (**`readLines_listed`**), whatever is in them and around
them: each goes to the draft of the key (`Reading.lines_below`), the next line at the front begins
something else (`Reading.drafted?_of_rest`), and whether the other lines can be read does not depend on
them, since they leave no trace in the outline.
-/

namespace WeaveStep.Ini

open Text

/-! ## Lines below a key -/

/-- The line of a key with nothing after the delimiter, at the front. -/
structure IsKeyLine (key : String) (l : List Char) : Prop where
  text : trimChars l = keyLine key []
  front : indentation l = 0

/-- Below a key stand these texts, each in an indented line of its own; lines that are blank and
comments may stand among them. -/
inductive Below : List (List Char) → List (List Char) → Prop
  | nil : Below [] []
  | item {l text : List Char} {ls texts : List (List Char)} (indented : 0 < indentation l)
      (told : trimChars l = text) (rest : Below ls texts) : Below (l :: ls) (text :: texts)
  | aside {l : List Char} {ls texts : List (List Char)}
      (untold : trimChars l = [] ∨ isComment (trimChars l) = true) (rest : Below ls texts) :
      Below (l :: ls) texts

/-- The first of these lines, if there is one, tells something at its front. -/
def BeginsAtFront (ls : List (List Char)) : Prop :=
  ∀ l ∈ ls.head?, trimChars l ≠ [] ∧ isComment (trimChars l) = false ∧ indentation l = 0

theorem beginsAtFront_nil : BeginsAtFront [] := by rintro _ ⟨⟩

/-- The last of these lines is that of the key, and the section `name` is open there. -/
inductive EndsWithKey (name key : String) : List (List Char) → Prop
  | intro {before : List (List Char)} {l : List Char} {r : Reading}
      (reads : ({} : Reading).lines 1 before = .ok r) (within : r.open? = some name)
      (alone : IsKeyLine key l) : EndsWithKey name key (before ++ [l])

namespace Reading

variable {r r' : Reading} {name key : String} {number : Nat} {l : List Char}
  {ls values : List (List Char)}

/-- The reader stands below the line of a key, at whose draft it goes on. -/
structure Under (r : Reading) (name key : String) (values : List (List Char)) : Prop where
  within : r.open? = some name
  last : r.key? = some key
  front : r.indent = 0
  draft : r.drafted? name key = some ⟨key, some values⟩

theorem Under.continued?_eq (h : r.Under name key values) (hkey : key ≠ "") :
    r.continued? = some (name, ⟨key, some values⟩) := by
  have hfind := h.draft
  unfold drafted? at hfind
  rw [continued?, h.within, h.last]
  dsimp only
  rw [if_neg hkey, hfind]
  rfl

theorem Under.extend (h : r.Under name key values) (l : List Char) :
    (r.extend name key l).Under name key (values ++ [l]) := by
  refine ⟨h.within, h.last, h.front, ?_⟩
  rw [drafted?_extend, h.draft]
  simp

/-- Below the line of a key, its draft has one line, which is empty. -/
theorem under_of_keyLine (hthere : r.OpenIsThere) (hopen : r.open? = some name) (hkey : IsKey key)
    (hl : IsKeyLine key l) (h : r.line number l = .ok r') : r'.Under name key [[]] := by
  have hhead : (keyLine key []).head? = key.toList.head? := head?_keyLine hkey
  have hheader : headerName? (trimChars l) = none :=
    hl.text ▸ headerName?_of_front fun c hc => (hkey.front c (hhead ▸ hc)).1
  have hcomment : isComment (trimChars l) = false :=
    hl.text ▸ isComment_of_front fun c hc => (hkey.front c (hhead ▸ hc)).2
  have htold : trimChars l ≠ [] := by simp [hl.text, keyLine]
  have hvalue : keyAndValue (trimChars l) = (key.toList, some []) := by
    rw [hl.text, keyAndValue_keyLine hkey]
    rfl
  have hkeyOf : keyOf (trimChars l) = key := by
    rw [keyOf, hvalue, String.ofList_toList, hkey.small]
  rw [line_of_front htold hcomment (by simp [hl.front])] at h
  obtain ⟨_, hfound, -⟩ | ⟨-, name', hopen', hoption⟩ := opening_eq_ok h
  · rw [hheader] at hfound
    cases hfound
  · obtain rfl : name = name' := Option.some.inj (hopen.symm.trans hopen')
    obtain ⟨hnew, hwithin, hlast, hindent, hsections⟩ := option_eq_ok hoption
    refine ⟨hwithin.trans hopen, hkeyOf ▸ hlast, hindent.trans hl.front, ?_⟩
    have hnew : r.drafted? name key = none := hkeyOf ▸ hnew
    obtain ⟨drafts, hdrafts⟩ := Option.isSome_iff_exists.1 (hthere name hopen)
    have hsection : r'.sections.lookup name = some (drafts ++ [⟨key, some [[]]⟩]) := by
      rw [hsections, hkeyOf, hvalue]
      dsimp only
      rw [hdrafts, Option.map_some, if_pos rfl]
      rfl
    have hnone : drafts.find? (·.key = key) = none := by
      rwa [drafted?, Reading.drafts, hdrafts] at hnew
    rw [drafted?, Reading.drafts, hsection, Option.getD_some, List.find?_append, hnone]
    simp

/-- The lines below the key go to its draft, comments apart, and leave the outline as it is. -/
theorem lines_below (h : r.Under name key values) (hkey : key ≠ "") {below texts : List (List Char)}
    (hbelow : Below below texts) (htexts : ∀ text ∈ texts, text ≠ [] ∧ isComment text = false) :
    ∃ r' told, r.lines number below = .ok r' ∧ r'.Under name key (values ++ told) ∧
      told.filter (!·.isEmpty) = texts ∧ r'.outline = r.outline := by
  induction hbelow generalizing r number values with
  | nil => exact ⟨r, [], rfl, by simpa using h, rfl, rfl⟩
  | @item l text ls texts indented told rest ih =>
    subst told
    obtain ⟨⟨htold, hcomment⟩, htexts⟩ := List.forall_mem_cons.1 htexts
    have hline : r.line number l = .ok (r.extend name key (trimChars l)) :=
      line_of_continued htold hcomment (by rw [h.front]; exact indented) (h.continued?_eq hkey)
    obtain ⟨r', told, hrest, hunder, hfilter, houtline⟩ :=
      @ih _ (number + 1) _ (h.extend (trimChars l)) htexts
    refine ⟨r', trimChars l :: told, ?_, by simpa using hunder, by simp [htold, hfilter], ?_⟩
    · rw [lines, hline]
      exact hrest
    · rw [houtline, outline_extend]
  | @aside l ls texts untold rest ih =>
    rw [lines, line_of_aside untold]
    by_cases hblank : trimChars l = []
    · rw [if_pos hblank]
      have hextend : r.blank = r.extend name key [] := by rw [blank, h.continued?_eq hkey]
      obtain ⟨r', told, hrest, hunder, hfilter, houtline⟩ := @ih _ (number + 1) _ (h.extend []) htexts
      refine ⟨r', [] :: told, ?_, by simpa using hunder, by simpa using hfilter, ?_⟩
      · rw [hextend]
        exact hrest
      · rw [houtline, outline_extend]
    · rw [if_neg hblank]
      exact ih h htexts

/-- What comes at the front of a line leaves the draft as it is. -/
theorem drafted?_of_rest (h : r.Under name key values) (hrest : BeginsAtFront ls)
    (hr : r.lines number ls = .ok r') : r'.drafted? name key = some ⟨key, some values⟩ := by
  cases ls with
  | nil =>
    cases hr
    exact h.draft
  | cons l ls =>
    obtain ⟨htold, hcomment, hfront⟩ := hrest l rfl
    rw [lines] at hr
    obtain ⟨mid, hline, hr⟩ := except_bind_eq_ok.1 hr
    rw [line_of_front htold hcomment (by simp [hfront])] at hline
    exact (lines_keeps (P := (·.Settled name key ⟨key, some values⟩)) Settled.line
      (settled_of_opening h.draft hline) hr).draft

/-! ## The document -/

theorem value?_document {draft : Draft} (h : r.drafted? name key = some draft) :
    r.document.value? name key = some (draft.lines.map joined) ∧
      r.document.hasSection name = true := by
  have hsection : r.document.sections.lookup name =
      (r.sections.lookup name).map (·.map fun d => (d.key, d.lines.map joined)) :=
    lookup_map_snd (fun _ (drafts : List Draft) => drafts.map fun d : Draft => (d.key, d.lines.map joined))
      r.sections name
  have hlookup : ∀ drafts : List Draft, (drafts.map fun d => (d.key, d.lines.map joined)).lookup key =
      (drafts.find? (·.key = key)).map (·.lines.map joined) :=
    fun drafts => lookup_map_find? Draft.key (·.lines.map joined) drafts key
  obtain ⟨drafts, hdrafts⟩ := Option.isSome_iff_exists.1 (isSome_lookup_of_drafted? h)
  rw [drafted?, Reading.drafts, hdrafts, Option.getD_some] at h
  rw [Document.value?, Document.entries, Document.hasSection, hsection, hdrafts, Option.map_some,
    Option.getD_some, hlookup, h]
  simp

end Reading

variable {name key : String} {front below rest texts : List (List Char)}

theorem readLines_eq_ok {ls : List (List Char)} {d : Document} : readLines ls = .ok d ↔
    ∃ r, ({} : Reading).lines 1 ls = .ok r ∧ r.malformed = [] ∧ d = r.document := by
  unfold readLines
  rw [except_bind_eq_ok]
  refine exists_congr fun r => and_congr_right fun _ => ?_
  split
  · rename_i hnone
    simpa [List.isEmpty_iff.1 hnone, pure, Except.pure] using eq_comm
  · rename_i hsome
    simpa using fun hnone => absurd hnone (by simpa using hsome)

/-- Whether lines spell a document is told by the outline of what is read. -/
theorem exists_readLines_iff {ls : List (List Char)} : (∃ d, readLines ls = .ok d) ↔
    ∃ r, Reading.outlineOf (({} : Reading).lines 1 ls) = some r ∧ r.malformed = [] := by
  have houtline : ∀ r : Reading, r.outline.malformed = [] ↔ r.malformed = [] := fun r => List.map_eq_nil_iff
  simp only [readLines_eq_ok]
  cases ({} : Reading).lines 1 ls with
  | error stop => simp [Reading.outlineOf, Except.toOption]
  | ok r => simp [Reading.outlineOf, Except.toOption, houtline]

/-- **A key gives the lines below it**, one for each text and an empty one for each blank line, if the
lines spell a document. They do so exactly if the others do. -/
theorem readLines_listed (hkey : IsKey key) (hfront : EndsWithKey name key front)
    (hbelow : Below below texts) (htexts : ∀ text ∈ texts, text ≠ [] ∧ isComment text = false)
    (hrest : BeginsAtFront rest) :
    ((∃ d, readLines (front ++ below ++ rest) = .ok d) ↔ ∃ d, readLines (front ++ rest) = .ok d) ∧
    ∀ d, readLines (front ++ below ++ rest) = .ok d → d.hasSection name = true ∧
      ∃ told, told.filter (!·.isEmpty) = texts ∧
        d.value? name key = some (some (Reading.joined ([] :: told))) := by
  have hne : key ≠ "" := by simpa using hkey.plain.told
  cases hfront with
  | @intro before l r reads within alone =>
  have hlines : ∀ ls, ({} : Reading).lines 1 (before ++ [l] ++ ls) =
      r.line (1 + before.length) l >>= fun mid => mid.lines (1 + before.length + 1) ls := by
    intro ls
    rw [List.append_assoc, Reading.lines_append, reads]
    rfl
  cases hline : r.line (1 + before.length) l with
  | error stop =>
    -- the key was there before, so that nothing below it is read
    have hfails : ∀ ls d, readLines (before ++ [l] ++ ls) ≠ .ok d := by
      intro ls d h
      obtain ⟨_, hread, -⟩ := readLines_eq_ok.1 h
      rw [hlines, hline] at hread
      cases hread
    rw [List.append_assoc (before ++ [l])]
    exact ⟨iff_of_false (fun h => hfails _ _ h.choose_spec) (fun h => hfails _ _ h.choose_spec),
      fun d h => absurd h (hfails _ d)⟩
  | ok mid =>
    have hunder := Reading.under_of_keyLine (Reading.openIsThere_of_lines reads) within hkey alone hline
    obtain ⟨last, told, hreads, hlast, hfilter, houtline⟩ :
        ∃ r' told, mid.lines (1 + before.length + 1) below = .ok r' ∧ _ :=
      Reading.lines_below hunder hne hbelow htexts
    have hread : ∀ ls, ({} : Reading).lines 1 (before ++ [l] ++ below ++ ls) =
        last.lines (1 + before.length + 1 + below.length) ls := by
      intro ls
      rw [List.append_assoc (before ++ [l]), hlines, hline]
      exact (Reading.lines_append below).trans (by rw [hreads]; rfl)
    constructor
    · rw [exists_readLines_iff, exists_readLines_iff, hread, hlines, hline]
      exact exists_congr fun r => and_congr_left fun _ => by
        rw [Reading.outlineOf_lines houtline _ (1 + before.length + 1)]
        rfl
    · intro d h
      obtain ⟨r', hr', -, rfl⟩ := readLines_eq_ok.1 h
      rw [hread] at hr'
      obtain ⟨hvalue, hsection⟩ := Reading.value?_document (Reading.drafted?_of_rest hlast hrest hr')
      exact ⟨hsection, told, hfilter, hvalue⟩

end WeaveStep.Ini
