import WeaveStep.CommandLine.Commands
import WeaveStep.Proofs.Always

/-!
# What reading a command line keeps

Reading uses the options of its grammar only (`Token.IsOf`). So what each of them keeps holds of what is
gathered (**`Grammar.keeps_gather`**), and the paths of a weave are as they are written
(**`Call.read_written`**).
-/

namespace WeaveStep.CommandLine

variable {α : Type} {g : Grammar α} {o : CommandOption α}

/-! ## Options of a grammar -/

/-- The token is none of an option, or of one that the grammar has. -/
def Token.IsOf (g : Grammar α) : Token α → Prop
  | .option o _ => o ∈ g.options
  | _ => True

theorem mem_options_of_option? {name : String} (h : g.option? name = some o) : o ∈ g.options :=
  List.mem_of_find?_eq_some h

theorem mem_options_of_completions {start : List Char} {name : String}
    (h : (name, o) ∈ g.completions start) : o ∈ g.options := by
  simp only [Grammar.completions, List.mem_filter, List.mem_flatMap, List.mem_map, Prod.mk.injEq] at h
  obtain ⟨⟨o', ho, _, -, -, rfl⟩, -⟩ := h
  exact ho

theorem isOf_of_ofLong {s : List Char} {token : Token α}
    (h : Token.ofLong g s = .ok (some token)) : token.IsOf g := by
  unfold Token.ofLong at h
  dsimp only at h
  split at h <;> cases h
  rename_i name o hone
  have hmem : (name, o) ∈ g.completions (splitAttached s).fst := by
    rw [hone]
    exact List.mem_singleton_self _
  exact mem_options_of_completions hmem

/-- What was not found is none of an option. -/
theorem isOf_of_found {s : List Char} {found : Except Stop (Option (Token α))} {token : Token α}
    (hoption : ∀ token, found = .ok (some token) → token.IsOf g)
    (h : (do
      match ← found with
      | some token => return token
      | none => return if isNegativeNumber s || s.contains ' ' then .plain else .unknown) =
      Except.ok token) : token.IsOf g := by
  obtain ⟨token?, hfound, h⟩ := except_bind_eq_ok.1 h
  split at h <;> cases h
  · exact hoption _ hfound
  · split <;> trivial

theorem isOf_of_ofDashed {s : List Char} {token : Token α}
    (h : Token.ofDashed g s = .ok token) : token.IsOf g := by
  unfold Token.ofDashed at h
  dsimp only at h
  split at h
  · cases h
    exact mem_options_of_option? ‹_›
  split at h
  · cases h
    trivial
  have hletter : ∀ token, (pure ((g.option? (String.ofList (s.take 2))).map
      (Token.option · (some (s.drop 2)))) : Except Stop (Option (Token α))) = .ok (some token) →
      token.IsOf g := by
    intro token htoken
    obtain ⟨o, ho, rfl⟩ := Option.map_eq_some_iff.1 (Except.ok.inj htoken)
    exact mem_options_of_option? ho
  split at h
  · split at h
    · cases h
      exact mem_options_of_option? ‹_›
    · split at h
      · exact isOf_of_found (fun _ => isOf_of_ofLong) h
      · exact isOf_of_found hletter h
  · split at h
    · exact isOf_of_found (fun _ => isOf_of_ofLong) h
    · exact isOf_of_found hletter h

theorem isOf_of_mem_tokens {arguments : List String} {ts : List (String × Token α)}
    (h : tokens g arguments = .ok ts) {t : String × Token α} (ht : t ∈ ts) : t.2.IsOf g := by
  induction arguments generalizing ts with
  | nil =>
    cases h
    cases ht
  | cons s rest ih =>
    rw [tokens] at h
    split at h
    · cases h
      rcases List.mem_cons.1 ht with rfl | ht
      · trivial
      · obtain ⟨_, -, rfl⟩ := List.mem_map.1 ht
        trivial
    · obtain ⟨token, htoken, h⟩ := except_bind_eq_ok.1 h
      obtain ⟨more, hmore, h⟩ := except_bind_eq_ok.1 h
      cases h
      rcases List.mem_cons.1 ht with rfl | ht
      · unfold Token.of at htoken
        split at htoken
        · exact isOf_of_ofDashed htoken
        · cases htoken
          trivial
      · exact ih hmore ht

theorem mem_options_of_uses {short : Bool} {attached : List Char} {us : List (Use α)}
    (ho : o ∈ g.options) (h : g.uses short o attached = .ok us) {u : Use α} (hu : u ∈ us) :
    u.option ∈ g.options := by
  fun_induction g.uses short o attached generalizing us with
  | case1 =>
    cases h
    rwa [List.mem_singleton.1 hu]
  | case2 _ _ _ _ next hnext =>
    cases h
    rcases List.mem_pair.1 hu with rfl | rfl
    · exact ho
    · exact mem_options_of_option? hnext
  | case3 _ _ _ rest next hnext _ ih =>
    cases hmore : g.uses true next rest with
    | error stop =>
      rw [hmore] at h
      cases h
    | ok more =>
      rw [hmore] at h
      cases h
      rcases List.mem_cons.1 hu with rfl | hu
      · exact ho
      · exact ih (mem_options_of_option? hnext) hmore hu
  | case4 | case5 => cases h

/-! ## What is gathered -/

/-- The option, used in any way, keeps what holds of what is gathered. -/
def CommandOption.Keeps (P : α → Prop) (o : CommandOption α) : Prop :=
  match o.effect with
  | .help | .version => True
  | .flag set => ∀ a, P a → P (set a)
  | .value _ set => ∀ v a, P a → P (set v a)

variable {P : α → Prop} {a a' : Gathered α}

theorem Gathered.keeps_add {u : Use α} (hu : u.option.Keeps P) (h : a.add u = .ok a') (ha : P a.value) :
    P a'.value := by
  unfold Gathered.add at h
  unfold CommandOption.Keeps at hu
  dsimp only at h
  split at h <;> cases h <;> rename_i heffect <;> rw [heffect] at hu
  · exact hu _ ha
  · exact hu _ _ ha

theorem Gathered.keeps_foldlM {us : List (Use α)} (hus : ∀ u ∈ us, u.option.Keeps P)
    (h : us.foldlM Gathered.add a = .ok a') (ha : P a.value) : P a'.value := by
  induction us generalizing a with
  | nil =>
    cases h
    exact ha
  | cons u us ih =>
    rw [List.foldlM_cons] at h
    obtain ⟨next, hnext, h⟩ := except_bind_eq_ok.1 h
    exact ih (fun u hu => hus u (List.mem_cons_of_mem _ hu)) h
      (keeps_add (hus u List.mem_cons_self) hnext ha)

/-- The options in one argument are those of the grammar. -/
theorem mem_options_of_elim {short : Bool} {attached : Option (List Char)} {us : List (Use α)}
    (ho : o ∈ g.options) (h : attached.elim (.ok [⟨o, none⟩]) (g.uses short o) = .ok us) {u : Use α}
    (hu : u ∈ us) : u.option ∈ g.options := by
  cases attached with
  | none =>
    cases h
    rwa [List.mem_singleton.1 hu]
  | some attached => exact mem_options_of_uses ho h hu

/-- **What the options keep** holds of what is gathered. -/
theorem Grammar.keeps_gather {ts : List (String × Token α)} (hkeeps : ∀ o ∈ g.options, o.Keeps P)
    (hts : ∀ t ∈ ts, t.2.IsOf g) (h : g.gather a ts = .ok a') (ha : P a.value) : P a'.value := by
  fun_induction g.gather a ts with
  | case1 =>
    cases h
    exact ha
  | case3 a s o attached us hus rest _ ih =>
    obtain ⟨next, hnext, h⟩ := except_bind_eq_ok.1 h
    have ho : o ∈ g.options := hts _ List.mem_cons_self
    refine ih next (fun t ht => hts t (List.mem_cons_of_mem _ ht)) h
      (Gathered.keeps_foldlM (fun u hu => ?_) hnext ha)
    exact hkeeps _ (mem_options_of_elim ho hus hu)
  | case4 a s o attached us hus _ value rest _ ih =>
    obtain ⟨next, hnext, h⟩ := except_bind_eq_ok.1 h
    have ho : o ∈ g.options := hts _ List.mem_cons_self
    refine ih next (fun t ht => hts t (List.mem_cons_of_mem _ (List.mem_cons_of_mem _ ht))) h
      (Gathered.keeps_foldlM (fun u hu => ?_) hnext ha)
    obtain ⟨given, hgiven, rfl⟩ := List.mem_map.1 hu
    exact hkeeps given.option (mem_options_of_elim ho hus hgiven)
  | case2 | case5 => cases h
  | case6 _ _ _ _ _ ih => exact ih (fun t ht => hts t (List.mem_cons_of_mem _ ht)) h ha

/-- What the options keep holds of what is read. -/
theorem keeps_readOptions {columns : Nat} {start value : α} {leftOver arguments : List String}
    (hkeeps : ∀ o ∈ g.options, o.Keeps P)
    (h : readOptions g columns start leftOver arguments = .ok value) (hstart : P start) : P value := by
  have hmap : ∀ {f : Stop → Answer} {x : Except Stop (Gathered α)} {a : Gathered α},
      x.mapError f = .ok a → x = .ok a := by
    intro f x a hx
    cases x with
    | ok b =>
      cases hx
      rfl
    | error e => cases hx
  unfold readOptions at h
  obtain ⟨gathered, hread, h⟩ := except_bind_eq_ok.1 h
  replace hread := hmap hread
  unfold Grammar.read at hread
  obtain ⟨ts, hts, hread⟩ := except_bind_eq_ok.1 hread
  obtain ⟨a, ha, hread⟩ := except_bind_eq_ok.1 hread
  have hP : P a.value := Grammar.keeps_gather hkeeps (fun t ht => isOf_of_mem_tokens hts ht) ha hstart
  dsimp only at hread h
  split at hread
  · cases hread
  · cases hread
    split at h
    · cases h
    · cases h
      exact hP

/-! ## The paths of a weave -/

/-- The paths of the inputs and of the output are as they are written. -/
structure WeaveOptions.IsWritten (o : WeaveOptions) : Prop where
  inputs : ∃ values : List (Option String), o.inputs = values.map writtenPath
  referenced : ∃ values : List (Option String), o.referenced = values.map writtenPath
  output : ∃ value : Option String, o.output = writtenPath value

theorem keeps_isWritten : ∀ o ∈ weaveGrammar.options, o.Keeps WeaveOptions.IsWritten := by
  have hadd : ∀ {paths : List GivenPath} (v : Option String),
      (∃ values : List (Option String), paths = values.map writtenPath) →
      ∃ values : List (Option String), paths ++ [writtenPath v] = values.map writtenPath := by
    rintro _ v ⟨values, rfl⟩
    exact ⟨values ++ [v], by simp⟩
  intro o ho
  simp only [weaveGrammar, List.mem_cons, List.not_mem_nil, or_false] at ho
  rcases ho with rfl | rfl | rfl | rfl | rfl | rfl | rfl | rfl | rfl | rfl
  · trivial
  · exact fun v _ h => ⟨hadd v h.inputs, h.referenced, h.output⟩
  · exact fun v _ h => ⟨h.inputs, hadd v h.referenced, h.output⟩
  · exact fun v _ h => ⟨h.inputs, h.referenced, v, rfl⟩
  iterate 4 exact fun _ _ h => ⟨h.inputs, h.referenced, h.output⟩
  iterate 2 exact fun _ h => ⟨h.inputs, h.referenced, h.output⟩

/-- **The paths of a weave** are as they are written. -/
theorem Call.read_written {columns : Nat} {here : Path} {arguments : List String} {o : WeaveOptions}
    (h : Call.read columns here arguments = .ok (.weave o)) : o.IsWritten := by
  have hstart : WeaveOptions.IsWritten { project := some here } := ⟨⟨[], rfl⟩, ⟨[], rfl⟩, none, rfl⟩
  unfold Call.read at h
  dsimp only at h
  obtain ⟨ts, -, h⟩ := except_bind_eq_ok.1 h
  obtain ⟨before, -, h⟩ := except_bind_eq_ok.1 h
  split at h
  · rename_i rest _
    cases hread : readOptions weaveGrammar columns { project := some here } before.leftOver rest with
    | error answer =>
      rw [hread] at h
      cases h
    | ok o' =>
      rw [hread] at h
      cases h
      exact keeps_readOptions keeps_isWritten hread hstart
  · rename_i rest _
    cases hread : readOptions fetchGrammar columns { project := some here } before.leftOver rest <;>
    · rw [hread] at h
      cases h
  · cases h
  · split at h <;> cases h

end WeaveStep.CommandLine
