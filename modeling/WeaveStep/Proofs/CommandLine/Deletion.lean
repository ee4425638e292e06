import WeaveStep.CommandLine.Guard
import WeaveStep.Proofs.Files.Unfolding
import WeaveStep.Proofs.Text.Split
import WeaveStep.Proofs.Weave.Clearing
import WeaveStep.Proofs.World

/-!
# What the deletion of the outputs spares

The check in front of a deletion compares resolutions, and the deletion itself goes by the path of the
root as it was given. Where both see the same links, what is protected stays, with all the directories
above it (**`outputIsSafe_spares`**).

A link whose path grows too long to be asked for is taken for an entry of its own by the check, and is
followed by the system. A protected path over such a link passes the check and is deleted
(`not_outputIsSafe_spares_long`).
-/

namespace WeaveStep

open FileTree

variable {t t' : FileTree} {output root p : Path} {place q : Location} {kept : List Path} {w : World}

/-! ## The check -/

theorem Path.holds_iff : root.holds p = true ↔ root.anchor = p.anchor ∧ root.parts <+: p.parts := by
  have hancestors : p.ancestors.contains root = true ↔
      ∃ n < p.parts.length, root = ⟨p.anchor, p.parts.take n⟩ := by
    simp [Path.ancestors, eq_comm]
  rw [Path.holds, Bool.or_eq_true, decide_eq_true_iff, hancestors]
  constructor
  · rintro (rfl | ⟨n, -, rfl⟩)
    · exact ⟨rfl, List.prefix_rfl⟩
    · exact ⟨rfl, List.take_prefix n p.parts⟩
  · obtain ⟨anchor, parts⟩ := root
    obtain ⟨anchor', parts'⟩ := p
    rintro ⟨rfl, more, rfl⟩
    by_cases hmore : more = []
    · exact .inl (by simp [hmore])
    · have hlength := List.length_pos_of_ne_nil hmore
      exact .inr ⟨parts.length, by simpa using hlength, by simp⟩

/-- What a check has found: each protected path is resolved to one that the root does not hold, or one
of them to one that it holds. -/
def Finds (t : FileTree) (root : Path) (kept : List Path) : Except FileFailure Bool → Prop
  | .ok true => ∀ p ∈ kept, ∃ resolved, t.resolve p = .ok resolved ∧ root.holds resolved = false
  | .ok false => ∃ p ∈ kept, ∃ resolved, t.resolve p = .ok resolved ∧ root.holds resolved = true
  | .error _ => True

theorem yields_spares (output root : Path) (kept : List Path) (w : World) :
    Yields (spares output root kept) w fun found _ => Finds w.files root kept found := by
  induction kept with
  | nil => exact yields_pure (by simp [Finds])
  | cons p kept ih =>
    refine Yields.bind (fun resolved w₁ hask => ?_) fun _ _ _ => trivial
    obtain ⟨hresolve, rfl⟩ := Run.ask_eq_ok.1 hask
    split
    · rename_i hholds
      exact Yields.bind (fun _ _ _ => yields_pure ⟨p, List.mem_cons_self, resolved, hresolve, hholds⟩)
        fun _ _ _ => trivial
    · rename_i hholds
      refine ih.imp fun found _ hfound => ?_
      cases found with
      | error e => trivial
      | ok safe =>
        cases safe with
        | true =>
          intro other hother
          rcases List.mem_cons.1 hother with rfl | hother
          · exact ⟨resolved, hresolve, Bool.eq_false_iff.2 hholds⟩
          · exact hfound other hother
        | false =>
          obtain ⟨other, hother, hfound⟩ := hfound
          exact ⟨other, List.mem_cons_of_mem p hother, hfound⟩

/-! ## The deletion -/

/-- Whatever is at the place and above it stays. -/
def StaysAbove (t t' : FileTree) (place : Location) : Prop :=
  ∀ above, above <+: place → t'.get? above = t.get? above

theorem FileTree.Cleared.staysAbove {r : Except FileFailure Unit} (h : Cleared root t r t')
    (hout : ∀ place, t.look .own root = .ok (place, .directory) → ¬place <+: q) :
    StaysAbove t t' q := by
  intro above habove
  have hbeside : ∀ place, t.look .own root = .ok (place, .directory) → isWithin place above = false := by
    intro place hfound
    rw [Bool.eq_false_iff]
    exact fun hin => hout place hfound ((List.isPrefixOf_iff_prefix.1 hin).trans habove)
  cases h with
  | refused | absent => rfl
  | emptied e found =>
    rw [get?_eraseInside]
    simp [hbeside _ found]
  | removed found =>
    rw [get?_removed]
    simp [hbeside _ found]

/-- The root of the outputs leads where their path leads. -/
theorem way_of_locate_absolute (htree : IsTree t) (habsolute : t.absolute output = .ok root)
    (hlocate : t.locate .followed root = .ok place) :
    ∃ budget, Way t .followed budget (t.startOf output) output.parts place := by
  have hway := (locate_eq_ok_iff.1 hlocate).2
  by_cases houtput : output.isAbsolute
  · rw [absolute, if_pos houtput] at habsolute
    cases habsolute
    exact ⟨_, hway⟩
  rw [absolute, if_neg houtput, currentPath] at habsolute
  split at habsolute
  · rename_i hdirectory
    cases habsolute
    have hjoin : (⟨.root, t.workingDirectory⟩ : Path).join output =
        ⟨.root, t.workingDirectory ++ output.parts⟩ := if_neg houtput
    rw [startOf, if_neg houtput]
    -- the working directory is reached by its own names
    have hcurrent : ∀ {budget mid}, Way t .followed budget [] t.workingDirectory mid →
        mid = t.workingDirectory := by
      intro budget mid hmid
      refine hmid.straight (fun front hfront text hlink => ?_) (htree.isEntryName (by simp [hdirectory]))
      have habove := htree.directory_of_prefix hfront hdirectory
      simp_all
    change Way t .followed maxLinks (t.startOf ((⟨.root, t.workingDirectory⟩ : Path).join output))
      ((⟨.root, t.workingDirectory⟩ : Path).join output).parts place at hway
    rw [hjoin] at hway
    by_cases hparts : output.parts = []
    · rw [hparts, List.append_nil] at hway
      obtain rfl := hcurrent hway
      rw [hparts]
      exact ⟨0, .done⟩
    · obtain ⟨mid, budget, hfirst, hlast⟩ := hway.split hparts
      obtain rfl := hcurrent hfirst
      exact ⟨budget, hlast⟩
  · cases habsolute

/-- A root that does not hold what is protected lies neither at it nor above it. -/
theorem not_isPrefix_of_safe (htree : IsTree t) (houtput : IsTraced t output) (hp : IsTraced t p)
    (habsolute : t.absolute output = .ok root) {above below : Path} (habove : t.resolve output = .ok above)
    (hbelow : t.resolve p = .ok below) (hsafe : above.holds below = false) {node : Node}
    (hlook : t.look .followed p = .ok (q, node)) (hlocate : t.locate .followed root = .ok place) :
    ¬place <+: q := by
  intro hprefix
  obtain ⟨budget, hway⟩ := way_of_locate_absolute htree habsolute hlocate
  obtain rfl := houtput.resolve_eq htree hway habove
  obtain rfl := hp.resolve_eq htree (locate_eq_ok_iff.1 (look_eq_ok_iff.1 hlook).1).2 hbelow
  have hholds : (⟨.root, place⟩ : Path).holds ⟨.root, q⟩ = true := Path.holds_iff.2 ⟨rfl, hprefix⟩
  rw [hholds] at hsafe
  cases hsafe

/-- What the root does not hold stays when the outputs are cleared. -/
theorem staysAbove_of_safe (htree : IsTree t) (houtput : IsTraced t output) (hp : IsTraced t p)
    (habsolute : t.absolute output = .ok root) {above below : Path} (habove : t.resolve output = .ok above)
    (hbelow : t.resolve p = .ok below) (hsafe : above.holds below = false) {node : Node}
    (hlook : t.look .followed p = .ok (q, node)) {r : Except FileFailure Unit}
    (hcleared : Cleared root t r t') : StaysAbove t t' q := by
  refine hcleared.staysAbove fun place hfound => ?_
  obtain ⟨hlocate, hnode⟩ := look_eq_ok_iff.1 hfound
  exact not_isPrefix_of_safe htree houtput hp habsolute habove hbelow hsafe hlook
    (locate_followed_of_own hlocate (by simp [hnode]))

/-- **A root that passes the check spares what is protected**, whether clearing the outputs succeeds or
not. Where it does not pass, the resolution of some protected path is its own, or one below it. -/
theorem outputIsSafe_spares (output : Path) (kept : List Path) {w : World} (htree : IsTree w.files)
    (htraced : ∀ p ∈ output :: kept, IsTraced w.files p) :
    Yields (outputIsSafe output kept) w fun safe _ =>
      match safe with
      | .ok true => ∀ root, w.files.absolute output = .ok root →
          Yields (clearSlots root) w.files fun _ cleared => ∀ p ∈ kept, ∀ place node,
            w.files.look .followed p = .ok (place, node) → StaysAbove w.files cleared place
      | .ok false => ∃ p ∈ kept, ∃ above below,
          w.files.resolve output = .ok above ∧ w.files.resolve p = .ok below ∧
          above.anchor = below.anchor ∧ above.parts <+: below.parts ∧
          ∀ place node, w.files.look .followed p = .ok (place, node) → below = ⟨.root, place⟩
      | .error _ => True := by
  have houtput := htraced output List.mem_cons_self
  have hkept : ∀ p ∈ kept, IsTraced w.files p := fun p hp => htraced p (List.mem_cons_of_mem output hp)
  refine Yields.bind (fun above w₁ hask => ?_) fun _ _ _ => trivial
  obtain ⟨habove, rfl⟩ := Run.ask_eq_ok.1 hask
  refine (yields_spares output above kept w₁).imp fun safe _ hfound => ?_
  cases safe with
  | error e => trivial
  | ok safe =>
    cases safe with
    | true =>
      intro root habsolute
      refine (cleared_clearSlots root w₁.files).imp fun r cleared hcleared p hp place node hlook => ?_
      obtain ⟨below, hbelow, hsafe⟩ := hfound p hp
      exact staysAbove_of_safe htree houtput (hkept p hp) habsolute habove hbelow hsafe hlook hcleared
    | false =>
      obtain ⟨p, hp, below, hbelow, hholds⟩ := hfound
      obtain ⟨hanchor, hprefix⟩ := Path.holds_iff.1 hholds
      refine ⟨p, hp, above, below, habove, hbelow, hanchor, hprefix, fun place node hlook => ?_⟩
      exact (hkept p hp).resolve_eq htree (locate_eq_ok_iff.1 (look_eq_ok_iff.1 hlook).1).2 hbelow

/-- Files with a link below the outputs that leads out of them. -/
def filesLinked : FileTree where
  entries := [([], .directory), (["here"], .link "."), (["in"], .directory),
    (["in", "A.class"], .file [202] false), (["out"], .directory), (["out", "in"], .link "../in")]
  workingDirectory := []

theorem isSayable_of_link {q : Location} {target : String}
    (hlink : filesLinked.get? q = some (.link target)) : IsSayable ⟨.root, q⟩ := by
  have hmem := mem_entries_of_get? hlink
  simp only [filesLinked, List.mem_cons, Prod.mk.injEq, List.not_mem_nil, reduceCtorEq, and_false,
    false_or, or_false] at hmem
  rcases hmem with ⟨rfl, -⟩ | ⟨rfl, -⟩
  · exact isSayable_root (by decide) (by decide)
  · exact isSayable_root (by decide) (by decide)

/-- A file that is given by a link below the outputs stays when they are removed. -/
theorem outputIsSafe_spares_linked_file :
    ∃ cleared, outputIsSafe ⟨.root, ["here", "out"]⟩ [⟨.root, ["out", "in", "A.class"]⟩]
        { files := filesLinked } = .ok true { files := filesLinked } ∧
      clearSlots ⟨.root, ["here", "out"]⟩ filesLinked = .ok () cleared ∧
      cleared.get? ["out"] = none ∧ StaysAbove filesLinked cleared ["in", "A.class"] := by
  have htree : IsTree filesLinked := isTree_of_entries rfl (by decide)
  have htraced : ∀ p ∈ [⟨.root, ["here", "out"]⟩, ⟨.root, ["out", "in", "A.class"]⟩],
      IsTraced filesLinked p := by
    intro p hp
    refine isTraced_of_absolute htree (fun _ _ => isSayable_of_link) ?_
    revert p hp
    decide
  have hsafe : outputIsSafe ⟨.root, ["here", "out"]⟩ [⟨.root, ["out", "in", "A.class"]⟩]
      { files := filesLinked } = .ok true { files := filesLinked } := by
    cbv
  have hclear : clearSlots ⟨.root, ["here", "out"]⟩ filesLinked =
      .ok () ((filesLinked.eraseInside ["out"]).erase ["out"]) := by
    cbv
  have hlook : filesLinked.look .followed ⟨.root, ["out", "in", "A.class"]⟩ =
      .ok (["in", "A.class"], .file [202] false) := by
    cbv
  have hspared := outputIsSafe_spares (w := { files := filesLinked }) ⟨.root, ["here", "out"]⟩
    [⟨.root, ["out", "in", "A.class"]⟩] htree htraced
  have hkept := ((hspared.of_ok hsafe) _ rfl).of_ok hclear
  exact ⟨_, hsafe, hclear, rfl, hkept _ List.mem_cons_self _ _ hlook⟩

/-! ## Links that are too long to be asked for -/

section

variable {names rest : List String} {name : String} {n m depth budget : Nat} {met : Unfolding}

/-- A relative path that leads up, and then down by names. -/
def upward (n : Nat) (names : List String) : Path := ⟨.relative, List.replicate n ".." ++ names⟩

/-- The text of a link that leads up, and then down by names. -/
def climbing (n : Nat) (names : List String) : String := "/".intercalate (List.replicate n ".." ++ names)

theorem upward_entry : (upward n names).entry name = upward n (names ++ [name]) := by
  simp [upward, Path.entry]

theorem upward_above : (upward n []).above = upward (n + 1) [] := by
  have htop : (upward n []).parts = [] ∨ (upward n []).name = ".." := by
    cases n with
    | zero => exact .inl rfl
    | succ n => exact .inr (by simp [upward, Path.name, List.getLast?_replicate])
  have hrelative : (upward n []).isAbsolute = false := rfl
  rw [Path.above, if_pos htop, hrelative]
  simp [upward, Path.entry, List.replicate_succ']

theorem upward_entry_above (hname : name ≠ "..") : (upward n [name]).above = upward n [] := by
  have hbelow : ¬((upward n [name]).parts = [] ∨ (upward n [name]).name = "..") := by
    simp [upward, Path.name, hname]
  rw [Path.above, if_neg hbelow]
  simp [upward, Path.parent]

theorem upward_ne (hname : name ≠ "..") : upward (m + 1) names ≠ upward 0 [name] := by
  intro h
  have hparts : ".." :: (List.replicate m ".." ++ names) = [name] := congrArg Path.parts h
  exact hname (List.cons.inj hparts).1.symm

theorem unfold_upward : t.unfold depth met (upward n []) (List.replicate m ".." ++ names) =
    t.unfold depth met (upward (n + m) []) names := by
  induction m generalizing n with
  | zero => rfl
  | succ m ih =>
    rw [List.replicate_succ, List.cons_append, unfold_up, upward_above, ih, Nat.succ_add_eq_add_succ]

theorem climbing_succ (hnames : names ≠ []) :
    climbing (n + 1) names = ".." ++ "/" ++ climbing n names := by
  unfold climbing
  rw [List.replicate_succ, List.cons_append, String.intercalate_cons_of_ne_nil (by simp [hnames])]

theorem targetNames_climbing (hnames : names ≠ []) :
    targetNames (climbing n names) = List.replicate n ".." ++ targetNames ("/".intercalate names) := by
  induction n with
  | zero => rfl
  | succ n ih =>
    rw [climbing_succ hnames, List.replicate_succ, List.cons_append, ← ih]
    simp [targetNames, Text.splitAt, Text.piecesAt]

theorem isAbsolute_climbing (hnames : names ≠ []) :
    (Path.ofString (climbing (n + 1) names)).isAbsolute = false := by
  rw [climbing_succ hnames]
  simp [Path.ofString, Path.isAbsolute, Path.anchorOf]

theorem linkStart_climbing (hnames : names ≠ []) : linkStart p (climbing (n + 1) names) = p := by
  rw [linkStart, isAbsolute_climbing hnames, if_neg Bool.false_ne_true]

theorem utf8ByteSize_climbing (hnames : names ≠ []) :
    (climbing n names).utf8ByteSize = 3 * n + ("/".intercalate names).utf8ByteSize := by
  induction n with
  | zero => simp [climbing]
  | succ n ih =>
    have hup : (".." ++ "/" : String).utf8ByteSize = 3 := by decide
    rw [climbing_succ hnames, String.utf8ByteSize_append, hup, ih]
    omega

theorem mem_climbing (hnames : names ≠ []) :
    '\x00' ∈ (climbing n names).toList ↔ '\x00' ∈ ("/".intercalate names).toList := by
  induction n with
  | zero => simp [climbing]
  | succ n ih =>
    rw [climbing_succ hnames, ← ih]
    simp

theorem isSayable_upward_iff (hnames : names ≠ []) : IsSayable (upward n names) ↔
    '\x00' ∉ ("/".intercalate names).toList ∧
      3 * n + ("/".intercalate names).utf8ByteSize < pathBytesLimit := by
  have htext : (upward n names).text = climbing n names := by
    unfold Path.text upward climbing
    split
    · simp_all
    · simp [Anchor.text]
  have hnull : (climbing n names).contains '\x00' = false ↔ '\x00' ∉ ("/".intercalate names).toList := by
    rw [String.contains_char_eq, ← mem_climbing (n := n) hnames, decide_eq_false_iff_not]
  constructor
  · rintro ⟨hnone, hshort⟩
    rw [htext] at hnone hshort
    rw [utf8ByteSize_climbing hnames] at hshort
    exact ⟨hnull.1 hnone, hshort⟩
  · rintro ⟨hnone, hshort⟩
    rw [← utf8ByteSize_climbing hnames] at hshort
    refine ⟨?_, ?_⟩
    · rw [htext]
      exact hnull.2 hnone
    · rwa [htext]

/-- What is too long to be asked for is taken for an entry. -/
theorem unfold_long {last : String} (hname : IsShortName last)
    (hlong : pathBytesLimit ≤ 3 * n + ("/".intercalate (names ++ [last])).utf8ByteSize) :
    t.unfold depth met (upward n names) (last :: rest) =
      t.unfold depth met (upward n (names ++ [last])) rest := by
  rw [unfold_down hname, upward_entry]
  intro q text hlook
  have hsay := (locate_eq_ok_iff.1 (look_eq_ok_iff.1 hlook).1).1
  rw [upward_entry, isSayable_upward_iff (by simp)] at hsay
  omega

/-- Files with a link that leads to another, and that one to the outputs, far up in between. -/
def filesClimbing (n : Nat) : FileTree where
  entries := [([], .directory), (["w"], .directory), (["w", "out"], .directory),
    (["w", "out", "x"], .file [97] false), (["w", "M"], .link "out/x"),
    (["w", "l2"], .link (climbing n ["w", "M"])), (["w", "l1"], .link (climbing n ["w", "l2"]))]
  workingDirectory := ["w"]

theorem isTree_filesClimbing : IsTree (filesClimbing n) := by
  refine isTree_of_entries rfl ?_
  simp only [filesClimbing, List.forall_mem_cons]
  simp [IsEntryName, get?]
  exact ⟨rfl, rfl, rfl⟩

theorem dropLast_iterate_singleton : List.dropLast^[m + 1] [name] = [] :=
  Function.iterate_fixed rfl m

theorem absolute_upward : (filesClimbing n).absolute (upward m names) =
    .ok ⟨.root, ["w"] ++ (List.replicate m ".." ++ names)⟩ := rfl

variable (m) in
theorem collapsed_upward (hnames : ".." ∉ names) :
    (⟨.root, ["w"] ++ (List.replicate (m + 1) ".." ++ names)⟩ : Path).collapsed = ⟨.root, names⟩ := by
  have hw : ".." ∉ ["w"] := by simp
  rw [collapsed_root hw hnames, dropLast_iterate_singleton]
  rfl

variable (n) in
theorem resolve_output :
    (filesClimbing n).resolve ⟨.relative, ["out"]⟩ = .ok ⟨.root, ["w", "out"]⟩ := by
  cbv

variable (n budget) in
theorem way_third : Way (filesClimbing n) .followed (budget + 1) [] ["w", "M"] ["w", "out", "x"] := by
  refine way_of_walk ?_
  cbv

variable (n) in
theorem stat_third : (filesClimbing n).stat ⟨.root, ["w", "M"]⟩ = .ok (.file [97] false) :=
  stat_eq_ok_iff.2 ⟨_, look_eq_ok_iff.2 ⟨locate_eq_ok_iff.2
    ⟨isSayable_root (by decide) (by decide), way_third n 39⟩, rfl⟩⟩

theorem targetNames_joined (hsome : names ≠ []) (hslash : ∀ name ∈ names, '/' ∉ name.toList) :
    targetNames ("/".intercalate names) = names := (Text.splitAt_intercalate_iff '/' hsome).2 hslash

theorem isShortName_w : IsShortName "w" := ⟨by decide, by decide⟩

theorem isShortName_first : IsShortName "l1" := ⟨by decide, by decide⟩

theorem isShortName_second : IsShortName "l2" := ⟨by decide, by decide⟩

variable (n m) in
theorem standsFor_upward : StandsFor (filesClimbing n) (upward (m + 1) []) [] := by
  refine ⟨m + 1, [], rfl, .inr rfl, ?_, by simp⟩
  have hstart : (filesClimbing n).startOf (upward (m + 1) []) = ["w"] := rfl
  rw [hstart, dropLast_iterate_singleton]
  rfl

/-- The second link is followed to a path that is too long. -/
theorem unfold_second (t : FileTree) (depth : Nat) (met : Unfolding) :
    t.unfold depth met (linkStart (upward 1300 ["w"]) (climbing 1300 ["w", "M"]))
      (targetNames (climbing 1300 ["w", "M"])) = ⟨upward 2599 ["w", "M"], true, met⟩ := by
  have hnames : targetNames ("/".intercalate ["w", "M"]) = ["w", "M"] :=
    targetNames_joined (by simp) (by decide)
  rw [linkStart_climbing (by simp), targetNames_climbing (by simp), hnames, List.replicate_succ,
    List.cons_append, unfold_up, upward_entry_above (by decide), unfold_upward]
  rw [unfold_long isShortName_w (by decide), unfold_long ⟨by decide, by decide⟩ (by decide), unfold]
  rfl

variable (depth) in
/-- The first link is followed to the second. -/
theorem unfold_first (hmet : met.lookup (upward 1300 ["w", "l2"]) = none) :
    ∃ met', (filesClimbing 1300).unfold (depth + 1) met
      (linkStart (upward 0 []) (climbing 1300 ["w", "l2"])) (targetNames (climbing 1300 ["w", "l2"])) =
        ⟨upward 2599 ["w", "M"], true, met'⟩ := by
  have hnames : targetNames ("/".intercalate ["w", "l2"]) = ["w", "l2"] :=
    targetNames_joined (by simp) (by decide)
  have hdirectory : ∀ q text, (filesClimbing 1300).look .own ((upward 1300 []).entry "w") ≠
      .ok (q, .link text) := by
    intro q text hlook
    obtain ⟨hlocate, hnode⟩ := look_eq_ok_iff.1 hlook
    have hsay := (locate_eq_ok_iff.1 hlocate).1
    have hw := (standsFor_upward 1300 1299).locate_entry isTree_filesClimbing rfl rfl isShortName_w hsay
    rw [hw] at hlocate
    cases hlocate
    cases hnode
  have hlook : (filesClimbing 1300).look .own ((upward 1300 ["w"]).entry "l2") =
      .ok (["w", "l2"], .link (climbing 1300 ["w", "M"])) := by
    have hstands : StandsFor (filesClimbing 1300) (upward 1300 ["w"]) ["w"] := by
      have hentry := (standsFor_upward 1300 1299).entry isShortName_w
      rwa [upward_entry] at hentry
    refine look_eq_ok_iff.2 ⟨hstands.locate_entry isTree_filesClimbing rfl rfl isShortName_second ?_, rfl⟩
    rw [upward_entry]
    exact (isSayable_upward_iff (by simp)).2 ⟨by simp, by decide⟩
  have hmet' : met.lookup ((upward 1300 ["w"]).entry "l2") = none := by rwa [upward_entry]
  have hinner := unfold_second (filesClimbing 1300) depth (((upward 1300 ["w"]).entry "l2", none) :: met)
  rw [linkStart_climbing (by simp), targetNames_climbing (by simp), hnames, unfold_upward, Nat.zero_add,
    unfold_down isShortName_w hdirectory, upward_entry, List.nil_append,
    unfold_enter isShortName_second hlook hmet' hinner, unfold]
  exact ⟨_, rfl⟩

/-- The first link is resolved to a third one. -/
theorem resolve_first : (filesClimbing 1300).resolve (upward 0 ["l1"]) = .ok ⟨.root, ["w", "M"]⟩ := by
  have hsay : IsSayable (upward 0 ["l1"]) := (isSayable_upward_iff (by simp)).2 ⟨by simp, by decide⟩
  have hlook : (filesClimbing 1300).look .own ((upward 0 []).entry "l1") =
      .ok (["w", "l1"], .link (climbing 1300 ["w", "l2"])) := by
    have hstands : StandsFor (filesClimbing 1300) (upward 0 []) ["w"] := standsFor_relative _
    refine look_eq_ok_iff.2 ⟨hstands.locate_entry isTree_filesClimbing rfl rfl isShortName_first ?_, rfl⟩
    rwa [upward_entry]
  have hmet : ([((upward 0 []).entry "l1", none)] : Unfolding).lookup (upward 1300 ["w", "l2"]) =
      none := by
    have hne : (upward 1300 ["w", "l2"] == upward 0 ["l1"]) = false :=
      beq_false_of_ne (upward_ne (by decide))
    rw [upward_entry, List.nil_append, List.lookup_cons, hne]
    rfl
  obtain ⟨met', hfirst⟩ := unfold_first 19 hmet
  have hfound : ((filesClimbing 1300).unfold (filesClimbing 1300).unfoldDepth [] (upward 0 [])
      ["l1"]).place = upward 2599 ["w", "M"] := by
    have hdepth : (filesClimbing 1300).unfoldDepth = 19 + 1 + 1 := rfl
    rw [hdepth, unfold_enter isShortName_first hlook rfl hfirst, unfold]
  have hup : ".." ∉ ["w", "M"] := by simp
  have hstat : (filesClimbing 1300).stat ⟨.root, ["w", "M"]⟩ = .ok (.file [97] false) := stat_third _
  rw [← collapsed_upward 2598 hup] at hstat ⊢
  exact resolve_of_stat hsay.noNull hfound absolute_upward hstat

theorem way_climbing (hname : IsShortName name) (hnames : names ≠ [])
    (hlink : (filesClimbing n).get? ["w", name] = some (.link (climbing (m + 1) names)))
    (hslash : ∀ name ∈ names, '/' ∉ name.toList)
    (h : Way (filesClimbing n) .followed budget [] names place) :
    Way (filesClimbing n) .followed (budget + 1) ["w"] [name] place := by
  have hstep : IsStep .followed name [] :=
    ⟨hname.notBlank, hname.entry.2.2, by simp, Nat.not_lt.2 hname.short⟩
  refine .follow rfl hstep hlink (by simp) ?_
  rw [targetStart, isAbsolute_climbing hnames, if_neg Bool.false_ne_true, List.append_nil,
    targetNames_climbing hnames, targetNames_joined hnames hslash]
  refine way_climb isTree_filesClimbing rfl ?_
  rwa [dropLast_iterate_singleton]

/-- The first link leads to the outputs. -/
theorem look_first : (filesClimbing 1300).look .followed (upward 0 ["l1"]) =
    .ok (["w", "out", "x"], .file [97] false) := by
  have hsecond : Way (filesClimbing 1300) .followed 39 ["w"] ["l2"] ["w", "out", "x"] :=
    way_climbing isShortName_second (by simp) rfl (by decide) (way_third _ _)
  have hw : Way (filesClimbing 1300) .followed 39 [] ["w", "l2"] ["w", "out", "x"] :=
    .down rfl ⟨by decide, by decide, by decide, by decide⟩ (fun _ hlink => by cases hlink) hsecond
  have hfirst : Way (filesClimbing 1300) .followed 40 ["w"] ["l1"] ["w", "out", "x"] :=
    way_climbing isShortName_first (by simp) rfl (by decide) hw
  refine look_eq_ok_iff.2 ⟨locate_eq_ok_iff.2 ⟨?_, hfirst⟩, rfl⟩
  exact (isSayable_upward_iff (by simp)).2 ⟨by simp, by decide⟩

theorem clearSlots_filesClimbing : clearSlots ⟨.root, ["w", "out"]⟩ (filesClimbing n) =
    .ok () (((filesClimbing n).eraseInside ["w", "out"]).erase ["w", "out"]) := by
  have hlook : ∀ t ∈ [filesClimbing n, (filesClimbing n).eraseInside ["w", "out"]],
      t.look .own ⟨.root, ["w", "out"]⟩ = .ok (["w", "out"], .directory) := by
    intro t ht
    have hfolder : ∀ k < 2, t.get? (["w", "out"].take k) = some .directory := by
      intro k hk
      rcases List.mem_pair.1 ht with rfl | rfl <;> interval_cases k <;> rfl
    have hout : t.get? ["w", "out"] = some .directory := by
      rcases List.mem_pair.1 ht with rfl | rfl <;> rfl
    exact look_eq_ok_iff.2 ⟨locate_straight (isSayable_root (by decide) (by decide)) (by decide) hfolder
      (by simp [hout]), hout⟩
  exact clearSlots_of_emptied (hlook _ (by simp)) (hlook _ (by simp)) (by simp) (by decide)

end

/-- A protected path passes the check and is deleted. -/
theorem not_outputIsSafe_spares_long :
    ¬ ∀ (output : Path) (kept : List Path) {w w' : World} {root : Path}, IsTree w.files →
      outputIsSafe output kept w = .ok true w' → w'.files.absolute output = .ok root →
      Yields (clearSlots root) w'.files fun _ cleared => ∀ p ∈ kept, ∀ place node,
        w'.files.look .followed p = .ok (place, node) → StaysAbove w'.files cleared place := by
  intro h
  have hsafe : outputIsSafe ⟨.relative, ["out"]⟩ [upward 0 ["l1"]] { files := filesClimbing 1300 } =
      .ok true { files := filesClimbing 1300 } := by
    refine bind_eq_ok_iff.2 ⟨_, _, Run.ask_eq_ok.2 ⟨resolve_output _, rfl⟩, ?_⟩
    refine bind_eq_ok_iff.2 ⟨_, _, Run.ask_eq_ok.2 ⟨resolve_first, rfl⟩, ?_⟩
    rfl
  have hspared := (h _ _ isTree_filesClimbing hsafe rfl).of_ok clearSlots_filesClimbing
  have hkept := hspared _ List.mem_cons_self _ _ look_first _ List.prefix_rfl
  rw [get?_removed] at hkept
  cases hkept

end WeaveStep
