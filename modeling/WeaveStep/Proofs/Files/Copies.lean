import WeaveStep.Proofs.Files.CopyFrame
import WeaveStep.Proofs.Files.Told

/-!
# What a copy of a tree holds

* `FileTree.CopiedAs t source names node`: a copy of what is at `source` has `node` where `names`
  lead. Links are followed, and a device is copied as an empty file.
* **`copyTreeWithin_exact`**: where a copy of a tree ends without a failure, its target holds just
  that. What was there before may only be part of such a copy, and nothing of the source may lie
  where the copy is made.

A failure with no flaw to be told would count as none. There is no such failure
(`tellsFlaws_copyTreeWithin`).
-/

namespace WeaveStep

/-! ## Copies -/

/-- The copy of an entry. -/
def Node.copied : Node → Node
  | .device _ => .file [] false
  | node => node

namespace FileTree

/-- What a copy of `source` holds where `names` lead. -/
inductive CopiedAs (t : FileTree) : Path → List String → Node → Prop
  | self {source : Path} {node : Node} (found : t.stat source = .ok node) :
    CopiedAs t source [] node.copied
  | inside {source : Path} {names rest : List String} {name : String} {node : Node}
    (list : t.list source = .ok names) (listed : name ∈ names)
    (copied : CopiedAs t (source.entry name) rest node) : CopiedAs t source (name :: rest) node

/-- What is at `source` or, as directories list it, below. -/
inductive Lists (t : FileTree) : Path → Path → Prop
  | self (source : Path) : Lists t source source
  | inside {source p : Path} {names : List String} {name : String}
    (list : t.list source = .ok names) (listed : name ∈ names)
    (rest : Lists t (source.entry name) p) : Lists t source p

/-- Nothing at `source` or below it lies at a place or below that, or is the file held open. -/
def Apart (t : FileTree) (place : Location) (source : Path) : Prop :=
  ∀ p, Lists t source p → ∀ q, t.locate .followed p = .ok q →
    isWithin place q = false ∧ t.held ≠ some q

variable {t t' later : FileTree} {place within : Location} {source target : Path} {name : String}

theorem CopiedAs.unique {names : List String} {node node' : Node}
    (h : CopiedAs t source names node) (h' : CopiedAs t source names node') : node = node' := by
  induction h with
  | self found =>
    cases h' with
    | self found' =>
      rw [found] at found'
      cases found'
      rfl
  | inside list listed copied ih =>
    cases h' with
    | inside _ _ copied' => exact ih copied'

theorem Apart.entry {names : List String} (h : Apart t place source) (hlist : t.list source = .ok names)
    (hname : name ∈ names) : Apart t place (source.entry name) := fun p hp =>
  h p (.inside hlist hname hp)

/-! ## Failures that are told -/

section

variable {flaws : List CopyFlaw}

theorem bind_ne_copies {α β : Type} {x : Except FileFailure α} {f : α → Except FileFailure β}
    (hx : x ≠ .error (.copies flaws)) (hf : ∀ a, f a ≠ .error (.copies flaws)) :
    x >>= f ≠ .error (.copies flaws) := by
  cases x with
  | ok a => exact hf a
  | error e => simpa [bind, Except.bind] using hx

theorem locate_ne_copies (last : LastName) (p : Path) :
    t.locate last p ≠ .error (.copies flaws) := by
  unfold locate locateNames
  split
  · simp
  · split
    · simp [FileFailure.refusal]
    · cases t.walk last maxLinks (t.startOf p) p.parts <;>
        simp [Except.mapError, FileFailure.refusal]

theorem look_ne_copies (last : LastName) (p : Path) : t.look last p ≠ .error (.copies flaws) := by
  refine bind_ne_copies (locate_ne_copies last p) fun place => ?_
  split <;> simp [FileFailure.refusal]

theorem stat_ne_copies (p : Path) : t.stat p ≠ .error (.copies flaws) := by
  have h : t.look .followed p ≠ .error (.copies flaws) := look_ne_copies .followed p
  unfold stat
  cases hlook : t.look .followed p <;> simp_all [Functor.map, Except.map]

theorem read_ne_copies (p : Path) : t.read p ≠ .error (.copies flaws) := by
  refine bind_ne_copies (stat_ne_copies p) fun node => ?_
  split <;> simp [FileFailure.refusal]

theorem list_ne_copies (p : Path) : t.list p ≠ .error (.copies flaws) := by
  refine bind_ne_copies (look_ne_copies .followed p) fun found => ?_
  split <;> simp [FileFailure.refusal]

theorem makeDirectory_ne_copies (p : Path) : t.makeDirectory p ≠ .error (.copies flaws) := by
  refine bind_ne_copies (locate_ne_copies .own p) fun place => ?_
  split <;> simp [FileFailure.refusal]

theorem write_ne_copies (p : Path) (content : List UInt8) :
    t.write p content ≠ .error (.copies flaws) := by
  refine bind_ne_copies (locate_ne_copies .made p) fun place => ?_
  split <;> simp [FileFailure.refusal]

theorem setExecutable_ne_copies (p : Path) (executable : Bool) :
    t.setExecutable p executable ≠ .error (.copies flaws) := by
  refine bind_ne_copies (look_ne_copies .followed p) fun found => ?_
  split <;> simp

end

/-- Whenever the action fails, there is something to be told. -/
def TellsFlaws {α : Type} (act : Action α) : Prop :=
  ∀ t, Yields act t fun r _ => r ≠ .error (.copies [])

namespace TellsFlaws

variable {α β : Type}

theorem query {f : FileTree → Except FileFailure α} (h : ∀ t, f t ≠ .error (.copies [])) :
    TellsFlaws (query f) := by
  intro t
  have ht := h t
  unfold Yields FileTree.query
  cases hf : f t with
  | ok a => simp
  | error e => rw [hf] at ht; simpa using ht

theorem change {f : FileTree → Except FileFailure FileTree} (h : ∀ t, f t ≠ .error (.copies [])) :
    TellsFlaws (change f) := by
  intro t
  have ht := h t
  unfold Yields FileTree.change
  cases hf : f t with
  | ok a => simp
  | error e => rw [hf] at ht; simpa using ht

theorem pure (a : α) : TellsFlaws (pure a : Action α) := fun t => by
  have hpure : (Pure.pure a : Action α) t = .ok a t := rfl
  simp [Yields, hpure]

theorem throw {e : FileFailure} (h : e ≠ .copies []) : TellsFlaws (throw e : Action α) := fun t => by
  have hthrow : (MonadExcept.throw e : Action α) t = .error e t := rfl
  unfold Yields
  rw [hthrow]
  simpa using h

theorem bind {act : Action α} {f : α → Action β} (hact : TellsFlaws act)
    (hf : ∀ a, TellsFlaws (f a)) : TellsFlaws (act >>= f) := fun t =>
  Yields.bind (fun a t' _ => hf a t') fun e t' he => by simpa using (hact t).of_error he

theorem mapM {g : α → Action β} {as : List α} (hg : ∀ a ∈ as, TellsFlaws (g a)) :
    TellsFlaws (as.mapM g) := by
  induction as with
  | nil => exact pure []
  | cons a as ih =>
    rw [List.mapM_cons]
    exact (hg a (by simp)).bind fun b =>
      (ih fun a ha => hg a (by simp [ha])).bind fun bs => pure (b :: bs)

end TellsFlaws

theorem tellsFlaws_get : TellsFlaws get := fun t => by
  have hget : (get : Action FileTree) t = .ok t t := rfl
  simp [Yields, hget]

theorem tellsFlaws_openCopy (target : Path) : TellsFlaws (openCopy target) := by
  intro t
  have hwrite : t.write target [] ≠ .error (.copies []) := write_ne_copies target []
  unfold Yields openCopy
  cases hw : t.write target [] with
  | ok t' => simp
  | error e =>
    rw [hw] at hwrite
    cases hmissing : e.isRefusal .isDirectory && !t.leadsTo (fun _ => true) target with
    | true => simp [hmissing]
    | false => simpa only [hmissing, Bool.false_eq_true, if_false] using by simpa using hwrite

theorem tellsFlaws_copyFile (shown : String × String) (source target : Path) :
    TellsFlaws (copyFile shown source target) := by
  have hcopy : TellsFlaws (do
      let content ← query (·.read source)
      openCopy target
      change (·.write target content)) :=
    (TellsFlaws.query fun _ => read_ne_copies source).bind fun content =>
      (tellsFlaws_openCopy target).bind fun _ => .change fun _ => write_ne_copies target content
  refine tellsFlaws_get.bind fun t => ?_
  split
  · exact .throw (by simp)
  · exact hcopy

theorem tellsFlaws_copyEntry (source target : Path) : TellsFlaws (copyEntry source target) :=
  tellsFlaws_get.bind fun _ => (tellsFlaws_copyFile _ _ _).bind fun _ =>
    (TellsFlaws.query fun _ => stat_ne_copies source).bind fun _ =>
      .change fun _ => setExecutable_ne_copies _ _

theorem tellsFlaws_openTarget (target : Path) : TellsFlaws (openTarget target) := by
  intro t
  have hmake : t.makeDirectory target ≠ .error (.copies []) := makeDirectory_ne_copies target
  unfold Yields openTarget
  cases hm : t.makeDirectory target with
  | ok t' => simp
  | error e =>
    rw [hm] at hmake
    cases t.leadsTo Node.isDirectory target with
    | true => simp
    | false => simpa using hmake

theorem tellsFlaws_noting (source target : Path) (act : Action Unit) :
    TellsFlaws (noting source target act) := by
  intro t
  unfold Yields noting
  cases act t <;> simp

theorem tellsFlaws_copyTreeWithin (depth : Nat) (source target : Path) :
    TellsFlaws (copyTreeWithin depth source target) := by
  cases depth with
  | zero => exact .throw (by simp [FileFailure.refusal])
  | succ depth =>
    rw [copyTreeWithin]
    refine (TellsFlaws.query fun _ => list_ne_copies source).bind fun names =>
      (tellsFlaws_openTarget target).bind fun _ =>
      (TellsFlaws.mapM fun name _ => tellsFlaws_noting _ _ _).bind fun flaws => ?_
    split
    · exact .throw fun h => ‹flaws.flatten ≠ []› (by simpa using h)
    · exact .pure ()

/-- What is noted of a failure is not empty, unless the failure itself is. -/
theorem flawsOf_eq_nil {source target : Path} {e : FileFailure}
    (h : flawsOf source target e = []) : e = .copies [] := by
  cases e with
  | copies flaws => rw [show flaws = [] from h]
  | sameFile a b =>
    have htext : (a ++ " and " ++ b ++ " are the same file").toList = [] := List.map_eq_nil_iff.1 h
    rw [String.toList_append, List.append_eq_nil_iff] at htext
    exact absurd htext.2 (by decide)
  | _ => cases h

/-- Where nothing is noted, nothing failed. -/
theorem eq_ok_of_noting {act : Action Unit} (htells : TellsFlaws act)
    (h : noting source target act t = .ok [] t') : act t = .ok () t' := by
  have ht := htells t
  unfold noting at h
  cases hact : act t with
  | ok a mid => rw [hact] at h; cases h; rfl
  | error e mid =>
    rw [hact] at h
    simp only [EStateM.Result.ok.injEq] at h
    have := ht.of_error hact
    exact absurd (flawsOf_eq_nil h.1) (by simpa using this)

/-! ## Sources that stay as they are -/

/-- Between `t` and `later`, nothing that is there changes but what lies at a place or below it, and
the file held open, to which something may be added; directories stay, and no links are made. -/
structure Precedes (place : Location) (t later : FileTree) : Prop where
  stays : Stays t later
  outside : ∀ q, isWithin place q = false → Kept t later q
  place : t.get? place = some .directory
  held : later.held = t.held

theorem Precedes.refl (hplace : t.get? place = some .directory) : Precedes place t t where
  stays := .refl t
  outside _ _ := .inl rfl
  place := hplace
  held := rfl

theorem Precedes.of_changes (h : Precedes place t' later) (hchanges : ChangesWithin place t t')
    (hplain : NoLinks place t) (hplace : t.get? place = some .directory) :
    Precedes place t later where
  stays := (hchanges.stays hplain).trans h.stays
  outside q hq := Kept.trans (.inl (hchanges.outside q hq)) (h.outside q hq) hchanges.held.symm.trans
  place := hplace
  held := h.held.trans hchanges.held

theorem Precedes.of_told (h : Precedes place t' later) (htold : Told t t') :
    Precedes place t later where
  stays := htold.stays.trans h.stays
  outside q hq := (htold.kept q).trans (h.outside q hq) htold.held.symm.trans
  place := (htold.kept place).directory_iff.1 h.place
  held := h.held.trans htold.held

theorem Precedes.look (h : Precedes place t later) (hapart : Apart later place source)
    {q : Location} {node : Node} (hlook : t.look .followed source = .ok (q, node)) :
    later.look .followed source = .ok (q, node) ∧ isWithin place q = false := by
  obtain ⟨hlocate, hnode⟩ := look_eq_ok_iff.1 hlook
  have hlater := locate_of_stays h.stays hlocate (by simp [hnode])
  obtain ⟨hout, hheld⟩ := hapart source (.self source) q hlater
  have hsame : later.get? q = t.get? q :=
    (h.outside q hout).resolve_right fun hadded => hheld (h.held.trans hadded.1)
  exact ⟨look_eq_ok_iff.2 ⟨hlater, hsame.trans hnode⟩, hout⟩

theorem Precedes.stat (h : Precedes place t later) (hapart : Apart later place source)
    {node : Node} (hstat : t.stat source = .ok node) : later.stat source = .ok node := by
  obtain ⟨q, hlook⟩ := stat_eq_ok_iff.1 hstat
  exact stat_eq_ok_iff.2 ⟨q, (h.look hapart hlook).1⟩

theorem Precedes.read (h : Precedes place t later) (hapart : Apart later place source)
    {content : List UInt8} (hread : t.read source = .ok content) :
    later.read source = .ok content := by
  obtain ⟨node, hstat, hnode⟩ := except_bind_eq_ok.1 hread
  exact except_bind_eq_ok.2 ⟨node, h.stat hapart hstat, hnode⟩

theorem Precedes.list (h : Precedes place t later) (hapart : Apart later place source)
    {names : List String} (hlist : t.list source = .ok names) : later.list source = .ok names := by
  obtain ⟨q, hlook, rfl⟩ := list_eq_ok hlist
  obtain ⟨hlater, hout⟩ := h.look hapart hlook
  have hnames : t.names q = later.names q := by
    refine names_congr_of_none fun name => ?_
    cases hin : isWithin place (q ++ [name]) with
    | false => exact (h.outside _ hin).none_iff.symm
    | true =>
      -- only the place itself lies in a directory that does not lie there
      obtain rfl : place = q ++ [name] := by
        rcases List.prefix_concat_iff.1 (List.isPrefixOf_iff_prefix.1 hin) with heq | hbegin
        · exact heq
        · rw [isWithin, List.isPrefixOf_iff_prefix.2 hbegin] at hout
          cases hout
      rw [h.place, h.stays.directory _ h.place]
  rw [FileTree.list, hlater, hnames]
  rfl

/-! ## Exact copies of files -/

theorem ChangesWithin.mono {inner : Location} (h : ChangesWithin inner t t')
    (hin : isWithin place inner = true) : ChangesWithin place t t' where
  outside q hq := h.outside q <| Bool.eq_false_iff.2 fun hinner => by
    rw [isWithin_trans hin hinner] at hq
    cases hq
  there := h.there
  directory := h.directory
  noLink := h.noLink
  isTree := h.isTree
  workingDirectory := h.workingDirectory
  held := h.held

/-- What is read is what a copy would hold. -/
theorem read_eq_ok {content : List UInt8} (h : t.read source = .ok content) :
    ∃ node, t.stat source = .ok node ∧ node.copied = .file content node.isExecutable := by
  obtain ⟨node, hstat, h⟩ := except_bind_eq_ok.1 h
  refine ⟨node, hstat, ?_⟩
  split at h <;> cases h <;> rfl

theorem openCopy_eq_ok (h : openCopy target t = .ok () t') : t.write target [] = .ok t' := by
  unfold openCopy at h
  split at h
  · cases h; assumption
  · split at h <;> cases h

theorem copyFile_reads {shown : String × String} (h : copyFile shown source target t = .ok () t') :
    ∃ content t₁, t.read source = .ok content ∧ t.write target [] = .ok t₁ ∧
      t₁.write target content = .ok t' := by
  obtain ⟨_, _, hget, hcopy⟩ := bind_eq_ok h
  cases hget
  split at hcopy
  · cases hcopy
  · obtain ⟨content, _, hquery, hwrites⟩ := bind_eq_ok hcopy
    obtain ⟨hread, rfl⟩ := query_eq_ok hquery
    obtain ⟨_, t₁, hopen, hwrite⟩ := bind_eq_ok hwrites
    exact ⟨content, t₁, hread, openCopy_eq_ok hopen, change_eq_ok hwrite⟩

section

variable (hentry : EntryOf t target within name) (hplain : NoLinks place t)
  (hin : isWithin place (within ++ [name]) = true)
include hentry hplain hin

/-- A file that is there is written over, and keeps its execute bit. -/
theorem copyFile_exact {shown : String × String} {content : List UInt8} {executable : Bool}
    (hread : t.read source = .ok content)
    (hold : t.get? (within ++ [name]) = none ∧ executable = false ∨
      ∃ old, t.get? (within ++ [name]) = some (.file old executable))
    (h : copyFile shown source target t = .ok () t') :
    t'.get? (within ++ [name]) = some (.file content executable) := by
  obtain ⟨content', t₁, hread', hopen, hwrite⟩ := copyFile_reads h
  rw [hread] at hread'
  cases hread'
  have hopened : t₁.get? (within ++ [name]) = some (.file [] executable) := by
    rcases hentry.write (fun target => hplain _ target hin) hopen with
      ⟨_, hdevice, -⟩ | ⟨executable', rfl, hold'⟩
    · rcases hold with ⟨hold, -⟩ | ⟨old, hold⟩ <;> simp [hold] at hdevice
    · rw [get?_set, if_pos rfl]
      rcases hold with ⟨hold, rfl⟩ | ⟨old, hold⟩ <;> rcases hold' with ⟨_, hold'⟩ | ⟨hold', rfl⟩ <;>
        simp_all
  have hchanges := (TargetIn.mk hplain ⟨within, name, hentry, hin⟩).write hopen
  have hentry₁ := hentry.of_stays (hchanges.stays hplain)
  rcases hentry₁.write (fun target => by simp [hopened]) hwrite with
    ⟨_, hdevice, -⟩ | ⟨executable', rfl, hold'⟩
  · simp [hopened] at hdevice
  · rw [get?_set, if_pos rfl]
    rcases hold' with ⟨_, hold'⟩ | ⟨hold', -⟩ <;> simp_all

/-- **A copy of an entry** holds what the entry holds, with its execute bit. -/
theorem copyEntry_exact (hname : IsEntryName source.name) (hplace : t.get? place = some .directory)
    (hlater : Precedes place t' later) (hapart : Apart later place source)
    (hold : ∀ node, t.get? (within ++ [name]) = some node → CopiedAs later source [] node)
    (h : copyEntry source target t = .ok () t') :
    ∃ node, later.stat source = .ok node ∧ node.isDirectory = false ∧
      t'.get? (within ++ [name]) = some node.copied := by
  have htarget : TargetIn place t target := ⟨hplain, within, name, hentry, hin⟩
  have hall := (changesWithin_copyEntry htarget hname).of_ok h
  obtain ⟨_, _, hget, h⟩ := bind_eq_ok h
  cases hget
  obtain ⟨_, _, hcopy, h⟩ := bind_eq_ok h
  obtain ⟨content, -, hread, -, -⟩ := copyFile_reads hcopy
  obtain ⟨node, hstat, hcopied⟩ := read_eq_ok hread
  have hlaterStat := (hlater.of_changes hall hplain hplace).stat hapart hstat
  have hconform : ∀ old, t.get? (within ++ [name]) = some old →
      old = .file content node.isExecutable := fun old hget =>
    ((hold old hget).unique (.self hlaterStat)).trans hcopied
  -- so the target is no directory
  have hgoal : t.leadsTo Node.isDirectory target = false := by
    rw [Bool.eq_false_iff]
    intro hfound
    obtain ⟨q, hlook⟩ := leadsTo_directory.1 hfound
    obtain ⟨hlocate, hnode⟩ := look_eq_ok_iff.1 hlook
    rw [hentry.locate (fun target => hplain _ target hin) hlocate] at hnode
    cases hconform _ hnode
  simp only [hgoal, Bool.false_eq_true, if_false] at hcopy h
  have hchanges := (changesWithin_copyFile _ _ htarget).of_ok hcopy
  obtain ⟨node', t₂, hquery, hset⟩ := bind_eq_ok h
  obtain ⟨hstat', rfl⟩ := query_eq_ok hquery
  have hset := change_eq_ok hset
  have htarget₂ := htarget.of_changes hchanges
  have hprecedes₂ := hlater.of_changes (htarget₂.setExecutable hset) htarget₂.plain
    (hchanges.directory _ hplace)
  -- the execute bit is that of the same entry
  have hsame := hprecedes₂.stat hapart hstat'
  rw [hlaterStat] at hsame
  cases hsame
  have hnode : node.isDirectory = false := by cases node <;> first | rfl | cases hcopied
  have hfile : ∃ executable, t₂.get? (within ++ [name]) = some (.file content executable) := by
    cases hget : t.get? (within ++ [name]) with
    | none => exact ⟨_, copyFile_exact hentry hplain hin hread (.inl ⟨hget, rfl⟩) hcopy⟩
    | some old =>
      rw [hconform old hget] at hget
      exact ⟨_, copyFile_exact hentry hplain hin hread (.inr ⟨_, hget⟩) hcopy⟩
  obtain ⟨executable, hfile⟩ := hfile
  refine ⟨node, hlaterStat, hnode, ?_⟩
  rcases (hentry.of_stays (hchanges.stays hplain)).setExecutable (by simp [hfile]) hset with
    ⟨content', old, hfile', rfl⟩ | ⟨hother, -⟩
  · rw [hfile] at hfile'
    cases hfile'
    rw [get?_set, if_pos rfl, hcopied]
  · exact absurd hfile (hother _ _)

end

/-! ## Exact copies of trees -/

/-- At a place and below it there is nothing but what belongs to a copy of `source`. -/
def IsPartOfCopy (t later : FileTree) (place : Location) (source : Path) : Prop :=
  ∀ names node, t.get? (place ++ names) = some node → CopiedAs later source names node

/-- At a place and below it there is a copy of `source`, and nothing else. -/
def HoldsCopy (t later : FileTree) (place : Location) (source : Path) : Prop :=
  ∀ names node, t.get? (place ++ names) = some node ↔ CopiedAs later source names node

theorem copiedAs_nil_iff {node : Node} :
    CopiedAs t source [] node ↔ ∃ found, t.stat source = .ok found ∧ node = found.copied := by
  constructor
  · rintro ⟨hfound⟩
    exact ⟨_, hfound, rfl⟩
  · rintro ⟨found, hfound, rfl⟩
    exact .self hfound

theorem copiedAs_cons_iff {names rest : List String} {node : Node}
    (hlist : t.list source = .ok names) :
    CopiedAs t source (name :: rest) node ↔
      name ∈ names ∧ CopiedAs t (source.entry name) rest node := by
  constructor
  · rintro (_ | ⟨hlist', hname, hcopied⟩)
    rw [hlist] at hlist'
    cases hlist'
    exact ⟨hname, hcopied⟩
  · rintro ⟨hname, hcopied⟩
    exact .inside hlist hname hcopied

/-- A copy of what is no directory has nothing in it. -/
theorem holdsCopy_of_file {node : Node} (htree : IsTree t) (hstat : later.stat source = .ok node)
    (hnode : node.isDirectory = false) (hget : t.get? place = some node.copied) :
    HoldsCopy t later place source := by
  have hcopied : node.copied ≠ .directory := by cases node <;> simp_all [Node.copied, Node.isDirectory]
  intro names node'
  cases names with
  | nil =>
    rw [List.append_nil, hget, copiedAs_nil_iff, hstat]
    simp [eq_comm]
  | cons name rest =>
    constructor
    · intro hbelow
      have habove : t.get? place = some .directory :=
        htree.get?_above (List.cons_ne_nil name rest) (by rw [hbelow]; simp)
      rw [hget] at habove
      exact absurd (by simpa using habove) hcopied
    · rintro (_ | ⟨hlist, -, -⟩)
      obtain ⟨q, hlook, -⟩ := list_eq_ok hlist
      rw [stat_eq_ok_iff.2 ⟨q, hlook⟩] at hstat
      cases hstat
      cases hnode

/-- The directory that the target of a copy leads to, while entries are copied into it. -/
structure Filling (place : Location) (target : Path) (goal : Location) (t : FileTree) : Prop where
  isTree : IsTree t
  plain : NoLinks place t
  within : isWithin place goal = true
  found : t.look .followed target = .ok (goal, .directory)
  place : t.get? place = some .directory

variable {goal : Location}

theorem Filling.of_changes (h : Filling place target goal t) (hchanges : ChangesWithin place t t') :
    Filling place target goal t' where
  isTree := hchanges.isTree h.isTree
  plain := hchanges.noLinks h.plain
  within := h.within
  found := look_directory_of_stays (hchanges.stays h.plain) h.found
  place := hchanges.directory _ h.place

theorem Filling.entryOf (h : Filling place target goal t) (hname : IsEntryName name) :
    EntryOf t (target.entry name) goal name :=
  ⟨⟨target, rfl, h.found⟩, hname⟩

theorem Filling.targetIn (h : Filling place target goal t) (hname : IsEntryName name) :
    TargetIn (goal ++ [name]) t (target.entry name) where
  plain q target hq := h.plain q target (isWithin_trans (isWithin_append h.within) hq)
  entry := ⟨goal, name, h.entryOf hname, isWithin_refl _⟩

/-- Places of different names in one directory are apart. -/
theorem isWithin_entry_ne {other : String} {rest : List String} (h : name ≠ other) :
    isWithin (goal ++ [name]) (goal ++ [other] ++ rest) = false := by
  rw [Bool.eq_false_iff]
  intro hin
  obtain ⟨more, hmore⟩ := List.isPrefixOf_iff_prefix.1 hin
  simp_all

/-- Entries that are copied into a directory one after the other do not touch each other. -/
theorem forM_exact {copy : String → Action Unit} {names : List String} (hnodup : names.Nodup)
    (hframe : ∀ name ∈ names, ∀ t, Filling place target goal t →
      Yields (copy name) t fun _ t' => ChangesWithin (goal ++ [name]) t t')
    (hexact : ∀ name ∈ names, ∀ t t', Filling place target goal t → copy name t = .ok () t' →
      Precedes place t' later → IsPartOfCopy t later (goal ++ [name]) (source.entry name) →
      HoldsCopy t' later (goal ++ [name]) (source.entry name))
    (hfilling : Filling place target goal t)
    (hold : ∀ name ∈ names, IsPartOfCopy t later (goal ++ [name]) (source.entry name))
    (hlater : Precedes place t' later) (h : (forM names copy : Action Unit) t = .ok () t') :
    (∀ name ∈ names, HoldsCopy t' later (goal ++ [name]) (source.entry name)) ∧
      (∀ q, (∀ name ∈ names, isWithin (goal ++ [name]) q = false) → t'.get? q = t.get? q) ∧
      ChangesWithin place t t' := by
  induction names generalizing t with
  | nil =>
    cases h
    exact ⟨by simp, fun _ _ => rfl, refl_of (ChangesWithin place) _⟩
  | cons name names ih =>
    obtain ⟨hnew, hnodup⟩ := List.nodup_cons.1 hnodup
    have hne : ∀ other ∈ names, name ≠ other := fun other hother heq => hnew (heq ▸ hother)
    rw [List.forM_cons] at h
    obtain ⟨_, mid, hcopy, hrest⟩ := bind_eq_ok h
    have hchanges := (hframe name (by simp) t hfilling).of_ok hcopy
    have hchangesPlace := hchanges.mono (isWithin_append hfilling.within)
    have hmid := hfilling.of_changes hchangesPlace
    obtain ⟨hcopies, hothers, hchangesRest⟩ := ih hnodup
      (fun other hother => hframe other (by simp [hother]))
      (fun other hother => hexact other (by simp [hother])) hmid
      (fun other hother rest node hget => hold other (by simp [hother]) rest node (by
        rwa [← hchanges.outside _ (isWithin_entry_ne (hne other hother))])) hrest
    refine ⟨?_, fun q hq => ?_, trans_of (ChangesWithin place) hchangesPlace hchangesRest⟩
    · rintro other (_ | ⟨_, hother⟩)
      · intro rest node
        rw [hothers _ fun other hother => isWithin_entry_ne (hne other hother).symm]
        exact hexact name (by simp) t mid hfilling hcopy
          (hlater.of_changes hchangesRest hmid.plain hmid.place) (hold name (by simp)) rest node
      · exact hcopies other hother
    · rw [hothers q fun other hother => hq other (by simp [hother]), hchanges.outside q (hq name (by simp))]

/-- Where no failure was noted, all entries were copied. -/
theorem forM_of_noting {depth : Nat} {names : List String} {flaws : List (List CopyFlaw)}
    (h : (names.mapM fun name => noting (source.entry name) (target.entry name)
      (copyInto depth (source.entry name) (target.entry name))) t = .ok flaws t')
    (hflaws : flaws.flatten = []) :
    (forM names fun name => copyInto depth (source.entry name) (target.entry name) :
      Action Unit) t = .ok () t' := by
  induction names generalizing t flaws with
  | nil => cases h; rfl
  | cons name names ih =>
    rw [List.mapM_cons] at h
    obtain ⟨noted, mid, hnoted, h⟩ := bind_eq_ok h
    obtain ⟨rest, _, hrest, h⟩ := bind_eq_ok h
    cases h
    rw [List.flatten_cons, List.append_eq_nil_iff] at hflaws
    obtain ⟨rfl, hflaws⟩ := hflaws
    have htells : TellsFlaws (copyInto depth (source.entry name) (target.entry name)) :=
      tellsFlaws_get.bind fun _ => by
        split
        · exact tellsFlaws_copyTreeWithin _ _ _
        · exact tellsFlaws_copyEntry _ _
    rw [List.forM_cons, bind_ok (eq_ok_of_noting htells hnoted)]
    exact ih hrest hflaws

theorem openTarget_exact (hentry : EntryOf t target within name) (hplain : NoLinks place t)
    (hin : isWithin place (within ++ [name]) = true) (h : openTarget target t = .ok () t') :
    t'.look .followed target = .ok (within ++ [name], .directory) ∧
      ∀ q, q ≠ within ++ [name] → t'.get? q = t.get? q := by
  have hlink : ∀ target, t.get? (within ++ [name]) ≠ some (.link target) :=
    fun target => hplain _ target hin
  unfold openTarget at h
  split at h
  · rename_i hmade
    cases h
    obtain ⟨q, hlocate, hfree, rfl⟩ := makeDirectory_eq_ok hmade
    obtain rfl := hentry.locate hlink hlocate
    exact ⟨look_made hlocate hfree, fun q hq => by rw [get?_set, if_neg hq]⟩
  · split at h
    · cases h
      obtain ⟨q, hlook⟩ := leadsTo_directory.1 ‹_›
      obtain rfl := hentry.locate hlink (look_eq_ok_iff.1 hlook).1
      exact ⟨hlook, fun _ _ => rfl⟩
    · cases h

theorem noting_of_forM {depth : Nat} {names : List String}
    (h : (forM names fun name => copyInto depth (source.entry name) (target.entry name) :
      Action Unit) t = .ok () t') :
    ∃ flaws, (names.mapM fun name => noting (source.entry name) (target.entry name)
      (copyInto depth (source.entry name) (target.entry name))) t = .ok flaws t' ∧
      flaws.flatten = [] := by
  induction names generalizing t with
  | nil => cases h; exact ⟨[], rfl, rfl⟩
  | cons name names ih =>
    rw [List.forM_cons] at h
    obtain ⟨_, mid, hcopy, h⟩ := bind_eq_ok h
    obtain ⟨flaws, hflaws, hnone⟩ := ih h
    have hnoting : noting (source.entry name) (target.entry name)
        (copyInto depth (source.entry name) (target.entry name)) t = .ok [] mid := by
      rw [noting, hcopy]
    refine ⟨[] :: flaws, ?_, by simpa using hnone⟩
    rw [List.mapM_cons, bind_ok hnoting, bind_ok hflaws]
    rfl

theorem copyTreeWithin_of_forM {depth : Nat} {names : List String} {mid : FileTree}
    (hlist : t.list source = .ok names) (hopen : openTarget target t = .ok () mid)
    (hentries : (forM names fun name => copyInto depth (source.entry name) (target.entry name) :
      Action Unit) mid = .ok () t') : copyTreeWithin (depth + 1) source target t = .ok () t' := by
  obtain ⟨flaws, hnoting, hnone⟩ := noting_of_forM hentries
  have hcopy : copyTreeWithin (depth + 1) source target = (do
      let names ← query (·.list source)
      openTarget target
      let flaws ← names.mapM fun name => noting (source.entry name) (target.entry name)
        (copyInto depth (source.entry name) (target.entry name))
      if flaws.flatten ≠ [] then throw (FileFailure.copies flaws.flatten)) := rfl
  rw [hcopy, bind_ok (query_ok hlist), bind_ok hopen, bind_ok hnoting, if_neg (by simp [hnone])]
  rfl

/-- What a copy of a tree that ends without a failure has done. -/
theorem copyTreeWithin_eq_ok {depth : Nat}
    (h : copyTreeWithin (depth + 1) source target t = .ok () t') :
    ∃ names t₁, t.list source = .ok names ∧ openTarget target t = .ok () t₁ ∧
      (forM names fun name => copyInto depth (source.entry name) (target.entry name) :
        Action Unit) t₁ = .ok () t' := by
  have hcopy : (do
      let names ← query (·.list source)
      openTarget target
      let flaws ← names.mapM fun name => noting (source.entry name) (target.entry name)
        (copyInto depth (source.entry name) (target.entry name))
      if flaws.flatten ≠ [] then throw (FileFailure.copies flaws.flatten) : Action Unit) t =
        .ok () t' := h
  obtain ⟨names, _, hquery, hopens⟩ := bind_eq_ok hcopy
  obtain ⟨hlist, rfl⟩ := query_eq_ok hquery
  obtain ⟨_, t₁, hopen, hentries⟩ := bind_eq_ok hopens
  obtain ⟨flaws, t₂, hnoting, hend⟩ := bind_eq_ok hentries
  refine ⟨names, t₁, hlist, hopen, ?_⟩
  split at hend
  · cases hend
  · cases hend
    exact forM_of_noting hnoting (of_not_not ‹_›)

/-- **A copy of a tree** that ends without a failure is exact. -/
theorem copyTreeWithin_exact {depth : Nat} (htree : IsTree t) (hplain : NoLinks place t)
    (hentry : EntryOf t target within name) (hin : isWithin place (within ++ [name]) = true)
    (hplace : t.get? place = some .directory) (hlater : Precedes place t' later)
    (hapart : Apart later place source)
    (hold : IsPartOfCopy t later (within ++ [name]) source)
    (h : copyTreeWithin depth source target t = .ok () t') :
    HoldsCopy t' later (within ++ [name]) source := by
  induction depth generalizing source target t t' within name with
  | zero => cases h
  | succ depth ih =>
    have htarget : TargetIn place t target := ⟨hplain, within, name, hentry, hin⟩
    have hall := (changesWithin_copyTreeWithin htree (depth + 1) source htarget).of_ok h
    obtain ⟨names, t₁, hlist, hopen, hcopy⟩ := copyTreeWithin_eq_ok h
    have hlistLater := (hlater.of_changes hall hplain hplace).list hapart hlist
    obtain ⟨hfound, hopened⟩ := openTarget_exact hentry hplain hin hopen
    have hchanges := (changesWithin_openTarget htarget).of_ok hopen
    have hfilling : Filling place target (within ++ [name]) t₁ :=
      ⟨hchanges.isTree htree, hchanges.noLinks hplain, hin, hfound, hchanges.directory _ hplace⟩
    have hentries := isEntryName_of_list htree hlist
    have hold₁ : ∀ entry rest node, t₁.get? (within ++ [name] ++ entry :: rest) = some node →
        entry ∈ names ∧ CopiedAs later (source.entry entry) rest node := fun entry rest node hget =>
      (copiedAs_cons_iff hlistLater).1 (hold _ _ (by rwa [← hopened _ (by simp)]))
    have hone : ∀ entry ∈ names, ∀ t t', Filling place target (within ++ [name]) t →
        copyInto depth (source.entry entry) (target.entry entry) t = .ok () t' →
        Precedes place t' later →
        IsPartOfCopy t later (within ++ [name] ++ [entry]) (source.entry entry) →
        HoldsCopy t' later (within ++ [name] ++ [entry]) (source.entry entry) := by
      intro entry hentry t t' hfilling hcopy hlater hold
      have hname := hentries entry hentry
      have hchanges := (changesWithin_copyInto hfilling.isTree depth (by simpa using hname)
        (hfilling.targetIn hname)).of_ok hcopy
      obtain ⟨_, _, hget, hcopied⟩ := bind_eq_ok hcopy
      cases hget
      have hapart := hapart.entry hlistLater hentry
      split at hcopied
      · exact ih hfilling.isTree hfilling.plain (hfilling.entryOf hname) (isWithin_append hin)
          hfilling.place hlater hapart hold hcopied
      · obtain ⟨node, hstat, hnode, hget⟩ := copyEntry_exact (hfilling.entryOf hname) hfilling.plain
          (isWithin_append hin) (by simpa using hname) hfilling.place hlater hapart
          (fun node hget => hold [] node (by simpa using hget)) hcopied
        exact holdsCopy_of_file (hchanges.isTree hfilling.isTree) hstat hnode hget
    obtain ⟨hcopies, hothers, hfilled⟩ := forM_exact (nodup_of_list hlist)
      (fun entry hentry t hfilling => changesWithin_copyInto hfilling.isTree depth
        (by simpa using hentries entry hentry) (hfilling.targetIn (hentries entry hentry)))
      hone hfilling
      (fun entry _ rest node hget => (hold₁ entry rest node (by simpa using hget)).2) hlater hcopy
    intro rest node
    cases rest with
    | nil =>
      obtain ⟨q, hlook, -⟩ := list_eq_ok hlistLater
      have hdirectory := hfilled.directory _ (look_eq_ok_iff.1 hfound).2
      rw [List.append_nil, hdirectory, copiedAs_nil_iff, stat_eq_ok_iff.2 ⟨q, hlook⟩]
      simp [Node.copied, eq_comm]
    | cons entry rest =>
      rw [copiedAs_cons_iff hlistLater]
      by_cases hentry : entry ∈ names
      · simpa [hentry] using hcopies entry hentry rest node
      · rw [hothers _ fun other hother => ?_]
        · exact ⟨fun hget => absurd (hold₁ _ _ _ hget).1 hentry, fun h => absurd h.1 hentry⟩
        · have hne : other ≠ entry := fun heq => hentry (heq ▸ hother)
          rw [List.append_cons _ entry]
          exact isWithin_entry_ne hne

end FileTree

end WeaveStep
