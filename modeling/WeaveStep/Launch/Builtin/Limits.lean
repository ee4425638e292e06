import WeaveStep.Launch.Builtin.Arguments
import WeaveStep.Launch.Format

/-! # Builtin commands on rights and limits

The rights that new files get, and how much a process may take. -/

namespace WeaveStep.Launch.Builtin

open Text

/-! ## Rights of new files -/

/-- The rights that new files get, as letters. -/
def rights (mask : Nat) : String :=
  let letters (bits : Nat) : String := String.ofList
    ((if bits &&& 4 = 0 then ['r'] else []) ++ (if bits &&& 2 = 0 then ['w'] else []) ++
      (if bits &&& 1 = 0 then ['x'] else []))
  "u=" ++ letters (mask / 64 % 8) ++ ",g=" ++ letters (mask / 8 % 8) ++ ",o=" ++ letters (mask % 8)

/-- The rights that a letter stands for, which may be those that some have already. -/
def rightsOf? (before : Nat) (c : Char) : Option Nat :=
  match c with
  | 'r' => some 4
  | 'w' => some 2
  | 'x' => some 1
  | 'u' => some (before / 64 % 8)
  | 'g' => some (before / 8 % 8)
  | 'o' => some (before % 8)
  | 'X' => some (if before &&& 0o111 = 0 then 0 else 1)
  | 's' => some 0
  | _ => none

/-- Those whose rights a letter speaks of, as the least bit of each. -/
def holdersOf? (c : Char) : Option Nat :=
  [('a', 0o111), ('u', 0o100), ('g', 0o010), ('o', 0o001)].lookup c

/-- Rights changed as letters say, unless these make no sense. `holders` are those whose rights are
spoken of so far; those named last without a sign keep theirs. -/
def changedRights? (before : Nat) : (fuel : Nat) → (holders rights : Nat) → List Char → Option Nat
  | 0, _, rights, s => if s.isEmpty then some rights else none
  | _ + 1, _, rights, [] => some rights
  | fuel + 1, holders, rights, s =>
    let named := s.takeWhile (holdersOf? · |>.isSome)
    let holders := (named.filterMap holdersOf?).foldl (· ||| ·) holders
    let holders := if holders = 0 then 0o111 else holders
    match s.drop named.length with
    | op :: s =>
      let given := s.takeWhile (rightsOf? before · |>.isSome)
      let bits := (given.filterMap (rightsOf? before)).foldl (· ||| ·) 0 * holders
      let rights? := match op with
        | '+' => some (rights ||| bits)
        | '-' => some (rights ^^^ (rights &&& bits))
        | '=' => some (bits ||| (rights ^^^ (rights &&& holders * 7)))
        | _ => none
      match rights?, s.drop given.length with
      | none, _ => none
      | some rights, ',' :: s => changedRights? before fuel 0 rights s
      | some rights, s =>
        if s.head?.all "+-=".toList.contains then changedRights? before fuel holders rights s else none
    | [] => some rights

/-- Shows or sets the bits that new files do not get. -/
def umask (arguments : List String) : Act Nat := do
  let (found, arguments) ← letters "S" arguments
  let mask := (← get).mask
  match arguments with
  | [] =>
    let digits := Nat.toDigits 8 mask
    if found.isEmpty then
      Act.print (List.replicate (4 - digits.length) '0' ++ digits ++ ['\n'])
    else Act.print (rights mask ++ "\n").toList
  | s :: _ =>
    let s' := s.toList
    if s'.head?.any Char.isDigit then
      if !s'.all isOctal then Act.fail ("Illegal number: " ++ s)
      modify ({ · with mask := Sum.digitsValue 8 s' % 512 })
    else
      match changedRights? (511 - mask) (s.length + 1) 0 (511 - mask) s' with
      | some rights => modify ({ · with mask := 511 - rights })
      | none => Act.fail ("Illegal mode: " ++ s)
    return 0

/-! ## Limits -/

/-- What a process may take only so much of. -/
structure Resource where
  letter : Char
  name : String
  /-- How many of what is counted one of it is. -/
  unit : Nat
  /-- What the system allows. -/
  limit : Limit

/-- What a process may take only so much of. -/
def resources : List Resource := [
  ⟨'t', "time(seconds)", 1, {}⟩, ⟨'f', "file(blocks)", 512, {}⟩, ⟨'d', "data(kbytes)", 1024, {}⟩,
  ⟨'s', "stack(kbytes)", 1024, ⟨some (Nat.pow 2 23), none⟩⟩,
  ⟨'c', "coredump(blocks)", 512, ⟨some 0, none⟩⟩,
  ⟨'m', "memory(kbytes)", 1024, {}⟩,
  ⟨'l', "locked memory(kbytes)", 1024, ⟨some (Nat.pow 2 23), some (Nat.pow 2 23)⟩⟩,
  ⟨'p', "process", 1, ⟨some 128597, some 128597⟩⟩, ⟨'n', "nofiles", 1, ⟨some 20000, some 20000⟩⟩,
  ⟨'v', "vmemory(kbytes)", 1024, {}⟩, ⟨'w', "locks", 1, {}⟩, ⟨'r', "rtprio", 1, ⟨some 0, some 0⟩⟩]

/-- A limit as it is shown. -/
def Resource.shown (r : Resource) (limit : Option Nat) : String :=
  match limit with
  | some n => toString (n / r.unit) ++ "\n"
  | none => "unlimited\n"

/-- Whether one limit is at most another. -/
def isWithin (a b : Option Nat) : Bool :=
  match a, b with
  | _, none => true
  | some a, some b => a ≤ b
  | none, some _ => false

/-- Shows or sets limits. Only a lower limit may be set for good, and none beyond it. -/
def limit (arguments : List String) : Act Nat := do
  let (found, arguments) ← letters (String.ofList ("HSa".toList ++ resources.map (·.letter))) arguments
  let sh ← get
  let current (r : Resource) : Limit := (sh.limits.lookup r.letter).getD r.limit
  let way := (found.filter fun c => c = 'H' || c = 'S').getLast?
  let shownOf (r : Resource) : String :=
    r.shown (if way = some 'H' then (current r).hard else (current r).soft)
  let isAll := found.contains 'a'
  let letter := (found.filter fun c => resources.any (·.letter = c)).getLast?.getD 'f'
  match resources.find? (·.letter = letter), arguments with
  | some r, [] =>
    if isAll then
      let line (r : Resource) : String :=
        r.name ++ String.ofList (List.replicate (20 - r.name.length) ' ') ++ " " ++ shownOf r
      Act.print (String.join (resources.map line)).toList
    else Act.print (shownOf r).toList
  | some r, s :: more =>
    if isAll || !more.isEmpty then Act.fail "too many arguments"
    if s ≠ "unlimited" && !s.toList.all Char.isDigit then Act.fail "bad number"
    let value :=
      if s = "unlimited" then none else some (Sum.digitsValue 10 s.toList * r.unit % Nat.pow 2 64)
    let before := current r
    let after : Limit := {
      soft := if way = some 'H' then before.soft else value
      hard := if way = some 'S' then before.hard else value }
    let refuse {α : Type} (why : String) : Act α := Act.fail ("error setting limit (" ++ why ++ ")")
    if !isWithin after.soft after.hard then refuse "Invalid argument"
    if !isWithin after.hard before.hard then refuse "Operation not permitted"
    set { sh with limits := (letter, after) :: sh.limits.filter (·.1 ≠ letter) }
    return 0
  | none, _ => return 0

end WeaveStep.Launch.Builtin
