import WeaveStep.Launch.Builtin.Arguments

/-! # Builtin commands on names

Those that deal with variables, aliases, switches and arguments. -/

namespace WeaveStep.Launch.Builtin

open Text

/-! ## Variables -/

/-- The list of those variables that are wanted. -/
def listed (sh : Shell) (start : String) (wanted : Variable → Bool) : String :=
  let chosen := (sh.vars.filter (wanted ·.2)).mergeSort (·.1 ≤ ·.1)
  String.join (chosen.map fun (name, v) =>
    start ++ name ++ ((v.value.map ("=" ++ quoted ·)).getD "") ++ "\n")

/-- Marks variables, or lists those that are marked. -/
def mark (command : String) (isMarked : Variable → Bool) (mark : Variable → Variable)
    (arguments : List String) : Act Nat := do
  let asksList := beginsWithLetter 'p' arguments
  let (_, arguments) ← if asksList then pure ([], []) else letters "" arguments
  if arguments.isEmpty then
    Act.print (listed (← get) (command ++ " ") isMarked).toList
  else
    for s in arguments do
      let (name, value) := nameAndValue s
      checkName name
      if let some value := value then Act.setVariable name value false
      modify fun sh => sh.putVariable name (some (mark ((sh.vars.lookup name).getD {})))
    return 0

/-- Removes variables or functions; the number of the next argument with options cannot do without a value. -/
def unset (arguments : List String) : Act Nat := do
  let (found, names) ← letters "fv" arguments
  for name in names do
    let sh ← get
    if found.getLast? = some 'f' then
      set { sh with functions := sh.functions.filter (·.1 ≠ name) }
    else
      let name := (nameAndValue name).1
      checkName name
      if (sh.vars.lookup name).any (·.isReadonly) then Act.fail (name ++ ": is read only")
      if name = "OPTIND" then discard (Act.number "")
      set (sh.unsetVariable name)
  return 0

/-- Keeps variables, or what is switched on, to the function at hand. -/
def keepLocal (arguments : List String) : Act Nat := do
  if (← get).frames.isEmpty then Act.fail "not in a function"
  for s in arguments do
    if s = "-" then Act.keepSwitches
    else
      let (name, value) := nameAndValue s
      if value.isNone then checkName name
      Act.keepLocal name
      if let some value := value then Act.setVariable name value false
  return 0

/-! ## Aliases -/

/-- Shows an alias. -/
def printAlias (name text : String) : Act Unit :=
  discard (Act.print (name ++ "=" ++ quoted text ++ "\n").toList)

/-- The name and the text of an alias that an argument sets; the first character is always one of the
name. -/
def aliasOf? (s : String) : Option (String × String) :=
  let name := s.toList.take 1 ++ (s.toList.drop 1).takeWhile (· ≠ '=')
  if name.length = s.length then none
  else some (String.ofList name, String.ofList (s.toList.drop (name.length + 1)))

/-- Sets aliases or shows them. -/
def setAliases (arguments : List String) : Act Nat := do
  if arguments.isEmpty then
    for (name, text) in Shell.inChains Shell.chains (← get).aliases do printAlias name text
  let mut status := 0
  for s in arguments do
    let sh ← get
    match aliasOf? s with
    | some (name, text) => set { sh with aliases := Shell.updated sh.aliases name (some text) }
    | none =>
      match sh.aliases.lookup s with
      | some text => printAlias s text
      | none =>
        Act.tell ("alias: " ++ s ++ " not found\n")
        status := 1
  return status

/-- Removes aliases. -/
def unalias (arguments : List String) : Act Nat := do
  if beginsWithLetter 'a' arguments then
    modify ({ · with aliases := [] })
    return 0
  let (_, names) ← letters "" arguments
  let mut status := 0
  for name in names do
    let sh ← get
    if sh.aliases.any (·.1 = name) then
      set { sh with aliases := Shell.updated sh.aliases name none }
    else
      Act.tell ("unalias: " ++ name ++ " not found\n")
      status := 1
  return status

/-! ## Switches and arguments -/

/-- Turns switches on and off, at most `most` arguments of them; gives the arguments left, if they are
to be those of the script. -/
def turnSwitches : (most : Nat) → List String → Act (Option (List String))
  | 0, _ | _, [] => return none
  | most + 1, s :: arguments => do
    match s.toList with
    | ['-'] =>
      modify fun sh => { sh with switches := sh.switches.filter fun c => c ≠ .xtrace && c ≠ .verbose }
      return if arguments.isEmpty then none else some arguments
    | ['-', '-'] => return some arguments
    | sign :: letters =>
      if sign ≠ '-' && sign ≠ '+' then return some (s :: arguments)
      let call : SwitchCall := { switches := (← get).switches }
      let take (call : SwitchCall) : Act Unit := do
        modify ({ · with switches := call.switches })
        discard (Act.print call.listings.toList)
      match call.read (sign = '-') false arguments letters with
      | .ok (call, arguments) =>
        take call
        turnSwitches most arguments
      | .error (call, why) =>
        take call
        Act.fail why
    | [] => return some (s :: arguments)

/-- Lists variables, or sets switches and arguments. Nobody is there to control jobs for. -/
def setArguments (arguments : List String) : Act Nat := do
  if arguments.isEmpty then Act.print (listed (← get) "" (·.value.isSome)).toList
  else
    let rest ← turnSwitches arguments.length arguments
    let sh ← get
    if sh.has .monitor && sh.number = sh.leader then Act.loseMonitor
    if let some arguments := rest then modify ({ · with arguments, optionPlace := {} })
    return 0

/-- Drops arguments. -/
def shift (arguments : List String) : Act Nat := do
  let n ← match arguments with
    | [] => pure 1
    | s :: _ => Act.number s
  let sh ← get
  if sh.arguments.length < n then Act.fail "can't shift that many"
  set { sh with arguments := sh.arguments.drop n, optionPlace := {} }
  return 0

/-- An option that was taken. A mark of its own stands for one that is not known, or whose argument is
missing. -/
structure TakenOption where
  mark : Char
  /-- Its argument, unless the variable for that is taken away. -/
  argument : Option String
  /-- What is left of the argument that it stands in, if its options go on. -/
  left : Option (List Char)
  /-- How many more arguments it takes. -/
  extra : Nat := 0
  told : Option String := none

/-- What stands behind a letter among those that are known; a colon behind one of them belongs to it. -/
def behindLetter? (c : Char) : List Char → Option (List Char)
  | [] => none
  | [d] => if d = c then some [] else none
  | d :: e :: known =>
    if d = c then some (e :: known)
    else if e = ':' then behindLetter? c known
    else behindLetter? c (e :: known)

/-- The option of a letter, with what follows it in its argument, and the argument after that. Where the
letters known begin with a colon, nothing is told of what is wrong. -/
def optionAt (known : List Char) (c : Char) (rest : List Char) (following : Option String) :
    TakenOption :=
  let refused (mark : Char) (left : Option (List Char)) (text : String) : TakenOption :=
    if known.head? = some ':' then { mark, argument := some (String.singleton c), left }
    else { mark := '?', argument := none, left, told := some (text ++ "\n") }
  match behindLetter? c known with
  | none => refused '?' (some rest) ("Illegal option -" ++ String.singleton c)
  | some (':' :: _) =>
    match rest, following with
    | [], none => refused ':' none ("No arg for -" ++ String.singleton c ++ " option")
    | [], some argument => { mark := c, argument := some argument, left := none, extra := 1 }
    | rest, _ => { mark := c, argument := some (String.ofList rest), left := none }
  | some _ => { mark := c, argument := some "", left := some rest }

/-- What is left of the options in the argument that was begun; where there is nothing, the next argument
counts, if it has options. Gives the number of the argument after that as well. -/
def optionsLeft (given : List String) (next : Nat) (offset : Option Nat) : List Char × Nat :=
  let begun := match offset with
    | some n => if 2 ≤ next then (given[next - 2]?.getD "").toList.drop n else []
    | none => []
  if begun ≠ [] then (begun, next)
  else
    match (given[next - 1]?.getD "").toList with
    | ['-', '-'] => ([], next + 1)
    | '-' :: c :: rest => (c :: rest, next + 1)
    | _ => ([], next)

/-- Takes the next option from arguments. -/
def nextOption (arguments : List String) : Act Nat := do
  let known :: name :: given := arguments | Act.fail "Usage: getopts optstring var [arg...]"
  let sh ← get
  let given := if given.isEmpty then sh.arguments else given
  let (next, offset) := match sh.optionPlace.next with
    | some next => if given.length + 1 < next then (1, none) else (next, sh.optionPlace.offset)
    | none => (1, none)
  modify ({ · with optionPlace := { next := none } })
  let leave (mark : Char) (place : OptionPlace) : Act Unit := do
    Act.setVariable "OPTIND" (toString (place.next.getD 1)) false
    modify ({ · with optionPlace := { next := none } })
    checkName name
    Act.setVariable name (String.singleton mark) false
    modify ({ · with optionPlace := place })
  match optionsLeft given next offset with
  | ([], next) =>
    leave '?' { next := some next }
    return 1
  | (c :: rest, next) =>
    let option := optionAt known.toList c rest given[next - 1]?
    match option.argument with
    | some value => Act.setVariable "OPTARG" value false
    | none => modify (·.putVariable "OPTARG" none)
    if let some text := option.told then discard (Act.write 2 text.toList)
    let next := next + option.extra
    leave option.mark {
      next := some next
      offset := option.left.map fun left => (given[next - 2]?.getD "").length - left.length }
    return 0

end WeaveStep.Launch.Builtin
