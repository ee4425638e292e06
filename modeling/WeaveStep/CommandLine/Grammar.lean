import WeaveStep.Text.Digit
import WeaveStep.Text.Quoted
import WeaveStep.Text.Split

/-! # Reading arguments

The options that a command takes, and how arguments are read by them.

* `Grammar`: the options of a command, each with what it does to the options gathered so far.
* `Token.of`: what an argument is taken for, whatever stands around it. A long name may be cut short
  as long as one option has it, and a value may be attached to its option.
* `Grammar.read`: gathers the options; arguments that no option takes are left over. -/

namespace WeaveStep.CommandLine

open Text

/-! ## Grammars -/

/-- What an option does to what is gathered. The value of an option may be nothing at all. -/
inductive Effect (α : Type)
  | help
  | version
  | flag (set : α → α)
  | value (placeholder : String) (set : Option String → α → α)

/-- An option of a command. -/
structure CommandOption (α : Type) where
  names : List String
  effect : Effect α
  required : Bool := false
  about : String

/-- A command with its options, or with commands of its own. -/
structure Grammar (α : Type) where
  program : String
  description : String := ""
  options : List (CommandOption α)
  /-- What can be commanded, each with what it is about. -/
  commands : List (String × String) := []

/-- What messages call an option. -/
def CommandOption.title {α : Type} (o : CommandOption α) : String := "/".intercalate o.names

/-- Whether an option takes a value. -/
def CommandOption.takesValue {α : Type} (o : CommandOption α) : Bool :=
  match o.effect with
  | .value _ _ => true
  | _ => false

/-- Why reading stops. -/
inductive Stop
  | help
  | version
  | misuse (message : String)
  deriving DecidableEq, Repr

/-- A complaint about the use of an option. -/
def CommandOption.misuse {α : Type} (o : CommandOption α) (complaint : String) : Stop :=
  .misuse ("argument " ++ o.title ++ ": " ++ complaint)

/-! ## Tokens -/

/-- What an argument is taken for. -/
inductive Token (α : Type)
  | plain
  /-- Two dashes, after which every argument is plain. -/
  | separator
  /-- An option that the command does not have. -/
  | unknown
  | option (o : CommandOption α) (attached : Option (List Char))

namespace Grammar

variable {α : Type} (g : Grammar α)

/-- The option of a name. -/
def option? (name : String) : Option (CommandOption α) := g.options.find? (·.names.contains name)

/-- The names that begin so, each with its option. -/
def completions (start : List Char) : List (String × CommandOption α) :=
  (g.options.flatMap fun o => o.names.map (·, o)).filter fun n => startsWith start n.1.toList

end Grammar

/-- What stands in front of the first equals sign, and what stands after it if there is one. -/
def splitAttached (s : List Char) : List Char × Option (List Char) :=
  let front := s.takeWhile (· ≠ '=')
  (front, if s.contains '=' then some (s.drop (front.length + 1)) else none)

/-- Whether a text is a dash and a number, perhaps with a decimal point. -/
def isNegativeNumber (s : List Char) : Bool :=
  match s with
  | '-' :: rest =>
    let body := if rest.getLast? = some '\n' then rest.dropLast else rest
    let whole := body.takeWhile isDigit
    match body.drop whole.length with
    | [] => !whole.isEmpty
    | '.' :: decimals => !decimals.isEmpty && decimals.all isDigit
    | _ => false
  | _ => false

/-- What an argument with a long name is taken for, unless it is the name itself. -/
def Token.ofLong {α : Type} (g : Grammar α) (s : List Char) : Except Stop (Option (Token α)) :=
  let (start, attached) := splitAttached s
  match g.completions start with
  | [] => .ok none
  | [(_, o)] => .ok (some (.option o attached))
  | many =>
    .error (.misuse ("ambiguous option: " ++ String.ofList s ++ " could match " ++
      ", ".intercalate (many.map (·.1))))

/-- What an argument that begins with a dash is taken for. -/
def Token.ofDashed {α : Type} (g : Grammar α) (s : List Char) : Except Stop (Token α) := do
  if let some o := g.option? (String.ofList s) then return .option o none
  if s.length = 1 then return .plain
  let (front, attached) := splitAttached s
  if attached.isSome then
    if let some o := g.option? (String.ofList front) then return .option o attached
  let found ←
    if startsWith ['-', '-'] s then Token.ofLong g s
    else pure ((g.option? (String.ofList (s.take 2))).map (.option · (some (s.drop 2))))
  match found with
  | some token => return token
  | none => return if isNegativeNumber s || s.contains ' ' then .plain else .unknown

/-- What an argument is taken for. -/
def Token.of {α : Type} (g : Grammar α) (s : String) : Except Stop (Token α) :=
  match s.toList with
  | '-' :: rest => Token.ofDashed g ('-' :: rest)
  | _ => .ok .plain

/-- Arguments with what they are taken for. -/
def tokens {α : Type} (g : Grammar α) : List String → Except Stop (List (String × Token α))
  | [] => .ok []
  | s :: rest =>
    if s = "--" then .ok ((s, .separator) :: rest.map (·, .plain))
    else do return (s, ← Token.of g s) :: (← tokens g rest)

/-! ## Gathering -/

/-- An option that is used, with its value if that is attached. -/
structure Use (α : Type) where
  option : CommandOption α
  value : Option String

namespace Grammar

variable {α : Type} (g : Grammar α)

/-- The uses in one argument: what is attached to an option that takes no value is further options of
one letter each, if the option itself is written with one letter. -/
def uses (short : Bool) (o : CommandOption α) (attached : List Char) :
    Except Stop (List (Use α)) :=
  let ignored := o.misuse ("ignored explicit argument " ++ quoted (String.ofList attached))
  if o.takesValue then .ok [⟨o, some (String.ofList attached)⟩]
  else
    match short, attached with
    | true, c :: rest =>
      match g.option? (String.ofList ['-', c]) with
      | some next =>
        if rest.isEmpty then .ok [⟨o, none⟩, ⟨next, none⟩]
        else (⟨o, none⟩ :: ·) <$> uses true next rest
      | none => .error ignored
    | _, _ => .error ignored

end Grammar

/-- What was gathered from arguments. -/
structure Gathered (α : Type) where
  value : α
  /-- The options that were used, by their titles. -/
  used : List String := []
  /-- The arguments that nothing takes. -/
  leftOver : List String := []

/-- What a text says as a value: two dashes say that there is none. -/
def valueOf? (s : String) : Option String := if s = "--" then none else some s

/-- What the use of an option adds. -/
def Gathered.add {α : Type} (a : Gathered α) (u : Use α) : Except Stop (Gathered α) :=
  let a := { a with used := a.used ++ [u.option.title] }
  match u.option.effect with
  | .help => .error .help
  | .version => .error .version
  | .flag set => .ok { a with value := set a.value }
  | .value _ set => .ok { a with value := set (u.value.bind valueOf?) a.value }

namespace Grammar

variable {α : Type} (g : Grammar α)

/-- Gathers options. An option that waits for its value takes the next argument, which has to be a
plain one. -/
def gather (a : Gathered α) : List (String × Token α) → Except Stop (Gathered α)
  | [] => .ok a
  | (s, .option o attached) :: rest =>
    match attached.elim (.ok [⟨o, none⟩]) (g.uses (!startsWith ['-', '-'] s.toList) o) with
    | .error stop => .error stop
    | .ok uses =>
      match uses.find? (fun u => u.option.takesValue && u.value.isNone), rest with
      | none, rest => uses.foldlM Gathered.add a >>= (gather · rest)
      | some _, (value, .plain) :: rest =>
        (uses.map fun u => { u with value := u.value <|> some value }).foldlM Gathered.add a >>=
          (gather · rest)
      | some u, _ => .error (u.option.misuse "expected one argument")
  | (s, _) :: rest => gather { a with leftOver := a.leftOver ++ [s] } rest

/-- Reads arguments by a grammar; every required option has to be used. -/
def read (start : α) (arguments : List String) : Except Stop (Gathered α) := do
  let a ← g.gather ⟨start, [], []⟩ (← tokens g arguments)
  let missing := (g.options.filter fun o => o.required && !a.used.contains o.title).map (·.title)
  if missing ≠ [] then
    throw (.misuse ("the following arguments are required: " ++ ", ".intercalate missing))
  return a

end Grammar

end WeaveStep.CommandLine
