import WeaveStep.Launch.Act
import WeaveStep.Launch.Reader

/-! # Arguments of builtin commands

* `Builtin.options`: the options in front of arguments, with what follows.
* `Builtin.quoted`: text as it could be written in a script. -/

namespace WeaveStep.Launch.Builtin

open Text

/-! ## Options -/

/-- The options among letters, each with its argument if it is one of those that have one. -/
def lettersOf (known : List (Char × Bool)) :
    List Char → List String → Act (List (Char × String) × List String)
  | [], arguments => return ([], arguments)
  | c :: rest, arguments => do
    match known.lookup c, rest, arguments with
    | none, _, _ => Act.fail ("Illegal option -" ++ String.singleton c)
    | some false, rest, arguments =>
      let (options, arguments) ← lettersOf known rest arguments
      return ((c, "") :: options, arguments)
    | some true, [], [] => Act.fail ("No arg for -" ++ String.singleton c ++ " option")
    | some true, [], s :: arguments => return ([(c, s)], arguments)
    | some true, rest, arguments => return ([(c, String.ofList rest)], arguments)

/-- The options in front of arguments; `most` is at least the number of these. -/
def optionsWithin (known : List (Char × Bool)) :
    (most : Nat) → List String → Act (List (Char × String) × List String)
  | most + 1, s :: arguments => do
    match s.toList with
    | ['-', '-'] => return ([], arguments)
    | '-' :: c :: rest =>
      let (options, arguments) ← lettersOf known (c :: rest) arguments
      let (more, arguments) ← optionsWithin known most arguments
      return (options ++ more, arguments)
    | _ => return ([], s :: arguments)
  | _, arguments => return ([], arguments)

/-- The options in front of arguments, with the arguments that follow. -/
def options (known : List (Char × Bool)) (arguments : List String) :
    Act (List (Char × String) × List String) :=
  optionsWithin known arguments.length arguments

/-- The letters in front of arguments, with the arguments that follow. -/
def letters (known : String) (arguments : List String) : Act (List Char × List String) := do
  let (found, arguments) ← options (known.toList.map (·, false)) arguments
  return (found.map (·.1), arguments)

/-- Whether arguments begin with an option, whatever follows. -/
def beginsWithLetter (letter : Char) (arguments : List String) : Bool :=
  match arguments.head?.map String.toList with
  | some ('-' :: c :: _) => c = letter
  | _ => false

/-! ## Names and values -/

/-- The name in front of the first equals sign, and what follows that. -/
def nameAndValue (s : String) : String × Option String :=
  let name := s.toList.takeWhile (· ≠ '=')
  (String.ofList name,
    if name.length = s.length then none else some (String.ofList (s.toList.drop (name.length + 1))))

/-- Text in single quotes, where single quotes stand in double ones; at most `fuel` steps. -/
def quotedWithin : (fuel : Nat) → List Char → List Char
  | 0, _ => []
  | fuel + 1, s =>
    let plain := s.takeWhile (· ≠ '\'')
    let rest := s.drop plain.length
    let marks := rest.takeWhile (· = '\'')
    let rest := rest.drop marks.length
    ['\''] ++ plain ++ ['\''] ++ (if marks = [] then [] else ['"'] ++ marks ++ ['"']) ++
      (if rest = [] then [] else quotedWithin fuel rest)

/-- Text as it could be written in a script. -/
def quoted (s : String) : String := String.ofList (quotedWithin (s.length + 1) s.toList)

/-- Refuses what is no name. -/
def checkName (name : String) : Act Unit :=
  if isName name then pure () else Act.fail (name ++ ": bad variable name")

end WeaveStep.Launch.Builtin
