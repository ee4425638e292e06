import WeaveStep.Launch.Shell

/-! # Parameters

What parameters and tildes stand for in a shell.

* `Shell.parameter?`: the value of a parameter. `Shell.argumentBits`: the arguments, put into a word.
* `Shell.homed`: a word with directories in the place of tildes. -/

namespace WeaveStep.Launch

namespace Shell

/-! ## Parameters -/

/-- What stands between arguments that are put into one text. -/
def argumentSeparator (sh : Shell) : String :=
  match sh.value? "IFS" with
  | some separators => String.ofList (separators.toList.take 1)
  | none => " "

/-- The value of a parameter. -/
def parameter? (sh : Shell) (name : String) : Option String :=
  match name with
  | "#" => some (toString sh.arguments.length)
  | "?" => some (toString sh.status)
  | "$" => some (toString sh.leader)
  | "!" => sh.background.map toString
  | "-" => some (String.ofList (Switch.letters sh.switches))
  | "@" | "*" => some (sh.argumentSeparator.intercalate sh.arguments)
  | name =>
    match name.toNat? with
    | some 0 => some sh.name
    | some (n + 1) => sh.arguments[n]?
    | none => sh.value? name

/-- The arguments, put into a word; each of them is a field of its own where that is asked for. -/
def argumentBits (sh : Shell) (quoted isStar splits : Bool) : List Bit :=
  if splits && !(quoted && isStar) then
    ([Bit.gap].intercalate (sh.arguments.map (bitsOf quoted)))
  else bitsOf quoted (sh.argumentSeparator.intercalate sh.arguments)

/-! ## Home directories -/

/-- The directory that a tilde stands for, with the name of a user after it. -/
def homeOf? (sh : Shell) (user : String) : Option String :=
  if user = "" then sh.value? "HOME" else if user = "root" then some "/root" else none

/-- A word with a directory in the place of a tilde in front. -/
def homedFront (sh : Shell) (inSetting : Bool) (w : Word) : Word :=
  let plain : Piece → Option Char
    | .char false c => some c
    | _ => none
  let ends (c : Char) : Bool := c = '/' || (inSetting && c = ':')
  match w with
  | .char false '~' :: rest =>
    let user := (rest.map plain).takeWhile fun c => c.any (!ends ·)
    match (rest.drop user.length).head? with
    | none | some (.char false _) =>
      match sh.homeOf? (String.ofList (user.filterMap id)) with
      | some home => home.toList.map (Piece.char true ·) ++ rest.drop user.length
      | none => w
    | some _ => w
  | w => w

/-- The parts of a word between colons. -/
def partsAtColons : Word → List Word
  | [] => [[]]
  | p :: rest =>
    match p, partsAtColons rest with
    | .char false ':', parts => [] :: parts
    | p, part :: parts => (p :: part) :: parts
    | p, [] => [[p]]

/-- A word with directories in the place of tildes; in what a variable is set to, they may stand
after colons as well. -/
def homed (sh : Shell) (inSetting : Bool) (w : Word) : Word :=
  if inSetting then
    [Piece.char false ':'].intercalate ((partsAtColons w).map (sh.homedFront true))
  else sh.homedFront false w

end Shell

end WeaveStep.Launch
