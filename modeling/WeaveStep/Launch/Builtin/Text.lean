import WeaveStep.Launch.Builtin.Arguments
import WeaveStep.Launch.Condition
import WeaveStep.Launch.Format

/-! # Builtin commands on text

Those that print, that compare and that read a line. -/

namespace WeaveStep.Launch.Builtin

open Text

/-! ## Printing and comparing -/

/-- Prints words. -/
def echo (arguments : List String) : Act Nat :=
  match arguments with
  | "-n" :: words => Act.print (echoed false words)
  | words => Act.print (echoed true words)

/-- Prints words as a format says. -/
def printf (arguments : List String) : Act Nat := do
  let (_, arguments) ← letters "" arguments
  match arguments with
  | [] => Act.fail "usage: printf format [arg ...]"
  | format :: arguments =>
    let (text, warnings, failure) := formatted format arguments
    for warning in warnings do Act.complain warning
    match failure with
    | some why =>
      Act.complain why
      discard (Act.print text)
      Act.failed
    | none =>
      let status ← Act.print text
      return if warnings.isEmpty then status else 1

/-- Asks whether a condition holds. -/
def test (words : List String) : Act Nat := do
  match Condition.holds (← get).files (words.map outOfBytes) with
  | .ok true => return 0
  | .ok false => return 1
  | .error why => Act.fail (inBytes why)

/-! ## Reading -/

/-- A line that is read, as characters that may part fields or not, with the number of characters it
is made of, and whether it ended before the text did. Unless it is read raw, a backslash takes away
what the character behind it means. -/
def lineOf {α : Type} (char : α → Char) (raw : Bool) :
    (escaped : Bool) → List α → List (Bool × Char) × Nat × Bool
  | _, [] => ([], 0, false)
  | true, a :: rest =>
    let (line, count, ended) := lineOf char raw false rest
    (if char a = '\n' then line else (false, char a) :: line, count + 1, ended)
  | false, a :: rest =>
    if char a = '\n' then ([], 1, true)
    else
      let escapes := char a = '\\' && !raw
      let (line, count, ended) := lineOf char raw escapes rest
      (if escapes || char a = '\x00' then line else (true, char a) :: line, count + 1, ended)

/-- The fields of a line for so many variables, the last of which takes all that is left. -/
def lineFields (separators : List Char) : (count : Nat) → List (Bool × Char) → List String
  | 0, _ => []
  | count + 1, line =>
    let parts (p : Bool × Char) := p.1 && separators.contains p.2
    let isBlank (p : Bool × Char) := parts p && (p.2 = ' ' || p.2 = '\t' || p.2 = '\n')
    let line := line.dropWhile isBlank
    let field := line.takeWhile (!parts ·)
    let rest := (line.drop field.length).dropWhile isBlank
    let text (s : List (Bool × Char)) := String.ofList (s.map (·.2))
    if count = 0 then
      let isLast := match rest with
        | [] => true
        | p :: rest => parts p && (rest.dropWhile isBlank).isEmpty
      if isLast then [text field] else [text (line.reverse.dropWhile isBlank).reverse]
    else
      let rest := match rest with
        | p :: rest => if parts p then rest else p :: rest
        | [] => []
      text field :: lineFields separators count rest

/-- Reads a line into variables. -/
def read (arguments : List String) : Act Nat := do
  let (found, names) ← options [('p', true), ('r', false)] arguments
  if names.isEmpty then Act.fail "arg count"
  let names := names.map fun s => (nameAndValue s).1
  let sh ← get
  let raw := (found.map (·.1)).contains 'r'
  let ((line, count, ended), isCut) := match sh.source 0 with
    | .bytes content => (lineOf (fun b : UInt8 => Char.ofNat b.toNat) raw false content, false)
    | .text s isCut => (lineOf id raw false s, isCut)
  if !ended && isCut then throw (.starved ((sh.descriptors.lookup 0).getD 0))
  set (sh.advance 0 count)
  let fields := lineFields sh.separators.toList names.length line
  for (name, field) in names.zip fields do
    checkName name
    Act.setVariable name field false
  return if ended then 0 else 1

end WeaveStep.Launch.Builtin
