import WeaveStep.Text.Split

/-! # Patterns

Patterns as scripts write them: a star fits any text, a question mark any character, and brackets one
character of a set. What is quoted fits only itself.

* `fits`: whether a pattern fits a whole text.
* `withoutStart`, `withoutEnd`: a text without the start or the end that a pattern fits. -/

namespace WeaveStep.Launch

open Text

/-- A pattern: its characters, each of them quoted or not. -/
abbrev Pattern := List (Bool × Char)

/-! ## Sets -/

/-- The named classes of characters. -/
def characterClasses : List (String × (Char → Bool)) := [
  ("alnum", Char.isAlphanum), ("alpha", Char.isAlpha), ("blank", fun c => c = ' ' || c = '\t'),
  ("cntrl", fun c => c < ' ' || c.toNat = 127), ("digit", Char.isDigit),
  ("graph", fun c => ' ' < c && c.toNat < 127), ("lower", Char.isLower),
  ("print", fun c => ' ' ≤ c && c.toNat < 127),
  ("punct", fun c => ' ' < c && c.toNat < 127 && !c.isAlphanum),
  ("space", fun c => c = ' ' || (9 ≤ c.toNat && c.toNat ≤ 13)), ("upper", Char.isUpper),
  ("xdigit", fun c => c.isDigit || ('a' ≤ c && c ≤ 'f') || ('A' ≤ c && c ≤ 'F'))]

/-- The class that a set names here, and what follows it. -/
def classHere? (p : Pattern) : Option ((Char → Bool) × Pattern) :=
  match p with
  | (false, '[') :: (false, ':') :: rest =>
    characterClasses.findSome? fun (name, holds) =>
      let spelled := (name ++ ":]").toList.map (false, ·)
      if spelled.isPrefixOf rest then some (holds, rest.drop spelled.length) else none
  | _ => none

/-- Whether a character is in the set that begins here, and what follows the set; there is none if it
does not end. A bracket that comes first is one of the set. -/
def inSet? (c : Char) (isFirst : Bool) : (fuel : Nat) → Pattern → Option (Bool × Pattern)
  | 0, _ => none
  | _ + 1, [] => none
  | fuel + 1, (quoted, a) :: rest =>
    let or (found : Bool) (found' : Option (Bool × Pattern)) : Option (Bool × Pattern) :=
      found'.map fun r => (found || r.1, r.2)
    if a = ']' && !quoted && !isFirst then some (false, rest)
    else
      match classHere? ((quoted, a) :: rest) with
      | some (holds, rest) => or (holds c) (inSet? c false fuel rest)
      | none =>
        match rest with
        | (false, '-') :: (quoted', b) :: rest' =>
          if b = ']' && !quoted' then or (c = a) (inSet? c false fuel rest)
          else or (a ≤ c && c ≤ b) (inSet? c false fuel rest')
        | _ => or (c = a) (inSet? c false fuel rest)

/-- Whether a character is in a set, which an exclamation mark turns round. -/
def inBrackets? (c : Char) (p : Pattern) : Option (Bool × Pattern) :=
  match p with
  | (false, '!') :: rest =>
    (inSet? c true p.length rest).map fun r => (!r.1, r.2)
  | _ => inSet? c true (p.length + 1) p

/-! ## Fitting -/

/-- Whether a pattern fits a text, both of them together no longer than `fuel`. -/
def fitsWithin : (fuel : Nat) → Pattern → List Char → Bool
  | 0, _, _ => false
  | _ + 1, [], s => s.isEmpty
  | fuel + 1, (quoted, a) :: p, s =>
    let literal :=
      match s with
      | c :: s => a = c && fitsWithin fuel p s
      | [] => false
    if quoted then literal
    else
      match a, s with
      | '*', c :: s => fitsWithin fuel p (c :: s) || fitsWithin fuel ((quoted, a) :: p) s
      | '*', [] => fitsWithin fuel p []
      | '?', _ :: s => fitsWithin fuel p s
      | '?', [] => false
      | '[', c :: s =>
        match inBrackets? c p with
        | some (found, p) => found && fitsWithin fuel p s
        | none => literal
      | _, _ => literal

/-- Whether a pattern fits a text. -/
def fits (p : Pattern) (s : List Char) : Bool := fitsWithin (p.length + s.length + 1) p s

/-- Whether anything in a pattern fits more than itself; a bracket does so only if it is closed. -/
def isPattern (p : Pattern) : Bool :=
  p.any (fun (quoted, c) => !quoted && (c = '*' || c = '?')) ||
    (p.dropWhile (· ≠ (false, '['))).contains (false, ']')

/-! ## Cutting -/

/-- The numbers from zero to `n`, or from `n` to zero. -/
def upTo (n : Nat) (down : Bool) : List Nat :=
  if down then (List.range (n + 1)).reverse else List.range (n + 1)

/-- The text without the shortest or the longest start that a pattern fits. -/
def withoutStart (p : Pattern) (longest : Bool) (s : List Char) : List Char :=
  match (upTo s.length longest).find? fun n => fits p (s.take n) with
  | some n => s.drop n
  | none => s

/-- The text without the shortest or the longest end that a pattern fits. -/
def withoutEnd (p : Pattern) (longest : Bool) (s : List Char) : List Char :=
  match (upTo s.length !longest).find? fun n => fits p (s.drop n) with
  | some n => s.take n
  | none => s

end WeaveStep.Launch
