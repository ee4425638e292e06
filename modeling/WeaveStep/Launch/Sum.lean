import WeaveStep.Text.Split

/-! # Expressions

Whole numbers as scripts calculate with them: they have 64 bits and wrap round.

* `Sum.evaluate`: the value of an expression, with what it sets variables to. -/

namespace WeaveStep.Launch.Sum

open Text

/-! ## Numbers -/

/-- A number as it is kept. -/
def wrapped (n : Int) : Int := n.bmod (Nat.pow 2 64)

/-- The digit that a character is. -/
def digitValue (c : Char) : Nat :=
  if c.isDigit then c.toNat - 48 else if c.isLower then c.toNat - 87 else c.toNat - 55

/-- The value of digits to a base. -/
def digitsValue (base : Nat) (digits : List Char) : Nat :=
  digits.foldl (fun n c => base * n + digitValue c) 0

/-- Whether a character is a digit to the base of sixteen. -/
def isHexadecimal (c : Char) : Bool :=
  c.isDigit || ('a' ≤ c && c ≤ 'f') || ('A' ≤ c && c ≤ 'F')

/-- Whether a character is a digit to a base. -/
def isDigitTo (base : Nat) (c : Char) : Bool := isHexadecimal c && digitValue c < base

/-- The digits that a number begins with, their base, and what follows: a zero says that the base is
eight, with an x that it is sixteen, and with a b that it is two. -/
def numberHere (s : List Char) : Nat × List Char × List Char :=
  let digits (base : Nat) (s : List Char) :=
    (base, s.takeWhile (isDigitTo base), s.dropWhile (isDigitTo base))
  match s with
  | '0' :: letter :: c :: rest =>
    if letter.toLower = 'x' && isDigitTo 16 c then digits 16 (c :: rest)
    else if letter.toLower = 'b' && isDigitTo 2 c then digits 2 (c :: rest)
    else digits 8 s
  | '0' :: _ => digits 8 s
  | _ => digits 10 s

/-- Whether a character is a blank of a number. -/
def isNumberBlank (c : Char) : Bool := c = ' ' || (9 ≤ c.toNat && c.toNat ≤ 13)

/-- The number that a text begins with, and what follows it; there is none where no digit is. -/
def leadingNumber? (anyBase : Bool) (s : List Char) : Option (Int × List Char) :=
  let body := s.dropWhile isNumberBlank
  let (negative, body) := match body with
    | '-' :: rest => (true, rest)
    | '+' :: rest => (false, rest)
    | rest => (false, rest)
  let (base, digits, rest) :=
    if anyBase then numberHere body else (10, body.takeWhile Char.isDigit, body.dropWhile Char.isDigit)
  if digits.isEmpty then none
  else
    let n : Int := digitsValue base digits
    some (if negative then -n else n, rest)

/-- A number cut to what can be kept. -/
def clamped (n : Int) : Int := max (-(Nat.pow 2 63)) (min n (Nat.pow 2 63 - 1))

/-- The number that a text is, if it can be kept; blanks may stand around it. -/
def number? (anyBase : Bool) (s : String) : Option Int :=
  match leadingNumber? anyBase s.toList with
  | some (n, rest) => if rest.all isNumberBlank && clamped n = n then some n else none
  | none => none

/-! ## Tokens -/

/-- What expressions are made of. -/
inductive Token
  | number (n : Int)
  | name (s : String)
  | mark (s : String)
  deriving DecidableEq

/-- The marks of expressions, longer ones first. -/
def marks : List String :=
  ["<<=", ">>=", "||", "&&", "==", "!=", "<=", ">=", "<<", ">>", "*=", "/=", "%=", "+=", "-=", "&=",
    "^=", "|=", "=", "?", ":", "|", "^", "&", "<", ">", "+", "-", "*", "/", "%", "!", "~", "(", ")"]

/-- The marks of expressions with their characters. -/
def spelledMarks : List (String × List Char) := marks.map fun m => (m, m.toList)

/-- The tokens of an expression; what is none ends it. -/
def tokens : (fuel : Nat) → List Char → List Token
  | 0, _ | _, [] => []
  | fuel + 1, c :: rest =>
    if c = ' ' || c = '\t' || c = '\n' then tokens fuel rest
    else if c.isDigit then
      let (base, digits, rest) := numberHere (c :: rest)
      .number (clamped (digitsValue base digits)) :: tokens fuel rest
    else if c.isAlpha || c = '_' then
      let isNameChar (c : Char) := c.isAlphanum || c = '_'
      .name (String.ofList ((c :: rest).takeWhile isNameChar)) ::
        tokens fuel ((c :: rest).dropWhile isNameChar)
    else
      match spelledMarks.findSome? fun m => (after? m.2 (c :: rest)).map (m.1, ·) with
      | some (m, rest) => .mark m :: tokens fuel rest
      | none => [.mark (String.singleton c)]

/-! ## Evaluation -/

/-- Why an expression has no value. -/
inductive Fault
  | malformed (why : String)
  /-- A variable holds something that is no number. -/
  | notANumber (text : String)
  deriving DecidableEq

/-- The state of an evaluation: the tokens left, and the values of variables, latest first. -/
structure State where
  rest : List Token
  values : List (String × String) := []

/-- A step of an evaluation. -/
abbrev Eval := EStateM Fault State

/-- Takes the next token if it is one of the marks. -/
def takeMark (marks : List String) : Eval (Option String) := fun s =>
  match s.rest with
  | .mark m :: rest => if marks.contains m then .ok (some m) { s with rest } else .ok none s
  | _ => .ok none s

/-- The levels of operators, those that bind least first. -/
def levels : List (List String) :=
  [["|"], ["^"], ["&"], ["==", "!="], ["<", ">", "<=", ">="], ["<<", ">>"], ["+", "-"], ["*", "/", "%"]]

/-- A truth as a number. -/
def truthValue (b : Bool) : Int := if b then 1 else 0

/-- Two numbers as words of bits. -/
def bitwise (f : BitVec 64 → BitVec 64 → BitVec 64) (a b : Int) : Int :=
  (f (BitVec.ofInt 64 a) (BitVec.ofInt 64 b)).toInt

/-- The value of an operator. -/
def apply (op : String) (a b : Int) : Except Fault Int :=
  match op with
  | "|" => .ok (bitwise (· ||| ·) a b)
  | "^" => .ok (bitwise (· ^^^ ·) a b)
  | "&" => .ok (bitwise (· &&& ·) a b)
  | "==" => .ok (truthValue (a = b))
  | "!=" => .ok (truthValue (a ≠ b))
  | "<" => .ok (truthValue (a < b))
  | ">" => .ok (truthValue (b < a))
  | "<=" => .ok (truthValue (a ≤ b))
  | ">=" => .ok (truthValue (b ≤ a))
  | "<<" => .ok (bitwise (fun x _ => x <<< (b % 64).toNat) a b)
  | ">>" => .ok (bitwise (fun x _ => x.sshiftRight (b % 64).toNat) a b)
  | "+" => .ok (wrapped (a + b))
  | "-" => .ok (wrapped (a - b))
  | "*" => .ok (wrapped (a * b))
  | "/" => if b = 0 then .error (.malformed "division by zero") else .ok (wrapped (a.tdiv b))
  | "%" => if b = 0 then .error (.malformed "division by zero") else .ok (a.tmod b)
  | _ => .ok b

/-- The marks that set a variable. -/
def settingMarks : List String :=
  ["=", "*=", "/=", "%=", "+=", "-=", "<<=", ">>=", "&=", "^=", "|="]

/-- The value of a variable; one that is not set counts as zero. -/
def valueOf (lookup : String → Option String) (counts : Bool) (name : String) : Eval Int := do
  if !counts then return 0
  let text := ((← get).values.lookup name <|> lookup name).getD ""
  if text.toList.all isNumberBlank then return 0
  match number? true text with
  | some n => return n
  | none => throw (.notANumber text)

/-- Calculates what is always calculated; what does not count is read only. -/
def calculate (counts : Bool) (op : String) (a b : Int) : Eval Int :=
  if counts then
    match apply op a b with
    | .ok n => pure n
    | .error why => throw why
  else pure 0

mutual

/-- A number, a variable, or an expression in parentheses, with the signs in front of it. -/
def primary (lookup : String → Option String) (fuel : Nat) (counts : Bool) : Eval Int :=
  match fuel with
  | 0 => throw (.malformed "expecting primary")
  | fuel + 1 => do
    match (← get).rest with
    | .number n :: rest =>
      modify ({ · with rest })
      return n
    | .name s :: rest =>
      modify ({ · with rest })
      valueOf lookup counts s
    | .mark m :: rest =>
      modify ({ · with rest })
      match m with
      | "(" =>
        let n ← setting lookup fuel counts
        if (← takeMark [")"]).isNone then throw (.malformed "expecting ')'")
        return n
      | "+" => primary lookup fuel counts
      | "-" => return wrapped (-(← primary lookup fuel counts))
      | "!" => return truthValue ((← primary lookup fuel counts) = 0)
      | "~" => return -(← primary lookup fuel counts) - 1
      | _ => throw (.malformed "expecting primary")
    | [] => throw (.malformed "expecting primary")

/-- Operators of the levels, those of one level from left to right. -/
def level (lookup : String → Option String) (fuel : Nat) (counts : Bool) (levels : List (List String)) :
    Eval Int :=
  match fuel with
  | 0 => throw (.malformed "expecting primary")
  | fuel + 1 => do
    match levels with
    | [] => primary lookup fuel counts
    | ops :: tighter => further lookup fuel counts ops tighter (← level lookup fuel counts tighter)

/-- Further operators of one level. -/
def further (lookup : String → Option String) (fuel : Nat) (counts : Bool) (ops : List String)
    (tighter : List (List String)) (a : Int) : Eval Int :=
  match fuel with
  | 0 => pure a
  | fuel + 1 => do
    match ← takeMark ops with
    | some op =>
      let b ← level lookup fuel counts tighter
      further lookup fuel counts ops tighter (← calculate counts op a b)
    | none => return a

/-- Conditions all of which have to hold. -/
def conjunction (lookup : String → Option String) (fuel : Nat) (counts : Bool) : Eval Int :=
  match fuel with
  | 0 => throw (.malformed "expecting primary")
  | fuel + 1 => do
    let a ← level lookup fuel counts levels
    if (← takeMark ["&&"]).isNone then return a
    let b ← conjunction lookup fuel (counts && a ≠ 0)
    return truthValue (a ≠ 0 && b ≠ 0)

/-- Conditions one of which has to hold. -/
def disjunction (lookup : String → Option String) (fuel : Nat) (counts : Bool) : Eval Int :=
  match fuel with
  | 0 => throw (.malformed "expecting primary")
  | fuel + 1 => do
    let a ← conjunction lookup fuel counts
    if (← takeMark ["||"]).isNone then return a
    let b ← disjunction lookup fuel (counts && a = 0)
    return truthValue (a ≠ 0 || b ≠ 0)

/-- A choice between two values. -/
def choice (lookup : String → Option String) (fuel : Nat) (counts : Bool) : Eval Int :=
  match fuel with
  | 0 => throw (.malformed "expecting primary")
  | fuel + 1 => do
    let a ← disjunction lookup fuel counts
    if (← takeMark ["?"]).isNone then return a
    let b ← setting lookup fuel (counts && a ≠ 0)
    if (← takeMark [":"]).isNone then throw (.malformed "expecting ':'")
    let c ← choice lookup fuel (counts && a = 0)
    return if a ≠ 0 then b else c

/-- A variable that is set, or a value. -/
def setting (lookup : String → Option String) (fuel : Nat) (counts : Bool) : Eval Int :=
  match fuel with
  | 0 => throw (.malformed "expecting primary")
  | fuel + 1 => do
    match (← get).rest with
    | .name s :: .mark m :: rest =>
      if settingMarks.contains m then
        modify ({ · with rest })
        let b ← setting lookup fuel counts
        if !counts then return b
        let n ←
          if m = "=" then pure b
          else calculate true (String.ofList m.toList.dropLast) (← valueOf lookup true s) b
        modify fun st => { st with values := (s, toString n) :: st.values }
        return n
      else choice lookup fuel counts
    | _ => choice lookup fuel counts

end

/-- The value of an expression, and what it sets variables to, latest first. -/
def evaluate (lookup : String → Option String) (text : String) :
    Except String (Int × List (String × String)) :=
  let ts := tokens (text.length + 1) text.toList
  let complete : Eval Int := do
    let n ← setting lookup (20 * (ts.length + 2)) true
    if !(← get).rest.isEmpty then throw (.malformed "expecting EOF")
    return n
  match complete { rest := ts } with
  | .ok n s => .ok (n, s.values)
  | .error why _ =>
    match why with
    | .malformed why => .error ("arithmetic expression: " ++ why ++ ": \"" ++ text ++ "\"")
    | .notANumber text => .error ("Illegal number: " ++ text)

end WeaveStep.Launch.Sum
