import WeaveStep.Files.Walk
import WeaveStep.Launch.Sum

/-! # Conditions

What scripts ask: of text, of numbers and of files.

* `Condition.holds`: whether the words of a condition hold. -/

namespace WeaveStep.Launch.Condition

/-! ## Operators -/

/-- The operators in front of a word. -/
def unaryOperators : List String :=
  ["-r", "-w", "-x", "-e", "-f", "-d", "-c", "-b", "-p", "-u", "-g", "-s", "-t", "-z", "-n", "-k", "-h",
    "-L", "-S", "-O", "-G"]

/-- The operators between words. -/
def binaryOperators : List String :=
  ["=", "!=", "<", ">", "-eq", "-ne", "-ge", "-gt", "-le", "-lt", "-nt", "-ot", "-ef"]

/-- What an operand is put to. -/
inductive Operator
  | operand
  | ending
  | unary (name : String)
  | binary (name : String)
  | negation
  | conjunction
  | disjunction
  | opening
  | closing
  deriving DecidableEq

/-- The operator that a word is, wherever it stands. -/
def operator? (s : String) : Option Operator :=
  if unaryOperators.contains s then some (.unary s)
  else if binaryOperators.contains s then some (.binary s)
  else
    [("!", Operator.negation), ("-a", .conjunction), ("-o", .disjunction), ("(", .opening),
      (")", .closing)].lookup s

/-- Whether a word is an operator between words. -/
def isBinary (s : String) : Bool := binaryOperators.contains s

/-- What the first of some words is: an operator that cannot be one here is an operand. -/
def operatorHere (words : List String) : Operator :=
  match words with
  | [] => .ending
  | s :: rest =>
    match operator? s with
    | some (.unary name) =>
      match rest with
      | [] => .operand
      | next :: _ :: _ => if isBinary next then .operand else .unary name
      | _ => .unary name
    | some .opening => if rest.isEmpty then .operand else .opening
    | some op => op
    | none => .operand

/-! ## Questions -/

/-- A number of a condition. -/
def number (s : String) : Except String Int :=
  match Sum.number? false s with
  | some n => .ok n
  | none => .error ("Illegal number: " ++ s)

/-- Whether a file is as an operator asks. -/
def asksFile (t : FileTree) (op path : String) : Bool :=
  if op = "-h" || op = "-L" then
    match t.lookText .own path with
    | .ok (_, .link _) => true
    | _ => false
  else
    match t.statText path with
    | .error _ => false
    | .ok (place, node) =>
      match op with
      | "-f" => node.isFile
      | "-d" => node.isDirectory
      | "-x" => node.isDirectory || node.isExecutable
      | "-s" =>
        match node with
        | .file content _ => !content.isEmpty
        | .directory => t.get? place = some .directory
        | _ => false
      | "-c" =>
        match node with
        | .device _ => true
        | _ => false
      | "-b" | "-p" | "-S" | "-u" | "-g" | "-k" => false
      | _ => true

/-- Whether a word is as an operator asks. -/
def asks (t : FileTree) (op word : String) : Except String Bool :=
  match op with
  | "-z" => .ok (word = "")
  | "-n" => .ok (word ≠ "")
  | "-t" => (fun _ => false) <$> number word
  | op => .ok (asksFile t op word)

/-- Whether two words are as an operator asks. -/
def compares (t : FileTree) (op a b : String) : Except String Bool :=
  let numbers (f : Int → Int → Bool) : Except String Bool := do
    let x ← number a
    return f x (← number b)
  match op with
  | "=" => .ok (a = b)
  | "!=" => .ok (a ≠ b)
  | "<" => .ok (a < b)
  | ">" => .ok (b < a)
  | "-eq" => numbers (· = ·)
  | "-ne" => numbers (· ≠ ·)
  | "-ge" => numbers (· ≥ ·)
  | "-gt" => numbers (· > ·)
  | "-le" => numbers (· ≤ ·)
  | "-lt" => numbers (· < ·)
  | "-ef" =>
    match t.statText a, t.statText b with
    | .ok (x, _), .ok (y, _) => .ok (x = y)
    | _, _ => .ok false
  | _ => .ok false

/-! ## Conditions -/

mutual

/-- A condition that needs no other one, as seen from its first word; gives its last word and what
follows. -/
def primary (t : FileTree) (fuel : Nat) (op : Operator) (words : List String) :
    Except String (Bool × List String) :=
  match fuel with
  | 0 => .ok (false, words)
  | fuel + 1 => do
    match op with
    | .ending => return (false, words)
    | .opening =>
      let inner := words.drop 1
      if operatorHere inner = .closing then return (false, inner)
      let (value, words) ← disjunction t fuel (operatorHere inner) inner
      if operatorHere (words.drop 1) ≠ .closing then throw "closing paren expected"
      return (value, words.drop 1)
    | .unary name =>
      match words.drop 1 with
      | [] => throw (name ++ ": argument expected")
      | word :: rest => return (← asks t name word, word :: rest)
    | _ =>
      match words with
      | a :: name :: rest =>
        if operatorHere (name :: rest) = .binary name then
          match rest with
          | [] => throw (name ++ ": argument expected")
          | b :: rest => return (← compares t name a b, b :: rest)
        else return (a ≠ "", words)
      | a :: _ => return (a ≠ "", words)
      | [] => return (false, [])

/-- A condition that may be negated. -/
def negation (t : FileTree) (fuel : Nat) (op : Operator) (words : List String) :
    Except String (Bool × List String) :=
  match fuel with
  | 0 => .ok (false, words)
  | fuel + 1 => do
    if op ≠ .negation then primary t fuel op words
    else
      let rest := words.drop 1
      let next := operatorHere rest
      let (value, words) ← negation t fuel next (if next = .ending then words else rest)
      return (!value, words)

/-- Conditions all of which have to hold. -/
def conjunction (t : FileTree) (fuel : Nat) (op : Operator) (words : List String) :
    Except String (Bool × List String) :=
  match fuel with
  | 0 => .ok (false, words)
  | fuel + 1 => do
    let (value, words) ← negation t fuel op words
    if operatorHere (words.drop 1) = .conjunction then
      let rest := words.drop 2
      let (value', words) ← conjunction t fuel (operatorHere rest) rest
      return (value && value', words)
    else return (value, words)

/-- Conditions one of which has to hold. -/
def disjunction (t : FileTree) (fuel : Nat) (op : Operator) (words : List String) :
    Except String (Bool × List String) :=
  match fuel with
  | 0 => .ok (false, words)
  | fuel + 1 => do
    let (value, words) ← conjunction t fuel op words
    if operatorHere (words.drop 1) = .disjunction then
      let rest := words.drop 2
      let (value', words) ← disjunction t fuel (operatorHere rest) rest
      return (value || value', words)
    else return (value, words)

end

/-- A whole condition that begins with an operator. -/
def whole (t : FileTree) (op : Operator) (words : List String) : Except String Bool := do
  let (value, words) ← disjunction t (8 * (words.length + 2)) op words
  match words with
  | word :: _ :: _ =>
    throw (if word = "" then "unexpected operator" else word ++ ": unexpected operator")
  | _ => return value

/-- Whether a condition holds. No words do not hold. Three words around an operator are just that,
and up to four words may be negated or stand in parentheses as a whole. -/
def holds (t : FileTree) : List String → Except String Bool
  | [] => .ok false
  | [a, op, b] =>
    if isBinary op then whole t .operand [a, op, b]
    else if a = "(" && b = ")" then whole t (operatorHere [op]) [op]
    else if a = "!" then (!·) <$> holds t [op, b]
    else whole t (operatorHere [a, op, b]) [a, op, b]
  | [a, b, c, d] =>
    if a = "(" && d = ")" then whole t (operatorHere [b, c]) [b, c]
    else if a = "!" then (!·) <$> holds t [b, c, d]
    else whole t (operatorHere [a, b, c, d]) [a, b, c, d]
  | words => whole t (operatorHere words) words

end WeaveStep.Launch.Condition
