import WeaveStep.Launch.Real

/-! # Printed text

How scripts say what is to be printed. Text is one of bytes: each character stands for one of them.

* `unescaped`: text in which a backslash begins an escape.
* `formatted`: a format with arguments in the places marked for them; it is used again as long as
  arguments are left. -/

namespace WeaveStep.Launch

open Text

/-! ## Escapes -/

/-- Whether a character is a digit to the base of eight. -/
def isOctal (c : Char) : Bool := '0' ≤ c && c ≤ '7'

/-- The character of octal digits. -/
def octal (digits : List Char) : Char := Char.ofNat (Sum.digitsValue 8 digits % 256)

/-- What a letter after a backslash stands for. -/
def escaped? (c : Char) : Option Char :=
  [('a', '\x07'), ('b', '\x08'), ('e', '\x1b'), ('f', '\x0c'), ('n', '\n'), ('r', '\r'), ('t', '\t'), ('v', '\x0b'),
    ('\\', '\\')].lookup c

/-- The character that an escape stands for, and what follows it; up to three octal digits are one. A
backslash in front of anything else is itself. -/
def escapeHere (s : List Char) : Char × List Char :=
  match s with
  | c :: rest =>
    match escaped? c with
    | some e => (e, rest)
    | none =>
      let digits := (s.take 3).takeWhile isOctal
      if digits.isEmpty then ('\\', s) else (octal digits, s.drop digits.length)
  | [] => ('\\', [])

/-- Text without its escapes, and whether one of them ends all printing. An octal escape may have one
more zero in front of it. -/
def unescaped : (fuel : Nat) → List Char → List Char × Bool
  | 0, _ | _, [] => ([], false)
  | _ + 1, '\\' :: 'c' :: _ => ([], true)
  | fuel + 1, '\\' :: rest =>
    let (c, rest) := escapeHere (match rest with
      | '0' :: d :: rest' => if isOctal d then d :: rest' else rest
      | _ => rest)
    let (text, ends) := unescaped fuel rest
    (c :: text, ends)
  | fuel + 1, c :: rest =>
    let (text, ends) := unescaped fuel rest
    (c :: text, ends)

/-- Text without its escapes. -/
def unescape (s : String) : List Char × Bool := unescaped (s.length + 1) s.toList

/-- What is printed for words: blanks between them and a line end after them. Words have escapes. -/
def echoed (lineEnd : Bool) : List String → List Char
  | [] => if lineEnd then ['\n'] else []
  | s :: rest =>
    match unescape s, rest with
    | (text, true), _ => text
    | (text, false), [] => text ++ echoed lineEnd []
    | (text, false), rest => text ++ ' ' :: echoed lineEnd rest

/-! ## Formats -/

/-- How a value is set. -/
structure Layout where
  left : Bool := false
  zeros : Bool := false
  plus : Bool := false
  blank : Bool := false
  alternate : Bool := false
  width : Nat := 0
  precision : Option Nat := none

/-- A value set into its width. -/
def Layout.pad (l : Layout) (s : List Char) : List Char :=
  let gap := List.replicate (l.width - s.length) ' '
  if l.left then s ++ gap else gap ++ s

/-- The text of a value. -/
def Layout.text (l : Layout) (s : List Char) : List Char :=
  l.pad (match l.precision with
    | some n => s.take n
    | none => s)

/-- The digits of a number, with what stands in front of them. -/
def Layout.number (l : Layout) (sign : List Char) (digits : List Char) : List Char :=
  let digits := if digits = ['0'] && l.precision = some 0 then [] else digits
  let digits := List.replicate (l.precision.getD 1 - digits.length) '0' ++ digits
  if l.zeros && !l.left && l.precision.isNone then
    sign ++ List.replicate (l.width - sign.length - digits.length) '0' ++ digits
  else l.pad (sign ++ digits)

/-- The text of a whole number. -/
def Layout.whole (l : Layout) (n : Int) : List Char :=
  let sign := if n < 0 then ['-'] else if l.plus then ['+'] else if l.blank then [' '] else []
  l.number sign (Nat.toDigits 10 n.natAbs)

/-- The text of a whole number without a sign, to a base. -/
def Layout.unsigned (l : Layout) (directive : Char) (n : Int) : List Char :=
  let n := (n % Nat.pow 2 64).toNat
  match directive with
  | 'o' =>
    let digits := Nat.toDigits 8 n
    l.number [] (if l.alternate && digits.head? ≠ some '0' then '0' :: digits else digits)
  | 'x' => l.number (if l.alternate && n ≠ 0 then ['0', 'x'] else []) (Nat.toDigits 16 n)
  | 'X' =>
    l.number (if l.alternate && n ≠ 0 then ['0', 'X'] else []) ((Nat.toDigits 16 n).map Char.toUpper)
  | _ => l.number [] (Nat.toDigits 10 n)

/-- The text of a number with a point. -/
def Layout.real (l : Layout) (directive : Char) (r : Real) : List Char :=
  let sign := if r.isNegative then ['-'] else if l.plus then ['+'] else if l.blank then [' '] else []
  let places := l.precision.getD 6
  let way := directive.toLower
  let text := match r.magnitude with
    | .infinite => l.pad (sign ++ ['i', 'n', 'f'])
    | .undefined => l.pad (sign ++ ['n', 'a', 'n'])
    | .finite mantissa exponent =>
      let front := if way = 'a' then sign ++ ['0', 'x'] else sign
      let digits := match way with
        | 'a' => Real.hexadecimal mantissa exponent l.precision l.alternate
        | 'e' => Real.scientific mantissa exponent places l.alternate
        | 'f' => Real.fixed mantissa exponent places l.alternate
        | _ => Real.general mantissa exponent places l.alternate
      if l.zeros && !l.left then
        front ++ List.replicate (l.width - front.length - digits.length) '0' ++ digits
      else l.pad (front ++ digits)
  if directive.isUpper then text.map Char.toUpper else text

/-- Printing in progress. -/
structure Printing where
  text : List Char := []
  arguments : List String
  /-- What is to be warned of. -/
  warnings : List String := []

/-- What ends printing early. -/
inductive Ended
  | early
  | failed (why : String)

/-- A step of printing. -/
abbrev Printer := EStateM Ended Printing

/-- Prints text. -/
def Printer.put (s : List Char) : Printer Unit := modify fun p => { p with text := p.text ++ s }

/-- Takes the next argument, if there is one. -/
def Printer.argument : Printer (Option String) := fun p =>
  match p.arguments with
  | s :: arguments => .ok (some s) { p with arguments }
  | [] => .ok none p

/-- Warns of an argument of which `rest` is no number, or whose number is beyond what can be kept. -/
def Printer.check (s : String) (rest : List Char) (isBeyond : Bool) : Printer Unit :=
  let warn (what : String) : Printer Unit :=
    modify fun p => { p with warnings := p.warnings ++ [s ++ ": " ++ what] }
  if rest ≠ [] then
    warn (if rest.length = s.length then "expected numeric value" else "not completely converted")
  else if isBeyond then warn "Numerical result out of range"
  else pure ()

/-- The number that the next argument is, which `keep` cuts to what can be kept; of other text as much
as is one counts. -/
def Printer.integer (keep : Int → Int) : Printer Int := do
  let some s ← argument | return 0
  match s.toList with
  | '"' :: rest | '\'' :: rest => return (rest.headD '\x00').toNat
  | text =>
    let (n, rest) := (Sum.leadingNumber? true text).getD (0, text)
    check s rest (keep n ≠ n)
    return keep n

/-- The number with a point that the next argument is; of other text as much as is one counts. -/
def Printer.real : Printer Real := do
  let whole (n : Nat) : Real := ⟨false, (Real.nearest n 1).1⟩
  let some s ← argument | return whole 0
  match s.toList with
  | '"' :: rest | '\'' :: rest => return whole (rest.headD '\x00').toNat
  | text =>
    let (r, isBeyond, rest) := (Real.leading? text).getD (whole 0, false, text)
    check s rest isBeyond
    return r

/-- A number cut to what has 64 bits and no sign of its own. -/
def withoutSign (n : Int) : Int := if n.natAbs < Nat.pow 2 64 then n else Nat.pow 2 64 - 1

/-- The flags that a directive begins with. -/
def flags (l : Layout) : List Char → Layout × List Char
  | '-' :: rest => flags { l with left := true } rest
  | '0' :: rest => flags { l with zeros := true } rest
  | '+' :: rest => flags { l with plus := true } rest
  | ' ' :: rest => flags { l with blank := true } rest
  | '#' :: rest => flags { l with alternate := true } rest
  | rest => (l, rest)

/-- A number of a directive, which may be an argument. Stars behind its digits count for nothing, but
from the first of them on the directive is no directive. -/
structure Measure where
  value : Int := 0
  /-- What the first star among digits stands in front of, itself included. -/
  astray : Option (List Char) := none
  rest : List Char

/-- The number of a directive that a text begins with. -/
def measure (s : List Char) : Printer Measure :=
  match s with
  | '*' :: rest => return { value := ← Printer.integer Sum.clamped, rest }
  | s =>
    let behind := s.dropWhile Char.isDigit
    return {
      value := Sum.digitsValue 10 (s.takeWhile Char.isDigit)
      astray := if behind.head? = some '*' then some behind else none
      rest := behind.dropWhile fun c => c.isDigit || c = '*' }

/-- The begin of a directive as it is printed where it is none. -/
def Layout.spelled (l : Layout) : List Char :=
  let flag (holds : Bool) (c : Char) : List Char := if holds then [c] else []
  '%' :: flag l.alternate '#' ++ flag l.plus '+' ++ flag (l.blank && !l.plus) ' ' ++ flag l.left '-' ++
    flag (l.zeros && !l.left) '0' ++ (if l.width = 0 then [] else Nat.toDigits 10 l.width) ++
    match l.precision with
    | some n => '.' :: Nat.toDigits 10 n
    | none => []

/-- The text that takes the place of the next arguments for a directive. -/
def directiveText (l : Layout) (c : Char) : Printer (Option (List Char × Bool)) := do
  match c with
  | 's' => return some (l.text ((← Printer.argument).getD "").toList, false)
  | 'c' => return some (l.pad [((← Printer.argument).getD "").toList.headD '\x00'], false)
  | 'b' =>
    let (text, ends) := unescape ((← Printer.argument).getD "")
    return some (l.text text, ends)
  | 'd' | 'i' => return some (l.whole (← Printer.integer Sum.clamped), false)
  | 'o' | 'u' | 'x' | 'X' => return some (l.unsigned c (← Printer.integer withoutSign), false)
  | 'a' | 'e' | 'f' | 'g' | 'A' | 'E' | 'F' | 'G' => return some (l.real c (← Printer.real), false)
  | _ => return none

/-- What a directive letter is in a directive that is printed as it stands. -/
def spelledLetter (c : Char) : List Char :=
  if c = 'b' then ['s'] else if "diouxX".toList.contains c then ['l', c] else [c]

/-- Prints a directive, and gives what follows it. -/
def directive (s : List Char) : Printer (List Char) := do
  let (l, rest) := flags {} s
  let width ← measure rest
  let l := if width.value < 0 then { l with left := true } else l
  let l := { l with width := width.value.natAbs }
  let precision? ← match width.rest with
    | '.' :: rest => some <$> measure rest
    | _ => pure none
  let precision := (precision?.filter (0 ≤ ·.value)).map (·.value.toNat)
  match (precision?.getD width).rest with
  | [] => throw (.failed "missing format character")
  | c :: rest =>
    match ← directiveText { l with precision } c with
    | some (text, ends) =>
      let spelled (l : Layout) (astray : List Char) : List Char :=
        l.spelled ++ astray.take (astray.length - rest.length - 1) ++ spelledLetter c
      Printer.put (match width.astray, precision?.bind (·.astray) with
        | some astray, _ => spelled l astray
        | none, some astray => spelled { l with precision } astray
        | none, none => text)
      if ends then throw .early
    | none =>
      let spelled := '%' :: s.take (s.length - rest.length - 1) ++ [c]
      throw (.failed (String.ofList spelled ++ ": invalid directive"))
    return rest

/-- Prints a format once. -/
def printFormat : (fuel : Nat) → List Char → Printer Unit
  | 0, _ | _, [] => pure ()
  | fuel + 1, '\\' :: rest => do
    let (c, rest) := escapeHere rest
    Printer.put [c]
    printFormat fuel rest
  | fuel + 1, '%' :: '%' :: rest => do
    Printer.put ['%']
    printFormat fuel rest
  | fuel + 1, '%' :: rest => do printFormat fuel (← directive rest)
  | fuel + 1, c :: rest => do
    Printer.put [c]
    printFormat fuel rest

/-- Prints a format, and again as long as it takes arguments and some are left; `most` is one more
than their number. -/
def printAll (format : String) : (most : Nat) → Printer Unit
  | 0 => pure ()
  | most + 1 => do
    let before := (← get).arguments.length
    printFormat (format.length + 1) format.toList
    let left := (← get).arguments.length
    if left ≠ 0 ∧ left < before then printAll format most

/-- What a format prints, what is to be warned of, and what ended it if anything did. -/
def formatted (format : String) (arguments : List String) :
    List Char × List String × Option String :=
  match printAll format (arguments.length + 1) { arguments } with
  | .ok _ p => (p.text, p.warnings, none)
  | .error .early p => (p.text, p.warnings, none)
  | .error (.failed why) p => (p.text, p.warnings, some why)

end WeaveStep.Launch
