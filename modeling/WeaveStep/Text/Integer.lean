import WeaveStep.Text.Blank
import WeaveStep.Text.Digit
import WeaveStep.Text.Quoted

/-! # Integers as text

An integer is written in decimal digits of any script, with a sign if need be; single underscores
may stand between digits, and blanks around it do not count. -/

namespace WeaveStep.Text

/-- The most digits an integer may be written with. -/
def maxDigits : Nat := 4300

/-- Why a text is no integer. -/
inductive IntegerFailure
  | notInteger (text : String)
  | tooManyDigits (count : Nat)
  deriving DecidableEq, Repr

/-- The text of a failure; of a long text, only the start is shown. -/
def IntegerFailure.message : IntegerFailure → String
  | notInteger text =>
    "invalid literal for int() with base 10: " ++ String.ofList ((quoted text).toList.take 200)
  | tooManyDigits count =>
    "Exceeds the limit (" ++ toString maxDigits ++ " digits) for integer string conversion: value has "
      ++ toString count ++ " digits; use sys.set_int_max_str_digits() to increase the limit"

/-- The values of digits with single underscores between them. -/
def digitValues? : List Char → Option (List Nat)
  | [] => none
  | [c] => (digitValue? c).map fun v => [v]
  | c :: '_' :: rest => do return (← digitValue? c) :: (← digitValues? rest)
  | c :: rest => do return (← digitValue? c) :: (← digitValues? rest)

/-- The sign in front of a number, and what follows it. -/
def signed : List Char → Bool × List Char
  | '-' :: rest => (true, rest)
  | '+' :: rest => (false, rest)
  | rest => (false, rest)

/-- A character that may stand around a number: any blank but the four separators of ASCII. -/
def isNumberBlank (c : Char) : Bool := isBlank c && !(28 ≤ c.toNat && c.toNat ≤ 31)

/-- The integer that a text writes. -/
def readInteger (s : String) : Except IntegerFailure Int :=
  let inner := ((s.toList.dropWhile isNumberBlank).reverse.dropWhile isNumberBlank).reverse
  let (negative, digits) := signed inner
  match digitValues? digits with
  | none => .error (.notInteger s)
  | some values =>
    if maxDigits < values.length then .error (.tooManyDigits values.length)
    else
      let n := values.foldl (fun n v => 10 * n + v) 0
      .ok (if negative then -Int.ofNat n else Int.ofNat n)

end WeaveStep.Text
