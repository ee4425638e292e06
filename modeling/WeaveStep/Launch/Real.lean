import WeaveStep.Launch.Sum

/-! # Numbers with a point

Numbers with a point as 64 bits hold them, read from text and written with as many places as are
wanted. All of it is exact but for one rounding, half of a unit going to the even neighbour.

* `Real.nearest`: the number next to a quotient.
* `Real.leading?`: the number that a text begins with.
* `Real.fixed`, `Real.scientific`, `Real.general`, `Real.hexadecimal`: the ways to write one. -/

namespace WeaveStep.Launch

/-- The size of a number: nothing or at least one bit in 53, times a power of two. -/
inductive Magnitude
  | finite (mantissa : Nat) (exponent : Int)
  | infinite
  | undefined
  deriving DecidableEq

/-- A number with a point. -/
structure Real where
  isNegative : Bool := false
  magnitude : Magnitude
  deriving DecidableEq

namespace Real

/-! ## Rounding -/

/-- A quotient rounded to a whole number, half of one going to the even neighbour. -/
def roundedQuotient (n d : Nat) : Nat :=
  let q := n / d
  let twice := 2 * (n % d)
  if d < twice || (d = twice && q % 2 = 1) then q + 1 else q

/-- A quotient times a power of a base, as a quotient. -/
def scaled (base : Nat) (power : Int) (n d : Nat) : Nat × Nat :=
  if 0 ≤ power then (n * Nat.pow base power.toNat, d) else (n, d * Nat.pow base (-power).toNat)

/-- The least exponent, and the greatest. -/
def leastExponent : Int := -1074

def greatestExponent : Int := 971

/-- The number next to a quotient, and whether that is beyond what can be kept: too great, or so small
that bits are lost. -/
def nearest (n d : Nat) : Magnitude × Bool :=
  if n = 0 then (.finite 0 leastExponent, false)
  else
    let guess : Int := (Nat.log2 n : Int) - Nat.log2 d - 52
    let (n', d') := scaled 2 (-guess) n d
    let exponent := max leastExponent (if n' / d' < Nat.pow 2 52 then guess - 1 else guess)
    let (n', d') := scaled 2 (-exponent) n d
    let mantissa := roundedQuotient n' d'
    let (mantissa, exponent) :=
      if mantissa = Nat.pow 2 53 then (Nat.pow 2 52, exponent + 1) else (mantissa, exponent)
    if greatestExponent < exponent then (.infinite, true)
    else (.finite mantissa exponent, mantissa < Nat.pow 2 52 && n' % d' ≠ 0)

/-! ## Reading -/

/-- What digits with a power of a base come to, which may be much too great or much too small. -/
def ofDigits (base : Nat) (digits : List Char) (base' : Nat) (power : Int) : Magnitude × Bool :=
  let n := Sum.digitsValue base digits
  let bits (n : Nat) : Int := if n = 0 then 0 else Nat.log2 n
  let size := bits n + (bits base' : Int) * power
  if n = 0 then nearest 0 1
  else if 0 < power && 1100 < size then (.infinite, true)
  else if power < 0 && size < -1100 then (.finite 0 leastExponent, true)
  else
    let (n, d) := scaled base' power n 1
    nearest n d

/-- The digits in front of a point and behind it that a text begins with, and what follows. -/
def digitsHere (kind : Char → Bool) (s : List Char) : List Char × List Char × List Char :=
  let whole := s.takeWhile kind
  match s.drop whole.length with
  | '.' :: rest => (whole, rest.takeWhile kind, rest.dropWhile kind)
  | rest => (whole, [], rest)

/-- The exponent that a text begins with, and what follows. -/
def exponentHere (letter : Char) (s : List Char) : Int × List Char :=
  match s with
  | c :: rest =>
    if c.toLower = letter then
      let (isNegative, body) := match rest with
        | '-' :: rest => (true, rest)
        | '+' :: rest => (false, rest)
        | rest => (false, rest)
      let digits := body.takeWhile Char.isDigit
      if digits.isEmpty then (0, s)
      else
        let n : Int := Sum.digitsValue 10 digits
        (if isNegative then -n else n, body.drop digits.length)
    else (0, s)
  | [] => (0, [])

/-- What follows a word in any case of letters. -/
def afterWord? (word : String) (s : List Char) : Option (List Char) :=
  if (s.take word.length).map Char.toLower = word.toList then some (s.drop word.length) else none

/-- What follows a note in parentheses, if there is one. -/
def afterNote (s : List Char) : List Char :=
  match s with
  | '(' :: rest =>
    match rest.dropWhile fun c => c.isAlphanum || c = '_' with
    | ')' :: rest => rest
    | _ => s
  | s => s

/-- The size of the number that a text begins with, whether it is beyond what can be kept, and what
follows. -/
def magnitudeHere? (s : List Char) : Option (Magnitude × Bool × List Char) :=
  let hexadecimal : Option (Magnitude × Bool × List Char) := do
    let rest ← afterWord? "0x" s
    let (whole, part, rest) := digitsHere Sum.isHexadecimal rest
    if whole.isEmpty && part.isEmpty then none
    else
      let (power, rest) := exponentHere 'p' rest
      let (size, isBeyond) := ofDigits 16 (whole ++ part) 2 (power - 4 * part.length)
      some (size, isBeyond, rest)
  let decimal : Option (Magnitude × Bool × List Char) :=
    let (whole, part, rest) := digitsHere Char.isDigit s
    if whole.isEmpty && part.isEmpty then none
    else
      let (power, rest) := exponentHere 'e' rest
      let (size, isBeyond) := ofDigits 10 (whole ++ part) 10 (power - part.length)
      some (size, isBeyond, rest)
  (((afterWord? "infinity" s).orElse fun _ => afterWord? "inf" s).map (Magnitude.infinite, false, ·))
    <|> (afterWord? "nan" s).map (Magnitude.undefined, false, afterNote ·)
    <|> hexadecimal <|> decimal

/-- The number that a text begins with, whether it is beyond what can be kept, and what follows. -/
def leading? (s : List Char) : Option (Real × Bool × List Char) :=
  let body := s.dropWhile Sum.isNumberBlank
  let (isNegative, body) := match body with
    | '-' :: rest => (true, rest)
    | '+' :: rest => (false, rest)
    | rest => (false, rest)
  (magnitudeHere? body).map fun (magnitude, isBeyond, rest) => (⟨isNegative, magnitude⟩, isBeyond, rest)

/-! ## Writing -/

/-- Digits with a point so many places before their end. -/
def pointed (digits : List Char) (places : Nat) (keepsPoint : Bool) : List Char :=
  let digits := List.replicate (places + 1 - digits.length) '0' ++ digits
  let whole := digits.take (digits.length - places)
  let part := digits.drop (digits.length - places)
  whole ++ (if places = 0 && !keepsPoint then [] else ['.']) ++ part

/-- A number with a fixed number of places. -/
def fixed (mantissa : Nat) (exponent : Int) (places : Nat) (keepsPoint : Bool) : List Char :=
  let (n, d) := scaled 2 exponent mantissa 1
  pointed (Nat.toDigits 10 (roundedQuotient (n * Nat.pow 10 places) d)) places keepsPoint

/-- The greatest power of ten that is not greater than a quotient. -/
def decimalExponent (n d : Nat) : Int :=
  let digits (n : Nat) : Int := (Nat.toDigits 10 n).length
  let guess := digits n - digits d
  let (n', d') := scaled 10 (-guess) n d
  if n' < d' then guess - 1 else guess

/-- The digits of a number, one of them in front of the point, and the power of ten that it stands
for. -/
def rounded (mantissa : Nat) (exponent : Int) (places : Nat) : Nat × Int :=
  if mantissa = 0 then (0, 0)
  else
    let (n, d) := scaled 2 exponent mantissa 1
    let power := decimalExponent n d
    let (n, d) := scaled 10 (places - power) n d
    let digits := roundedQuotient n d
    if digits = Nat.pow 10 (places + 1) then (Nat.pow 10 places, power + 1) else (digits, power)

/-- An exponent with its sign, of at least so many digits. -/
def exponentText (least : Nat) (n : Int) : List Char :=
  let digits := Nat.toDigits 10 n.natAbs
  (if n < 0 then '-' else '+') :: (List.replicate (least - digits.length) '0' ++ digits)

/-- A number with one digit in front of the point, and a power of ten. -/
def scientific (mantissa : Nat) (exponent : Int) (places : Nat) (keepsPoint : Bool) : List Char :=
  let (digits, power) := rounded mantissa exponent places
  pointed (Nat.toDigits 10 digits) places keepsPoint ++ 'e' :: exponentText 2 power

/-- A number without the zeros at the end of its places. -/
def withoutZeros (s : List Char) : List Char :=
  let number := s.takeWhile (· ≠ 'e')
  let short :=
    if number.contains '.' then
      let short := (number.reverse.dropWhile (· = '0')).reverse
      if short.getLast? = some '.' then short.dropLast else short
    else number
  short ++ s.drop number.length

/-- A number with so many digits, in the shorter of the two ways. -/
def general (mantissa : Nat) (exponent : Int) (digits : Nat) (keepsZeros : Bool) : List Char :=
  let digits := max digits 1
  let (_, power) := rounded mantissa exponent (digits - 1)
  let text :=
    if -4 ≤ power && power < digits then
      fixed mantissa exponent (digits - 1 - power).toNat keepsZeros
    else scientific mantissa exponent (digits - 1) keepsZeros
  if keepsZeros then text else withoutZeros text

/-- A number to the base of sixteen and a power of two, without what stands in front. -/
def hexadecimal (mantissa : Nat) (exponent : Int) (places : Option Nat) (keepsPoint : Bool) :
    List Char :=
  let isNormal : Bool := Nat.pow 2 52 ≤ mantissa
  let power := if mantissa = 0 then 0 else exponent + 52
  let whole := if isNormal then 1 else 0
  let part := mantissa % Nat.pow 2 52
  let digitsOf (n count : Nat) : List Char :=
    let digits := Nat.toDigits 16 n
    List.replicate (count - digits.length) '0' ++ digits
  let (whole, part) := match places with
    | none => (whole, ((digitsOf part 13).reverse.dropWhile (· = '0')).reverse)
    | some places =>
      if places < 13 then
        let all := roundedQuotient (whole * Nat.pow 2 52 + part) (Nat.pow 16 (13 - places))
        let unit := Nat.pow 16 places
        (all / unit, if places = 0 then [] else digitsOf (all % unit) places)
      else (whole, digitsOf part 13 ++ List.replicate (places - 13) '0')
  Nat.toDigits 10 whole ++ (if part.isEmpty && !keepsPoint then [] else ['.']) ++ part ++
    'p' :: exponentText 1 power

end Real

end WeaveStep.Launch
