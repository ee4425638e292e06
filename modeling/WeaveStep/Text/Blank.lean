/-! # Blank characters

White space of every script (Unicode 14.0), trimming, and the line boundaries of console text.

* `trim`, `trimRight`: text without the blanks around it, or after it.
* `lines`: text cut at every kind of line boundary, the boundaries left out; a boundary at the very
  end opens no further line. -/

namespace WeaveStep.Text

/-- White space: the ASCII blanks and separators, next line, and the space separators and line
separators of Unicode. -/
def isBlank (c : Char) : Bool :=
  (9 ≤ c.toNat && c.toNat ≤ 13) || (28 ≤ c.toNat && c.toNat ≤ 32) || c.toNat == 0x85 ||
  c.toNat == 0xa0 || c.toNat == 0x1680 || (0x2000 ≤ c.toNat && c.toNat ≤ 0x200a) ||
  c.toNat == 0x2028 || c.toNat == 0x2029 || c.toNat == 0x202f || c.toNat == 0x205f ||
  c.toNat == 0x3000

/-! ## Trimming -/

/-- Without the blanks at the end. -/
def trimRightChars : List Char → List Char
  | [] => []
  | c :: rest =>
    match trimRightChars rest with
    | [] => if isBlank c then [] else [c]
    | kept => c :: kept

/-- Without the blanks at either end. -/
def trimChars (s : List Char) : List Char := trimRightChars (s.dropWhile isBlank)

/-- The text without the blanks at its end. -/
def trimRight (s : String) : String := String.ofList (trimRightChars s.toList)

/-- The text without the blanks around it. -/
def trim (s : String) : String := String.ofList (trimChars s.toList)

/-- Whether nothing but blanks is there. -/
def isBlankText (s : String) : Bool := s.toList.all isBlank

/-- A text that is given, as opposed to one that is missing or empty. -/
def given? (s : Option String) : Option String := s.filter (· ≠ "")

/-! ## Lines -/

/-- A character that ends a line of console text; a carriage return with a line feed is one
boundary (`linesFrom`). -/
def isLineBoundary (c : Char) : Bool :=
  (10 ≤ c.toNat && c.toNat ≤ 13) || (28 ≤ c.toNat && c.toNat ≤ 30) || c.toNat == 0x85 ||
  c.toNat == 0x2028 || c.toNat == 0x2029

/-- The lines of the text after `open`, the characters (last first) of a line already begun. -/
def linesFrom (begun : List Char) : List Char → List (List Char)
  | [] => if begun.isEmpty then [] else [begun.reverse]
  | '\r' :: '\n' :: rest => begun.reverse :: linesFrom [] rest
  | c :: rest =>
    if isLineBoundary c then begun.reverse :: linesFrom [] rest else linesFrom (c :: begun) rest

/-- The lines of the text, without their boundaries. -/
def lines (s : String) : List String := (linesFrom [] s.toList).map String.ofList

end WeaveStep.Text
