/-! # Cutting and searching text

* `splitAt`: text cut at every occurrence of one character; there is always at least one piece, and
  joining the pieces with that character gives the text back.
* `occursIn`: whether a text stands anywhere in another.
* `without`: a text with every occurrence of another taken out, from left to right. -/

namespace WeaveStep.Text

/-! ## Pieces between a separator -/

/-- The pieces between the occurrences of `sep`. -/
def piecesAt (sep : Char) : List Char → List (List Char)
  | [] => [[]]
  | c :: rest =>
    if c = sep then [] :: piecesAt sep rest
    else
      match piecesAt sep rest with
      | [] => [[c]]
      | piece :: pieces => (c :: piece) :: pieces

/-- The pieces of a text between the occurrences of `sep`. -/
def splitAt (sep : Char) (s : String) : List String := (piecesAt sep s.toList).map String.ofList

theorem piecesAt_ne_nil (sep : Char) (s : List Char) : piecesAt sep s ≠ [] := by
  cases s with
  | nil => simp [piecesAt]
  | cons c rest =>
    rw [piecesAt]
    split
    · simp
    · split <;> simp

/-- The pieces, with the separator between them again, are the text. -/
theorem intercalate_piecesAt (sep : Char) (s : List Char) :
    [sep].intercalate (piecesAt sep s) = s := by
  induction s with
  | nil => simp [piecesAt]
  | cons c rest ih =>
    rw [piecesAt]
    split
    · subst c
      cases h : piecesAt sep rest with
      | nil => exact absurd h (piecesAt_ne_nil sep rest)
      | cons p ps => rw [h] at ih; simpa [List.intercalate, List.intersperse] using ih
    · cases h : piecesAt sep rest with
      | nil => exact absurd h (piecesAt_ne_nil sep rest)
      | cons p ps =>
        rw [h] at ih
        cases ps <;> simp_all [List.intercalate, List.intersperse]

/-! ## Occurrences -/

/-- What follows `part` where the text starts with it. -/
def after? : List Char → List Char → Option (List Char)
  | [], s => some s
  | _ :: _, [] => none
  | p :: part, c :: s => if p = c then after? part s else none

/-- Whether the text starts with `part`. -/
def startsWith (part s : List Char) : Bool := (after? part s).isSome

/-- Whether `part` stands somewhere in the text. -/
def occursInChars (part : List Char) : List Char → Bool
  | [] => part.isEmpty
  | c :: rest => startsWith part (c :: rest) || occursInChars part rest

/-- Whether `part` stands somewhere in `s`. -/
def occursIn (part s : String) : Bool := occursInChars part.toList s.toList

/-- The text without the occurrences of `part`, found from left to right; `skip` characters are
still part of the last one found. -/
def withoutChars (part : List Char) (skip : Nat) : List Char → List Char
  | [] => []
  | c :: rest =>
    match skip with
    | k + 1 => withoutChars part k rest
    | 0 =>
      if startsWith part (c :: rest) then withoutChars part (part.length - 1) rest
      else c :: withoutChars part 0 rest

/-- The text without the occurrences of `part`, found from left to right. -/
def without (part s : String) : String := String.ofList (withoutChars part.toList 0 s.toList)

end WeaveStep.Text
