import WeaveStep.Files.Walk
import WeaveStep.Launch.Pattern
import WeaveStep.Text.Utf8

/-! # Fields

How the words of a script become the arguments of a command, once all in them is replaced.

* `Bit`: what a word consists of then. `fieldsOf`: the fields it is cut into.
* `FileTree.matching`: the paths that a pattern fits. -/

namespace WeaveStep.Launch

open Text

/-! ## Text of bytes -/

/-- Bytes as text, each of them a character. -/
def byteText (bytes : List UInt8) : String :=
  String.ofList (bytes.map fun b => Char.ofNat b.toNat)

/-- The bytes of such a text. -/
def textBytes (s : String) : List UInt8 := s.toList.map fun c => UInt8.ofNat c.toNat

/-- Text as text of bytes. -/
def inBytes (s : String) : String := byteText (utf8Bytes s)

/-- Text of bytes as text. -/
def outOfBytes (s : String) : String := String.ofList (decodeLeniently (textBytes s))

/-! ## Cutting -/

/-- A part of a word in which all is replaced. -/
inductive Bit
  /-- A character, which may part fields if it was put in. -/
  | char (quoted mayPart : Bool) (c : Char)
  /-- The end of a field. -/
  | gap
  /-- There is a field here, even if it is empty. -/
  | hold
  deriving DecidableEq

/-- Text put into a word. -/
def bitsOf (quoted : Bool) (s : String) : List Bit :=
  (if quoted then [.hold] else []) ++ s.toList.map (.char quoted (!quoted))

/-- The text of bits. -/
def textOf (bits : List Bit) : String :=
  String.ofList (bits.filterMap fun
    | .char _ _ c => some c
    | .gap => some ' '
    | .hold => none)

/-- Bits as a pattern. -/
def patternOf (bits : List Bit) : Pattern :=
  bits.filterMap fun
    | .char quoted _ c => some (quoted, c)
    | .gap => some (false, ' ')
    | .hold => none

/-- Cutting in progress. -/
structure Cutting where
  /-- The finished fields, last first. -/
  finished : List Pattern := []
  /-- The field at hand, last character first. -/
  begun : Option Pattern := none
  /-- Whether a field was ended by a blank just now. -/
  afterBlank : Bool := false

/-- Ends the field at hand, if there is one. -/
def Cutting.close (f : Cutting) : Cutting :=
  match f.begun with
  | some p => { f with finished := p.reverse :: f.finished, begun := none }
  | none => f

/-- Goes on with a bit; fields are parted by the characters of `separators`, blanks among which count
once however many they are. -/
def Cutting.add (separators : List Char) (f : Cutting) : Bit → Cutting
  | .hold => { f with begun := some (f.begun.getD []), afterBlank := false }
  | .gap => { f.close with afterBlank := false }
  | .char quoted mayPart c =>
    if mayPart && separators.contains c then
      if c = ' ' || c = '\t' || c = '\n' then
        { f.close with afterBlank := f.afterBlank || f.begun.isSome }
      else if f.begun.isSome then { f.close with afterBlank := false }
      else if f.afterBlank then { f with afterBlank := false }
      else { f with finished := [] :: f.finished }
    else { f with begun := some ((quoted, c) :: f.begun.getD []), afterBlank := false }

/-- The fields of a word. -/
def fieldsOf (separators : String) (bits : List Bit) : List Pattern :=
  (bits.foldl (Cutting.add separators.toList) {}).close.finished.reverse

/-! ## Paths -/

/-- The names of a pattern of paths. -/
def patternNames (p : Pattern) : List Pattern :=
  p.foldr (fun c names =>
    match c.2, names with
    | '/', names => [] :: names
    | _, name :: names => (c :: name) :: names
    | _, [] => [[c]]) [[]]

/-- The text of a pattern. -/
def Pattern.text (p : Pattern) : String := String.ofList (p.map (·.2))

/-- Whether a pattern of names fits one; a dot in front has to be written. -/
def fitsName (p : Pattern) (name : String) : Bool :=
  (name.toList.head? ≠ some '.' || p.head?.any (·.2 = '.')) && fits p name.toList

end WeaveStep.Launch

namespace WeaveStep.FileTree

open Launch

/-- The names in a directory, itself and the one above among them, as text of bytes. -/
def byteNames (t : FileTree) (directory : String) : List String :=
  match t.statText (if directory = "" then "." else outOfBytes directory) with
  | .ok (place, .directory) => "." :: ".." :: (t.names place).map inBytes
  | _ => []

/-- The paths that begin with `done` and go on as a pattern says. -/
def matchingBelow (t : FileTree) (done : String) : List Pattern → List String
  | [] => [done]
  | [name] =>
    if isPattern name then ((t.byteNames done).filter (fitsName name)).map (done ++ ·)
    else
      let path := done ++ name.text
      if (t.lookText .own (outOfBytes path)).isOk then [path] else []
  | name :: rest =>
    if isPattern name then
      ((t.byteNames done).filter (fitsName name)).flatMap fun n =>
        t.matchingBelow (done ++ n ++ "/") rest
    else t.matchingBelow (done ++ name.text ++ "/") rest

/-- The paths that a pattern fits in alphabetical order, or the pattern itself where there are
none. -/
def matching (t : FileTree) (p : Pattern) : List String :=
  if !isPattern p then [p.text]
  else
    match t.matchingBelow "" (patternNames p) with
    | [] => [p.text]
    | paths => paths.mergeSort (fun a b => a ≤ b)

end WeaveStep.FileTree
