/-! # Text in UTF-8

Reading bytes as text, in two ways.

* `decodeLeniently`: every longest run of bytes that begins no character is read as one
  replacement character; nothing is refused.
* `decodeInBlocks`: bytes that are no text are refused. A file is decoded block by block, so the
  text of the blocks before the first bad one is there all the same (`Decoded.text`), and the
  failure counts positions from the start of its block.

`front` is the one rule both share: what stands at the front of some bytes. -/

namespace WeaveStep.Text

/-- The bytes of a text. -/
def utf8Bytes (s : String) : List UInt8 := s.toUTF8.data.toList

/-! ## The front of some bytes -/

/-- Why bytes begin no character. -/
inductive Flaw
  | invalidStart
  | invalidContinuation
  | unexpectedEnd
  deriving DecidableEq, Repr

/-- What bytes begin with, and how many bytes of it follow the first. -/
inductive Front
  | char (c : Char) (more : Nat)
  | flaw (why : Flaw) (more : Nat)
  | cut
  deriving Repr

/-- A byte that goes on a character. -/
def isContinuation (b : UInt8) : Bool := 0x80 ≤ b && b < 0xc0

/-- The six bits a continuation byte carries. -/
def lowBits (b : UInt8) : Nat := b.toNat % 64

/-- The range of the second byte after a first byte of three or four: overlong forms, surrogates
and values beyond the last code point are left out. -/
def isSecond (first b : UInt8) : Bool :=
  isContinuation b &&
    (if first = 0xe0 then 0xa0 ≤ b else if first = 0xed then b < 0xa0
     else if first = 0xf0 then 0x90 ≤ b else if first = 0xf4 then b < 0x90 else true)

/-- What stands at the front of `b` and the bytes after it. -/
def front (b : UInt8) (rest : List UInt8) : Front :=
  if b < 0x80 then .char (Char.ofNat b.toNat) 0
  else if b < 0xc2 then .flaw .invalidStart 0
  else if b < 0xe0 then
    match rest with
    | [] => .cut
    | b1 :: _ =>
      if isContinuation b1 then .char (Char.ofNat (b.toNat % 32 * 64 + lowBits b1)) 1
      else .flaw .invalidContinuation 0
  else if b < 0xf0 then
    match rest with
    | [] => .cut
    | b1 :: rest =>
      if isSecond b b1 then
        match rest with
        | [] => .cut
        | b2 :: _ =>
          if isContinuation b2 then
            .char (Char.ofNat ((b.toNat % 16 * 64 + lowBits b1) * 64 + lowBits b2)) 2
          else .flaw .invalidContinuation 1
      else .flaw .invalidContinuation 0
  else if b < 0xf5 then
    match rest with
    | [] => .cut
    | b1 :: rest =>
      if isSecond b b1 then
        match rest with
        | [] => .cut
        | b2 :: rest =>
          if isContinuation b2 then
            match rest with
            | [] => .cut
            | b3 :: _ =>
              if isContinuation b3 then
                .char (Char.ofNat
                  (((b.toNat % 8 * 64 + lowBits b1) * 64 + lowBits b2) * 64 + lowBits b3)) 3
              else .flaw .invalidContinuation 2
          else .flaw .invalidContinuation 1
      else .flaw .invalidContinuation 0
  else .flaw .invalidStart 0

/-! ## Lenient decoding -/

/-- The text of the bytes, with a replacement character for each run that begins none. -/
def decodeLeniently (bytes : List UInt8) : List Char :=
  match bytes with
  | [] => []
  | b :: rest =>
    match front b rest with
    | .char c more => c :: decodeLeniently (rest.drop more)
    | .flaw _ more => '\ufffd' :: decodeLeniently (rest.drop more)
    | .cut => ['\ufffd']
termination_by bytes.length
decreasing_by all_goals simp only [List.length_drop, List.length_cons]; omega

/-! ## Decoding in blocks -/

/-- Bytes that are no text: why, the bytes in question, and where they stand. -/
structure DecodeFailure where
  why : Flaw
  first : UInt8
  position : Nat
  length : Nat
  deriving DecidableEq, Repr

/-- The wording of each flaw. -/
def Flaw.text : Flaw → String
  | .invalidStart => "invalid start byte"
  | .invalidContinuation => "invalid continuation byte"
  | .unexpectedEnd => "unexpected end of data"

/-- A byte in base sixteen. -/
def byteHex (b : UInt8) : String :=
  String.ofList [Nat.digitChar (b.toNat / 16), Nat.digitChar (b.toNat % 16)]

/-- The wording of a failure: one byte is shown, several are counted. -/
def DecodeFailure.message (e : DecodeFailure) : String :=
  if e.length = 1 then
    "'utf-8' codec can't decode byte 0x" ++ byteHex e.first ++ " in position " ++
      toString e.position ++ ": " ++ e.why.text
  else
    "'utf-8' codec can't decode bytes in position " ++ toString e.position ++ "-" ++
      toString (e.position + e.length - 1) ++ ": " ++ e.why.text

/-- Whether the bytes may still become a character, or a refusal, with the next block: a cut
character, and the first two bytes of a surrogate. -/
def waitsForMore (bytes : List UInt8) : Bool :=
  match bytes with
  | [b, b1] => b = 0xed && 0xa0 ≤ b1 && b1 < 0xc0
  | _ => false

/-- The text of one block that starts `position` bytes after its first byte, and the bytes at its
end that wait for the next block. -/
def decodeBlock (final : Bool) (position : Nat) (bytes : List UInt8) :
    Except DecodeFailure (List Char × List UInt8) :=
  match bytes with
  | [] => .ok ([], [])
  | b :: rest =>
    match front b rest with
    | .char c more => do
      let (text, waiting) ← decodeBlock final (position + 1 + more) (rest.drop more)
      return (c :: text, waiting)
    | .flaw why more =>
      if !final && waitsForMore (b :: rest) then .ok ([], b :: rest)
      else .error ⟨why, b, position, more + 1⟩
    | .cut =>
      if final then .error ⟨.unexpectedEnd, b, position, rest.length + 1⟩
      else .ok ([], b :: rest)
termination_by bytes.length
decreasing_by all_goals simp only [List.length_drop, List.length_cons]; omega

/-- A decoded file: the text of the blocks up to the first bad one, and the failure there. -/
structure Decoded where
  text : List Char
  failure : Option DecodeFailure

/-- The blocks of a file, each of `size + 1` bytes but the last. -/
def blocks (size : Nat) (bytes : List UInt8) : List (List UInt8) :=
  match bytes with
  | [] => []
  | b :: rest => (b :: rest.take size) :: blocks size (rest.drop size)
termination_by bytes.length
decreasing_by simp only [List.length_drop, List.length_cons]; omega

/-- Decodes the blocks in turn, each after the bytes left waiting by the one before; the end of
the file is a last, empty block. -/
def decodeBlocks (waiting : List UInt8) : List (List UInt8) → Decoded
  | [] =>
    match decodeBlock true 0 waiting with
    | .ok (text, _) => ⟨text, none⟩
    | .error e => ⟨[], some e⟩
  | block :: rest =>
    match decodeBlock false 0 (waiting ++ block) with
    | .ok (text, waiting) =>
      let later := decodeBlocks waiting rest
      ⟨text ++ later.text, later.failure⟩
    | .error e => ⟨[], some e⟩

/-- Decodes a file in blocks of 8192 bytes. -/
def decodeInBlocks (bytes : List UInt8) : Decoded := decodeBlocks [] (blocks 8191 bytes)

/-! ## Line ends -/

/-- Every carriage return, with a line feed after it or without, as one line feed. -/
def unifyLineEnds : List Char → List Char
  | [] => []
  | '\r' :: '\n' :: rest => '\n' :: unifyLineEnds rest
  | '\r' :: rest => '\n' :: unifyLineEnds rest
  | c :: rest => c :: unifyLineEnds rest

/-- The lines of a text whose line ends are unified, each with its line feed; `begun` holds the
characters (last first) of a line already begun. -/
def fedLinesFrom (begun : List Char) : List Char → List (List Char)
  | [] => if begun.isEmpty then [] else [begun.reverse]
  | c :: rest =>
    if c = '\n' then (c :: begun).reverse :: fedLinesFrom [] rest else fedLinesFrom (c :: begun) rest

/-- The lines of a text, each with the line feed that ends it. -/
def fedLines (s : List Char) : List (List Char) := fedLinesFrom [] s

/-- The lines a reader gets before a failure: those that a line end closes for certain. -/
def finishedLines (s : List Char) : List (List Char) :=
  let sure := if s.getLast? = some '\r' then s.dropLast else s
  (fedLines (unifyLineEnds sure)).filter (fun l => l.getLast? = some '\n')

end WeaveStep.Text
