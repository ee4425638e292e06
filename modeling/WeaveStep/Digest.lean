import WeaveStep.Text.Utf8

/-! # SHA-256

The digest of bytes, taken in one byte at a time, so it does not depend on how the bytes are cut
into pieces.

* `Digest.ofBytes`: the digest in base sixteen.
* `Digest.shortOf`: the first sixteen digits of the digest of a text, which name places. -/

namespace WeaveStep.Digest

open Text

/-- The eight words that a digest is made of. -/
structure Words where
  a : UInt32
  b : UInt32
  c : UInt32
  d : UInt32
  e : UInt32
  f : UInt32
  g : UInt32
  h : UInt32

/-- The words before any byte is taken in. -/
def Words.start : Words where
  a := 0x6a09e667
  b := 0xbb67ae85
  c := 0x3c6ef372
  d := 0xa54ff53a
  e := 0x510e527f
  f := 0x9b05688c
  g := 0x1f83d9ab
  h := 0x5be0cd19

/-- Adds word by word. -/
def Words.add (x y : Words) : Words :=
  ⟨x.a + y.a, x.b + y.b, x.c + y.c, x.d + y.d, x.e + y.e, x.f + y.f, x.g + y.g, x.h + y.h⟩

/-- The words in order. -/
def Words.toList (x : Words) : List UInt32 := [x.a, x.b, x.c, x.d, x.e, x.f, x.g, x.h]

/-- The constants of the 64 rounds. -/
def roundConstants : List UInt32 := [
  0x428a2f98, 0x71374491, 0xb5c0fbcf, 0xe9b5dba5, 0x3956c25b, 0x59f111f1, 0x923f82a4, 0xab1c5ed5,
  0xd807aa98, 0x12835b01, 0x243185be, 0x550c7dc3, 0x72be5d74, 0x80deb1fe, 0x9bdc06a7, 0xc19bf174,
  0xe49b69c1, 0xefbe4786, 0x0fc19dc6, 0x240ca1cc, 0x2de92c6f, 0x4a7484aa, 0x5cb0a9dc, 0x76f988da,
  0x983e5152, 0xa831c66d, 0xb00327c8, 0xbf597fc7, 0xc6e00bf3, 0xd5a79147, 0x06ca6351, 0x14292967,
  0x27b70a85, 0x2e1b2138, 0x4d2c6dfc, 0x53380d13, 0x650a7354, 0x766a0abb, 0x81c2c92e, 0x92722c85,
  0xa2bfe8a1, 0xa81a664b, 0xc24b8b70, 0xc76c51a3, 0xd192e819, 0xd6990624, 0xf40e3585, 0x106aa070,
  0x19a4c116, 0x1e376c08, 0x2748774c, 0x34b0bcb5, 0x391c0cb3, 0x4ed8aa4a, 0x5b9cca4f, 0x682e6ff3,
  0x748f82ee, 0x78a5636f, 0x84c87814, 0x8cc70208, 0x90befffa, 0xa4506ceb, 0xbef9a3f7, 0xc67178f2]

/-! ## Blocks -/

/-- Turns a word to the right. -/
def rotate (x : UInt32) (n : UInt32) : UInt32 := (x >>> n) ||| (x <<< (32 - n))

/-- The bytes of a block as words. -/
def wordsOf : List UInt8 → List UInt32
  | w :: x :: y :: z :: rest =>
    ((w.toUInt32 <<< 24) ||| (x.toUInt32 <<< 16) ||| (y.toUInt32 <<< 8) ||| z.toUInt32) ::
      wordsOf rest
  | _ => []

/-- Adds `n` words to a schedule, each made of four before it. -/
def schedule : Nat → Array UInt32 → Array UInt32
  | 0, w => w
  | n + 1, w =>
    let back (k : Nat) : UInt32 := w.getD (w.size - k) 0
    let s0 := rotate (back 15) 7 ^^^ rotate (back 15) 18 ^^^ (back 15 >>> 3)
    let s1 := rotate (back 2) 17 ^^^ rotate (back 2) 19 ^^^ (back 2 >>> 10)
    schedule n (w.push (back 16 + s0 + back 7 + s1))

/-- One round, with its constant and its word of the schedule. -/
def round (x : Words) (k w : UInt32) : Words :=
  let s1 := rotate x.e 6 ^^^ rotate x.e 11 ^^^ rotate x.e 25
  let choice := (x.e &&& x.f) ^^^ (~~~x.e &&& x.g)
  let t1 := x.h + s1 + choice + k + w
  let s0 := rotate x.a 2 ^^^ rotate x.a 13 ^^^ rotate x.a 22
  let majority := (x.a &&& x.b) ^^^ (x.a &&& x.c) ^^^ (x.b &&& x.c)
  ⟨t1 + (s0 + majority), x.a, x.b, x.c, x.d + t1, x.e, x.f, x.g⟩

/-- Takes in a block of 64 bytes. -/
def compress (x : Words) (block : List UInt8) : Words :=
  let words := (schedule 48 (wordsOf block).toArray).toList
  x.add ((roundConstants.zip words).foldl (fun x kw => round x kw.1 kw.2) x)

/-! ## Bytes -/

/-- A digest in the making: the words after the whole blocks so far, the bytes since then (latest
first) and the number of all bytes. -/
structure State where
  words : Words
  pending : List UInt8
  count : Nat

/-- The state before any byte. -/
def State.start : State := ⟨.start, [], 0⟩

/-- Takes in a byte. -/
def State.push (s : State) (byte : UInt8) : State :=
  if s.count % 64 = 63 then
    ⟨compress s.words (byte :: s.pending).reverse, [], s.count + 1⟩
  else ⟨s.words, byte :: s.pending, s.count + 1⟩

/-- Takes in bytes. -/
def State.absorb (s : State) (bytes : List UInt8) : State := bytes.foldl State.push s

/-- The number of bits in eight bytes. -/
def lengthBytes (bits : Nat) : List UInt8 :=
  (List.range 8).reverse.map fun i => UInt8.ofNat (bits / Nat.pow 256 i)

/-- The bytes that fill up the last block: one bit, zeros and the number of bits. -/
def padding (count : Nat) : List UInt8 :=
  0x80 :: List.replicate ((119 - count % 64) % 64) 0 ++ lengthBytes (8 * count)

/-- A word in base sixteen. -/
def hexWord (w : UInt32) : List Char :=
  (List.range 8).reverse.map fun i => Nat.digitChar (w.toNat / Nat.pow 16 i % 16)

/-- The digest of the bytes taken in, in base sixteen. -/
def State.finish (s : State) : String :=
  String.ofList ((s.absorb (padding s.count)).words.toList.flatMap hexWord)

/-- The digest of bytes, in base sixteen. -/
def ofBytes (bytes : List UInt8) : String := (State.start.absorb bytes).finish

/-- The first sixteen digits of the digest of a text. -/
def shortOf (s : String) : String :=
  String.ofList ((ofBytes (utf8Bytes s)).toList.take 16)

end WeaveStep.Digest
