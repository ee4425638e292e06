import Mathlib.Data.List.Basic
import WeaveStep.Text.Utf8

/-!
# What was encoded is decoded

* `front_encoded`, `front_begun`: bytes that begin with the encoding of a character have it at their
  front, and bytes that end in the middle of one are cut.
* **`decodeLeniently_utf8Bytes`**, **`decodeInBlocks_utf8Bytes`**: the bytes of a text are decoded to
  the text, wherever the blocks end.
-/

namespace WeaveStep.Text

/-! ## Bytes as numbers -/

/-- The bytes of some characters. -/
def encoded (s : List Char) : List UInt8 := s.flatMap String.utf8EncodeChar

theorem utf8Bytes_eq (s : String) : utf8Bytes s = encoded s.toList := by
  have hbytes : s.toByteArray = s.toList.utf8Encode := by
    rw [← String.toByteArray_ofList, String.ofList_toList]
  rw [utf8Bytes, String.toUTF8_eq_toByteArray, hbytes, List.utf8Encode, List.toList_data_toByteArray]
  rfl

theorem isContinuation_iff {b : UInt8} :
    isContinuation b = true ↔ 128 ≤ b.toNat ∧ b.toNat < 192 := by
  simp [isContinuation, UInt8.le_iff_toNat_le, UInt8.lt_iff_toNat_lt]

theorem isSecond_iff {first b : UInt8} : isSecond first b = true ↔
    (128 ≤ b.toNat ∧ b.toNat < 192) ∧ (first.toNat = 224 → 160 ≤ b.toNat) ∧
      (first.toNat = 237 → b.toNat < 160) ∧ (first.toNat = 240 → 144 ≤ b.toNat) ∧
      (first.toNat = 244 → b.toNat < 144) := by
  have heq : ∀ n : UInt8, first = n ↔ first.toNat = n.toNat := fun n => UInt8.toNat_inj.symm
  rw [isSecond, Bool.and_eq_true, isContinuation_iff]
  simp only [heq, UInt8.le_iff_toNat_le, UInt8.lt_iff_toNat_lt, UInt8.reduceToNat]
  split_ifs <;> simp <;> omega

/-! ## The front of encoded text -/

section

variable {b : UInt8} {rest : List UInt8}

theorem front_of_lt_128 (h : b.toNat < 128) : front b rest = .char (Char.ofNat b.toNat) 0 :=
  if_pos (UInt8.lt_iff_toNat_lt.2 h)

/-- The first byte of two. -/
theorem front_of_lt_224 (h : 194 ≤ b.toNat ∧ b.toNat < 224) : front b [] = .cut ∧
    ∀ b1, isContinuation b1 = true → ∀ rest,
      front b (b1 :: rest) = .char (Char.ofNat (b.toNat % 32 * 64 + lowBits b1)) 1 := by
  have hb : ¬ b.toNat < 128 ∧ ¬ b.toNat < 194 := by omega
  simp +contextual [front, UInt8.lt_iff_toNat_lt, hb, h]

/-- The first byte of three. -/
theorem front_of_lt_240 (h : 224 ≤ b.toNat ∧ b.toNat < 240) : front b [] = .cut ∧
    ∀ b1, isSecond b b1 = true → front b [b1] = .cut ∧ ∀ b2, isContinuation b2 = true → ∀ rest,
      front b (b1 :: b2 :: rest) =
        .char (Char.ofNat ((b.toNat % 16 * 64 + lowBits b1) * 64 + lowBits b2)) 2 := by
  have hb : ¬ b.toNat < 128 ∧ ¬ b.toNat < 194 ∧ ¬ b.toNat < 224 := by omega
  simp +contextual [front, UInt8.lt_iff_toNat_lt, hb, h]

/-- The first byte of four. -/
theorem front_of_lt_245 (h : 240 ≤ b.toNat ∧ b.toNat < 245) : front b [] = .cut ∧
    ∀ b1, isSecond b b1 = true → front b [b1] = .cut ∧ ∀ b2, isContinuation b2 = true →
      front b [b1, b2] = .cut ∧ ∀ b3, isContinuation b3 = true → ∀ rest,
        front b (b1 :: b2 :: b3 :: rest) = .char (Char.ofNat
          (((b.toNat % 8 * 64 + lowBits b1) * 64 + lowBits b2) * 64 + lowBits b3)) 3 := by
  have hb : ¬ b.toNat < 128 ∧ ¬ b.toNat < 194 ∧ ¬ b.toNat < 224 ∧ ¬ b.toNat < 240 := by omega
  simp +contextual [front, UInt8.lt_iff_toNat_lt, hb, h]

end

/-- A code point is below 17 planes and no surrogate. -/
theorem toNat_bounds (c : Char) : c.toNat < 1114112 ∧ ¬ (55296 ≤ c.toNat ∧ c.toNat < 57344) := by
  have h := c.valid
  unfold UInt32.isValidChar Nat.isValidChar at h
  simp only [Char.toNat_val] at h
  omega

/-- The shapes of an encoded character: its bytes as numbers, by their count. -/
inductive Encoding (c : Char) : List UInt8 → Prop
  | one {b : UInt8} (hb : b.toNat = c.toNat) (hc : c.toNat < 128) : Encoding c [b]
  | two {b b1 : UInt8} (hb : b.toNat = c.toNat / 64 + 192) (hb1 : b1.toNat = c.toNat % 64 + 128)
      (hc : 128 ≤ c.toNat ∧ c.toNat < 2048) : Encoding c [b, b1]
  | three {b b1 b2 : UInt8} (hb : b.toNat = c.toNat / 4096 + 224)
      (hb1 : b1.toNat = c.toNat / 64 % 64 + 128) (hb2 : b2.toNat = c.toNat % 64 + 128)
      (hc : 2048 ≤ c.toNat ∧ c.toNat < 65536) : Encoding c [b, b1, b2]
  | four {b b1 b2 b3 : UInt8} (hb : b.toNat = c.toNat / 262144 + 240)
      (hb1 : b1.toNat = c.toNat / 4096 % 64 + 128) (hb2 : b2.toNat = c.toNat / 64 % 64 + 128)
      (hb3 : b3.toNat = c.toNat % 64 + 128) (hc : 65536 ≤ c.toNat) : Encoding c [b, b1, b2, b3]

theorem encoding_utf8EncodeChar (c : Char) : Encoding c (String.utf8EncodeChar c) := by
  have hc := toNat_bounds c
  simp only [String.utf8EncodeChar, Char.toNat_val]
  split_ifs with h1 h2 h3
  · exact .one (by simp; omega) (by omega)
  · exact .two (by simp; omega) (by simp; omega) (by omega)
  · exact .three (by simp; omega) (by simp; omega) (by simp; omega) (by omega)
  · exact .four (by simp; omega) (by simp; omega) (by simp; omega) (by simp; omega) (by omega)

/-- Bytes that begin with the encoding of a character have it at their front. -/
theorem front_encoded (c : Char) (rest : List UInt8) : ∃ b more,
    String.utf8EncodeChar c = b :: more ∧ front b (more ++ rest) = .char c more.length := by
  have hvalid := toNat_bounds c
  have hchar : ∀ n, n = c.toNat → Char.ofNat n = c := fun n hn => by rw [hn, Char.ofNat_toNat]
  have hshape := encoding_utf8EncodeChar c
  generalize String.utf8EncodeChar c = bytes at hshape ⊢
  cases hshape with
  | one hb hc =>
    refine ⟨_, _, rfl, ?_⟩
    rw [front_of_lt_128 (by omega), hchar _ hb]
    rfl
  | two hb hb1 hc =>
    refine ⟨_, _, rfl, ((front_of_lt_224 (by omega)).2 _ (isContinuation_iff.2 (by omega)) rest).trans ?_⟩
    rw [hchar _ (by simp only [lowBits]; omega)]
    rfl
  | three hb hb1 hb2 hc =>
    refine ⟨_, _, rfl, (((front_of_lt_240 (by omega)).2 _ (isSecond_iff.2 (by omega))).2 _
      (isContinuation_iff.2 (by omega)) rest).trans ?_⟩
    rw [hchar _ (by simp only [lowBits]; omega)]
    rfl
  | four hb hb1 hb2 hb3 hc =>
    refine ⟨_, _, rfl, ((((front_of_lt_245 (by omega)).2 _ (isSecond_iff.2 (by omega))).2 _
      (isContinuation_iff.2 (by omega))).2 _ (isContinuation_iff.2 (by omega)) rest).trans ?_⟩
    rw [hchar _ (by simp only [lowBits]; omega)]
    rfl

/-- Bytes that end in the middle of a character are cut. -/
theorem front_begun {c : Char} {b : UInt8} {begun ahead : List UInt8}
    (h : String.utf8EncodeChar c = b :: begun ++ ahead) (hahead : ahead ≠ []) :
    front b begun = .cut := by
  have hvalid := toNat_bounds c
  have hshape := encoding_utf8EncodeChar c
  have hlength := c.utf8Size_le_four
  rw [← String.length_utf8EncodeChar, h] at hlength
  rw [h] at hshape
  -- the shape of the encoding bounds the bytes that are there, and there are fewer than it has
  match begun, ahead, hshape, hahead, hlength with
  | [], [_], .two hb _ hc, _, _ => exact (front_of_lt_224 (by omega)).1
  | [], [_, _], .three hb _ _ hc, _, _ => exact (front_of_lt_240 (by omega)).1
  | [], [_, _, _], .four hb _ _ _ hc, _, _ => exact (front_of_lt_245 (by omega)).1
  | [b1], [_], .three hb hb1 _ hc, _, _ =>
    exact ((front_of_lt_240 (by omega)).2 b1 (isSecond_iff.2 (by omega))).1
  | [b1], [_, _], .four hb hb1 _ _ hc, _, _ =>
    exact ((front_of_lt_245 (by omega)).2 b1 (isSecond_iff.2 (by omega))).1
  | [b1, b2], [_], .four hb hb1 hb2 _ hc, _, _ =>
    exact (((front_of_lt_245 (by omega)).2 b1 (isSecond_iff.2 (by omega))).2 b2
      (isContinuation_iff.2 (by omega))).1
  | _ :: _ :: _ :: _, _ :: _, _, _, hlength =>
    simp only [List.length_append, List.length_cons] at hlength
    omega

/-! ## Decoding -/

theorem encoded_cons (c : Char) (s : List Char) :
    encoded (c :: s) = String.utf8EncodeChar c ++ encoded s := List.flatMap_cons

theorem decodeLeniently_encoded (s : List Char) : decodeLeniently (encoded s) = s := by
  induction s with
  | nil => rw [encoded, List.flatMap_nil, decodeLeniently]
  | cons c s ih =>
    obtain ⟨b, more, hc, hfront⟩ := front_encoded c (encoded s)
    rw [encoded_cons, hc, List.cons_append, decodeLeniently, hfront]
    dsimp only
    rw [List.drop_left, ih]

/-- The bytes of a text are decoded to the text. -/
theorem decodeLeniently_utf8Bytes (s : String) : decodeLeniently (utf8Bytes s) = s.toList := by
  rw [utf8Bytes_eq, decodeLeniently_encoded]

theorem decodeBlock_char {final : Bool} {c : Char} {bytes waiting : List UInt8} {text : List Char}
    (position : Nat) (h : ∀ position, decodeBlock final position bytes = .ok (text, waiting)) :
    decodeBlock final position (String.utf8EncodeChar c ++ bytes) = .ok (c :: text, waiting) := by
  obtain ⟨b, more, hc, hfront⟩ := front_encoded c bytes
  rw [hc, List.cons_append, decodeBlock, hfront]
  dsimp only
  rw [List.drop_left, h]
  rfl

/-- The end of a block that is the end of a text, too. -/
theorem decodeBlock_encoded (final : Bool) (position : Nat) (s : List Char) :
    decodeBlock final position (encoded s) = .ok (s, []) := by
  induction s generalizing position with
  | nil => rw [encoded, List.flatMap_nil, decodeBlock]
  | cons c s ih => exact encoded_cons c s ▸ decodeBlock_char position ih

/-- A block that ends within a text: all whole characters are decoded, and the bytes that begin the
next one wait. -/
theorem decodeBlock_begun {s : List Char} {bytes ahead : List UInt8}
    (h : bytes ++ ahead = encoded s) : ∃ text rest waiting, s = text ++ rest ∧
      (∀ position, decodeBlock false position bytes = .ok (text, waiting)) ∧
      waiting ++ ahead = encoded rest := by
  induction s generalizing bytes with
  | nil =>
    obtain ⟨rfl, rfl⟩ := List.append_eq_nil_iff.1 h
    exact ⟨[], [], [], rfl, fun _ => by rw [decodeBlock], rfl⟩
  | cons c s ih =>
    have hwhole : ∀ after, bytes = String.utf8EncodeChar c ++ after → after ++ ahead = encoded s →
        ∃ text rest waiting, c :: s = text ++ rest ∧
          (∀ position, decodeBlock false position bytes = .ok (text, waiting)) ∧
          waiting ++ ahead = encoded rest := by
      rintro after rfl hrest
      obtain ⟨text, rest, waiting, rfl, hdecoded, hwaiting⟩ := ih hrest
      exact ⟨c :: text, rest, waiting, rfl, fun position => decodeBlock_char position hdecoded, hwaiting⟩
    rw [encoded_cons] at h
    obtain ⟨after, hc, hahead⟩ | ⟨after, hbytes, hrest⟩ := List.append_eq_append_iff.1 h
    · cases bytes with
      | nil => exact ⟨[], c :: s, [], rfl, fun _ => by rw [decodeBlock], by rw [encoded_cons]; exact h⟩
      | cons b bytes =>
        cases after with
        | nil => exact hwhole [] (by simpa using hc.symm) (by simpa using hahead)
        | cons d after =>
          -- the block ends within the character
          refine ⟨[], c :: s, b :: bytes, rfl, fun position => ?_, by rw [encoded_cons, h]⟩
          rw [decodeBlock, front_begun hc (List.cons_ne_nil d after)]
          rfl
    · exact hwhole after hbytes hrest.symm

theorem decodeBlocks_encoded {s : List Char} {waiting : List UInt8} {blocks : List (List UInt8)}
    (h : waiting ++ blocks.flatten = encoded s) : decodeBlocks waiting blocks = ⟨s, none⟩ := by
  induction blocks generalizing waiting s with
  | nil =>
    rw [List.flatten_nil, List.append_nil] at h
    rw [decodeBlocks, h, decodeBlock_encoded]
  | cons block blocks ih =>
    rw [List.flatten_cons, ← List.append_assoc] at h
    obtain ⟨text, rest, waiting', rfl, hdecoded, hwaiting⟩ := decodeBlock_begun h
    rw [decodeBlocks, hdecoded]
    dsimp only
    rw [ih hwaiting]

theorem flatten_blocks (size : Nat) (bytes : List UInt8) : (blocks size bytes).flatten = bytes := by
  fun_induction blocks size bytes with
  | case1 => rfl
  | case2 b rest ih => simp [ih]

/-- The bytes of a text are decoded to the text, wherever the blocks end. -/
theorem decodeInBlocks_utf8Bytes (s : String) : decodeInBlocks (utf8Bytes s) = ⟨s.toList, none⟩ :=
  decodeBlocks_encoded (by rw [List.nil_append, flatten_blocks, utf8Bytes_eq])

end WeaveStep.Text
