import Anunix.Error

/-!
# Strict UTF-8

`anx_utf8_decode` takes the first code point off a buffer. A `Char` is a Unicode scalar value and
`String.utf8EncodeChar` its shortest encoding; the decoder accepts just these, and it reads no byte
beyond the length it is given (`utf8_decode_strict`).
-/

namespace Anunix.Utf8
open ByteArray (utf8DecodeChar?)
open ByteArray.utf8DecodeChar?

/-- `anx_utf8_decode`, with what it leaves in `*cp` and `*consumed`. A null buffer is `none`, and
`cp` and `consumed` say whether these pointers are set. A read behind the end of the buffer is a
fault, the outer `none`. -/
def decode (buf : Option ByteArray) (len : UInt32) (cp consumed : Bool) :
    Option (Except Err (UInt32 × Nat)) := do
  let some buf := buf | return .error .einval
  if !cp || !consumed || len = 0 then return .error .einval
  let b0 := (← buf[0]?).toUInt32
  if b0 < 0x80 then return .ok (b0, 1)
  if b0 < 0xC0 then return .error .einval
  if b0 < 0xE0 then
    if len < 2 then return .error .einval
    let b1 := (← buf[1]?).toUInt32
    if b1 &&& 0xC0 ≠ 0x80 then return .error .einval
    let n := (b0 &&& 0x1F) <<< 6 ||| (b1 &&& 0x3F)
    if n < 0x80 then return .error .einval
    return .ok (n, 2)
  if b0 < 0xF0 then
    if len < 3 then return .error .einval
    let b1 := (← buf[1]?).toUInt32
    let b2 := (← buf[2]?).toUInt32
    if b1 &&& 0xC0 ≠ 0x80 ∨ b2 &&& 0xC0 ≠ 0x80 then return .error .einval
    let n := (b0 &&& 0x0F) <<< 12 ||| (b1 &&& 0x3F) <<< 6 ||| (b2 &&& 0x3F)
    if n < 0x800 then return .error .einval
    if n ≥ 0xD800 ∧ n ≤ 0xDFFF then return .error .einval
    return .ok (n, 3)
  if b0 < 0xF8 then
    if len < 4 then return .error .einval
    let b1 := (← buf[1]?).toUInt32
    let b2 := (← buf[2]?).toUInt32
    let b3 := (← buf[3]?).toUInt32
    if b1 &&& 0xC0 ≠ 0x80 ∨ b2 &&& 0xC0 ≠ 0x80 ∨ b3 &&& 0xC0 ≠ 0x80 then return .error .einval
    let n := (b0 &&& 0x07) <<< 18 ||| (b1 &&& 0x3F) <<< 12 ||| (b2 &&& 0x3F) <<< 6 ||| (b3 &&& 0x3F)
    if n < 0x10000 then return .error .einval
    if n > 0x10FFFF then return .error .einval
    return .ok (n, 4)
  return .error .einval

/-! ## The library's decoder

It tests bits of the lead byte where the kernel compares it, and puts the same value together.
-/

lemma parseFirstByte_eq (b : UInt8) : parseFirstByte b =
    if b.toUInt32 < 0x80 then .done else if b.toUInt32 < 0xC0 then .invalid
    else if b.toUInt32 < 0xE0 then .oneMore else if b.toUInt32 < 0xF0 then .twoMore
    else if b.toUInt32 < 0xF8 then .threeMore else .invalid := by
  have h : (b &&& 0x80 = 0 ↔ b.toUInt32 < 0x80) ∧
      (b &&& 0xE0 = 0xC0 ↔ 0xC0 ≤ b.toUInt32 ∧ b.toUInt32 < 0xE0) ∧
      (b &&& 0xF0 = 0xE0 ↔ 0xE0 ≤ b.toUInt32 ∧ b.toUInt32 < 0xF0) ∧
      (b &&& 0xF8 = 0xF0 ↔ 0xF0 ≤ b.toUInt32 ∧ b.toUInt32 < 0xF8) := by
    obtain ⟨⟨b⟩⟩ := b
    revert b
    decide +kernel
  grind [parseFirstByte]

lemma and_cont (x : UInt8) : x &&& 0xC0 = 0x80 ↔ x.toUInt32 &&& 0xC0 = 0x80 :=
  (UInt8.toUInt32_inj (a := x &&& 0xC0) (b := 0x80)).symm

lemma assemble₂_le (w x : UInt8) : assemble₂Unchecked w x ≤ 0x7FF := by
  have hw : w.toNat &&& 0x1F ≤ 0x1F := Nat.and_le_right
  have hx : x.toNat &&& 0x3F ≤ 0x3F := Nat.and_le_right
  refine UInt32.le_iff_toNat_le.mpr (Nat.le_of_lt_succ (Nat.or_lt_two_pow (n := 11) ?_ ?_)) <;>
    simp [Nat.shiftLeft_eq] <;> omega

lemma assemble₃_le (w x y : UInt8) : assemble₃Unchecked w x y ≤ 0xFFFF := by
  have hw : w.toNat &&& 0x0F ≤ 0x0F := Nat.and_le_right
  have hx : x.toNat &&& 0x3F ≤ 0x3F := Nat.and_le_right
  have hy : y.toNat &&& 0x3F ≤ 0x3F := Nat.and_le_right
  refine UInt32.le_iff_toNat_le.mpr (Nat.le_of_lt_succ (Nat.or_lt_two_pow (n := 16)
    (Nat.or_lt_two_pow ?_ ?_) ?_)) <;> simp [Nat.shiftLeft_eq] <;> omega

variable {buf : ByteArray} {len : UInt32}

/-- On a buffer of the given length the kernel's decoder agrees with the library's. -/
lemma decode_eq (h : len.toNat = buf.size) : decode (some buf) len true true =
    some ((utf8DecodeChar? buf 0).elim (.error .einval) fun c => .ok (c.val, c.utf8Size)) := by
  have hlen (k : UInt32) : len < k ↔ buf.size < k.toNat := by rw [UInt32.lt_iff_toNat_lt, h]
  have hzero : len = 0 ↔ buf.size = 0 := by rw [← h, ← UInt32.toNat_inj, UInt32.toNat_zero]
  fun_cases utf8DecodeChar? buf 0
  case case1 | case4 | case6 | case8 => grind [decode, parseFirstByte_eq]
  case case2 => grind [decode, parseFirstByte_eq, assemble₁, Char.utf8Size]
  case case3 =>
    have hle := assemble₂_le buf[0] buf[1]
    simp [assemble₂, assemble₂Unchecked, isInvalidContinuationByte, and_cont] at hle ⊢
    grind [decode, parseFirstByte_eq, Char.utf8Size]
  case case5 h0 hp h2 =>
    have hle := assemble₃_le buf[0] buf[1] buf[2]
    have h1 : 1 < buf.size := by omega
    have h3 : ¬ buf.size < 3 := by omega
    rw [parseFirstByte_eq] at hp
    split_ifs at hp
    simp [decode, assemble₃, assemble₃Unchecked, isInvalidContinuationByte, and_cont,
      Nat.ne_of_gt h0, *] at hle ⊢
    grind [Char.utf8Size]
  case case7 h0 hp h3 =>
    have h1 : 1 < buf.size := by omega
    have h2 : 2 < buf.size := by omega
    have h4 : ¬ buf.size < 4 := by omega
    rw [parseFirstByte_eq] at hp
    split_ifs at hp
    simp [decode, assemble₄, assemble₄Unchecked, isInvalidContinuationByte, and_cont,
      Nat.ne_of_gt h0, *]
    grind [Char.utf8Size]
  case case9 => grind [decode]

/-- The decoder never reads behind the buffer, and it returns a code point with a length exactly if
so many bytes are at the front of the buffer and encode the code point. -/
theorem utf8_decode_strict (h : len.toNat = buf.size) :
    (∃ r, decode (some buf) len true true = some r) ∧
      ∀ cp n, decode (some buf) len true true = some (.ok (cp, n)) ↔
        ∃ c : Char, c.val = cp ∧ n ≤ len.toNat ∧
        buf.data.toList.take n = String.utf8EncodeChar c := by
  rw [decode_eq h]
  refine ⟨⟨_, rfl⟩, fun cp n => ⟨fun hd => ?_, ?_⟩⟩
  · cases hc : utf8DecodeChar? buf 0 with
    | none => simp [hc] at hd
    | some c =>
      obtain ⟨rfl, rfl⟩ : c.val = cp ∧ c.utf8Size = n := by simpa [hc] using hd
      obtain ⟨l, hl⟩ := ByteArray.exists_of_utf8DecodeChar?_eq_some hc
      have hle := ByteArray.le_size_of_utf8DecodeChar?_eq_some hc
      exact ⟨c, rfl, by omega, by simp [hl, ← String.length_utf8EncodeChar]⟩
  · rintro ⟨c, rfl, hn, htake⟩
    have hbuf :
        buf = (String.utf8EncodeChar c).toByteArray ++ (buf.data.toList.drop n).toByteArray := by
      rw [← htake]
      exact ByteArray.ext (Array.toList_inj.mp (by simp))
    have hsize : c.utf8Size = n := by
      rw [← String.length_utf8EncodeChar, ← htake, List.length_take]
      exact Nat.min_eq_left (hn.trans h.le)
    rw [hbuf, ByteArray.utf8DecodeChar?_utf8EncodeChar_append, ← hsize]
    rfl

/-- A two-byte sequence is decoded. -/
theorem utf8_decode_eAcute : decode (some ⟨#[0xC3, 0xA9]⟩) 2 true true = some (.ok (0xE9, 2)) :=
  ((utf8_decode_strict rfl).2 _ _).mpr ⟨'é', rfl, by decide, by decide⟩

end Anunix.Utf8
