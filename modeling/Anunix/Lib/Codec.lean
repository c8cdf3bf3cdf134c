import Mathlib

/-!
# Byte images of C structs

C code overlays a struct on a byte buffer, so reading never fails: whatever bytes are there are the
fields. A `Codec` is such an overlay of fixed size: `encode` gives the bytes of a value and `decode`
reads a value off the front of any buffer, where a buffer that ends early reads as zero. Values
written read back (`decode_encode`), whatever follows them.

Words are little endian. Structs are built from words and byte arrays by `pair` and `iso`, arrays of
structs are read with `decodeMany`.
-/

/-- An overlay of fixed size on the front of a byte buffer. -/
structure Codec (α : Type) where
  size : Nat
  encode : α → List UInt8
  decode : List UInt8 → α
  length_encode : ∀ a, (encode a).length = size
  decode_encode : ∀ a rest, decode (encode a ++ rest) = a

namespace Codec
open List

variable {α β : Type} {n : Nat} {l : List UInt8}

/-! ## Little-endian words -/

/-- The low `n` bytes of a number, lowest first. -/
def toLE : Nat → Nat → List UInt8
  | 0, _ => []
  | n + 1, v => UInt8.ofNat v :: toLE n (v / 256)

/-- The number in the first `n` bytes, lowest first. -/
def ofLE : Nat → List UInt8 → Nat
  | 0, _ => 0
  | _ + 1, [] => 0
  | n + 1, b :: l => b.toNat + 256 * ofLE n l

lemma length_toLE (n v : Nat) : (toLE n v).length = n := by
  induction n generalizing v with
  | zero => rfl
  | succ n ih => simp [toLE, ih]

lemma ofLE_toLE (n v : Nat) (rest : List UInt8) : ofLE n (toLE n v ++ rest) = v % 256 ^ n := by
  induction n generalizing v with
  | zero => simp [ofLE, Nat.mod_one]
  | succ n ih =>
    rw [toLE, cons_append, ofLE, ih, Nat.pow_succ', Nat.mod_mul]
    simp

@[simp]
lemma ofLE_replicate (n k : Nat) : ofLE n (replicate k 0) = 0 := by
  induction n generalizing k with
  | zero => rfl
  | succ n ih =>
    cases k with
    | zero => rfl
    | succ k => simp [replicate_succ, ofLE, ih]

def u32 : Codec UInt32 where
  size := 4
  encode x := toLE 4 x.toNat
  decode l := UInt32.ofNat (ofLE 4 l)
  length_encode x := length_toLE 4 x.toNat
  decode_encode x rest := by
    rw [ofLE_toLE, Nat.mod_eq_of_lt (by exact x.toNat_lt)]
    exact UInt32.ofNat_toNat

def u64 : Codec UInt64 where
  size := 8
  encode x := toLE 8 x.toNat
  decode l := UInt64.ofNat (ofLE 8 l)
  length_encode x := length_toLE 8 x.toNat
  decode_encode x rest := by
    rw [ofLE_toLE, Nat.mod_eq_of_lt (by exact x.toNat_lt)]
    exact UInt64.ofNat_toNat

@[simp]
lemma u32_zeros (k : Nat) : u32.decode (replicate k 0) = 0 := by
  simp [u32]

@[simp]
lemma u64_zeros (k : Nat) : u64.decode (replicate k 0) = 0 := by
  simp [u64]

/-! ## Buffers -/

/-- A zeroed buffer of `n` bytes with `l` copied to its front. -/
def fill (n : Nat) (l : List UInt8) : List UInt8 :=
  (l ++ replicate n 0).take n

@[simp]
lemma length_fill (n : Nat) (l : List UInt8) : (fill n l).length = n := by
  simp [fill]

lemma fill_of_le (h : l.length ≤ n) :
    fill n l = l ++ replicate (n - l.length) 0 := by
  simp [fill, take_append, take_of_length_le h]

lemma take_fill (h : l.length ≤ n) : (fill n l).take l.length = l := by
  rw [fill_of_le h, take_left]

abbrev Bytes (n : Nat) := { l : List UInt8 // l.length = n }

/-- An array of bytes within a struct. -/
def bytes (n : Nat) : Codec (Bytes n) where
  size := n
  encode b := b.val
  decode l := ⟨fill n l, length_fill n l⟩
  length_encode b := b.property
  decode_encode b rest := by
    apply Subtype.ext
    show ((b.val ++ rest) ++ replicate n 0).take n = b.val
    rw [append_assoc]
    exact take_left' b.property

/-! ## Structs -/

/-- Two fields, one after the other. -/
def pair (A : Codec α) (B : Codec β) : Codec (α × β) where
  size := A.size + B.size
  encode x := A.encode x.1 ++ B.encode x.2
  decode l := (A.decode l, B.decode (l.drop A.size))
  length_encode x := by rw [length_append, A.length_encode, B.length_encode]
  decode_encode x rest := by
    rw [append_assoc, A.decode_encode, ← A.length_encode x.1, drop_left, B.decode_encode]

/-- The same bytes read as the fields of a struct. -/
def iso (A : Codec α) (pack : α → β) (unpack : β → α) (inverse : ∀ b, pack (unpack b) = b) :
    Codec β where
  size := A.size
  encode b := A.encode (unpack b)
  decode l := pack (A.decode l)
  length_encode b := A.length_encode (unpack b)
  decode_encode b rest := by rw [A.decode_encode, inverse]

/-! ## Arrays of structs -/

/-- The first `n` elements of an array overlaid on the buffer. -/
def decodeMany (A : Codec α) : Nat → List UInt8 → List α
  | 0, _ => []
  | n + 1, l => A.decode l :: decodeMany A n (l.drop A.size)

lemma length_flatMap_encode (A : Codec α) (as : List α) :
    (as.flatMap A.encode).length = as.length * A.size := by
  induction as with
  | nil => simp
  | cons a as ih =>
    rw [flatMap_cons, length_append, ih, A.length_encode, length_cons, Nat.succ_mul, Nat.add_comm]

lemma decodeMany_flatMap (A : Codec α) (as : List α) (n : Nat) (rest : List UInt8) :
    A.decodeMany (as.length + n) (as.flatMap A.encode ++ rest) = as ++ A.decodeMany n rest := by
  induction as with
  | nil => simp
  | cons a as ih =>
    rw [length_cons, Nat.succ_add, decodeMany, flatMap_cons, append_assoc,
      A.decode_encode, ← A.length_encode a, drop_left, ih, cons_append]

lemma mem_decodeMany_zeros {A : Codec α} {k : Nat} {a : α}
    (h : a ∈ A.decodeMany n (replicate k 0)) : ∃ j, a = A.decode (replicate j 0) := by
  induction n generalizing k with
  | zero => cases h
  | succ n ih =>
    rw [decodeMany, drop_replicate] at h
    rcases mem_cons.mp h with rfl | h
    · exact ⟨k, rfl⟩
    · exact ih h

end Codec
