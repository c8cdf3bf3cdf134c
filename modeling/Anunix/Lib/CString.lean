import Mathlib

/-!
# C strings

A string that C code passes around is the bytes before the first zero byte. `CString` carries that
none of its bytes is zero, so a string kept in a fixed array of bytes ends where its terminator
stands (`ofField_terminated`).
-/

/-- The bytes of a C string, without the terminator. -/
structure CString where
  bytes : List UInt8
  nulFree : 0 ∉ bytes
  deriving DecidableEq

namespace CString

/-- The string at the start of an array of bytes. -/
def ofField (l : List UInt8) : CString where
  bytes := l.takeWhile (· != 0)
  nulFree := fun h => absurd (List.mem_takeWhile_imp h) (by decide)

def ofString (s : String) : CString :=
  ofField s.toUTF8.toList

def take (n : Nat) (s : CString) : CString where
  bytes := s.bytes.take n
  nulFree := fun h => s.nulFree (List.mem_of_mem_take h)

/-- The bytes `strlcpy` writes into an array of `n` bytes, terminator included. -/
def strlcpy (n : Nat) (s : CString) : List UInt8 :=
  (s.take (n - 1)).bytes ++ [0]

variable {s t : CString} {n : Nat}

@[ext]
lemma ext (h : s.bytes = t.bytes) : s = t := by
  cases t
  cases h
  rfl

lemma take_of_length_le (h : s.bytes.length ≤ n) : s.take n = s :=
  ext (List.take_of_length_le h)

lemma length_strlcpy (h : s.bytes.length ≤ n - 1) : (s.strlcpy n).length = s.bytes.length + 1 := by
  rw [strlcpy, take_of_length_le h, List.length_append, List.length_singleton]

/-- An array holds the string in front of its terminator, whatever stands behind. -/
lemma ofField_terminated (s : CString) (rest : List UInt8) :
    ofField (s.bytes ++ 0 :: rest) = s := by
  apply ext
  have hall : ∀ b ∈ s.bytes, (b != 0) = true := by
    intro b hb
    apply bne_iff_ne.mpr
    intro hzero
    exact s.nulFree (hzero ▸ hb)
  show (s.bytes ++ 0 :: rest).takeWhile (· != 0) = s.bytes
  rw [List.takeWhile_append_of_pos hall, List.takeWhile_cons_of_neg (by decide), List.append_nil]

end CString
