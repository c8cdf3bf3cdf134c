import Mathlib

/-!
# Big-endian byte strings

The number a string of bytes stands for, most significant byte first. Strings of one length are
ordered as their numbers: the first byte in which they differ decides (`value_lt_of_head`).
-/

namespace BigEndian

def value : List UInt8 → Nat
  | [] => 0
  | b :: l => b.toNat * 256 ^ l.length + value l

variable {a b : UInt8} {l m : List UInt8}

lemma value_lt (l : List UInt8) : value l < 256 ^ l.length := by
  induction l with
  | nil => exact Nat.one_pos
  | cons b l ih =>
    have hb : b.toNat + 1 ≤ 256 := b.toNat_lt
    calc value (b :: l) < b.toNat * 256 ^ l.length + 256 ^ l.length := Nat.add_lt_add_left ih _
      _ = (b.toNat + 1) * 256 ^ l.length := by ring
      _ ≤ 256 * 256 ^ l.length := Nat.mul_le_mul_right _ hb
      _ = 256 ^ (b :: l).length := by rw [List.length_cons, Nat.pow_succ, Nat.mul_comm]

lemma value_lt_of_head (h : a < b) (hlen : l.length = m.length) :
    value (a :: l) < value (b :: m) := by
  have hab : a.toNat + 1 ≤ b.toNat := UInt8.lt_iff_toNat_lt.mp h
  calc
    value (a :: l) < a.toNat * 256 ^ l.length + 256 ^ l.length := Nat.add_lt_add_left (value_lt l) _
    _ = (a.toNat + 1) * 256 ^ m.length := by rw [hlen]; ring
    _ ≤ b.toNat * 256 ^ m.length := Nat.mul_le_mul_right _ hab
    _ ≤ value (b :: m) := Nat.le_add_right _ _

lemma value_cons_lt_cons (hlen : l.length = m.length) : value (a :: l) < value (a :: m) ↔
    value l < value m := by
  simp only [value, hlen]
  exact Nat.add_lt_add_iff_left

end BigEndian
