import Mathlib

/-!
# Striping

A linear range is cut into chunks of `c` and dealt out to `n` members in turn. Position `i` is on
member `member n c i`, at position `row n c i` there. With whole chunks on every member this is a
bijection between the positions below `s * n` and the pairs of a member and a position below `s`,
with inverse `index`; within one chunk, neighbours stay neighbours.
-/

namespace Stripe
open Nat

variable {n c s i j k t : Nat}

def member (n c i : Nat) : Nat :=
  i / c % n

def row (n c i : Nat) : Nat :=
  i / c / n * c + i % c

def index (n c j k : Nat) : Nat :=
  (k / c * n + j) * c + k % c

lemma member_lt (hn : 0 < n) : member n c i < n :=
  mod_lt _ hn

lemma row_le : row n c i ≤ i :=
  calc row n c i ≤ i / c * c + i % c :=
        Nat.add_le_add_right (Nat.mul_le_mul_right c (Nat.div_le_self _ n)) _
    _ = i := div_add_mod' i c

lemma row_div (hc : 0 < c) : row n c i / c = i / c / n := by
  rw [row, add_comm, add_mul_div_right _ _ hc, div_eq_of_lt (mod_lt _ hc), zero_add]

lemma row_mod : row n c i % c = i % c := by
  rw [row, mul_add_mod', mod_mod]

lemma index_div (hc : 0 < c) : index n c j k / c = k / c * n + j := by
  rw [index, add_comm, add_mul_div_right _ _ hc, div_eq_of_lt (mod_lt _ hc), zero_add]

lemma index_mod : index n c j k % c = k % c := by
  rw [index, mul_add_mod', mod_mod]

lemma index_member_row (hc : 0 < c) : index n c (member n c i) (row n c i) = i := by
  rw [index, row_div hc, row_mod, member, div_add_mod', div_add_mod']

lemma member_index (hc : 0 < c) (hj : j < n) : member n c (index n c j k) = j := by
  rw [member, index_div hc, mul_add_mod', mod_eq_of_lt hj]

lemma row_index (hc : 0 < c) (hj : j < n) : row n c (index n c j k) = k := by
  have hn : 0 < n := lt_of_le_of_lt (zero_le j) hj
  rw [row, index_div hc, index_mod, add_comm (k / c * n), add_mul_div_right _ _ hn,
    div_eq_of_lt hj, zero_add, div_add_mod']

/-- With whole chunks on the members, a chunk that starts below the end fits. -/
lemma chunk_fits (hs : c ∣ s) (h : k < s) : k / c * c + c ≤ s := by
  obtain ⟨q, rfl⟩ := hs
  have hq : k / c < q := Nat.div_lt_of_lt_mul h
  calc k / c * c + c = (k / c + 1) * c := (succ_mul _ _).symm
    _ ≤ q * c := Nat.mul_le_mul_right c hq
    _ = c * q := mul_comm q c

lemma row_lt (hc : 0 < c) (hs : c ∣ s) (h : i < s * n) : row n c i < s := by
  obtain ⟨q, rfl⟩ := hs
  have hq : i / c / n < q := by
    rw [Nat.div_div_eq_div_mul]
    exact Nat.div_lt_of_lt_mul (by rwa [mul_right_comm])
  rw [row, mul_comm _ c, mul_comm c q]
  exact mul_add_lt_mul_of_lt_of_lt hq (mod_lt _ hc)

lemma index_lt (hc : 0 < c) (hs : c ∣ s) (hj : j < n) (hk : k < s) : index n c j k < s * n := by
  obtain ⟨q, rfl⟩ := hs
  have hq : k / c < q := Nat.div_lt_of_lt_mul hk
  rw [index, mul_comm _ c, mul_comm _ n, mul_assoc, mul_comm c (q * n)]
  exact mul_add_lt_mul_of_lt_of_lt (mul_add_lt_mul_of_lt_of_lt hq hj) (mod_lt _ hc)

/-! ## Within one chunk -/

section

variable (h : i % c + t < c)
include h

lemma div_add_of_lt : (i + t) / c = i / c := by
  have hc : 0 < c := lt_of_le_of_lt (zero_le _) h
  conv_lhs => rw [← div_add_mod' i c, add_assoc]
  rw [add_comm, add_mul_div_right _ _ hc, div_eq_of_lt h, zero_add]

lemma mod_add_of_lt : (i + t) % c = i % c + t := by
  conv_lhs => rw [← div_add_mod' i c, add_assoc]
  rw [add_comm, add_mul_mod_self_right, mod_eq_of_lt h]

lemma member_add : member n c (i + t) = member n c i := by
  rw [member, member, div_add_of_lt h]

lemma row_add : row n c (i + t) = row n c i + t := by
  rw [row, row, div_add_of_lt h, mod_add_of_lt h, add_assoc]

end

/-- No other position shares a place with a run within one chunk. -/
lemma eq_add_of_row (hc : 0 < c) (h : i % c + t < c) (hm : member n c j = member n c i)
    (hr : row n c j = row n c i + t) : j = i + t := by
  rw [← member_add h] at hm
  rw [← row_add h] at hr
  rw [← index_member_row (i := j) hc, hm, hr, index_member_row hc]

lemma row_add_le (hc : 0 < c) (hs : c ∣ s) (h : i < s * n) (ht : i % c + t ≤ c) :
    row n c i + t ≤ s := by
  have hfit := chunk_fits hs (row_lt hc hs h)
  rw [row_div hc] at hfit
  calc row n c i + t = i / c / n * c + (i % c + t) := by rw [row, add_assoc]
    _ ≤ i / c / n * c + c := Nat.add_le_add_left ht _
    _ ≤ s := hfit

end Stripe
