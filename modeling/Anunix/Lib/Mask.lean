import Mathlib

/-!
# Sets of bits in a machine word

A word used as a set of small numbers: `single i` is `1 << i`, `collect n p` sets the bits below `n`
that a loop with a test sets one by one, and `bits` counts by clearing the lowest bit until none is
left. `members` is the set of numbers a word stands for; `bits_eq_card` says that the loop counts
it.
-/

namespace Mask
open Finset

variable {w : Nat} {m m' : BitVec w} {i j n : Nat} {p : Nat → Bool}

/-- The word with one bit: `1U << i`. -/
def single (i : Nat) : BitVec w :=
  1#w <<< i

/-- The numbers below `n` with a property: `for (i = 0; i < n; i++) if (p(i)) m |= 1U << i;`. -/
def collect (n : Nat) (p : Nat → Bool) : BitVec w :=
  (List.range n).foldl (fun m i => if p i then m ||| single i else m) 0#w

/-- Count by clearing the lowest bit: `for (; m; m &= m - 1) count++;`. -/
def bitsFrom : Nat → BitVec w → Nat → Nat
  | 0, _, count => count
  | fuel + 1, m, count => if m = 0#w then count else bitsFrom fuel (m &&& (m - 1)) (count + 1)

/-- The number of bits set; a word of `w` bits is empty after `w` rounds. -/
def bits (m : BitVec w) : Nat :=
  bitsFrom w m 0

def members (m : BitVec w) : Finset Nat :=
  (range w).filter fun i => m.getLsbD i

@[simp]
lemma mem_members : i ∈ members m ↔ m.getLsbD i = true := by
  simp only [members, mem_filter, mem_range, and_iff_right_iff_imp]
  exact BitVec.lt_of_getLsbD

lemma getLsbD_single (h : i < w) : (single i : BitVec w).getLsbD j = decide (j = i) := by
  simp only [single]
  rcases Nat.lt_trichotomy j i with hj | rfl | hj
  · simp [hj, Nat.ne_of_lt hj]
  · simp [h]
  · have hne : j - i ≠ 0 := by omega
    simp [hne, Nat.ne_of_gt hj]

lemma members_single (h : i < w) : members (single i : BitVec w) = {i} := by
  ext j
  simp [getLsbD_single h]

lemma members_or : members (m ||| m') = members m ∪ members m' := by
  ext j
  simp

lemma members_and : members (m &&& m') = members m ∩ members m' := by
  ext j
  simp

lemma members_and_not : members (m &&& ~~~m') = members m \ members m' := by
  ext j
  rw [mem_sdiff, mem_members, mem_members, BitVec.getLsbD_and]
  cases hm : m.getLsbD j with
  | false => simp
  | true =>
    have hlt := BitVec.lt_of_getLsbD hm
    simp [hlt]

lemma and_ne_zero : m &&& m' ≠ 0#w ↔ ∃ i, i ∈ members m ∧ i ∈ members m' := by
  constructor
  · intro h
    by_contra hn
    push Not at hn
    apply h
    apply BitVec.eq_of_getLsbD_eq
    intro i _
    have hi := hn i
    cases hm : m.getLsbD i with
    | false => simp [hm]
    | true =>
      have hm' : m'.getLsbD i = false := by simpa using hi (by simpa using hm)
      simp [hm']
  · rintro ⟨i, hm, hm'⟩ h0
    have hi := congrArg (fun v => v.getLsbD i) h0
    simp only [BitVec.getLsbD_and, mem_members.mp hm, mem_members.mp hm', BitVec.getLsbD_zero] at hi
    cases hi

lemma and_not_eq_zero : m &&& ~~~m' = 0#w ↔ members m ⊆ members m' := by
  constructor
  · intro h i hi
    rw [mem_members] at hi ⊢
    have hbit : (m &&& ~~~m').getLsbD i = false := by
      rw [h, BitVec.getLsbD_zero]
    have hlt := BitVec.lt_of_getLsbD hi
    simpa [hi, hlt] using hbit
  · intro h
    refine BitVec.eq_of_getLsbD_eq fun i hlt => ?_
    cases hi : m.getLsbD i with
    | false => simp [hi]
    | true =>
      have hi' := mem_members.mp (h (mem_members.mpr hi))
      simp [hi']

lemma getLsbD_collect (h : n ≤ w) :
    (collect n p : BitVec w).getLsbD j = (decide (j < n) && p j) := by
  induction n with
  | zero => simp [collect]
  | succ n ih =>
    have hn := ih (by omega)
    unfold collect at hn ⊢
    rw [List.range_succ, List.foldl_append, List.foldl_cons, List.foldl_nil]
    cases hp : p n with
    | false =>
      rw [if_neg (by simp), hn]
      by_cases hj : j = n
      · simp [hj, hp]
      · simp [Nat.le_iff_lt_or_eq, hj]
    | true =>
      rw [if_pos rfl, BitVec.getLsbD_or, hn, getLsbD_single (by omega)]
      by_cases hj : j = n
      · simp [hj, hp]
      · simp [Nat.le_iff_lt_or_eq, hj]

lemma members_collect (h : n ≤ w) :
    members (collect n p : BitVec w) = (range n).filter fun i => p i := by
  ext j
  simp [getLsbD_collect h]

/-! ## Counting -/

/-- Clearing the lowest bit of a number takes out exactly one bit. -/
lemma exists_testBit_and_pred (n : Nat) (h : n ≠ 0) :
    ∃ i, n.testBit i = true ∧ ∀ j, (n &&& (n - 1)).testBit j = (n.testBit j && decide (j ≠ i)) := by
  induction n using Nat.binaryRec with
  | zero => exact absurd rfl h
  | bit b n ih =>
    cases b with
    | true =>
      -- The lowest bit is set: taking one away clears it and nothing else.
      refine ⟨0, by simp, fun j => ?_⟩
      have hpred : Nat.bit true n - 1 = Nat.bit false n := by simp [Nat.bit]
      rw [hpred, Nat.testBit_and]
      cases j with
      | zero => simp
      | succ j =>
        rw [Nat.testBit_bit_succ, Nat.testBit_bit_succ]
        simp
    | false =>
      -- The lowest bit is clear: the borrow goes into the rest of the number.
      have hn : n ≠ 0 := by
        rintro rfl
        exact h rfl
      obtain ⟨i, hi, hrest⟩ := ih hn
      refine ⟨i + 1, by rwa [Nat.testBit_bit_succ], fun j => ?_⟩
      have hpred : Nat.bit false n - 1 = Nat.bit true (n - 1) := by
        simp only [Nat.bit, Bool.cond_false, Bool.cond_true]
        omega
      rw [hpred, Nat.testBit_and]
      cases j with
      | zero => simp
      | succ j =>
        have hj := hrest j
        rw [Nat.testBit_and] at hj
        rw [Nat.testBit_bit_succ, Nat.testBit_bit_succ, hj]
        simp

lemma exists_members_and_pred (h : m ≠ 0#w) :
    ∃ i ∈ members m, members (m &&& (m - 1)) = (members m).erase i := by
  have hm : m.toNat ≠ 0 := fun e => h (BitVec.eq_of_toNat_eq (by exact e))
  have hpred : (m - 1#w).toNat = m.toNat - 1 := by
    cases w with
    | zero => exact absurd (BitVec.eq_of_getLsbD_eq (by simp)) h
    | succ w =>
      have hone : (1#(w + 1)).toNat = 1 := by simp
      rw [BitVec.toNat_sub_of_le, hone]
      rw [BitVec.le_def]
      omega
  obtain ⟨i, hi, hrest⟩ := exists_testBit_and_pred m.toNat hm
  refine ⟨i, mem_members.mpr (by rwa [BitVec.testBit_toNat] at hi), ?_⟩
  ext j
  have hj := hrest j
  rw [← hpred, ← BitVec.toNat_and, BitVec.testBit_toNat, BitVec.testBit_toNat] at hj
  rw [mem_members]
  show (m &&& (m - 1#w)).getLsbD j = true ↔ _
  rw [hj]
  simp [and_comm]

lemma bitsFrom_eq {fuel count : Nat} (h : (members m).card ≤ fuel) :
    bitsFrom fuel m count = count + (members m).card := by
  induction fuel generalizing m count with
  | zero => simp [bitsFrom, Nat.le_zero.mp h]
  | succ fuel ih =>
    rw [bitsFrom]
    by_cases h0 : m = 0#w
    · have hempty : members m = ∅ := by
        ext j
        simp [h0]
      rw [if_pos h0, hempty, card_empty, Nat.add_zero]
    · obtain ⟨i, hi, he⟩ := exists_members_and_pred h0
      have hcard : (members (m &&& (m - 1))).card + 1 = (members m).card := by
        rw [he, card_erase_add_one hi]
      rw [if_neg h0, ih (by omega)]
      omega

lemma bits_eq_card : bits m = (members m).card := by
  have hle : (members m).card ≤ w := by
    simpa [members] using card_filter_le (range w) fun i => m.getLsbD i
  rw [bits, bitsFrom_eq hle, Nat.zero_add]

end Mask
