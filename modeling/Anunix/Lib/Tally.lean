import Anunix.Lib.Keyed

/-!
# Sums over part of a table

`sum p f l` adds up a number `f` over the records of a table that have a property `p`. A loop that
adds numbers of a fixed width computes it as long as nothing wraps around.
-/

namespace Tally
open Keyed

variable {α : Type*}

def sum (p : α → Bool) (f : α → Nat) (l : List α) : Nat :=
  (l.map fun a => if p a then f a else 0).sum

variable {p q : α → Bool} {f g : α → Nat} {l l' : List α} {a : α} {β : Type*}

@[simp]
lemma sum_nil : sum p f ([] : List α) = 0 := rfl

@[simp]
lemma sum_cons : sum p f (a :: l) = (if p a then f a else 0) + sum p f l := by
  rfl

lemma sum_append : sum p f (l ++ l') = sum p f l + sum p f l' := by
  rw [sum, List.map_append, List.sum_append]
  rfl

/-- A bound on a sum, beside another number, that has room for one more record. -/
lemma add_sum_concat_le {k n : Nat} (h : k + sum p f l ≤ n)
    (ha : p a = true → k + sum p f l + f a ≤ n) : k + sum p f (l ++ [a]) ≤ n := by
  rw [sum_append, sum_cons, ← Nat.add_assoc]
  split
  · exact ha ‹_›
  · exact h

lemma sum_concat_le {n : Nat} (h : sum p f l ≤ n) (ha : p a = true → sum p f l + f a ≤ n) :
    sum p f (l ++ [a]) ≤ n := by
  simpa using add_sum_concat_le (k := 0) (by simpa using h) (by simpa using ha)

lemma sum_perm (h : l.Perm l') : sum p f l = sum p f l' :=
  (h.map _).sum_eq

lemma sum_map {h : β → α} {l : List β} : sum p f (l.map h) = sum (p ∘ h) (f ∘ h) l := by
  rw [sum, List.map_map]
  rfl

lemma sum_le (h : ∀ a ∈ l, p a = true → q a = true ∧ f a ≤ g a) : sum p f l ≤ sum q g l := by
  induction l with
  | nil => exact Nat.le_refl _
  | cons b l ih =>
    have hrest := ih fun a ha => h a (List.mem_cons_of_mem b ha)
    rw [sum_cons, sum_cons]
    by_cases hp : p b = true
    · obtain ⟨hq, hle⟩ := h b List.mem_cons_self hp
      rw [if_pos hp, if_pos hq]
      omega
    · rw [if_neg hp]
      omega

lemma sum_congr (h : ∀ a ∈ l, p a = q a ∧ (p a = true → f a = g a)) : sum p f l = sum q g l := by
  refine Nat.le_antisymm (sum_le fun a ha hp => ?_) (sum_le fun a ha hq => ?_)
  · obtain ⟨he, hf⟩ := h a ha
    exact ⟨he ▸ hp, Nat.le_of_eq (hf hp)⟩
  · obtain ⟨he, hf⟩ := h a ha
    exact ⟨he ▸ hq, Nat.le_of_eq (hf (he ▸ hq)).symm⟩

lemma sum_eq_zero (h : ∀ a ∈ l, p a = true → f a = 0) : sum p f l = 0 := by
  induction l with
  | nil => rfl
  | cons b l ih =>
    rw [sum_cons, ih fun a ha => h a (List.mem_cons_of_mem b ha)]
    by_cases hp : p b = true
    · rw [if_pos hp, h b List.mem_cons_self hp]
    · rw [if_neg hp]

/-! ## Keyed tables -/

section Keyed

variable {κ : Type*} [DecidableEq κ] {key : α → κ} {k : κ} {b : α}

lemma sum_lookup (h : lookup key l k = some a) :
    sum p f l = (if p a then f a else 0) + sum p f (erase key l k) := by
  rw [sum_perm (perm_erase h), sum_cons]

section

variable (h : lookup key l (key a) = some b)
include h

lemma sum_update :
    sum p f (update key l a) = (if p a then f a else 0) + sum p f (erase key l (key a)) := by
  rw [sum_perm (perm_update h), sum_cons]

/-- The same for a record that is written back. -/
lemma add_sum_update_le {m n : Nat} (hold : m + sum p f l ≤ n)
    (hnew : p a = true → m + (f a + sum p f (erase key l (key a))) ≤ n) :
    m + sum p f (update key l a) ≤ n := by
  rw [sum_update h]
  rw [sum_lookup h] at hold
  split
  · exact hnew ‹_›
  · omega

lemma sum_update_le {n : Nat} (hold : sum p f l ≤ n)
    (hnew : p a = true → f a + sum p f (erase key l (key a)) ≤ n) :
    sum p f (update key l a) ≤ n := by
  simpa using add_sum_update_le (m := 0) h (by simpa using hold) (by simpa using hnew)

end

end Keyed

/-! ## Loops that add -/

/-- A loop that adds numbers of a fixed width, whose addition is exact up to the bound `w`. -/
lemma foldl_add (val : β → Nat) (add : β → β → β) (w : Nat)
    (hadd : ∀ x y, val x + val y < w → val (add x y) = val x + val y) {h : α → β} {z : β}
    (hle : val z + sum p (fun a => val (h a)) l < w) :
    val (l.foldl (fun t a => if p a then add t (h a) else t) z) =
    val z + sum p (fun a => val (h a)) l := by
  induction l generalizing z with
  | nil => rfl
  | cons b l ih =>
    rw [sum_cons] at hle ⊢
    rw [List.foldl_cons]
    cases hp : p b with
    | true =>
      rw [hp, if_pos rfl] at hle
      have hz := hadd z (h b) (by omega)
      rw [if_pos rfl, if_pos rfl, ih (by omega)]
      omega
    | false =>
      rw [if_neg Bool.false_ne_true, if_neg Bool.false_ne_true, ih (by omega)]
      omega

end Tally
