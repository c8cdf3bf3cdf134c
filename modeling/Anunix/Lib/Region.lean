import Mathlib

/-!
# Regions of an addressed memory

A memory is a function from addresses to cells. `load m a n` reads the `n` cells from address `a`
on, `store m a l` writes the list `l` there. A read returns what was last written
(`load_store_self`), and a write does not show in the cells it leaves alone
(`load_store_of_disjoint`).
-/

namespace Region
open List

variable {α : Type*} {m m' : Nat → α} {a b n k : Nat} {l : List α}

def load (m : Nat → α) (a n : Nat) : List α :=
  (range n).map fun i => m (a + i)

def store (m : Nat → α) (a : Nat) (l : List α) : Nat → α := fun i =>
  if a ≤ i then (l[i - a]?).getD (m i) else m i

@[simp]
lemma length_load : (load m a n).length = n := by
  simp [load]

lemma getElem?_load (h : k < n) : (load m a n)[k]? = some (m (a + k)) := by
  simp [load, h]

lemma mem_load {x : α} (h : x ∈ load m a n) : ∃ k, k < n ∧ m (a + k) = x := by
  simpa [load] using h

lemma load_congr (h : ∀ i, a ≤ i → i < a + n → m i = m' i) : load m a n = load m' a n := by
  refine map_congr_left fun i hi => ?_
  have hi' : i < n := mem_range.mp hi
  exact h (a + i) (by omega) (by omega)

lemma load_eq_load (h : ∀ i, i < n → m (a + i) = m' (b + i)) : load m a n = load m' b n := by
  exact map_congr_left fun i hi => h i (mem_range.mp hi)

lemma eq_of_load_eq (h : load m a n = load m' a n) {i : Nat} (hl : a ≤ i) (hr : i < a + n) :
    m i = m' i := by
  have hk : i - a < n := by omega
  have hi := congrArg (fun l => l[i - a]?) h
  simp only [getElem?_load hk, Option.some.injEq] at hi
  rwa [show a + (i - a) = i by omega] at hi

lemma load_add : load m a (n + k) = load m a n ++ load m (a + n) k := by
  simp [load, range_add, Nat.add_assoc]

lemma take_load (h : k ≤ n) : (load m a n).take k = load m a k := by
  obtain ⟨d, rfl⟩ := Nat.exists_eq_add_of_le h
  rw [load_add]
  exact take_left' length_load

lemma load_part (h : k + n ≤ b) : load m (a + k) n = ((load m a b).drop k).take n := by
  obtain ⟨d, rfl⟩ := Nat.exists_eq_add_of_le h
  rw [Nat.add_assoc, load_add, drop_left' length_load, take_load (Nat.le_add_right n d)]

lemma store_of_lt (h : b < a) : store m a l b = m b := by
  simp [store, Nat.not_le.mpr h]

lemma store_of_le (h : a + l.length ≤ b) : store m a l b = m b := by
  have hnone : l[b - a]? = none := getElem?_eq_none (by omega)
  simp [store, hnone]

lemma store_of_disjoint (h : b < a ∨ a + l.length ≤ b) : store m a l b = m b := by
  rcases h with h | h
  · exact store_of_lt h
  · exact store_of_le h

lemma store_nil : store m a [] = m :=
  funext fun b => store_of_disjoint (Nat.lt_or_ge b a)

lemma store_eq_self {x : α} (h : m a = x) : store m a [x] = m := by
  funext i
  rcases Nat.lt_trichotomy i a with hi | rfl | hi
  · exact store_of_lt hi
  · simp [store, h]
  · exact store_of_le hi

lemma store_of_mem (h : k < l.length) : store m a l (a + k) = l[k] := by
  simp [store, h]

lemma store_append {l' : List α} : store (store m a l) (a + l.length) l' = store m a (l ++ l') := by
  funext i
  rcases Nat.lt_or_ge i (a + l.length) with h | h
  · rw [store_of_lt h]
    by_cases ha : a ≤ i
    · have hi : i - a < l.length := by omega
      simp [store, getElem?_append_left hi]
    · simp [store, ha]
  · have ha : a ≤ i := by omega
    have hi : l.length ≤ i - a := by omega
    have hsub : i - a - l.length = i - (a + l.length) := by omega
    simp [store, h, ha, getElem?_append_right hi, hsub, getElem?_eq_none hi]

@[simp]
lemma load_store_self : load (store m a l) a l.length = l := by
  apply ext_getElem?
  intro i
  rcases Nat.lt_or_ge i l.length with h | h
  · rw [getElem?_load h, store_of_mem h, getElem?_eq_getElem h]
  · rw [getElem?_eq_none (by simpa using h), getElem?_eq_none h]

lemma load_store_of_disjoint (h : a + n ≤ b ∨ b + l.length ≤ a) :
    load (store m b l) a n = load m a n := by
  apply load_congr
  intro i hl hr
  apply store_of_disjoint
  rcases h with h | h
  · exact .inl (by omega)
  · exact .inr (by omega)

end Region
