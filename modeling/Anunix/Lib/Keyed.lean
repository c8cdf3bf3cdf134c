import Mathlib

/-!
# Tables of keyed records

A fixed array of records that the code searches by an identifier field is modelled as the list of
its records, with `lookup` returning the first record under a key, `update` writing a record back
through the pointer such a search returned, and `erase` freeing its slot.
-/

namespace Keyed
open List

variable {α κ : Type*} [DecidableEq κ]

def lookup (key : α → κ) (l : List α) (k : κ) : Option α :=
  l.find? fun a => key a = k

def update (key : α → κ) : List α → α → List α
  | [], _ => []
  | b :: l, a => if key b = key a then a :: l else b :: update key l a

def erase (key : α → κ) : List α → κ → List α
  | [], _ => []
  | b :: l, k => if key b = k then l else b :: erase key l k

variable {key : α → κ} {l : List α} {a b : α} {k : κ}

omit [DecidableEq κ] in
lemma index_unique {i j : Nat} (hn : (l.map key).Nodup) (hi : l[i]? = some a) (hj : l[j]? = some b)
    (h : key a = key b) : i = j := by
  have hlt : i < (l.map key).length := by
    rw [length_map]
    exact (List.getElem?_eq_some_iff.mp hi).1
  apply (getElem?_inj hlt hn).mp
  rw [getElem?_map, getElem?_map, hi, hj, Option.map_some, Option.map_some, h]

lemma lookup_key (h : lookup key l k = some a) : key a = k := by
  simpa using find?_some h

lemma lookup_mem (h : lookup key l k = some a) : a ∈ l :=
  mem_of_find?_eq_some h

lemma lookup_cons : lookup key (a :: l) k = if key a = k then some a else lookup key l k := by
  by_cases h : key a = k
  · simp [lookup, h]
  · simp [lookup, h]

lemma lookup_concat :
    lookup key (l ++ [a]) k = (lookup key l k).or (if key a = k then some a else none) := by
  induction l with
  | nil => simp [lookup]
  | cons b l ih =>
    rw [cons_append, lookup_cons, lookup_cons, ih]
    by_cases h : key b = k
    · simp [h]
    · simp [h]

lemma lookup_update : lookup key (update key l a) k =
      if key a = k then (lookup key l k).map fun _ => a else lookup key l k := by
  induction l with
  | nil => simp [update, lookup]
  | cons b l ih =>
    rw [update]
    by_cases hb : key b = key a
    · rw [if_pos hb, lookup_cons, lookup_cons, hb]
      by_cases hk : key a = k
      · simp [hk]
      · simp [hk]
    · rw [if_neg hb, lookup_cons, lookup_cons, ih]
      by_cases hk : key b = k
      · have hne : key a ≠ k := fun e => hb (hk.trans e.symm)
        simp [hne]
      · simp [hk]

lemma lookup_update_self (h : lookup key l (key a) = some b) :
    lookup key (update key l a) (key a) = some a := by
  rw [lookup_update, if_pos rfl, h]
  rfl

lemma lookup_update_of_ne (h : key a ≠ k) : lookup key (update key l a) k = lookup key l k := by
  rw [lookup_update, if_neg h]

lemma lookup_eq_some_iff (h : (l.map key).Nodup) : lookup key l k = some a ↔ a ∈ l ∧ key a = k := by
  refine ⟨fun hf => ⟨lookup_mem hf, lookup_key hf⟩, ?_⟩
  rintro ⟨ha, rfl⟩
  induction l with
  | nil => cases ha
  | cons b l ih =>
    obtain ⟨hb, hl⟩ := nodup_cons.mp h
    rw [lookup_cons]
    rcases mem_cons.mp ha with rfl | ha
    · exact if_pos rfl
    · have hne : key b ≠ key a := fun e => hb (e ▸ mem_map_of_mem ha)
      rw [if_neg hne]
      exact ih hl ha

/-! ## Tables up to order

Sums, counts and membership over a table follow from these two permutations. -/

lemma perm_erase (h : lookup key l k = some b) : l.Perm (b :: erase key l k) := by
  induction l with
  | nil => cases h
  | cons c l ih =>
    rw [lookup_cons] at h
    rw [erase]
    split at h
    · rename_i hc
      cases h
      rw [if_pos hc]
    · rename_i hc
      rw [if_neg hc]
      exact ((ih h).cons c).trans (List.Perm.swap b c _)

lemma perm_update (h : lookup key l (key a) = some b) :
    (update key l a).Perm (a :: erase key l (key a)) := by
  induction l with
  | nil => cases h
  | cons c l ih =>
    rw [lookup_cons] at h
    rw [update, erase]
    split at h
    · rename_i hc
      rw [if_pos hc, if_pos hc]
    · rename_i hc
      rw [if_neg hc, if_neg hc]
      exact ((ih h).cons c).trans (List.Perm.swap a c _)

lemma of_mem_update (h : b ∈ update key l a) : b = a ∨ b ∈ l := by
  induction l with
  | nil => cases h
  | cons c l ih =>
    rw [update] at h
    split at h
    · exact (mem_cons.mp h).imp_right (mem_cons_of_mem c)
    · rcases mem_cons.mp h with rfl | h
      · exact .inr mem_cons_self
      · exact (ih h).imp_right (mem_cons_of_mem c)

lemma key_ne_of_mem_erase (hn : (l.map key).Nodup) (h : lookup key l k = some b)
    (ha : a ∈ erase key l k) : key a ≠ k := by
  have hp := (perm_erase h).map key
  rw [map_cons, lookup_key h] at hp
  have hn' := hp.nodup hn
  rintro rfl
  exact (nodup_cons.mp hn').1 (mem_map_of_mem ha)

lemma erase_sublist : (erase key l k).Sublist l := by
  induction l with
  | nil => exact .slnil
  | cons b l ih =>
    rw [erase]
    split
    · exact sublist_cons_self b l
    · exact ih.cons_cons b

lemma mem_of_mem_erase (h : a ∈ erase key l k) : a ∈ l :=
  erase_sublist.subset h

lemma erase_of_lookup_none (h : lookup key l k = none) : erase key l k = l := by
  induction l with
  | nil => rfl
  | cons b l ih =>
    rw [lookup_cons] at h
    split at h
    · cases h
    · rename_i hb
      rw [erase, if_neg hb, ih h]

lemma map_update_of {β : Type*} {f : α → β} (h : ∀ b ∈ l, key b = key a → f b = f a) :
    (update key l a).map f = l.map f := by
  induction l with
  | nil => rfl
  | cons b l ih =>
    obtain ⟨hb, hl⟩ := forall_mem_cons.mp h
    rw [update]
    split
    · rename_i hkey
      rw [map_cons, map_cons, hb hkey]
    · rw [map_cons, map_cons, ih hl]

lemma map_update : (update key l a).map key = l.map key :=
  map_update_of fun _ _ h => h

lemma update_eq_self (h : lookup key l (key a) = some a) : update key l a = l := by
  induction l with
  | nil => rfl
  | cons b l ih =>
    rw [lookup_cons] at h
    rw [update]
    split at h
    · cases h
      rw [if_pos rfl]
    · rename_i hb
      rw [if_neg hb, ih h]

lemma lookup_erase_of_ne {k' : κ} (h : k' ≠ k) :
    lookup key (erase key l k') k = lookup key l k := by
  induction l with
  | nil => rfl
  | cons b l ih =>
    rw [erase, lookup_cons]
    by_cases hb : key b = k'
    · have hne : key b ≠ k := fun e => h (hb.symm.trans e)
      rw [if_pos hb, if_neg hne]
    · rw [if_neg hb, lookup_cons, ih]

section

variable (hn : (l.map key).Nodup)
include hn

lemma lookup_erase_self : lookup key (erase key l k) k = none := by
  cases h : lookup key l k with
  | none => rw [erase_of_lookup_none h, h]
  | some b =>
    rw [lookup, find?_eq_none]
    intro a ha
    simpa using key_ne_of_mem_erase hn h ha

lemma not_mem_erase : k ∉ (erase key l k).map key := by
  have hnone := lookup_erase_self (k := k) hn
  rw [lookup] at hnone
  simpa using hnone

lemma nodup_erase : ((erase key l k).map key).Nodup :=
  hn.sublist (erase_sublist.map key)

lemma lookup_perm {l' : List α} (h : l.Perm l') : lookup key l k = lookup key l' k := by
  have hn' : (l'.map key).Nodup := (h.map key).nodup hn
  ext a
  rw [lookup_eq_some_iff hn, lookup_eq_some_iff hn', h.mem_iff]

end

end Keyed
