import Mathlib

/-!
# Arrays of slots

A fixed array whose entries are free or hold a record, searched from the front for a free entry or
for the first record with a property. A table is the list of its entries, `none` where a slot is
free; `total f` adds up a number over the records in it.
-/

namespace Slots
open List

variable {α : Type*}

def get (t : List (Option α)) (i : Nat) : Option α :=
  t[i]?.join

def firstFree (t : List (Option α)) : Option Nat :=
  t.findIdx? Option.isNone

/-- The first record with a property, and its slot. -/
def firstWith (t : List (Option α)) (p : α → Bool) : Option (Nat × α) :=
  (t.findIdx? (Option.any p)).bind fun i => (get t i).map fun a => (i, a)

def total (f : α → Nat) (t : List (Option α)) : Nat :=
  (t.map fun o => o.elim 0 f).sum

section Lemmas

variable {t : List (Option α)} {i j : Nat} {a : α} {o : Option α} {p : α → Bool} {f : α → Nat}
  {l : List α} {n : Nat} {β : Type*}

lemma get_eq_some : get t i = some a ↔ t[i]? = some (some a) := by
  rw [get, Option.join_eq_some_iff]

lemma lt_of_get (h : get t i = some a) : i < t.length :=
  (List.getElem?_eq_some_iff.mp (get_eq_some.mp h)).1

lemma get_set_self (h : i < t.length) : get (t.set i o) i = o := by
  rw [get, getElem?_set_self h, Option.join_some]

lemma get_set_of_ne (h : j ≠ i) : get (t.set i o) j = get t j := by
  rw [get, get, getElem?_set_ne fun e => h e.symm]

/-- What a table holds after a write is what was written, or stands in another slot. -/
lemma of_get_set (h : get (t.set i o) j = some a) :
    (j = i ∧ o = some a) ∨ (j ≠ i ∧ get t j = some a) := by
  by_cases hj : j = i
  · subst hj
    have hlt := lt_of_get h
    rw [length_set] at hlt
    exact .inl ⟨rfl, (get_set_self hlt).symm.trans h⟩
  · exact .inr ⟨hj, (get_set_of_ne hj).symm.trans h⟩

lemma ne_of_get_set_none (h : get (t.set i none) j = some a) : j ≠ i ∧ get t j = some a :=
  (of_get_set h).resolve_left fun ⟨_, hnone⟩ => nomatch hnone

lemma firstFree_eq_some (h : firstFree t = some i) : i < t.length ∧ get t i = none := by
  obtain ⟨hlt, hnone, -⟩ := findIdx?_eq_some_iff_getElem.mp h
  refine ⟨hlt, ?_⟩
  rw [get, getElem?_eq_getElem hlt]
  exact Option.isNone_iff_eq_none.mp hnone

lemma firstWith_eq_some (h : firstWith t p = some (i, a)) : get t i = some a ∧ p a = true := by
  obtain ⟨j, hj, h⟩ := Option.bind_eq_some_iff.mp h
  obtain ⟨b, hb, he⟩ := Option.map_eq_some_iff.mp h
  obtain ⟨rfl, rfl⟩ := Prod.mk.inj he
  obtain ⟨hlt, hany, -⟩ := findIdx?_eq_some_iff_getElem.mp hj
  refine ⟨hb, ?_⟩
  have hat := get_eq_some.mp hb
  rw [getElem?_eq_getElem hlt, Option.some.injEq] at hat
  rw [hat] at hany
  exact hany

lemma exists_firstWith (h : get t i = some a) (hp : p a = true) :
    ∃ j b, firstWith t p = some (j, b) := by
  have hmem : some a ∈ t := mem_of_getElem? (get_eq_some.mp h)
  cases hfind : t.findIdx? (Option.any p) with
  | none =>
    have hnone := findIdx?_eq_none_iff.mp hfind (some a) hmem
    rw [Option.any_some, hp] at hnone
    cases hnone
  | some j =>
    obtain ⟨hlt, hany, -⟩ := findIdx?_eq_some_iff_getElem.mp hfind
    obtain ⟨b, hb, -⟩ := (Option.any_eq_true p _).mp hany
    have hget : get t j = some b := get_eq_some.mpr (by rw [getElem?_eq_getElem hlt, hb])
    exact ⟨j, b, by rw [firstWith, hfind, Option.bind_some, hget, Option.map_some]⟩

lemma before_firstWith (h : firstWith t p = some (i, a)) (j : Nat) (b : α) (hj : j < i)
    (hget : get t j = some b) : p b = false := by
  obtain ⟨k, hk, h⟩ := Option.bind_eq_some_iff.mp h
  obtain ⟨c, hc, he⟩ := Option.map_eq_some_iff.mp h
  obtain ⟨rfl, -⟩ := Prod.mk.inj he
  obtain ⟨hk, -, hbefore⟩ := findIdx?_eq_some_iff_getElem.mp hk
  have hb := hbefore j hj
  obtain ⟨hlt, hat⟩ := List.getElem?_eq_some_iff.mp (get_eq_some.mp hget)
  rw [hat, Option.any_some] at hb
  exact eq_false_of_ne_true hb

/-- A record with the property, in front of every other one, is the first. -/
lemma firstWith_set (hi : i < t.length) (hbefore : ∀ j b, j < i → get t j = some b → p b = false)
    (ha : p a = true) : firstWith (t.set i (some a)) p = some (i, a) := by
  have hidx : (t.set i (some a)).findIdx? (Option.any p) = some i := by
    refine findIdx?_eq_some_iff_getElem.mpr ⟨by rwa [length_set], by simpa using ha, fun j hj => ?_⟩
    rw [getElem_set_of_ne (by omega)]
    cases hat : t[j] with
    | none => simp
    | some b =>
      have hget : get t j = some b :=
        get_eq_some.mpr (List.getElem?_eq_some_iff.mpr ⟨by omega, hat⟩)
      simp [hbefore j b hj hget]
  rw [firstWith, hidx, Option.bind_some, get_set_self hi, Option.map_some]

lemma get_map {g : α → β} : get (t.map (Option.map g)) i = (get t i).map g := by
  rw [get, get, getElem?_map]
  cases t[i]? <;> rfl

lemma get_replicate_none (n : Nat) : get (replicate n (none : Option α)) i = none := by
  rw [get, getElem?_replicate]
  split <;> rfl

lemma total_map {g : α → β} {f : β → Nat} : total f (t.map (Option.map g)) = total (f ∘ g) t := by
  rw [total, map_map]
  congr 1
  refine map_congr_left fun o _ => ?_
  cases o <;> rfl

lemma total_replicate_none (n : Nat) : total f (replicate n none) = 0 := by
  rw [total, map_replicate, sum_replicate]
  exact Nat.mul_zero n

lemma total_set (h : i < t.length) :
    total f (t.set i o) + (get t i).elim 0 f = total f t + o.elim 0 f := by
  induction t generalizing i with
  | nil => exact absurd h (Nat.not_lt_zero i)
  | cons b t ih =>
    cases i with
    | zero =>
      simp only [set_cons_zero, total, map_cons, sum_cons, get, getElem?_cons_zero,
        Option.join_some]
      omega
    | succ i =>
      have hi := ih (Nat.lt_of_succ_lt_succ h)
      simp only [total, get] at hi
      simp only [set_cons_succ, total, map_cons, sum_cons, get, getElem?_cons_succ]
      omega

lemma total_eq_zero (h : ∀ i a, get t i = some a → f a = 0) : total f t = 0 := by
  rw [total, List.sum_eq_zero_iff_forall_eq_nat]
  intro n hn
  obtain ⟨o, ho, rfl⟩ := List.mem_map.mp hn
  cases o with
  | none => rfl
  | some a =>
    obtain ⟨i, hi⟩ := List.getElem?_of_mem ho
    exact h i a (get_eq_some.mpr hi)

lemma le_total (h : get t i = some a) : f a ≤ total f t := by
  have hset := total_set (o := none) (f := f) (lt_of_get h)
  rw [h] at hset
  simp only [Option.elim_some, Option.elim_none] at hset
  omega

lemma mem_reduceOption : a ∈ t.reduceOption ↔ ∃ i, get t i = some a := by
  rw [reduceOption_mem_iff, mem_iff_getElem?]
  simp only [get_eq_some]

lemma get_cons_succ : get (o :: t) (i + 1) = get t i := by
  rw [get, get, getElem?_cons_succ]

lemma nodup_reduceOption {κ : Type*} {key : α → κ}
    (h : ∀ i j a b, get t i = some a → get t j = some b → key a = key b → i = j) :
    (t.reduceOption.map key).Nodup := by
  induction t with
  | nil => exact nodup_nil
  | cons o t ih =>
    have hrest : (t.reduceOption.map key).Nodup := by
      apply ih
      intro i j a b hi hj hab
      have hsucc :=
        h (i + 1) (j + 1) a b (by rw [get_cons_succ, hi]) (by rw [get_cons_succ, hj]) hab
      exact Nat.succ.inj hsucc
    cases o with
    | none => exact hrest
    | some a =>
      rw [reduceOption_cons_of_some, map_cons, nodup_cons]
      refine ⟨?_, hrest⟩
      intro hmem
      obtain ⟨b, hb, hkey⟩ := List.mem_map.mp hmem
      obtain ⟨j, hj⟩ := mem_reduceOption.mp hb
      have hzero := h 0 (j + 1) a b rfl (by rw [get_cons_succ, hj]) hkey.symm
      cases hzero

lemma perm_fill (hlt : i < t.length) (h : get t i = none) :
    (t.set i (some a)).reduceOption.Perm (a :: t.reduceOption) := by
  induction t generalizing i with
  | nil => exact absurd hlt (Nat.not_lt_zero i)
  | cons o t ih =>
    cases i with
    | zero =>
      have ho : o = none := h
      rw [ho, set_cons_zero, reduceOption_cons_of_some, reduceOption_cons_of_none]
    | succ i =>
      have hrest := ih (Nat.lt_of_succ_lt_succ hlt) h
      cases o with
      | none => exact hrest
      | some b =>
        exact (hrest.cons b).trans (List.Perm.swap a b _)

lemma perm_clear (h : get t i = some a) :
    t.reduceOption.Perm (a :: (t.set i none).reduceOption) := by
  have hlt := lt_of_get h
  have hback : (t.set i none).set i (some a) = t := by
    rw [set_set]
    obtain ⟨hi, hat⟩ := List.getElem?_eq_some_iff.mp (get_eq_some.mp h)
    rw [← hat, set_getElem_self]
  have hperm := perm_fill (a := a) (by rwa [length_set]) (get_set_self hlt)
  rwa [hback] at hperm

lemma length_reduceOption_add : t.reduceOption.length + t.countP Option.isNone = t.length := by
  rw [countP_eq_length_filter]
  exact length_eq_reduceOption_length_add_filter_none.symm

lemma exists_firstFree (h : 0 < t.countP Option.isNone) : ∃ i, firstFree t = some i := by
  obtain ⟨o, ho, hnone⟩ := countP_pos_iff.mp h
  cases hfind : firstFree t with
  | none =>
    rw [findIdx?_eq_none_iff.mp hfind o ho] at hnone
    cases hnone
  | some i => exact ⟨i, rfl⟩

lemma countP_pos_of_firstFree (h : firstFree t = some i) : 0 < t.countP Option.isNone := by
  obtain ⟨hlt, hnone, -⟩ := findIdx?_eq_some_iff_getElem.mp h
  exact countP_pos_iff.mpr ⟨t[i], getElem_mem hlt, hnone⟩

lemma reduceOption_map_filter {p : α → Bool} :
    (t.map (Option.filter p)).reduceOption = t.reduceOption.filter p := by
  unfold reduceOption
  rw [filterMap_map, filter_filterMap]
  rfl

/-! ## Tables that split a set

Every record of the table has a list of things, no two records share one, and together they are the
things with a property. -/

section Split

variable {β : Type*} {g : α → List β} {X Y : β → Prop} {o' : Option α}

structure Split (g : α → List β) (X : β → Prop) (t : List (Option α)) : Prop where
  nodup : ∀ i a, get t i = some a → (g a).Nodup
  apart : ∀ i j a b, i ≠ j → get t i = some a → get t j = some b → ∀ x ∈ g a, x ∉ g b
  covers : ∀ x, X x ↔ ∃ i a, get t i = some a ∧ x ∈ g a

section

variable (h : Split g X t) {b : α}
include h

lemma Split.mem (ha : get t i = some a) {x : β} (hx : x ∈ g a) : X x :=
  (h.covers x).mpr ⟨i, a, ha, hx⟩

/-- Writing a slot exchanges its things for others that no record has. -/
lemma Split.set (hlt : i < t.length) (ho : get t i = o) (hnodup : (o'.elim [] g).Nodup)
    (hnew : ∀ x ∈ o'.elim [] g, x ∈ o.elim [] g ∨ ¬ X x)
    (hY : ∀ x, Y x ↔ X x ∧ x ∉ o.elim [] g ∨ x ∈ o'.elim [] g) : Split g Y (t.set i o') := by
  -- a thing of another slot is not one of the slot that is written
  have hother : ∀ j b, j ≠ i → get t j = some b → ∀ x ∈ g b, x ∉ o.elim [] g ∧
      x ∉ o'.elim [] g := by
    intro j b hj hb x hx
    have hout : x ∉ o.elim [] g := by
      cases o with
      | none => exact not_mem_nil
      | some a => exact h.apart j i b a hj hb ho x hx
    refine ⟨hout, fun hx' => ?_⟩
    cases hnew x hx' with
    | inl hold => exact hout hold
    | inr hfree => exact hfree (h.mem hb hx)
  constructor
  · intro j b hb
    rcases of_get_set hb with ⟨rfl, rfl⟩ | ⟨hj, hb⟩
    · exact hnodup
    · exact h.nodup j b hb
  · intro j k b c hjk hb hc x hx hx'
    rcases of_get_set hb with ⟨rfl, rfl⟩ | ⟨hj, hb'⟩
    · rw [get_set_of_ne (Ne.symm hjk)] at hc
      exact (hother k c (Ne.symm hjk) hc x hx').2 hx
    · rcases of_get_set hc with ⟨rfl, rfl⟩ | ⟨-, hc'⟩
      · exact (hother j b hj hb' x hx).2 hx'
      · exact h.apart j k b c hjk hb' hc' x hx hx'
  · intro x
    rw [hY x]
    constructor
    · rintro (⟨hX, hout⟩ | hx)
      · obtain ⟨j, b, hb, hx⟩ := (h.covers x).mp hX
        have hj : j ≠ i := by
          rintro rfl
          rw [hb] at ho
          subst ho
          exact hout hx
        exact ⟨j, b, by rw [get_set_of_ne hj, hb], hx⟩
      · cases o' with
        | none => cases hx
        | some a => exact ⟨i, a, get_set_self hlt, hx⟩
    · rintro ⟨j, b, hb, hx⟩
      rcases of_get_set hb with ⟨rfl, rfl⟩ | ⟨hj, hb⟩
      · exact Or.inr hx
      · exact Or.inl ⟨h.mem hb hx, (hother j b hj hb x hx).1⟩

lemma Split.clear (hlt : i < t.length) (ho : get t i = o) (hnil : o'.elim [] g = [])
    (hY : ∀ x, Y x ↔ X x ∧ x ∉ o.elim [] g) : Split g Y (t.set i o') := by
  refine h.set hlt ho ?_ ?_ fun x => ?_
  · rw [hnil]
    exact nodup_nil
  · rw [hnil]
    nofun
  · rw [hnil, hY x]
    simp

lemma Split.grow {new : List β} (ha : get t i = some a)
    (hperm : (g b).Perm (new ++ g a)) (hnodup : new.Nodup) (hnew : ∀ x ∈ new, ¬ X x)
    (hY : ∀ x, Y x ↔ X x ∨ x ∈ new) : Split g Y (t.set i (some b)) := by
  refine h.set (lt_of_get ha) ha ?_ ?_ ?_
  · change (g b).Nodup
    rw [hperm.nodup_iff]
    exact hnodup.append (h.nodup i a ha) fun x hx hx' => hnew x hx (h.mem ha hx')
  · intro x hx
    cases mem_append.mp (hperm.mem_iff.mp hx) with
    | inl hx' => exact Or.inr (hnew x hx')
    | inr hx' => exact Or.inl hx'
  · intro x
    change Y x ↔ X x ∧ x ∉ g a ∨ x ∈ g b
    rw [hY x, hperm.mem_iff, mem_append]
    constructor
    · rintro (hX | hx)
      · by_cases hx : x ∈ g a
        · exact Or.inr (Or.inr hx)
        · exact Or.inl ⟨hX, hx⟩
      · exact Or.inr (Or.inl hx)
    · rintro (⟨hX, -⟩ | hx | hx)
      · exact Or.inl hX
      · exact Or.inr hx
      · exact Or.inl (h.mem ha hx)

lemma Split.shrink {gone : List β} (ha : get t i = some a)
    (hperm : (g a).Perm (gone ++ g b)) (hY : ∀ x, Y x ↔ X x ∧ x ∉ gone) :
    Split g Y (t.set i (some b)) := by
  have hnodup := hperm.nodup_iff.mp (h.nodup i a ha)
  have hdisjoint := disjoint_of_nodup_append hnodup
  refine h.set (lt_of_get ha) ha (List.Nodup.of_append_right hnodup) ?_ ?_
  · intro x hx
    exact Or.inl (hperm.mem_iff.mpr (mem_append_right gone hx))
  · intro x
    rw [hY x]
    constructor
    · rintro ⟨hX, hout⟩
      by_cases hx : x ∈ g b
      · exact Or.inr hx
      · refine Or.inl ⟨hX, fun hmem => ?_⟩
        cases mem_append.mp (hperm.mem_iff.mp hmem) with
        | inl hgone => exact hout hgone
        | inr hleft => exact hx hleft
    · rintro (⟨hX, hout⟩ | hx)
      · exact ⟨hX, fun hgone => hout (hperm.mem_iff.mpr (mem_append_left _ hgone))⟩
      · exact ⟨h.mem ha (hperm.mem_iff.mpr (mem_append_right gone hx)),
          fun hgone => hdisjoint hgone hx⟩

lemma Split.keep (ha : get t i = some a) (hsame : g b = g a) : Split g X (t.set i (some b)) :=
  have hperm : (g a).Perm ([] ++ g b) := by rw [hsame, nil_append]
  h.shrink ha hperm fun x => by simp

end

end Split

/-! ## Packed tables -/

/-- A table of `n` slots with the records in its first slots. -/
def packed (l : List α) (n : Nat) : List (Option α) :=
  l.map some ++ replicate (n - l.length) none

lemma length_packed (h : l.length ≤ n) : (packed l n).length = n := by
  simp only [packed, length_append, length_map, length_replicate]
  omega

lemma get_packed (l : List α) (n : Nat) : get (packed l n) i = l[i]? := by
  rw [get, packed]
  rcases Nat.lt_or_ge i l.length with h | h
  · rw [getElem?_append_left (by simpa using h), getElem?_map]
    cases l[i]? <;> rfl
  · rw [getElem?_append_right (by simpa using h), getElem?_eq_none h]
    exact get_replicate_none _

lemma firstFree_packed (h : l.length < n) :
    firstFree (packed l n) = some l.length := by
  obtain ⟨d, hd⟩ : ∃ d, n - l.length = d + 1 := ⟨n - l.length - 1, by omega⟩
  rw [firstFree, packed, hd, replicate_succ, findIdx?_append]
  have hnone : (l.map some).findIdx? Option.isNone = none := by
    rw [findIdx?_eq_none_iff]
    intro o ho
    obtain ⟨a, -, rfl⟩ := List.mem_map.mp ho
    rfl
  rw [hnone, findIdx?_cons]
  simp

lemma set_packed (h : l.length < n) (a : α) :
    (packed l n).set l.length (some a) = packed (l ++ [a]) n := by
  obtain ⟨d, hd⟩ : ∃ d, n - l.length = d + 1 := ⟨n - l.length - 1, by omega⟩
  have hd' : n - (l ++ [a]).length = d := by
    rw [length_append, length_singleton]
    omega
  rw [packed, packed, hd, hd', set_append_right _ _ (Nat.le_of_eq (length_map _)), length_map,
    Nat.sub_self, map_append, append_assoc]
  rfl

end Lemmas

/-! ## Related tables -/

def Alike {β : Type*} (R : α → β → Prop) (t : List (Option α)) (u : List (Option β)) : Prop :=
  List.Forall₂ (Option.Rel R) t u

section Related

variable {β : Type*} {R : α → β → Prop} {t : List (Option α)} {u : List (Option β)}

section

variable (h : Alike R t u)
include h

lemma Alike.findIdx? {p : Option α → Bool} {q : Option β → Bool}
    (hpq : ∀ o o', Option.Rel R o o' → p o = q o') : t.findIdx? p = u.findIdx? q := by
  induction h with
  | nil => rfl
  | cons ho _ ih => rw [findIdx?_cons, findIdx?_cons, hpq _ _ ho, ih]

lemma Alike.firstFree : firstFree t = firstFree u := by
  apply h.findIdx?
  intro o o' ho
  cases ho <;> rfl

lemma Alike.get (i : Nat) : Option.Rel R (get t i) (get u i) := by
  induction h generalizing i with
  | nil => exact .none
  | cons ho _ ih =>
    cases i with
    | zero => exact ho
    | succ i => exact ih i

lemma Alike.firstWith {p : α → Bool} {q : β → Bool} (hpq : ∀ a b, R a b → p a = q b) :
    Option.Rel (fun x y => x.1 = y.1 ∧ R x.2 y.2) (firstWith t p) (firstWith u q) := by
  have hidx : t.findIdx? (Option.any p) = u.findIdx? (Option.any q) := by
    apply h.findIdx?
    intro o o' ho
    cases ho with
    | none => rfl
    | some hab => exact hpq _ _ hab
  rw [Slots.firstWith, Slots.firstWith, hidx]
  cases u.findIdx? (Option.any q) with
  | none => exact .none
  | some i =>
    have hget := h.get i
    rw [Option.bind_some, Option.bind_some]
    generalize Slots.get t i = o at hget ⊢
    generalize Slots.get u i = o' at hget ⊢
    cases hget with
    | none => exact .none
    | some hab => exact .some ⟨rfl, hab⟩

lemma Alike.set (i : Nat) {o : Option α} {o' : Option β} (ho : Option.Rel R o o') :
    Alike R (t.set i o) (u.set i o') := by
  induction h generalizing i with
  | nil => exact .nil
  | cons ho' hrest ih =>
    cases i with
    | zero => exact .cons ho hrest
    | succ i => exact .cons ho' (ih i)

lemma Alike.reduceOption : List.Forall₂ R t.reduceOption u.reduceOption := by
  induction h with
  | nil => exact .nil
  | cons ho _ ih =>
    cases ho with
    | none => exact ih
    | some hab => exact .cons hab ih

end

end Related

end Slots
