import Anunix.View.Relocate

/-!
# The registry of resource views is sound

Every pool is laid out right and holds the bytes expected of its aliases, no two pools share a page
or an alias, and the pages of all pools are the pages held (`Views.Sound`). Every call keeps that,
with the bytes expected after it, and a call that fails leaves everything as it was (`Views.Same`).
-/

namespace Anunix.View

open Fallible List

structure Views.Sound (sha256 : List UInt8 → List UInt8) (expected : Expected) (s : Views) :
    Prop where
  laid : ∀ i p, Slots.get s.pools i = some p → p.Laid
  holds : ∀ i p, Slots.get s.pools i = some p → p.Holds sha256 expected s.mem
  pages : Slots.Split Pool.pages (· ∈ s.held) s.pools
  ids : Slots.Split Pool.aliasIds (fun x => (expected x).isSome = true) s.pools
  below : ∀ x, (expected x).isSome = true → x ≤ s.sequence

structure Views.Same (s s' : Views) : Prop where
  pools : s'.pools = s.pools
  sequence : s'.sequence = s.sequence
  held : s'.held = s.held
  mem : ∀ x ∈ s.held, s'.mem x = s.mem x

@[refl]
lemma Views.Same.refl (s : Views) : s.Same s :=
  ⟨rfl, rfl, rfl, fun _ _ => rfl⟩

instance {s : Views} : Covered (s.Same s) :=
  ⟨.refl s⟩

/-! ## Pages -/

section Pages

variable {s s' s'' : Views} {fresh : List Nat}

/-- The state after an allocation: some pages more, none of them in use before. -/
structure Grown (s : Views) (fresh : List Nat) (s' : Views) : Prop where
  pools : s'.pools = s.pools
  sequence : s'.sequence = s.sequence
  nodup : fresh.Nodup
  new : ∀ x ∈ fresh, x ∉ s.held
  held : ∀ x, x ∈ s'.held ↔ x ∈ s.held ∨ x ∈ fresh
  mem : ∀ x, x ∉ fresh → s'.mem x = s.mem x

lemma Grown.nil (s : Views) : Grown s [] s :=
  ⟨rfl, rfl, nodup_nil, forall_mem_nil _, fun x => by simp, fun _ _ => rfl⟩

lemma Grown.cons {x : Nat} (hx : Grown s [x] s') (h : Grown s' fresh s'') :
    Grown s (x :: fresh) s'' := by
  have hheld : x ∈ s'.held := (hx.held x).mpr (Or.inr (mem_singleton.mpr rfl))
  refine ⟨h.pools.trans hx.pools, h.sequence.trans hx.sequence, ?_, ?_, ?_, ?_⟩
  · exact nodup_cons.mpr ⟨fun hmem => h.new x hmem hheld, h.nodup⟩
  · refine forall_mem_cons.mpr ⟨hx.new x mem_cons_self, fun y hy hold => h.new y hy ?_⟩
    exact (hx.held y).mpr (Or.inl hold)
  · intro y
    rw [h.held y, hx.held y, mem_singleton, mem_cons, or_assoc]
  · intro y hy
    rw [mem_cons, not_or] at hy
    rw [h.mem y hy.2, hx.mem y (fun hmem => hy.1 (mem_singleton.mp hmem))]

lemma pageAlloc_ends (grant : Option Nat) (s : Views) :
    Succeeds (pageAlloc grant) s fun r s' => Grown s r.toList s' := by
  unfold Succeeds Ends pageAlloc
  cases grant with
  | none => exact .nil s
  | some x =>
    by_cases hx : x ∈ s.held
    · simp only [hx]
      exact .nil s
    · simp only [hx]
      refine ⟨rfl, rfl, nodup_singleton x, forall_mem_singleton.mpr hx, ?_, ?_⟩
      · intro y
        rw [Finset.mem_insert, Option.toList_some, mem_singleton, or_comm]
      · intro y hy
        exact Function.update_of_ne (fun heq => hy (mem_singleton.mpr heq)) _ _

lemma allocPages_ends (n : Nat) (grants : List (Option Nat)) (s : Views) :
    Succeeds (allocPages n grants) s fun r s' => Grown s r.1 s' ∧
    (r.2 = true → r.1.length = n) := by
  induction n generalizing grants s with
  | zero => exact ⟨.nil s, fun _ => rfl⟩
  | succ n ih =>
    cases grants with
    | nil => exact ⟨.nil s, Bool.noConfusion⟩
    | cons grant grants =>
      refine (pageAlloc_ends grant s).next fun r s1 hr => ?_
      cases r with
      | none => exact ⟨hr, Bool.noConfusion⟩
      | some x =>
        refine (ih grants s1).next fun r s2 hrest => ?_
        exact ⟨hr.cons hrest.1, fun hok => congrArg Nat.succ (hrest.2 hok)⟩

lemma mem_freePages (ps : List Nat) {x : Nat} (h : x ∉ ps) : (s.freePages ps).mem x = s.mem x := by
  induction ps generalizing s with
  | nil => rfl
  | cons p ps ih =>
    rw [mem_cons, not_or] at h
    change ((s.freePage p).freePages ps).mem x = s.mem x
    rw [ih h.2]
    exact Function.update_of_ne h.1 _ _

lemma held_freePages (ps : List Nat) (x : Nat) :
    x ∈ (s.freePages ps).held ↔ x ∈ s.held ∧ x ∉ ps := by
  induction ps generalizing s with
  | nil => exact ⟨fun h => ⟨h, not_mem_nil⟩, fun h => h.1⟩
  | cons p ps ih =>
    change x ∈ ((s.freePage p).freePages ps).held ↔ _
    rw [ih, mem_cons, not_or]
    change x ∈ s.held.erase p ∧ x ∉ ps ↔ _
    rw [Finset.mem_erase]
    exact ⟨fun h => ⟨h.1.2, h.1.1, h.2⟩, fun h => ⟨⟨h.2.1, h.1⟩, h.2.2⟩⟩

lemma pools_freePages (ps : List Nat) : (s.freePages ps).pools = s.pools := by
  induction ps generalizing s with
  | nil => rfl
  | cons p ps ih => exact ih

lemma sequence_freePages (ps : List Nat) : (s.freePages ps).sequence = s.sequence := by
  induction ps generalizing s with
  | nil => rfl
  | cons p ps ih => exact ih

lemma Grown.same_freePages (h : Grown s fresh s') : s.Same (s'.freePages fresh) := by
  refine ⟨(pools_freePages fresh).trans h.pools, (sequence_freePages fresh).trans h.sequence, ?_,
    ?_⟩
  · ext x
    rw [held_freePages, h.held x]
    constructor
    · rintro ⟨hold | hnew, hout⟩
      · exact hold
      · exact absurd hnew hout
    · intro hold
      exact ⟨Or.inl hold, fun hmem => h.new x hmem hold⟩
  · intro x hx
    have hout : x ∉ fresh := fun hmem => h.new x hmem hx
    rw [mem_freePages fresh hout, h.mem x hout]

/-- A call that needs pages gets all of them, or gives back those it got and fails. -/
lemma allocated {n : Nat} {grants : List (Option Nat)} {e : Err} {α : Type}
    {f : List Nat × Bool → Prog α} {k : List Nat → Prog α} {Q : α → Views → Prop}
    (hf : ∀ fresh ok, f (fresh, ok) = giveBackIf (!ok) fresh e >>= fun _ => k fresh)
    (h : ∀ fresh s', Grown s fresh s' → fresh.length = n → Ends (k fresh) s' Q fun _ => s.Same) :
    Ends (allocPages n grants >>= f) s Q fun _ => s.Same := by
  refine (allocPages_ends n grants s).next fun ⟨fresh, ok⟩ s1 ⟨hg, hcount⟩ => ?_
  rw [hf]
  cases ok with
  | false => exact hg.same_freePages
  | true => exact h fresh s1 hg (hcount rfl)

end Pages

/-! ## One pool for another -/

section Replace

variable {sha256 : List UInt8 → List UInt8} {expected expected' : Expected} {s s' : Views}
  {slot : Nat} {o o' : Option Pool}

section

variable (h : s.Sound sha256 expected)
include h

lemma Views.Sound.of_same (hsame : s.Same s') : s'.Sound sha256 expected := by
  refine ⟨?_, ?_, ?_, ?_, ?_⟩
  · rw [hsame.pools]
    exact h.laid
  · rw [hsame.pools]
    intro i p hp
    refine (h.holds i p hp).of_agree (h.laid i p hp) (fun k _ => ?_) fun _ _ => rfl
    rw [Pool.flat_congr fun x hx => hsame.mem x (h.pages.mem hp hx)]
  · rw [hsame.pools, hsame.held]
    exact h.pages
  · rw [hsame.pools]
    exact h.ids
  · rw [hsame.sequence]
    exact h.below

/-- The pools in other slots hold what they held, when their pages and their aliases are left
alone. -/
lemma Views.Sound.others (ho : Slots.get s.pools slot = o)
    {mem' : Nat → Nat → UInt8} (hmem : ∀ x ∈ s.held, x ∉ o.elim [] Pool.pages → mem' x = s.mem x)
    (hexpected : ∀ x, (expected x).isSome = true → x ∉ o.elim [] Pool.aliasIds →
      expected' x = expected x)
    {i : Nat} {p : Pool} (hi : i ≠ slot) (hp : Slots.get s.pools i = some p) :
    p.Holds sha256 expected' mem' := by
  have hout : ∀ {g : Pool → List Nat} {X : Nat → Prop}, Slots.Split g X s.pools → ∀ x ∈ g p,
      x ∉ o.elim [] g := by
    intro g X hsplit x hx
    cases o with
    | none => exact not_mem_nil
    | some q => exact hsplit.apart i slot p q hi hp ho x hx
  refine (h.holds i p hp).of_agree (h.laid i p hp) (fun k _ => ?_) fun x hx => ?_
  · rw [Pool.flat_congr fun x hx => hmem x (h.pages.mem hp hx) (hout h.pages x hx)]
  · exact hexpected x (h.ids.mem hp hx) (hout h.ids x hx)

/-- One slot is written; the other pools hold what is expected of them. -/
lemma Views.Sound.replace (hpools : s'.pools = s.pools.set slot o')
    (hnew : ∀ p, o' = some p → p.Laid ∧ p.Holds sha256 expected' s'.mem)
    (hother : ∀ i p, i ≠ slot → Slots.get s.pools i = some p → p.Holds sha256 expected' s'.mem)
    (hpages : Slots.Split Pool.pages (· ∈ s'.held) (s.pools.set slot o'))
    (hids : Slots.Split Pool.aliasIds (fun x => (expected' x).isSome = true) (s.pools.set slot o'))
    (hbelow : ∀ x, (expected' x).isSome = true → x ≤ s'.sequence) : s'.Sound sha256 expected' := by
  have hall : ∀ i p, Slots.get s'.pools i = some p → p.Laid ∧ p.Holds sha256 expected' s'.mem := by
    intro i p hp
    rw [hpools] at hp
    rcases Slots.of_get_set hp with ⟨rfl, ho⟩ | ⟨hi, hp⟩
    · exact hnew p ho
    · exact ⟨h.laid i p hp, hother i p hi hp⟩
  refine ⟨fun i p hp => (hall i p hp).1, fun i p hp => (hall i p hp).2, ?_, ?_, hbelow⟩
  · rw [hpools]
    exact hpages
  · rw [hpools]
    exact hids

end

end Replace

end Anunix.View
