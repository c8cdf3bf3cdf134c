import Anunix.View.Sound

/-!
# The calls on resource views

One lemma per call: from a sound state it ends in a sound state, with the bytes expected then, or
fails and leaves everything as it was.
-/

namespace Anunix.View

open Fallible Slots Function
open List hiding get

variable {sha256 : List UInt8 → List UInt8} {expected expected' : Expected} {s : Views}

/-! ## Finding aliases -/

section Lookup

variable {id i j : Nat} {p : Pool} {a : Alias}

lemma Views.findAlias_eq (h : s.findAlias id = some (i, p, j, a)) :
    get s.pools i = some p ∧ get p.aliases j = some a ∧ a.id = id := by
  obtain ⟨⟨i', p'⟩, hpool, h⟩ := Option.bind_eq_some_iff.mp h
  obtain ⟨⟨j', a'⟩, halias, heq⟩ := Option.map_eq_some_iff.mp h
  cases heq
  obtain ⟨ha, hid⟩ := firstWith_eq_some halias
  exact ⟨(firstWith_eq_some hpool).1, ha, of_decide_eq_true hid⟩

lemma Views.exists_findAlias (hp : get s.pools i = some p) (ha : a ∈ p.aliases.reduceOption)
    (hid : a.id = id) : ∃ i p j a, s.findAlias id = some (i, p, j, a) := by
  obtain ⟨j, hj⟩ := mem_reduceOption.mp ha
  obtain ⟨k, b, hb⟩ : ∃ k b, p.findAlias id = some (k, b) :=
    exists_firstWith hj (decide_eq_true hid)
  have hsome : (p.findAlias id).isSome = true := by
    rw [hb]
    rfl
  obtain ⟨i', p', hfind⟩ := exists_firstWith (p := fun p : Pool => (p.findAlias id).isSome) hp hsome
  obtain ⟨-, hsome'⟩ := firstWith_eq_some hfind
  obtain ⟨⟨j', a'⟩, ha'⟩ := Option.isSome_iff_exists.mp hsome'
  refine ⟨i', p', j', a', ?_⟩
  rw [Views.findAlias, hfind, Option.bind_some]
  dsimp only
  rw [ha', Option.map_some]

/-- The record of an alias, with the bytes expected of the alias. -/
lemma Views.Sound.record (h : s.Sound sha256 expected) (hp : get s.pools i = some p)
    (ha : get p.aliases j = some a) :
    ∃ r, get p.records a.record = some r ∧ p.record a.record = r ∧ r.refs ≠ 0 ∧
      expected a.id = some (p.bytes s.mem r) := by
  have hmem : a ∈ p.aliases.reduceOption := mem_reduceOption.mpr ⟨j, ha⟩
  obtain ⟨r, hr, hb⟩ := (h.holds i p hp).aliased a hmem
  refine ⟨r, hr, ?_, (h.laid i p hp).refs_ne_zero hmem hr, hb⟩
  rw [Pool.record, hr, Option.getD_some]

end Lookup

/-! ## Pools -/

lemma pagesFor_zero : pagesFor 0 = 0 := by
  decide

lemma laid_new (id : Nat) (owner : Uuid) (capacity : Nat) :
    Pool.Laid ⟨id, owner, capacity, 0, [], replicate recordsMax none,
      replicate aliasesMax none⟩ := by
  have hnone : ∀ i r, get (replicate recordsMax (none : Option Record)) i ≠ some r := by
    intro i r hr
    rw [get_replicate_none] at hr
    cases hr
  refine ⟨pagesFor_zero.symm, Nat.zero_le _, ?_, ?_, ?_, ?_⟩
  · intro i r hr
    exact absurd hr (hnone i r)
  · intro i r hr
    exact absurd hr (hnone i r)
  · intro i j r q _ hr
    exact absurd hr (hnone i r)
  · exact Nat.le_of_eq (total_replicate_none recordsMax)

lemma poolCreate_ends (h : s.Sound sha256 expected) (c : Caller) (owner : Uuid) (capacity : Nat)
    (known memory : Bool) :
    Ends (poolCreate c owner capacity known memory) s
    (fun _ s' => s'.Sound sha256 expected) fun _ s' => s.Same s' := by
  refine .guard fun _ => ?_
  refine .guard fun _ => ?_
  refine .guard fun _ => ?_
  refine .guard fun _ => ?_
  refine .guard fun _ => ?_
  refine .fetch fun slot hslot => ?_
  refine .guard fun _ => ?_
  obtain ⟨hlt, hfree⟩ := firstFree_eq_some hslot
  let pool : Pool := ⟨s.sequence + 1, owner, capacity, 0, [], replicate recordsMax none,
    replicate aliasesMax none⟩
  have hids : pool.aliasIds = [] := by
    rfl
  refine h.replace rfl ?_ ?_ ?_ ?_ fun x hx => Nat.le_succ_of_le (h.below x hx)
  · intro p hp
    cases hp
    refine ⟨laid_new _ _ _, ?_, ?_⟩
    · intro i r hr
      rw [get_replicate_none] at hr
      cases hr
    · intro a ha
      cases ha
  · intro i p hi hp
    exact h.holds i p hp
  · exact h.pages.clear hlt hfree rfl fun x => ⟨fun hx => ⟨hx, not_mem_nil⟩, And.left⟩
  · exact h.ids.clear hlt hfree hids fun x => ⟨fun hx => ⟨hx, not_mem_nil⟩, And.left⟩

lemma poolDestroy_ends (h : s.Sound sha256 expected) (c : Caller) (id : Nat) :
    Ends (poolDestroy c id) s (fun _ s' => s'.Sound sha256 expected) fun _ s' => s.Same s' := by
  refine .guard fun _ => ?_
  refine .fetch fun ⟨slot, pool⟩ hfind => ?_
  refine .guard fun hused => ?_
  obtain ⟨hp, -⟩ := firstWith_eq_some hfind
  have hlt := lt_of_get hp
  -- no slot of its aliases is used
  have hids : pool.aliasIds = [] := by
    rw [Pool.aliasIds, map_eq_nil_iff, eq_nil_iff_forall_not_mem]
    intro a ha
    obtain ⟨j, hj⟩ := mem_reduceOption.mp ha
    have hmem : some a ∈ pool.aliases := mem_of_getElem? (get_eq_some.mp hj)
    exact absurd rfl (any_eq_false.mp hused (some a) hmem)
  refine h.replace rfl ?_ ?_ ?_ ?_ ?_
  · intro p hnone
    cases hnone
  · intro i p hi hp'
    exact h.others hp (fun x _ => mem_freePages pool.pages) (fun _ _ _ => rfl) hi hp'
  · exact h.pages.clear hlt hp rfl (held_freePages pool.pages)
  · refine h.ids.clear hlt hp rfl fun x => ?_
    rw [Option.elim_some, hids]
    exact ⟨fun hx => ⟨hx, not_mem_nil⟩, And.left⟩
  · intro x hx
    rw [sequence_freePages]
    exact h.below x hx

/-! ## Aliases -/

section Aliases

variable {slot j : Nat} {pool : Pool} {a : Alias}

lemma viewClone_ends (h : s.Sound sha256 expected) (c : Caller) (id : Nat) : Ends (viewClone c id) s
      (fun n s' => s.sequence < n ∧ s'.Sound sha256 (update expected n (expected id)))
      fun _ s' => s.Same s' := by
  refine .fetch fun ⟨slot, pool, j, a⟩ hfind => ?_
  refine .lift fun _ _ => ?_
  refine .fetch fun free hfree => ?_
  refine .guard fun _ => ?_
  obtain ⟨hp, ha, rfl⟩ := Views.findAlias_eq hfind
  obtain ⟨_, hr, rfl, hlive, hbytes⟩ := h.record hp ha
  obtain ⟨hlt, hnone⟩ := firstFree_eq_some hfree
  have hlaid := h.laid slot pool hp
  -- the aliases with the new one
  let b : Alias := ⟨s.sequence + 1, a.record⟩
  have hperm :
      (pool.aliases.set free (some b)).reduceOption.Perm (b :: pool.aliases.reduceOption) :=
    perm_fill hlt hnone
  have hids : ((pool.aliases.set free (some b)).reduceOption.map Alias.id).Perm
      ([s.sequence + 1] ++ pool.aliasIds) := hperm.map Alias.id
  have hfresh : ∀ x, (expected x).isSome = true →
      update expected (s.sequence + 1) (expected a.id) x = expected x := by
    intro x hx
    apply update_of_ne
    have hle := h.below x hx
    omega
  refine ⟨Nat.lt_succ_self s.sequence, ?_⟩
  refine h.replace rfl ?_ ?_ (h.pages.keep hp rfl) ?_ ?_
  · intro p hp'
    cases hp'
    constructor
    · refine hlaid.setRefs hr (fun _ => hlive) fun k => ?_
      rw [(hperm.filter _).length_eq, length_filter_cons]
      by_cases hk : k = a.record
      · rw [if_pos hk, if_pos hk, hlaid.refs a.record _ hr, hk, Nat.add_comm]
        rfl
      · rw [if_neg hk, if_neg hk, Nat.zero_add]
        rfl
    · refine (h.holds slot pool hp).setRefs hlaid hr (fun _ => hlive) fun x hx => ?_
      cases mem_cons.mp (hperm.mem_iff.mp hx) with
      | inl heq =>
        subst heq
        exact .inr ⟨rfl, (update_self _ _ _).trans hbytes⟩
      | inr hold =>
        exact .inl ⟨hold, hfresh x.id (h.ids.mem hp (Pool.mem_aliasIds.mpr ⟨x, hold, rfl⟩))⟩
  · intro i p hi hp'
    exact h.others hp (fun _ _ _ => rfl) (fun x hx _ => hfresh x hx) hi hp'
  · refine h.ids.grow hp hids (nodup_singleton _) ?_ fun x => ?_
    · intro x hx hsome
      rw [mem_singleton.mp hx] at hsome
      have hle := h.below _ hsome
      omega
    · by_cases hx : x = s.sequence + 1
      · subst hx
        rw [hbytes]
        simp
      · simp [hx]
  · intro x hx
    by_cases hnew : x = s.sequence + 1
    · exact Nat.le_of_eq hnew
    · rw [update_of_ne hnew] at hx
      exact Nat.le_succ_of_le (h.below x hx)

lemma viewRelease_ends (h : s.Sound sha256 expected) (c : Caller) (id : Nat) :
    Ends (viewRelease c id) s (fun _ s' => s'.Sound sha256 (update expected id none))
      fun _ s' => s.Same s' := by
  refine .fetch fun ⟨slot, pool, j, a⟩ hfind => ?_
  refine .lift fun _ _ => ?_
  obtain ⟨hp, ha, rfl⟩ := Views.findAlias_eq hfind
  obtain ⟨_, hr, rfl, hlive, hbytes⟩ := h.record hp ha
  have hlaid := h.laid slot pool hp
  have hperm : pool.aliases.reduceOption.Perm (a :: (pool.aliases.set j none).reduceOption) :=
    perm_clear ha
  have hids : pool.aliasIds.Perm ([a.id] ++ (pool.aliases.set j none).reduceOption.map Alias.id) :=
    hperm.map Alias.id
  -- no other alias has this identifier
  have hother : ∀ b ∈ (pool.aliases.set j none).reduceOption, b.id ≠ a.id := by
    intro b hb heq
    have hnodup := hids.nodup_iff.mp (h.ids.nodup slot pool hp)
    exact (nodup_cons.mp hnodup).1 (heq ▸ mem_map_of_mem hb)
  refine h.replace rfl ?_ ?_ (h.pages.keep hp rfl) ?_ ?_
  · intro p hp'
    cases hp'
    constructor
    · refine hlaid.setRefs hr (fun _ => hlive) fun k => ?_
      have hcount := (hperm.filter fun b => b.record = k).length_eq
      rw [length_filter_cons] at hcount
      by_cases hk : k = a.record
      · rw [if_pos hk] at hcount
        rw [if_pos hk, hlaid.refs a.record _ hr, ← hk]
        unfold Pool.aliasList
        omega
      · rw [if_neg hk, Nat.zero_add] at hcount
        rw [if_neg hk]
        exact hcount.symm
    · refine (h.holds slot pool hp).setRefs hlaid hr (fun _ => hlive) fun x hx => ?_
      refine .inl ⟨hperm.mem_iff.mpr (mem_cons_of_mem a hx), ?_⟩
      exact update_of_ne (hother x hx) _ _
  · intro i p hi hp'
    refine h.others hp (fun _ _ _ => rfl) (fun x _ hx => ?_) hi hp'
    apply update_of_ne
    rintro rfl
    exact hx (Pool.mem_aliasIds.mpr ⟨a, mem_reduceOption.mpr ⟨j, ha⟩, rfl⟩)
  · refine h.ids.shrink hp hids fun x => ?_
    by_cases hx : x = a.id
    · subst hx
      simp
    · simp [hx]
  · intro x hx
    by_cases hgone : x = a.id
    · rw [hgone, update_self] at hx
      cases hx
    · rw [update_of_ne hgone] at hx
      exact h.below x hx

end Aliases

end Anunix.View
