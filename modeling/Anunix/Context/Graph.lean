import Anunix.Context.Context

/-!
# The graph of derivations

`Graph` is what holds of the table of records at all times: identifiers are not given out twice, and
every parent of a record is in the table with the same owner, ceilings that are no lower, a label
that is no higher and a smaller depth. A record is freed only when its reference count is zero, and
the count is exact (`Counted`), so no parent is ever freed before its children. Along the chain of
derivations this makes every ancestor of a record a bound for it (`Graph.ancestor`).
-/

namespace Anunix.Context
open Fallible Object Slots

structure Bounded (r q : Record) : Prop where
  owner : q.view.owner = r.view.owner
  role : r.view.roleCeiling ≤ q.view.roleCeiling
  scope : r.view.scopeCeiling ≤ q.view.scopeCeiling
  sensitivity : q.view.sensitivity ≤ r.view.sensitivity

/-- What a record is by its origin: an import, with the ceilings of its origin, or a derivation. -/
structure Record.Shaped (r : Record) : Prop where
  imported : r.view.origin ≠ .derived →
    r.view.roleCeiling = r.view.origin.roleCeiling ∧
    r.view.scopeCeiling = r.view.origin.scopeCeiling
  derived : r.view.origin = .derived → r.parents ≠ []
  depth : r.depth < contextSegments

structure Graph (t : List (Option Record)) (sequence : UInt64) : Prop where
  slots : t.length = contextMax
  slot : ∀ i r, get t i = some r → r.slot = i
  unique : ∀ i j r q, get t i = some r → get t j = some q → r.view.id = q.view.id → i = j
  ids : ∀ i r, get t i = some r → r.view.id ≤ sequence
  shape : ∀ i r, get t i = some r → r.Shaped
  parents : ∀ i r, get t i = some r → ∀ p ∈ r.parents,
    ∃ j q, get t j = some q ∧ q.view.id = p ∧ Bounded r q ∧ q.depth < r.depth

def children (t : List (Option Record)) (id : UInt64) : Nat :=
  total (fun r => r.parents.count id) t

def Counted (t : List (Option Record)) : Prop :=
  ∀ i r, get t i = some r → r.references = children t r.view.id

structure Sound (s : State) : Prop where
  graph : Graph s.records s.sequence
  counted : Counted s.records

section Table

variable {t : List (Option Record)} {sequence : UInt64} {i : Nat} {r q : Record} {id : UInt64}
  {change : Nat → Nat → Nat} {parents : List UInt64}

/-! ## Reference counts -/

lemma get_countReferences (h : get (countReferences change parents t) i = some r) :
    ∃ q, get t i = some q ∧ r = q.counted change parents := by
  rw [countReferences, get_map] at h
  obtain ⟨q, hq, he⟩ := Option.map_eq_some_iff.mp h
  exact ⟨q, hq, he.symm⟩

lemma get_countReferences_of_get (h : get t i = some q) :
    get (countReferences change parents t) i = some (q.counted change parents) := by
  rw [countReferences, get_map, h]
  rfl

lemma Graph.countReferences (hg : Graph t sequence) :
    Graph (countReferences change parents t) sequence where
  slots := by
    rw [Context.countReferences, List.length_map]
    exact hg.slots
  slot i r h := by
    obtain ⟨q, hq, rfl⟩ := get_countReferences h
    exact hg.slot i q hq
  unique i j r q h h' he := by
    obtain ⟨r0, hr, rfl⟩ := get_countReferences h
    obtain ⟨q0, hq, rfl⟩ := get_countReferences h'
    exact hg.unique i j r0 q0 hr hq he
  ids i r h := by
    obtain ⟨q, hq, rfl⟩ := get_countReferences h
    exact hg.ids i q hq
  shape i r h := by
    obtain ⟨q, hq, rfl⟩ := get_countReferences h
    exact ⟨(hg.shape i q hq).imported, (hg.shape i q hq).derived, (hg.shape i q hq).depth⟩
  parents i r h p hp := by
    obtain ⟨r0, hr, rfl⟩ := get_countReferences h
    obtain ⟨j, q, hq, hid, hb, hd⟩ := hg.parents i r0 hr p hp
    exact ⟨j, q.counted change parents, get_countReferences_of_get hq, hid,
      ⟨hb.owner, hb.role, hb.scope, hb.sensitivity⟩, hd⟩

lemma children_countReferences :
    children (countReferences change parents t) id = children t id := by
  rw [children, countReferences, total_map]
  rfl

lemma count_le_children (id : UInt64) (h : get t i = some r) : r.parents.count id ≤ children t id :=
  le_total (f := fun r : Record => r.parents.count id) h

lemma Graph.children_eq_zero (hg : Graph t sequence) (h : sequence < id) : children t id = 0 := by
  refine total_eq_zero fun i r hr => List.count_eq_zero.mpr fun hmem => ?_
  obtain ⟨j, q, hq, rfl, -⟩ := hg.parents i r hr id hmem
  exact absurd h (UInt64.not_lt.mpr (hg.ids j q hq))

/-! ## Adding and removing a record -/

lemma Graph.set_some (hg : Graph t sequence) (hfree : firstFree t = some r.slot)
    (hseq : sequence < r.view.id) (hshape : r.Shaped) (hparents : ∀ p ∈ r.parents,
      ∃ j q, get t j = some q ∧ q.view.id = p ∧ Bounded r q ∧ q.depth < r.depth) :
    Graph (t.set r.slot (some r)) r.view.id := by
  obtain ⟨hlt, hnone⟩ := firstFree_eq_some hfree
  have hkeep : ∀ j q, get t j = some q → get (t.set r.slot (some r)) j = some q := by
    intro j q hq
    have hj : j ≠ r.slot := by
      rintro rfl
      rw [hnone] at hq
      cases hq
    rw [get_set_of_ne hj]
    exact hq
  have hfresh : ∀ i q, get t i = some q → q.view.id ≠ r.view.id := by
    intro i q hq he
    have hle := hg.ids i q hq
    rw [he] at hle
    exact absurd hseq (UInt64.not_lt.mpr hle)
  refine ⟨by rw [List.length_set]; exact hg.slots, ?_, ?_, ?_, ?_, ?_⟩
  · intro i q h
    rcases of_get_set h with ⟨rfl, ⟨⟩⟩ | ⟨-, hq⟩
    · rfl
    · exact hg.slot i q hq
  · intro i j q q' h h' he
    rcases of_get_set h with ⟨rfl, ⟨⟩⟩ | ⟨-, hq⟩
    · rcases of_get_set h' with ⟨rfl, -⟩ | ⟨-, hq'⟩
      · rfl
      · exact absurd he.symm (hfresh j q' hq')
    · rcases of_get_set h' with ⟨rfl, ⟨⟩⟩ | ⟨-, hq'⟩
      · exact absurd he (hfresh i q hq)
      · exact hg.unique i j q q' hq hq' he
  · intro i q h
    rcases of_get_set h with ⟨rfl, ⟨⟩⟩ | ⟨-, hq⟩
    · exact UInt64.le_refl _
    · exact UInt64.le_trans (hg.ids i q hq) (UInt64.le_of_lt hseq)
  · intro i q h
    rcases of_get_set h with ⟨rfl, ⟨⟩⟩ | ⟨-, hq⟩
    · exact hshape
    · exact hg.shape i q hq
  · intro i q h p hp
    rcases of_get_set h with ⟨rfl, ⟨⟩⟩ | ⟨-, hq⟩
    · obtain ⟨j, q', hq', hrest⟩ := hparents p hp
      exact ⟨j, q', hkeep j q' hq', hrest⟩
    · obtain ⟨j, q', hq', hrest⟩ := hg.parents i q hq p hp
      exact ⟨j, q', hkeep j q' hq', hrest⟩

lemma Graph.set_none (hg : Graph t sequence) (hget : get t i = some r)
    (hchildless : children t r.view.id = 0) : Graph (t.set i none) sequence := by
  have hcases : ∀ j q, get (t.set i none) j = some q → j ≠ i ∧ get t j = some q :=
    fun _ _ => ne_of_get_set_none
  refine ⟨by rw [List.length_set]; exact hg.slots, ?_, ?_, ?_, ?_, ?_⟩
  · exact fun j q h => hg.slot j q (hcases j q h).2
  · exact fun j k q q' h h' => hg.unique j k q q' (hcases j q h).2 (hcases k q' h').2
  · exact fun j q h => hg.ids j q (hcases j q h).2
  · exact fun j q h => hg.shape j q (hcases j q h).2
  · intro j q h p hp
    obtain ⟨k, q', hq', hid, hrest⟩ := hg.parents j q (hcases j q h).2 p hp
    -- The parent is not the record that goes: it has this child.
    have hk : k ≠ i := by
      rintro rfl
      cases hget.symm.trans hq'
      have hle := count_le_children r.view.id (hcases j q h).2
      have hpos : 0 < q.parents.count r.view.id := List.count_pos_iff.mpr (hid ▸ hp)
      omega
    refine ⟨k, q', ?_, hid, hrest⟩
    rw [get_set_of_ne hk]
    exact hq'

lemma Counted.set_some (hc : Counted t) (hfree : firstFree t = some i) (href : r.references = 0)
    (hnew : children t r.view.id = 0) :
    Counted (countReferences (· + ·) r.parents (t.set i (some r))) := by
  obtain ⟨hlt, hnone⟩ := firstFree_eq_some hfree
  have htotal : ∀ id, children (t.set i (some r)) id = children t id + r.parents.count id := by
    intro id
    have hset := total_set (o := some r) (f := fun r : Record => r.parents.count id) hlt
    rw [hnone] at hset
    exact hset
  intro j q' h
  obtain ⟨q, hq, rfl⟩ := get_countReferences h
  rw [children_countReferences, htotal]
  rcases of_get_set hq with ⟨rfl, ⟨⟩⟩ | ⟨-, hq⟩
  · show r.references + r.parents.count r.view.id = children t r.view.id + r.parents.count r.view.id
    rw [href, hnew]
  · show q.references + r.parents.count q.view.id = children t q.view.id + r.parents.count q.view.id
    rw [hc j q hq]

lemma Counted.set_none (hc : Counted t) (hget : get t i = some r) :
    Counted (countReferences (· - ·) r.parents (t.set i none)) := by
  have hlt := lt_of_get hget
  have htotal : ∀ id, children (t.set i none) id + r.parents.count id = children t id := by
    intro id
    have hset := total_set (o := none) (f := fun r : Record => r.parents.count id) hlt
    rw [hget] at hset
    exact hset
  intro j q' h
  obtain ⟨q, hq, rfl⟩ := get_countReferences h
  replace hq := (ne_of_get_set_none hq).2
  rw [children_countReferences]
  show q.references - r.parents.count q.view.id = children (t.set i none) q.view.id
  have hq' := hc j q hq
  have ht := htotal q.view.id
  omega

end Table

/-! ## Ancestors -/

section Ancestors

variable {s : State} {i : Nat} {r q : Record} {id : UInt64}

lemma get_of_find (h : s.find id = some r) : ∃ i, get s.records i = some r ∧ r.view.id = id := by
  obtain ⟨⟨i, q⟩, hq, rfl⟩ := Option.map_eq_some_iff.mp h
  obtain ⟨hget, hid⟩ := firstWith_eq_some hq
  exact ⟨i, hget, of_decide_eq_true hid⟩

lemma Sound.find (hs : Sound s) (hget : get s.records i = some r) : s.find r.view.id = some r := by
  obtain ⟨j, q, hq⟩ := exists_firstWith (p := fun q : Record => q.view.id = r.view.id) hget
    (decide_eq_true rfl)
  obtain ⟨hgetq, hid⟩ := firstWith_eq_some hq
  obtain rfl := hs.graph.unique j i q r hgetq hget (of_decide_eq_true hid)
  cases hget.symm.trans hgetq
  rw [State.find, hq]
  rfl

def State.Parent (s : State) (r q : Record) : Prop :=
  s.find r.view.id = some r ∧ ∃ p ∈ r.parents, s.find p = some q

def State.Ancestor (s : State) : Record → Record → Prop :=
  Relation.ReflTransGen s.Parent

lemma Sound.parent (hs : Sound s) (h : s.Parent r q) :
    s.find q.view.id = some q ∧ Bounded r q ∧ q.depth < r.depth := by
  obtain ⟨hr, p, hp, hq⟩ := h
  obtain ⟨i, hget, -⟩ := get_of_find hr
  obtain ⟨j, q', hq', rfl, hb, hd⟩ := hs.graph.parents i r hget p hp
  cases (hs.find hq').symm.trans hq
  exact ⟨hq, hb, hd⟩

lemma Bounded.refl (r : Record) : Bounded r r :=
  ⟨rfl, le_refl _, le_refl _, le_refl _⟩

lemma Bounded.trans {r p : Record} (h : Bounded r q) (h' : Bounded q p) : Bounded r p :=
  ⟨h'.owner.trans h.owner, le_trans h.role h'.role, le_trans h.scope h'.scope,
    le_trans h'.sensitivity h.sensitivity⟩

lemma Sound.ancestor (hs : Sound s) (hr : s.find r.view.id = some r) (h : s.Ancestor r q) :
    s.find q.view.id = some q ∧ Bounded r q := by
  induction h with
  | refl => exact ⟨hr, .refl r⟩
  | tail _ hqp ih =>
    obtain ⟨hp, hb, -⟩ := hs.parent hqp
    exact ⟨hp, ih.2.trans hb⟩

/-- No record is among the records it was derived from: depths fall along a derivation. -/
lemma Sound.acyclic (hs : Sound s) (r : Record) : ¬ Relation.TransGen s.Parent r r := by
  have hdepth : ∀ r q, Relation.TransGen s.Parent r q → q.depth < r.depth := by
    intro r q h
    induction h with
    | single h => exact (hs.parent h).2.2
    | tail _ h ih => exact Nat.lt_trans (hs.parent h).2.2 ih
  exact fun h => Nat.lt_irrefl r.depth (hdepth r r h)

lemma Sound.exists_import (hs : Sound s) (hr : s.find r.view.id = some r) :
    ∃ q, s.Ancestor r q ∧ q.view.origin ≠ .derived := by
  induction hd : r.depth using Nat.strong_induction_on generalizing r with
  | _ d ih =>
    by_cases ho : r.view.origin = .derived
    · obtain ⟨i, hget, -⟩ := get_of_find hr
      obtain ⟨p, hp⟩ := List.exists_mem_of_ne_nil r.parents ((hs.graph.shape i r hget).derived ho)
      obtain ⟨j, q, hq, hid, -, hlt⟩ := hs.graph.parents i r hget p hp
      have hstep : s.Parent r q := ⟨hr, p, hp, hid ▸ hs.find hq⟩
      obtain ⟨q', hanc, hq'⟩ := ih q.depth (hd ▸ hlt) (hs.find hq) rfl
      exact ⟨q', .head hstep hanc, hq'⟩
    · exact ⟨r, .refl, ho⟩

end Ancestors

end Anunix.Context
