import Anunix.Lib.Closure
import Anunix.Object.Calls

/-!
# Captured evidence

What `capture` leaves in a review record. A capture only ever adds to the record, so a failed one
can be undone by cutting the arrays back (`Extended`). A successful one keeps `Graph`: the captured
objects are pairwise different, every finished one has all of its parents among the finished ones,
and its two masks are what one level of parents makes of theirs. The nodes on the way from the
evidence object to the one being captured are unfinished; the set `P` names them.

By `Graph.nodes_iff` and `Graph.roots_iff` the masks of a finished node are exactly the captured
objects reachable from it and the parentless ones among these.
-/

namespace Anunix.Object
open Fallible List Mask

/-! ## Growing records -/

structure Extended (r r' : EpistemicRecord) : Prop where
  nodes : ∀ {j : Nat} {node}, r.nodes[j]? = some node → r'.nodes[j]? = some node
  roots : ∀ {k : Nat} {oid}, r.roots[k]? = some oid → r'.roots[k]? = some oid
  rest : r' = { r with nodes := r'.nodes, roots := r'.roots }

instance : IsPreorder EpistemicRecord Extended where
  refl _ := ⟨id, id, rfl⟩
  trans r r' r'' h1 h2 := by
    refine ⟨fun h => h2.nodes (h1.nodes h), fun h => h2.roots (h1.roots h), ?_⟩
    rw [h2.rest, h1.rest]

variable {s : Store} {env : Env} {r r' : EpistemicRecord} {i j voter : Nat}

section Extended

variable {r0 : EpistemicRecord} {α : Type*} {l : List α}

lemma getElem?_modify_self {f : α → α} {a : α} (h : l[i]? = some a) :
    (l.modify i f)[i]? = some (f a) := by
  rw [getElem?_modify, h]
  simp

lemma Extended.modify (h : Extended r0 r) (hi : r0.nodes.length ≤ i)
    (f : EvidenceNode → EvidenceNode) : Extended r0 { r with nodes := r.nodes.modify i f } where
  nodes {j node} hj := by
    have hlt := (List.getElem?_eq_some_iff.mp hj).1
    rw [List.getElem?_modify_ne _ _ (by omega)]
    exact h.nodes hj
  roots := h.roots
  rest := by rw [h.rest]

lemma Extended.merge (h : Extended r0 r) (hi : r0.nodes.length ≤ i) (parent : Nat) :
    Extended r0 (r.merge i parent) := by
  unfold EpistemicRecord.merge
  split
  · exact h.modify hi _
  · exact h

lemma extended_push (r : EpistemicRecord) (value : EvidenceNode) : Extended r (r.push value) where
  nodes {j node} hj := by
    have hlt := (List.getElem?_eq_some_iff.mp hj).1
    rw [EpistemicRecord.push, List.getElem?_append_left hlt, hj]
  roots := id
  rest := rfl

lemma Extended.pushRoot (h : Extended r0 r) (hi : r0.nodes.length ≤ i) (oid : Uuid) :
    Extended r0 (r.pushRoot i oid) where
  nodes := (h.modify hi _).nodes
  roots {k o} hk := by
    have hr := h.roots hk
    have hlt := (List.getElem?_eq_some_iff.mp hr).1
    rw [EpistemicRecord.pushRoot, List.getElem?_append_left hlt, hr]
  rest := by
    unfold EpistemicRecord.pushRoot
    rw [h.rest]

lemma take_of_keeps {l' : List α} (h : ∀ {j : Nat} {a}, l[j]? = some a → l'[j]? = some a) :
    l'.take l.length = l := by
  have hprefix : l <+: l' := prefix_iff_getElem?.mpr fun j hj => h (getElem?_eq_getElem hj)
  exact (prefix_iff_eq_take.mp hprefix).symm

lemma Extended.rollback (h : Extended r r') : r'.rollback r.nodes.length r.roots.length = r := by
  unfold EpistemicRecord.rollback
  rw [take_of_keeps h.nodes, take_of_keeps h.roots, h.rest]

lemma capture_extended (levels : Nat) (oid : Uuid) (visiting : BitVec 32) (r : EpistemicRecord) :
    Extended r (final (s.capture env voter levels oid visiting) r) := by
  induction levels generalizing oid visiting r with
  | zero => exact refl_of Extended r
  | succ levels ih =>
    apply Ends.final
    refine .guard fun _ => ?_
    refine .get_bind ?_
    cases hfind : r.nodes.findIdx? fun node => node.oid = oid with
    | some i =>
      refine .guard fun _ => ?_
      refine .lift fun _ _ => ?_
      exact refl_of Extended r
    | none =>
      refine .guard fun _ => ?_
      refine .lift fun value _ => ?_
      refine .bind (.modify ?_)
      -- The loop over the parents, from any record that has grown out of the first one.
      have hloop : ∀ (parents : List Uuid) (r1 : EpistemicRecord), Extended r r1 →
          Leaves (parents.forM fun oid => do
            let parent ← s.capture env voter levels oid (visiting ||| Mask.single r.nodes.length)
            modify fun r1 => r1.merge r.nodes.length parent) r1
            (Extended r) := by
        intro parents
        induction parents with
        | nil => exact fun r1 h1 => h1
        | cons oid parents ihp =>
          intro r1 h1
          refine .bind (.call (Ends.of_final (ih oid _ r1)) ?_ ?_)
          · intro parent r2 h2
            refine .modify (ihp _ ?_)
            exact (trans_of Extended h1 h2).merge (Nat.le_refl _) parent
          · intro _ r2 h2
            exact trans_of Extended h1 h2
      have hpush := extended_push r value
      split
      · refine .failIf_bind (fun _ => hpush) fun _ => .bind (.modify ?_)
        exact .bind (hloop _ _ (hpush.pushRoot (Nat.le_refl _) oid))
      · exact .bind (hloop _ _ hpush)

end Extended

/-! ## The captured graph -/

/-- The masks of node `i` hold what the node itself and the nodes with identifiers in `done`
bring. -/
structure Collected (r : EpistemicRecord) (i : Nat) (node : EvidenceNode) (done : List Uuid) :
    Prop where
  nodes : ∀ k, k ∈ members node.nodes ↔
    k = i ∨ ∃ (j : Nat) (p : EvidenceNode), r.nodes[j]? = some p ∧ p.oid ∈ done ∧
    k ∈ members p.nodes
  roots : ∀ k, k ∈ members node.roots ↔
    node.parents = [] ∧ r.roots[k]? = some node.oid ∨
      ∃ (j : Nat) (p : EvidenceNode), r.nodes[j]? = some p ∧ p.oid ∈ done ∧ k ∈ members p.roots

/-- Node `i` is finished: its parents are, in an order that `rank` witnesses, and its masks hold
    what they bring. -/
structure Finished (r : EpistemicRecord) (P : Nat → Prop) (rank : Nat → Nat) (i : Nat)
    (node : EvidenceNode) : Prop where
  parents : ∀ oid ∈ node.parents, ∃ (j : Nat) (p : EvidenceNode),
    r.nodes[j]? = some p ∧ ¬ P j ∧ p.oid = oid ∧ rank j < rank i
  entered : node.parents = [] → node.oid ∈ r.roots
  collected : Collected r i node node.parents

structure Graph (r : EpistemicRecord) (P : Nat → Prop) (rank : Nat → Nat) : Prop where
  nodup : (r.nodes.map EvidenceNode.oid).Nodup
  small : r.nodes.length ≤ epistemicNodes
  few : r.roots.length ≤ epistemicRoots
  single : r.roots.Nodup
  rooted : ∀ oid ∈ r.roots, ∃ node ∈ r.nodes, node.oid = oid ∧ node.parents = []
  finished : ∀ (i : Nat) (node : EvidenceNode), r.nodes[i]? = some node → ¬ P i →
    Finished r P rank i node

section Graph

variable {P P' : Nat → Prop} {rank rank' : Nat → Nat} {k : Nat} {node p q : EvidenceNode}
  {done : List Uuid} {oid : Uuid}

lemma node_unique (hn : (r.nodes.map EvidenceNode.oid).Nodup) (hj : r.nodes[j]? = some p)
    (hk : r.nodes[k]? = some q) (he : p.oid = q.oid) : j = k ∧ p = q := by
  obtain rfl := Keyed.index_unique hn hj hk he
  exact ⟨rfl, Option.some.inj (hj.symm.trans hk)⟩

lemma Collected.transfer (h : Collected r i node done) (hn : (r.nodes.map EvidenceNode.oid).Nodup)
    (hn' : (r'.nodes.map EvidenceNode.oid).Nodup)
    (hfound : ∀ oid ∈ done, ∃ (j : Nat) (p : EvidenceNode),
      r.nodes[j]? = some p ∧ r'.nodes[j]? = some p ∧ p.oid = oid)
    (hroots : node.parents = [] → ∀ k : Nat, r'.roots[k]? = some node.oid ↔
      r.roots[k]? = some node.oid) :
    Collected r' i node done := by
  have same : ∀ X : EvidenceNode → Prop,
      (∃ (j : Nat) (p : EvidenceNode), r.nodes[j]? = some p ∧ p.oid ∈ done ∧ X p) ↔
        ∃ (j : Nat) (p : EvidenceNode), r'.nodes[j]? = some p ∧ p.oid ∈ done ∧ X p := by
    intro X
    constructor
    · rintro ⟨j, p, hj, hp, hX⟩
      obtain ⟨k, q, hk, hk', he⟩ := hfound p.oid hp
      obtain ⟨rfl, rfl⟩ := node_unique hn hk hj he
      exact ⟨k, q, hk', hp, hX⟩
    · rintro ⟨j, p, hj, hp, hX⟩
      obtain ⟨k, q, hk, hk', he⟩ := hfound p.oid hp
      obtain ⟨rfl, rfl⟩ := node_unique hn' hk' hj he
      exact ⟨k, q, hk, hp, hX⟩
  constructor
  · intro k
    rw [h.nodes k, same]
  · intro k
    rw [h.roots k, same]
    refine or_congr_left (and_congr_right fun hnil => ?_)
    exact (hroots hnil k).symm

section

variable (h : Graph r P rank)
include h

lemma Graph.transfer (hn : (r'.nodes.map EvidenceNode.oid).Nodup)
    (hsmall : r'.nodes.length ≤ epistemicNodes) (hfew : r'.roots.length ≤ epistemicRoots)
    (hsingle : r'.roots.Nodup)
    (hrooted : ∀ oid ∈ r'.roots, ∃ node ∈ r'.nodes, node.oid = oid ∧ node.parents = [])
    (keep : ∀ {j : Nat} {p}, r.nodes[j]? = some p → ¬ P j → r'.nodes[j]? = some p ∧ ¬ P' j)
    (back : ∀ {j : Nat} {p}, r'.nodes[j]? = some p → ¬ P' j → r.nodes[j]? = some p ∧ ¬ P j)
    (keepRoots : ∀ {k : Nat} {o}, r.roots[k]? = some o → r'.roots[k]? = some o) :
    Graph r' P' rank where
  nodup := hn
  small := hsmall
  few := hfew
  single := hsingle
  rooted := hrooted
  finished i node hi hP := by
    obtain ⟨hi', hP'⟩ := back hi hP
    have hf := h.finished i node hi' hP'
    have hmem : node.parents = [] → node.oid ∈ r'.roots := by
      intro hnil
      obtain ⟨k, hk⟩ := mem_iff_getElem?.mp (hf.entered hnil)
      exact mem_iff_getElem?.mpr ⟨k, keepRoots hk⟩
    refine ⟨fun oid ho => ?_, hmem, ?_⟩
    · obtain ⟨j, p, hj, hPj, he, hlt⟩ := hf.parents oid ho
      obtain ⟨hj', hPj'⟩ := keep hj hPj
      exact ⟨j, p, hj', hPj', he, hlt⟩
    · refine hf.collected.transfer h.nodup hn (fun oid ho => ?_) fun hnil => ?_
      · obtain ⟨j, p, hj, hPj, he, -⟩ := hf.parents oid ho
        exact ⟨j, p, hj, (keep hj hPj).1, he⟩
      · obtain ⟨k, hk⟩ := mem_iff_getElem?.mp (hf.entered hnil)
        have hk' := keepRoots hk
        refine fun j => ⟨fun hj => ?_, keepRoots⟩
        obtain rfl :=
          (List.getElem?_inj (List.getElem?_eq_some_iff.mp hk').1 hsingle).mp (hk'.trans hj.symm)
        exact hk

lemma Graph.modify (hP : P i) (f : EvidenceNode → EvidenceNode)
    (hf : ∀ node, (f node).oid = node.oid ∧ (f node).parents = node.parents) :
    Graph { r with nodes := r.nodes.modify i f } P rank := by
  have hoids : (r.nodes.modify i f).map EvidenceNode.oid = r.nodes.map EvidenceNode.oid := by
    apply ext_getElem?
    intro j
    rw [getElem?_map, getElem?_map, getElem?_modify]
    cases r.nodes[j]? with
    | none => rfl
    | some node =>
      by_cases hij : i = j
      · simp [hij, (hf node).1]
      · simp [hij]
  have hne : ∀ {j : Nat}, ¬ P j → i ≠ j := fun hj e => hj (e ▸ hP)
  refine h.transfer (hoids ▸ h.nodup) ?_ h.few h.single ?_ ?_ ?_ id
  · simpa using h.small
  · intro oid ho
    obtain ⟨node, hm, he, hnil⟩ := h.rooted oid ho
    obtain ⟨j, hj⟩ := mem_iff_getElem?.mp hm
    by_cases hij : i = j
    · subst hij
      refine ⟨f node, mem_of_getElem? (getElem?_modify_self hj), ?_, ?_⟩
      · rw [(hf node).1, he]
      · rw [(hf node).2, hnil]
    · exact ⟨node, mem_of_getElem? ((List.getElem?_modify_ne f _ hij).trans hj), he, hnil⟩
  · intro j p hj hPj
    exact ⟨(List.getElem?_modify_ne f _ (hne hPj)).trans hj, hPj⟩
  · intro j p hj hPj
    exact ⟨(List.getElem?_modify_ne f _ (hne hPj)).symm.trans hj, hPj⟩

lemma Graph.push (node : EvidenceNode) (hnew : ∀ p ∈ r.nodes, p.oid ≠ node.oid)
    (hroom : r.nodes.length ≠ epistemicNodes) (hP' : ∀ j, P' j ↔ P j ∨ j = r.nodes.length) :
    Graph (r.push node) P' rank := by
  have hlen := h.small
  refine h.transfer ?_ ?_ h.few h.single ?_ ?_ ?_ id
  · simp only [EpistemicRecord.push, map_append]
    refine nodup_append.mpr ⟨h.nodup, nodup_singleton _, ?_⟩
    intro a ha b hb
    obtain ⟨p, hp, rfl⟩ := mem_map.mp ha
    cases mem_singleton.mp hb
    exact hnew p hp
  · simp only [EpistemicRecord.push, length_append, length_singleton]
    omega
  · intro oid ho
    obtain ⟨p, hp, he⟩ := h.rooted oid ho
    exact ⟨p, mem_append_left _ hp, he⟩
  · intro j p hj hPj
    have hlt := (List.getElem?_eq_some_iff.mp hj).1
    refine ⟨(extended_push r node).nodes hj, fun hc => ?_⟩
    rcases (hP' j).mp hc with hc | rfl
    · exact hPj hc
    · exact Nat.lt_irrefl _ hlt
  · intro j p hj hPj
    have hno : ¬ (P j ∨ j = r.nodes.length) := fun hc => hPj ((hP' j).mpr hc)
    rw [not_or] at hno
    have hlt := (List.getElem?_eq_some_iff.mp hj).1
    simp only [EpistemicRecord.push, length_append, length_singleton] at hlt hj
    rw [List.getElem?_append_left (by omega)] at hj
    exact ⟨hj, hno.1⟩

lemma Graph.pushRoot (hP : P i) (hi : r.nodes[i]? = some node)
    (hnil : node.parents = []) (hnew : node.oid ∉ r.roots)
    (hroom : r.roots.length ≠ epistemicRoots) : Graph (r.pushRoot i node.oid) P rank := by
  have hm := h.modify hP (fun node => { node with roots := Mask.single r.roots.length })
    fun _ => ⟨rfl, rfl⟩
  have hfew := h.few
  refine hm.transfer hm.nodup hm.small ?_ ?_ ?_ ?_ ?_ ?_
  · simp only [EpistemicRecord.pushRoot, length_append, length_singleton]
    omega
  · refine nodup_append.mpr ⟨h.single, nodup_singleton _, ?_⟩
    intro a ha b hb
    cases mem_singleton.mp hb
    exact fun e => hnew (e ▸ ha)
  · refine forall_mem_append.mpr ⟨hm.rooted, forall_mem_singleton.mpr ?_⟩
    exact ⟨_, mem_of_getElem? (getElem?_modify_self hi), rfl, hnil⟩
  · exact fun hj hPj => ⟨hj, hPj⟩
  · exact fun hj hPj => ⟨hj, hPj⟩
  · intro k o hk
    have hlt := (List.getElem?_eq_some_iff.mp hk).1
    exact (List.getElem?_append_left hlt).trans hk

end

def Found (r : EpistemicRecord) (P : Nat → Prop) (oids : List Uuid) : Prop :=
  ∀ oid ∈ oids, ∃ (j : Nat) (p : EvidenceNode), r.nodes[j]? = some p ∧ ¬ P j ∧ p.oid = oid

lemma Graph.finish (h : Graph r P' rank) (hP' : ∀ j, P' j ↔ P j ∨ j = i)
    (hi : r.nodes[i]? = some node) (hfound : Found r P' node.parents)
    (hentered : node.parents = [] → node.oid ∈ r.roots) (hc : Collected r i node node.parents) :
    ∃ rank', Graph r P rank' := by
  -- The new node gets a rank above all others.
  let top := (Finset.range r.nodes.length).sup rank + 1
  have htop : ∀ {j : Nat} {p}, r.nodes[j]? = some p → rank j < top := by
    intro j p hj
    have hlt := (List.getElem?_eq_some_iff.mp hj).1
    exact Nat.lt_succ_of_le (Finset.le_sup (Finset.mem_range.mpr hlt))
  have hne : ∀ {j : Nat}, ¬ P' j → j ≠ i ∧ ¬ P j := by
    intro j hj
    exact ⟨fun e => hj ((hP' j).mpr (.inr e)), fun hp => hj ((hP' j).mpr (.inl hp))⟩
  refine ⟨Function.update rank i top, h.nodup, h.small, h.few, h.single, h.rooted, ?_⟩
  intro j p hj hPj
  by_cases hij : j = i
  · subst hij
    cases hi.symm.trans hj
    refine ⟨fun oid ho => ?_, hentered, hc⟩
    obtain ⟨k, q, hk, hPk, he⟩ := hfound oid ho
    refine ⟨k, q, hk, (hne hPk).2, he, ?_⟩
    rw [Function.update_self, Function.update_of_ne (hne hPk).1]
    exact htop hk
  · have hnot : ¬ P' j := fun hc => (hP' j).mp hc |>.elim hPj hij
    have hf := h.finished j p hj hnot
    refine ⟨fun oid ho => ?_, hf.entered, hf.collected⟩
    obtain ⟨k, q, hk, hPk, he, hlt⟩ := hf.parents oid ho
    refine ⟨k, q, hk, (hne hPk).2, he, ?_⟩
    rw [Function.update_of_ne (hne hPk).1, Function.update_of_ne hij]
    exact hlt

def EvidenceNode.plus (node q : EvidenceNode) : EvidenceNode :=
  { node with nodes := node.nodes ||| q.nodes, roots := node.roots ||| q.roots }

lemma merge_eq (hj : r.nodes[j]? = some q) :
    r.merge i j = { r with nodes := r.nodes.modify i fun node => node.plus q } := by
  simp only [EpistemicRecord.merge, hj]
  rfl

lemma Collected.extend (h : Collected r i node done) (hn : (r.nodes.map EvidenceNode.oid).Nodup)
    (hj : r.nodes[j]? = some q) : Collected r i (node.plus q) (done ++ [q.oid]) := by
  have more : ∀ X : EvidenceNode → Prop,
      (∃ (k : Nat) (p : EvidenceNode), r.nodes[k]? = some p ∧ p.oid ∈ done ++ [q.oid] ∧ X p) ↔
        (∃ (k : Nat) (p : EvidenceNode), r.nodes[k]? = some p ∧ p.oid ∈ done ∧ X p) ∨ X q := by
    intro X
    constructor
    · rintro ⟨k, p, hk, hp, hX⟩
      rcases mem_append.mp hp with hp | hp
      · exact .inl ⟨k, p, hk, hp, hX⟩
      · obtain ⟨-, rfl⟩ := node_unique hn hk hj (mem_singleton.mp hp)
        exact .inr hX
    · rintro (⟨k, p, hk, hp, hX⟩ | hX)
      · exact ⟨k, p, hk, mem_append_left _ hp, hX⟩
      · exact ⟨j, q, hj, mem_concat_self, hX⟩
  constructor
  · intro k
    rw [more, EvidenceNode.plus, members_or, Finset.mem_union, h.nodes k, or_assoc]
  · intro k
    rw [more, EvidenceNode.plus, members_or, Finset.mem_union, h.roots k, or_assoc]

end Graph

/-! ## Reachable evidence -/

def EpistemicRecord.Parent (r : EpistemicRecord) (i j : Nat) : Prop :=
  ∃ a b, r.nodes[i]? = some a ∧ r.nodes[j]? = some b ∧ b.oid ∈ a.parents

/-- The captured object `j` is the captured object `i` or an ancestor of it. -/
def EpistemicRecord.Reaches (r : EpistemicRecord) : Nat → Nat → Prop :=
  Relation.ReflTransGen r.Parent

section Reach

variable {rank : Nat → Nat} {k : Nat} {node : EvidenceNode}

section

variable (h : Graph r (fun _ => False) rank)
include h

lemma Graph.rank_lt (hp : r.Parent i j) : rank j < rank i := by
  obtain ⟨a, b, ha, hb, hm⟩ := hp
  obtain ⟨k, q, hk, -, he, hlt⟩ := (h.finished i a ha not_false).parents b.oid hm
  obtain ⟨rfl, -⟩ := node_unique h.nodup hk hb he
  exact hlt

/-- Masks that hold what each node has of its own and what its parents bring hold what the reachable
nodes have. -/
lemma Graph.members_iff (members : EvidenceNode → Finset Nat)
    (own : Nat → EvidenceNode → Nat → Prop)
    (hc : ∀ {a : Nat} {node}, r.nodes[a]? = some node → ∀ x, x ∈ members node ↔ own a node x ∨
      ∃ (j : Nat) (p : EvidenceNode), r.nodes[j]? = some p ∧ p.oid ∈ node.parents ∧ x ∈ members p)
    (hi : r.nodes[i]? = some node) :
    k ∈ members node ↔ ∃ j b, r.Reaches i j ∧ r.nodes[j]? = some b ∧ own j b k := by
  have hall := Closure.iff_reachable
    (f := fun i k => ∃ node, r.nodes[i]? = some node ∧ k ∈ members node)
    (g := fun i k => ∃ node, r.nodes[i]? = some node ∧ own i node k) rank
    (fun _ _ => h.rank_lt) ?_ i k
  · constructor
    · intro hk
      obtain ⟨j, hj, b, hb, hown⟩ := hall.mp ⟨node, hi, hk⟩
      exact ⟨j, b, hj, hb, hown⟩
    · rintro ⟨j, b, hj, hb, hown⟩
      obtain ⟨node', hi', hk'⟩ := hall.mpr ⟨j, hj, b, hb, hown⟩
      cases hi.symm.trans hi'
      exact hk'
  · intro a x
    constructor
    · rintro ⟨node, ha, hx⟩
      rcases (hc ha x).mp hx with hown | ⟨j, p, hj, hm, hx⟩
      · exact .inl ⟨node, ha, hown⟩
      · exact .inr ⟨j, ⟨node, p, ha, hj, hm⟩, p, hj, hx⟩
    · rintro (⟨node, ha, hown⟩ | ⟨j, ⟨node, p, ha, hj, hm⟩, p', hj', hx⟩)
      · exact ⟨node, ha, (hc ha x).mpr (.inl hown)⟩
      · cases hj.symm.trans hj'
        exact ⟨node, ha, (hc ha x).mpr (.inr ⟨j, p, hj, hm, hx⟩)⟩

lemma Graph.nodes_iff (hi : r.nodes[i]? = some node) : k ∈ members node.nodes ↔ r.Reaches i k := by
  rw [h.members_iff (fun node => members node.nodes) (fun j _ k => k = j)
    (fun ha => (h.finished _ _ ha not_false).collected.nodes) hi]
  constructor
  · rintro ⟨j, b, hj, -, rfl⟩
    exact hj
  · intro hk
    have hex : ∃ node, r.nodes[k]? = some node := by
      rcases Relation.ReflTransGen.cases_tail hk with rfl | ⟨_, -, _, b, -, hb, -⟩
      · exact ⟨node, hi⟩
      · exact ⟨b, hb⟩
    obtain ⟨b, hb⟩ := hex
    exact ⟨k, b, hk, hb, rfl⟩

/-- The root mask of a finished node is the set of parentless nodes it reaches, each in its place of
    the root array. -/
lemma Graph.roots_iff (hi : r.nodes[i]? = some node) :
    k ∈ members node.roots ↔ ∃ j b, r.Reaches i j ∧ r.nodes[j]? = some b ∧ b.parents = [] ∧
      r.roots[k]? = some b.oid :=
  h.members_iff (fun node => members node.roots)
    (fun _ node k => node.parents = [] ∧ r.roots[k]? = some node.oid)
    (fun ha => (h.finished _ _ ha not_false).collected.roots) hi

end

end Reach

/-! ## Captures -/

section Capture

variable {visiting : BitVec 32} {oid : Uuid}

def onTheWay (visiting : BitVec 32) (i : Nat) : Prop :=
  visiting.getLsbD i = true

def CaptureSound (s : Store) (env : Env) (voter levels : Nat) (visiting : BitVec 32) : Prop :=
  ∀ (oid : Uuid) (r : EpistemicRecord) (rank : Nat → Nat), Graph r (onTheWay visiting) rank →
    (∀ j, onTheWay visiting j → j < r.nodes.length) →
    Ends (s.capture env voter levels oid visiting) r
      (fun i r' => Extended r r' ∧ (∃ rank', Graph r' (onTheWay visiting) rank') ∧
        ∃ node, r'.nodes[i]? = some node ∧ node.oid = oid ∧ ¬ onTheWay visiting i)
      (fun _ _ => True)

/-- The loop over the parents of node `i`: what is left of them is collected as the first ones
were. -/
lemma captureParents_ends {levels : Nat} (ih : CaptureSound s env voter levels visiting)
    (hi : onTheWay visiting i) (rest done : List Uuid) (r : EpistemicRecord) (rank : Nat → Nat)
    (node : EvidenceNode) (hg : Graph r (onTheWay visiting) rank)
    (hway : ∀ j, onTheWay visiting j → j < r.nodes.length) (hnode : r.nodes[i]? = some node)
    (hparents : ∀ oid ∈ rest, oid ∈ node.parents) (hfound : Found r (onTheWay visiting) done)
    (hc : Collected r i node done) :
    Ends (rest.forM fun oid => do
        let parent ← s.capture env voter levels oid visiting
        modify fun r => r.merge i parent) r
      (fun _ r' => ∃ node' rank', Graph r' (onTheWay visiting) rank' ∧ r'.nodes[i]? = some node' ∧
        node'.oid = node.oid ∧ node'.parents = node.parents ∧
        Found r' (onTheWay visiting) (done ++ rest) ∧ Collected r' i node' (done ++ rest) ∧
        ∀ oid ∈ r.roots, oid ∈ r'.roots)
      (fun _ _ => True) := by
  induction rest generalizing done r rank node with
  | nil =>
    rw [append_nil]
    exact ⟨node, rank, hg, hnode, rfl, rfl, hfound, hc, fun _ h => h⟩
  | cons oid rest ihr =>
    refine .bind (.next (ih oid r rank hg hway) ?_)
    rintro parent r1 ⟨hext, ⟨rank1, hg1⟩, q, hq, rfl, hway1⟩
    refine .modify ?_
    have hnode1 := hext.nodes hnode
    have hne : ∀ {j : Nat}, ¬ onTheWay visiting j → i ≠ j := fun hj e => hj (e ▸ hi)
    rw [merge_eq hq]
    -- The node takes over what the parent brings; the other nodes stay.
    have hg2 := hg1.modify hi (fun node => node.plus q) fun _ => ⟨rfl, rfl⟩
    have hkeep : ∀ {j : Nat} {p}, r1.nodes[j]? = some p → ¬ onTheWay visiting j →
        (r1.nodes.modify i fun node => node.plus q)[j]? = some p := by
      intro j p hj hPj
      rw [List.getElem?_modify_ne _ _ (hne hPj), hj]
    have hnil : node.parents ≠ [] := ne_nil_of_mem (hparents _ mem_cons_self)
    have hc2 :
        Collected { r1 with nodes := r1.nodes.modify i fun node => node.plus q } i node done := by
      refine hc.transfer hg.nodup hg2.nodup (fun o ho => ?_) fun h => absurd h hnil
      obtain ⟨j, p, hj, hPj, he⟩ := hfound o ho
      exact ⟨j, p, hj, hkeep (hext.nodes hj) hPj, he⟩
    have hq2 := hkeep hq hway1
    refine .post (ihr (done ++ [q.oid]) _ rank1 (node.plus q) hg2 ?_ (getElem?_modify_self hnode1)
      (fun o ho => hparents o (mem_cons_of_mem _ ho)) ?_ (hc2.extend hg2.nodup hq2)) ?_
    · intro j hj
      have hp := hext.nodes (getElem?_eq_getElem (hway j hj))
      have hlt := (List.getElem?_eq_some_iff.mp hp).1
      simpa using hlt
    · refine forall_mem_append.mpr ⟨fun o ho => ?_,
        forall_mem_singleton.mpr ⟨parent, q, hq2, hway1, rfl⟩⟩
      obtain ⟨j, p, hj, hPj, he⟩ := hfound o ho
      exact ⟨j, p, hkeep (hext.nodes hj) hPj, hPj, he⟩
    · rintro _ r3 ⟨node', rank', hg3, hnode3, ho3, hp3, hfound3, hc3, hroots3⟩
      rw [append_assoc] at hfound3 hc3
      refine ⟨node', rank', hg3, hnode3, ho3, hp3, hfound3, hc3, fun o ho => hroots3 o ?_⟩
      obtain ⟨k, hk⟩ := mem_iff_getElem?.mp ho
      exact mem_iff_getElem?.mpr ⟨k, hext.roots hk⟩

lemma snapshot_eq_ok {value : EvidenceNode} (h : s.snapshot env r oid voter = .ok value) :
    ∃ addr obj, s.lookup oid = some (addr, obj) ∧ obj.isEvidence r.sensitivity = true ∧
      value = s.evidenceOf oid obj := by
  obtain ⟨_, -, h⟩ := bind_eq_ok.mp h
  obtain ⟨⟨addr, obj⟩, hl, h⟩ := bind_eq_ok.mp h
  obtain ⟨_, he, h⟩ := bind_eq_ok.mp h
  obtain ⟨_, -, h⟩ := bind_eq_ok.mp h
  refine ⟨addr, obj, orThrow_eq_ok.mp hl, by simpa using failIf_eq_ok.mp he, ?_⟩
  by_cases hreads : env.current = some (r.spec.reviewer voter)
  · rw [if_pos hreads] at h
    obtain ⟨_, -, h⟩ := bind_eq_ok.mp h
    exact (Except.ok.inj h).symm
  · rw [if_neg hreads] at h
    exact (Except.ok.inj h).symm

lemma collected_new {node : EvidenceNode} (hi : i < 32) (hnodes : node.nodes = Mask.single i)
    (hroots : ∀ k, k ∈ members node.roots ↔ node.parents = [] ∧ r.roots[k]? = some node.oid) :
    Collected r i node [] := by
  constructor
  · rw [hnodes, members_single hi]
    simp
  · intro k
    rw [hroots k]
    simp

lemma onTheWay_or (visiting : BitVec 32) (hi : i < 32) (j : Nat) :
    onTheWay (visiting ||| Mask.single i) j ↔ onTheWay visiting j ∨ j = i := by
  simp [onTheWay, getLsbD_single hi]

lemma root_last {l : List Uuid} (hnew : oid ∉ l) (k : Nat) :
    (l ++ [oid])[k]? = some oid ↔ k = l.length := by
  rcases Nat.lt_or_ge k l.length with hk | hk
  · rw [List.getElem?_append_left hk]
    exact iff_of_false (fun h => hnew (mem_of_getElem? h)) (by omega)
  · rw [getElem?_append_right hk, getElem?_singleton]
    simp
    omega

lemma capture_sound (s : Store) (env : Env) (voter levels : Nat) (visiting : BitVec 32) :
    CaptureSound s env voter levels visiting := by
  induction levels generalizing visiting with
  | zero => exact fun _ _ _ _ _ => trivial
  | succ levels ih =>
    intro oid r rank hg hway
    have hends : Ends (s.capture env voter (levels + 1) oid visiting) r
        (fun i r' => (∃ rank', Graph r' (onTheWay visiting) rank') ∧
          ∃ node, r'.nodes[i]? = some node ∧ node.oid = oid ∧ ¬ onTheWay visiting i)
        (fun _ _ => True) := by
      refine .guard fun _ => .get_bind ?_
      cases hfind : r.nodes.findIdx? fun node => node.oid = oid with
      | some i =>
        obtain ⟨hlt, ho, -⟩ := findIdx?_eq_some_iff_getElem.mp hfind
        refine .guard fun hv => ?_
        refine .lift fun _ _ => ?_
        refine ⟨⟨rank, hg⟩, r.nodes[i], getElem?_eq_getElem hlt, by simpa using ho, ?_⟩
        simp [onTheWay, hv]
      | none =>
        have hnew : ∀ p ∈ r.nodes, p.oid ≠ oid := by
          intro p hp
          simpa using findIdx?_eq_none_iff.mp hfind p hp
        have hroot : oid ∉ r.roots := by
          intro hm
          obtain ⟨p, hp, he, -⟩ := hg.rooted oid hm
          exact hnew p hp he
        refine .guard fun hroom => ?_
        refine .lift fun value hvalue => ?_
        refine .bind (.modify ?_)
        obtain ⟨addr, obj, -, -, rfl⟩ := snapshot_eq_ok hvalue
        have hroom' : r.nodes.length ≠ epistemicNodes := by simpa using hroom
        have hi : r.nodes.length < 32 := by
          have hsmall := hg.small
          simp only [epistemicNodes] at hsmall hroom'
          omega
        have hmark : ¬ onTheWay visiting r.nodes.length := fun h => Nat.lt_irrefl _ (hway _ h)
        have hP' := onTheWay_or visiting hi
        have hself : onTheWay (visiting ||| Mask.single r.nodes.length) r.nodes.length :=
          (hP' _).mpr (.inr rfl)
        have hg1 := hg.push (s.evidenceOf oid obj) hnew hroom' hP'
        have hat : (r.push (s.evidenceOf oid obj)).nodes[r.nodes.length]? =
            some { s.evidenceOf oid obj with nodes := Mask.single r.nodes.length } := by
          simp [EpistemicRecord.push]
        have hway1 : ∀ j, onTheWay (visiting ||| Mask.single r.nodes.length) j →
            j < (r.push (s.evidenceOf oid obj)).nodes.length := by
          intro j hj
          simp only [EpistemicRecord.push, length_append]
          rcases (hP' j).mp hj with hj | rfl
          · exact Nat.lt_succ_of_lt (hway j hj)
          · exact Nat.lt_succ_self _
        -- Whatever the record is when the loop starts, the loop finishes the node.
        have hloop : ∀ r1 node,
            Graph r1 (onTheWay (visiting ||| Mask.single r.nodes.length)) rank →
            (∀ j, onTheWay (visiting ||| Mask.single r.nodes.length) j → j < r1.nodes.length) →
            r1.nodes[r.nodes.length]? = some node → node.oid = oid → node.parents = obj.parentOids →
            (node.parents = [] → node.oid ∈ r1.roots) → Collected r1 r.nodes.length node [] →
            Ends (obj.parentOids.forM fun oid => do
                let parent ← s.capture env voter levels oid
                  (visiting ||| Mask.single r.nodes.length)
                modify fun r1 => r1.merge r.nodes.length parent) r1
              (fun _ r' => (∃ rank', Graph r' (onTheWay visiting) rank') ∧
                ∃ node, r'.nodes[r.nodes.length]? = some node ∧ node.oid = oid ∧
                  ¬ onTheWay visiting r.nodes.length)
              (fun _ _ => True) := by
          intro r1 node hgr hwr hnode hoid hpar hent hcol
          refine .post
            (captureParents_ends (ih _) hself obj.parentOids [] r1 rank node hgr hwr hnode
            (fun o ho => hpar ▸ ho) (fun o ho => nomatch ho) hcol) ?_
          rintro _ r' ⟨node', rank', hg', hnode', ho', hp', hfound', hc', hroots'⟩
          have hfin := hg'.finish hP' hnode' (by rw [hp', hpar]; exact hfound')
            (fun hnil => ho' ▸ hroots' _ (hent (hp' ▸ hnil))) (by rw [hp', hpar]; exact hc')
          exact ⟨hfin, node', hnode', ho'.trans hoid, hmark⟩
        split
        · rename_i hnil
          refine .guard fun hfull => .bind (.modify ?_)
          have hfull' : r.roots.length ≠ epistemicRoots := by simpa using hfull
          have hfew : r.roots.length < 32 := by
            have hfew := hg.few
            simp only [epistemicRoots] at hfew
            omega
          have hg2 := hg1.pushRoot hself hat hnil hroot hfull'
          refine .bind (hloop _ _ hg2 ?_ (getElem?_modify_self hat) rfl rfl ?_ ?_)
          · simpa [EpistemicRecord.pushRoot] using hway1
          · exact fun _ => mem_concat_self
          · refine collected_new hi rfl fun k => ?_
            have hpar : obj.parentOids = [] := hnil
            show k ∈ members (Mask.single r.roots.length) ↔
              obj.parentOids = [] ∧ (r.roots ++ [oid])[k]? = some oid
            rw [members_single hfew, root_last hroot]
            simp [hpar]
        · rename_i hnil
          refine .bind (hloop _ _ hg1 hway1 hat rfl rfl ?_ ?_)
          · exact fun h => absurd h hnil
          · refine collected_new hi rfl fun k => ?_
            have hpar : obj.parentOids ≠ [] := hnil
            show k ∈ members 0 ↔ obj.parentOids = [] ∧ _
            simp [hpar]
    refine .mono (.and_final hends (capture_extended (levels + 1) oid visiting r)) ?_
      fun _ _ h => h.1
    rintro i r' ⟨⟨hgraph, hnode⟩, hext⟩
    exact ⟨hext, hgraph, hnode⟩

end Capture

end Anunix.Object
