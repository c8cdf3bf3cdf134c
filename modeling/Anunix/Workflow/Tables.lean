import Anunix.Error
import Anunix.Lib.Fallible

/-!
# The tables of a workflow graph

The editing calls of `kernel/core/workflow/workflow_object.c` on one workflow. A free slot is one
whose identifiers are 0, and the calls take any identifiers: an edge to a node that is not there is
stored, and a removal of node 0 or of the edge from 0 to 0 finds a free slot. `tables_consistent` is
what holds when callers do neither.
-/

namespace Anunix.Wf
open Fallible Finset Function List

/-! ## Model -/

/-- C `struct anx_wf_edge`. -/
structure Edge where
  fromNode : UInt16
  fromPort : UInt8
  toNode : UInt16
  toPort : UInt8
  deriving DecidableEq

def Edge.blank : Edge := ⟨0, 0, 0, 0⟩

/-- Whether an edge slot is in use: unused is one with both nodes 0. -/
def Edge.used (e : Edge) : Bool :=
  !(e.fromNode == 0 && e.toNode == 0)

def nodeUsed (id : UInt16) : Bool :=
  id != 0

/-- A workflow as its editing calls see it (C `struct anx_wf_object`); of a node slot, the
identifier. -/
structure Workflow where
  nodeCount : UInt16
  edgeCount : UInt16
  nodes : Fin 64 → UInt16
  edges : Fin 128 → Edge
  live : Bool
  topologyEnabled : Bool

/-- A new workflow (C `anx_wf_create`). -/
def Workflow.create : Workflow :=
  ⟨0, 0, fun _ => 0, fun _ => .blank, false, false⟩

abbrev WfM := EStateM Err Workflow

def checkEditable : WfM Unit := do
  failIf (← get).live Err.ebusy
  failIf (← get).topologyEnabled Err.eperm

/-- C `anx_wf_node_add`: the identifier given to the node. -/
def nodeAdd : WfM UInt16 := do
  checkEditable
  let wf ← get
  failIf (64 ≤ wf.nodeCount) Err.enomem
  let i ← orThrow ((finRange 64).find? fun i => wf.nodes i = 0) Err.enomem
  let id := UInt16.ofNat (i + 1)
  modify fun wf => { wf with nodes := update wf.nodes i id, nodeCount := wf.nodeCount + 1 }
  return id

def Workflow.clearEdge (wf : Workflow) (i : Fin 128) : Workflow :=
  { wf with edges := update wf.edges i .blank, edgeCount := wf.edgeCount - 1 }

abbrev Edge.Touches (e : Edge) (id : UInt16) : Prop :=
  e.fromNode = id ∨ e.toNode = id

/-- The loop over the edges of a removed node, for the listed slots. -/
def Workflow.dropEdges (wf : Workflow) (id : UInt16) : List (Fin 128) → Workflow
  | [] => wf
  | i :: l => (if (wf.edges i).Touches id then wf.clearEdge i else wf).dropEdges id l

/-- C `anx_wf_node_remove`. -/
def nodeRemove (id : UInt16) : WfM Unit := do
  checkEditable
  let wf ← get
  let i ← orThrow ((finRange 64).find? fun i => wf.nodes i = id) Err.enoent
  modify fun wf => { wf with nodes := update wf.nodes i 0, nodeCount := wf.nodeCount - 1 }
  modify fun wf => wf.dropEdges id (finRange 128)

/-- C `anx_wf_edge_add`. -/
def edgeAdd (e : Edge) : WfM Unit := do
  checkEditable
  let wf ← get
  failIf (128 ≤ wf.edgeCount) Err.enomem
  failIf (e.fromNode == e.toNode) Err.einval
  let i ← orThrow ((finRange 128).find? fun i => !(wf.edges i).used) Err.enomem
  modify fun wf => { wf with edges := update wf.edges i e, edgeCount := wf.edgeCount + 1 }

/-- C `anx_wf_edge_remove`. -/
def edgeRemove (e : Edge) : WfM Unit := do
  checkEditable
  let wf ← get
  let i ← orThrow ((finRange 128).find? fun i => wf.edges i = e) Err.enoent
  modify fun wf => wf.clearEdge i

/-- The editing calls. Between them the workflow may be run, or its topology put under control. -/
inductive Call where
  | nodeAdd
  | nodeRemove (id : UInt16)
  | edgeAdd (e : Edge)
  | edgeRemove (e : Edge)
  | other (live topologyEnabled : Bool)

def Call.exec : Call → WfM Unit
  | .nodeAdd => do let _ ← Wf.nodeAdd
  | .nodeRemove id => Wf.nodeRemove id
  | .edgeAdd e => Wf.edgeAdd e
  | .edgeRemove e => Wf.edgeRemove e
  | .other live topologyEnabled => modify fun wf => { wf with live, topologyEnabled }

def Workflow.step (wf : Workflow) (c : Call) : Workflow :=
  final c.exec wf

/-! ## Consistency -/

def occupied {n : Nat} {α : Type} (used : α → Bool) (t : Fin n → α) : Nat :=
  (univ.filter fun i => used (t i) = true).card

def Workflow.Has (wf : Workflow) (id : UInt16) : Prop :=
  nodeUsed id = true ∧ ∃ i, wf.nodes i = id

/-- A slot in use has its place for an identifier, counted from 1. -/
def Numbered (i : Fin 64) (id : UInt16) : Prop :=
  nodeUsed id = true → id.toNat = i + 1

/-- An edge in use joins two nodes of the workflow. -/
def Workflow.Joins (wf : Workflow) (e : Edge) : Prop :=
  e.used = true → wf.Has e.fromNode ∧ wf.Has e.toNode

structure Consistent (wf : Workflow) : Prop where
  nodeCount : wf.nodeCount.toNat = occupied nodeUsed wf.nodes
  ids : ∀ i, Numbered i (wf.nodes i)
  edgeCount : wf.edgeCount.toNat = occupied Edge.used wf.edges
  endpoints : ∀ i, wf.Joins (wf.edges i)

/-- A call that names existing nodes when it adds an edge, and no free slot when it removes
something. -/
def Call.Proper (wf : Workflow) : Call → Prop
  | .nodeRemove id => nodeUsed id = true
  | .edgeAdd e => wf.Has e.fromNode ∧ wf.Has e.toNode
  | .edgeRemove e => e.used = true
  | _ => True

def ProperFrom : Workflow → List Call → Prop
  | _, [] => True
  | wf, c :: calls => c.Proper wf ∧ ProperFrom (wf.step c) calls

section Tally

variable {n : Nat} {α : Type} {used : α → Bool} {t : Fin n → α} {i : Fin n} {a : α} {count : UInt16}

lemma occupied_update (used : α → Bool) (t : Fin n → α) (i : Fin n) (a : α) :
    occupied used (update t i a) + (if used (t i) then 1 else 0) =
      occupied used t + (if used a then 1 else 0) := by
  have hcomp : (fun j => if used (update t i a j) then 1 else 0) =
      update (fun j => if used (t j) then 1 else 0) i (if used a then 1 else 0) :=
    comp_update (fun x => if used x then 1 else 0) t i a
  rw [occupied, occupied, card_filter, card_filter, hcomp, sum_update_of_mem (mem_univ i),
    ← add_sum_erase univ _ (mem_univ i), sdiff_singleton_eq_erase]
  omega

lemma tally_fill (h : count.toNat = occupied used t) (hi : used (t i) = false) (ha : used a = true)
    (hroom : count.toNat < 128) : (count + 1).toNat = occupied used (update t i a) := by
  have hone : (1 : UInt16).toNat = 1 := rfl
  have hu := occupied_update used t i a
  simp only [hi, ha, if_true, Bool.false_eq_true, if_false] at hu
  rw [UInt16.toNat_add]
  omega

lemma tally_clear (h : count.toNat = occupied used t) (hi : used (t i) = true)
    (ha : used a = false) : (count - 1).toNat = occupied used (update t i a) := by
  have hone : (1 : UInt16).toNat = 1 := rfl
  have hu := occupied_update used t i a
  simp only [hi, ha, if_true, Bool.false_eq_true, if_false] at hu
  rw [UInt16.toNat_sub_of_le _ _ (UInt16.le_iff_toNat_le.mpr (by omega))]
  omega

end Tally

section Calls

variable {wf wf' : Workflow} {id : UInt16} {e : Edge} {c : Call}

lemma checkEditable_bind {α : Type} {k : Unit → WfM α} (h : Consistent wf)
    (hk : Covered (Consistent wf) → Leaves (k ()) wf Consistent) :
    Leaves (checkEditable >>= k) wf Consistent := by
  refine .bind (.get_bind (.failIf_bind (fun _ => h) fun _ => .get_bind ?_))
  cases wf.topologyEnabled with
  | true => exact h
  | false => exact hk ⟨h⟩

lemma used_of_touches (hid : nodeUsed id = true) (he : e.Touches id) : e.used = true := by
  rw [nodeUsed, bne_iff_ne] at hid
  rcases he with rfl | rfl <;> simp [Edge.used, hid]

lemma Workflow.Has.update (h : wf.Has id) {i : Fin 64} (hi : wf.nodes i ≠ id) {new : UInt16}
    (hnodes : wf'.nodes = update wf.nodes i new) : wf'.Has id := by
  obtain ⟨hused, j, hj⟩ := h
  refine ⟨hused, j, ?_⟩
  rw [hnodes, update_of_ne, hj]
  rintro rfl
  exact hi hj

lemma nodeAdd_ends (h : Consistent wf) : Leaves nodeAdd wf Consistent := by
  refine checkEditable_bind h fun _ =>
    .get_bind (.guard fun hroom => .fetch fun i hi => .bind (.modify ?_))
  have hfree : wf.nodes i = 0 := by simpa using find?_some hi
  have hid : (UInt16.ofNat (i + 1)).toNat = i + 1 :=
    UInt16.toNat_ofNat_of_lt' (by show _ < 65536; omega)
  have hused : nodeUsed (UInt16.ofNat (i + 1)) = true := by
    rw [nodeUsed, bne_iff_ne, ne_eq, ← UInt16.toNat_inj, hid]
    exact Nat.succ_ne_zero _
  have hlt := UInt16.lt_iff_toNat_lt.mp (UInt16.not_le.mp (of_decide_eq_false hroom))
  have keeps {id : UInt16} (hhas : wf.Has id) : wf.nodes i ≠ id := by
    rintro rfl
    rw [hfree] at hhas
    cases hhas.1
  refine ⟨tally_fill h.nodeCount (hfree ▸ rfl) hused (hlt.trans (by decide)), ?_, h.edgeCount,
    fun j hj => ?_⟩
  · exact (forall_update_iff _ Numbered).mpr ⟨fun _ => hid, fun j _ => h.ids j⟩
  · obtain ⟨hfrom, hto⟩ := h.endpoints j hj
    exact ⟨hfrom.update (keeps hfrom) rfl, hto.update (keeps hto) rfl⟩

lemma edgeAdd_ends (h : Consistent wf) (hfrom : wf.Has e.fromNode) (hto : wf.Has e.toNode) :
    Leaves (edgeAdd e) wf Consistent := by
  refine checkEditable_bind h fun _ =>
    .get_bind (.guard fun hroom => .guard fun _ => .fetch fun i hi => .modify ?_)
  have hfree : (wf.edges i).used = false := by simpa using find?_some hi
  have hlt := UInt16.lt_iff_toNat_lt.mp (UInt16.not_le.mp (of_decide_eq_false hroom))
  refine ⟨h.nodeCount, h.ids, tally_fill h.edgeCount hfree (used_of_touches hfrom.1 (.inl rfl)) hlt,
    ?_⟩
  exact (forall_update_iff _ fun _ => wf.Joins).mpr ⟨fun _ => ⟨hfrom, hto⟩,
    fun j _ => h.endpoints j⟩

lemma edgeRemove_ends (h : Consistent wf) (he : e.used = true) :
    Leaves (edgeRemove e) wf Consistent := by
  refine checkEditable_bind h fun _ => .get_bind (.fetch fun i hi => .modify ?_)
  have hfound : wf.edges i = e := by simpa using find?_some hi
  refine ⟨h.nodeCount, h.ids, tally_clear h.edgeCount (hfound ▸ he) rfl, ?_⟩
  exact (forall_update_iff _ fun _ => wf.Joins).mpr ⟨nofun, fun j _ => h.endpoints j⟩

lemma dropEdges_spec {l : List (Fin 128)} (hwf' : wf.dropEdges id l = wf')
    (hid : nodeUsed id = true) (hcount : wf.edgeCount.toNat = occupied Edge.used wf.edges) :
    wf'.nodes = wf.nodes ∧ wf'.nodeCount = wf.nodeCount ∧
    wf'.edgeCount.toNat = occupied Edge.used wf'.edges ∧
      ∀ j, (wf'.edges j).used = true → wf'.edges j = wf.edges j ∧
      (j ∈ l → ¬ (wf.edges j).Touches id) := by
  induction l generalizing wf with
  | nil =>
    subst hwf'
    exact ⟨rfl, rfl, hcount, fun j _ => ⟨rfl, nofun⟩⟩
  | cons i l ih =>
    rw [Workflow.dropEdges] at hwf'
    by_cases hi : (wf.edges i).Touches id
    · rw [if_pos hi] at hwf'
      obtain ⟨hnodes, hnodeCount, hcount, hedges⟩ :=
        ih hwf' (tally_clear hcount (used_of_touches hid hi) rfl)
      refine ⟨hnodes, hnodeCount, hcount, fun j hj => ?_⟩
      obtain ⟨heq, hl⟩ := hedges j hj
      have hji : j ≠ i := by
        rintro rfl
        simp [heq, Workflow.clearEdge, Edge.used, Edge.blank] at hj
      simp only [Workflow.clearEdge, update_of_ne hji] at heq hl
      exact ⟨heq, fun hmem => hl ((mem_cons.mp hmem).resolve_left hji)⟩
    · rw [if_neg hi] at hwf'
      obtain ⟨hnodes, hnodeCount, hcount, hedges⟩ := ih hwf' hcount
      refine ⟨hnodes, hnodeCount, hcount, fun j hj => ⟨(hedges j hj).1, fun hmem => ?_⟩⟩
      rcases mem_cons.mp hmem with rfl | hmem
      · exact hi
      · exact (hedges j hj).2 hmem

lemma nodeRemove_ends (h : Consistent wf) (hid : nodeUsed id = true) :
    Leaves (nodeRemove id) wf Consistent := by
  refine checkEditable_bind h fun _ => .get_bind (.fetch fun i hi => .bind (.modify (.modify ?_)))
  have hfound : wf.nodes i = id := by simpa using find?_some hi
  subst hfound
  generalize hwf' : Workflow.dropEdges _ _ _ = wf'
  obtain ⟨hnodes, hnodeCount, hcount, hedges⟩ := dropEdges_spec hwf' hid h.edgeCount
  refine ⟨?_, ?_, hcount, fun j hj => ?_⟩
  · rw [hnodes, hnodeCount]
    exact tally_clear h.nodeCount hid rfl
  · rw [hnodes]
    exact (forall_update_iff _ Numbered).mpr ⟨nofun, fun j _ => h.ids j⟩
  · obtain ⟨heq, hne⟩ := hedges j hj
    obtain ⟨hfrom', hto'⟩ := not_or.mp (hne (mem_finRange j))
    rw [heq] at hj ⊢
    obtain ⟨hfrom, hto⟩ := h.endpoints j hj
    exact ⟨hfrom.update (Ne.symm hfrom') hnodes, hto.update (Ne.symm hto') hnodes⟩

lemma Consistent.step (h : Consistent wf) (hc : c.Proper wf) : Consistent (wf.step c) := by
  apply Ends.final
  cases c with
  | nodeAdd => exact .bind ((nodeAdd_ends h).post fun _ _ h => h)
  | nodeRemove id => exact nodeRemove_ends h hc
  | edgeAdd e => exact edgeAdd_ends h hc.1 hc.2
  | edgeRemove e => exact edgeRemove_ends h hc
  | other live topologyEnabled => exact ⟨h.nodeCount, h.ids, h.edgeCount, h.endpoints⟩

lemma Consistent.create : Consistent Workflow.create := by
  refine ⟨?_, nofun, ?_, nofun⟩
  · simp [Workflow.create, occupied, nodeUsed]
  · simp [Workflow.create, occupied, Edge.used, Edge.blank]

end Calls

/-- Over all proper calls the tables of a workflow stay consistent. -/
theorem tables_consistent (calls : List Call) (h : ProperFrom .create calls) :
    Consistent (calls.foldl Workflow.step .create) := by
  have hwf := Consistent.create
  generalize Workflow.create = wf at h hwf
  induction calls generalizing wf with
  | nil => exact hwf
  | cons c calls ih => exact ih _ h.2 (hwf.step h.1)

/-- Removing a node takes its edges away. -/
theorem tables_consistent_addRemove :
    Consistent
    ([.nodeAdd, .nodeAdd, .edgeAdd ⟨1, 0, 2, 0⟩, .nodeRemove 1].foldl Workflow.step .create) := by
  refine tables_consistent _ ⟨trivial, trivial, ⟨⟨rfl, 0, rfl⟩, rfl, 1, rfl⟩, rfl, trivial⟩

/-- A new workflow takes an edge between nodes it does not have, and a removal of the edge from 0 to
0 leaves it with 65535 edges. -/
theorem tables_inconsistent : ¬ Consistent (Workflow.create.step (.edgeAdd ⟨1, 0, 2, 0⟩)) ∧
    ¬ Consistent (Workflow.create.step (.edgeRemove .blank)) := by
  refine ⟨fun h => ?_, fun h => ?_⟩
  · obtain ⟨⟨-, i, hi⟩, -⟩ := h.endpoints 0 rfl
    exact absurd hi (by revert i; decide)
  · have hcount : 65535 ≤ 128 := h.edgeCount.trans_le (card_le_univ _)
    omega

end Anunix.Wf
