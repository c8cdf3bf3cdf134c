import Anunix.Lib.Kahn
import Anunix.Workflow.Tables

/-!
# Workflow templates

`anx_wf_template_validate` (`kernel/core/workflow/workflow_validate.c`). An array with a count is
the list of its entries in use, a string the bytes of its array; every refusal is `ANX_EINVAL`. The
counters of the sort are numbers: none exceeds the count of edges, and that one is taken from zero
is excluded by `template_validate_exact`.
-/

namespace Anunix.Wf
open Fallible List

abbrev Text := List UInt8

/-- C `struct anx_wf_port`. -/
structure Port where
  name : Text
  dir : UInt32
  typeTag : UInt8

/-- C `ANX_WF_PORT_IN` and `ANX_WF_PORT_OUT`. -/
def portIn : UInt32 := 0
def portOut : UInt32 := 1

/-- C `enum anx_wf_node_kind`, with the strings of the parameters; `other` is a number that is no
kind. -/
inductive NodeKind where
  | trigger (schedule : Text)
  | stateRef
  | cellCall (intent : Text)
  | modelCall (modelId promptTemplate : Text)
  | agentCall (goal : Text)
  | retrieval (queryTemplate : Text)
  | condition (expr : Text)
  | fanOut
  | fanIn
  | transform (op fnExpr : Text)
  | humanReview
  | subflow
  | output (destName : Text)
  | capPromotion
  | other

/-- C `struct anx_wf_node`. -/
structure Node where
  id : UInt16
  kind : NodeKind
  label : Text
  ports : List Port

/-- C `struct anx_wf_template`. -/
structure Template where
  uri : Text
  displayName : Text
  description : Text
  tags : List Text
  nodes : List Node
  edges : List Edge

def terminated (text : Text) : Bool :=
  text.contains 0

def NodeKind.strings : NodeKind → List Text
  | .trigger schedule => [schedule]
  | .cellCall intent => [intent]
  | .modelCall modelId promptTemplate => [modelId, promptTemplate]
  | .agentCall goal => [goal]
  | .retrieval queryTemplate => [queryTemplate]
  | .condition expr => [expr]
  | .transform op fnExpr => [op, fnExpr]
  | .output destName => [destName]
  | _ => []

/-- C `node_strings_valid`. -/
def nodeStringsValid (node : Node) : Bool :=
  (node.label :: node.kind.strings).all terminated

def Port.valid (p : Port) : Bool :=
  terminated p.name && (p.dir == portIn || p.dir == portOut) && p.typeTag ≤ 3

def Node.valid (node : Node) : Bool :=
  !(node.kind matches .other) && node.ports.length ≤ 8 && nodeStringsValid node &&
    node.ports.all Port.valid &&
    (!(node.kind matches .capPromotion) || node.ports.map Port.dir == [portIn, portOut])

/-- The port at an end of an edge; nodes are counted from one. -/
def Template.port (t : Template) (node : UInt16) (port : UInt8) : Option Port :=
  if node = 0 then none else (t.nodes[node.toNat - 1]?).bind fun n => n.ports[port.toNat]?

def Template.edgeValid (t : Template) (e : Edge) : Bool :=
  e.fromNode != e.toNode &&
    match t.port e.fromNode e.fromPort, t.port e.toNode e.toPort with
    | some output, some input => output.dir == portOut && input.dir == portIn &&
      (output.typeTag == 0 || input.typeTag == 0 || output.typeTag == input.typeTag)
    | _, _ => false

def Edge.input (e : Edge) : UInt16 × UInt8 :=
  (e.toNode, e.toPort)

def Template.checkEdges (t : Template) (before : List Edge) : List Edge → Bool
  | [] => true
  | e :: edges =>
    t.edgeValid e && !(before.any fun f => f.input == e.input) && t.checkEdges (e :: before) edges

def Edge.ends (e : Edge) : Nat × Nat :=
  (e.fromNode.toNat, e.toNode.toNat)

/-- The loops that count the edges into each node and sort the nodes. -/
def Template.sorts (t : Template) : Option Bool :=
  Kahn.run (range' 1 t.nodes.length) (t.edges.map Edge.ends)

/-- C `anx_wf_template_validate`. -/
def templateValidate (t : Template) : Except Err Unit := do
  failIf
    (t.nodes.isEmpty || 64 < t.nodes.length || 128 < t.edges.length || 8 < t.tags.length) Err.einval
  failIf
    (t.uri.head? == some 0 || !([t.uri, t.displayName, t.description].all terminated)) Err.einval
  failIf (!t.tags.all terminated) Err.einval
  failIf (!t.nodes.zipIdx.all fun (node, i) => node.id.toNat == i + 1 && node.valid) Err.einval
  failIf (!t.checkEdges [] t.edges) Err.einval
  failIf (t.sorts != some true) Err.einval

/-! ## What it accepts -/

structure Template.WellFormed (t : Template) : Prop where
  sizes : t.nodes.length ≤ 64 ∧ t.edges.length ≤ 128 ∧ t.tags.length ≤ 8
  uri : t.uri.head? ≠ some 0
  strings : ∀ text ∈ t.uri :: t.displayName :: t.description :: t.tags, terminated text = true
  nodes : ∀ node ∈ t.nodes, node.valid = true

/-- An edge goes from an output to an input of another node that takes what it carries. -/
structure Template.Joins (t : Template) (e : Edge) : Prop where
  apart : e.fromNode ≠ e.toNode
  ports : ∃ output input, t.port e.fromNode e.fromPort = some output ∧
    t.port e.toNode e.toPort = some input ∧ output.dir = portOut ∧ input.dir = portIn ∧
    (output.typeTag = 0 ∨ input.typeTag = 0 ∨ output.typeTag = input.typeTag)

structure Template.Sound (t : Template) : Prop where
  ids : ∀ i node, t.nodes[i]? = some node → node.id.toNat = i + 1
  joins : ∀ e ∈ t.edges, t.Joins e
  single : (t.edges.map Edge.input).Nodup
  acyclic : ∀ id, ¬ Relation.TransGen (Kahn.Step (t.edges.map Edge.ends)) id id

section Checks

variable {t : Template} {e : Edge} {before edges : List Edge}

lemma edgeValid_iff : t.edgeValid e = true ↔ t.Joins e := by
  unfold Template.edgeValid
  constructor
  · intro h
    obtain ⟨hne, h⟩ := Bool.and_eq_true_iff.mp h
    split at h
    · rename_i output input hout hin
      simp only [Bool.and_eq_true, beq_iff_eq] at h
      exact ⟨by simpa using hne, output, input, hout, hin, h.1.1,
        h.1.2, by simpa [or_assoc] using h.2⟩
    · cases h
  · rintro ⟨hne, output, input, hout, hin, hdir, hdir', htag⟩
    simp only [hout, hin, hdir, hdir']
    simpa [hne, or_assoc] using htag

lemma checkEdges_iff : t.checkEdges before edges = true ↔ (∀ e ∈ edges, t.Joins e) ∧
    (edges.map Edge.input).Nodup ∧ ∀ e ∈ edges, ∀ f ∈ before, f.input ≠ e.input := by
  induction edges generalizing before with
  | nil => simp [Template.checkEdges]
  | cons e edges ih =>
    have hnodup : ((e :: edges).map Edge.input).Nodup ↔
        (∀ f ∈ edges, e.input ≠ f.input) ∧ (edges.map Edge.input).Nodup := by
      rw [map_cons, nodup_cons, mem_map, not_exists]
      simp only [not_and, eq_comm]
    rw [Template.checkEdges, Bool.and_eq_true, Bool.and_eq_true, ih, edgeValid_iff, hnodup]
    simp only [forall_mem_cons, Bool.not_eq_true', any_eq_false, beq_iff_eq]
    constructor
    · rintro ⟨⟨hjoin, hout⟩, hjoins, hsingle, hnew⟩
      exact ⟨⟨hjoin, hjoins⟩, ⟨fun f hf => (hnew f hf).1, hsingle⟩, hout, fun f hf => (hnew f hf).2⟩
    · rintro ⟨⟨hjoin, hjoins⟩, ⟨hself, hsingle⟩, hout, hnew⟩
      exact ⟨⟨hjoin, hout⟩, hjoins, hsingle, fun f hf => ⟨hself f hf, hnew f hf⟩⟩

lemma mem_range_of_port {node : UInt16} {port : UInt8} {p : Port} (h : t.port node port = some p) :
    node.toNat ∈ range' 1 t.nodes.length := by
  unfold Template.port at h
  split at h
  · cases h
  · rename_i hne
    obtain ⟨n, hn, -⟩ := Option.bind_eq_some_iff.mp h
    obtain ⟨hlt, -⟩ := List.getElem?_eq_some_iff.mp hn
    have hpos : node.toNat ≠ 0 := fun hz => hne (UInt16.toNat_inj.mp hz)
    rw [mem_range'_1]
    omega

lemma sorts_iff (h : ∀ e ∈ t.edges, t.Joins e) : ∃ r, t.sorts = some r ∧
    (r = true ↔ ∀ id, ¬ Relation.TransGen (Kahn.Step (t.edges.map Edge.ends)) id id) := by
  apply Kahn.run_eq nodup_range'
  intro e he
  obtain ⟨e, hmem, rfl⟩ := mem_map.mp he
  obtain ⟨-, output, input, hout, hin, -⟩ := h e hmem
  exact ⟨mem_range_of_port hout, mem_range_of_port hin⟩

end Checks

/-- A template with nodes is accepted exactly if its graph is right, and no counter is taken below
zero. -/
theorem template_validate_exact (t : Template) (h : t.WellFormed) (hne : t.nodes ≠ []) :
    (templateValidate t = .ok () ↔ t.Sound) ∧
    (t.checkEdges [] t.edges = true → t.sorts ≠ none) := by
  obtain ⟨⟨hnodes, hedges, htags⟩, huri, hstrings, hvalid⟩ := h
  simp only [forall_mem_cons] at hstrings
  obtain ⟨h₁, h₂, h₃, htexts⟩ := hstrings
  have hids : (t.nodes.zipIdx.all fun (node, i) => node.id.toNat == i + 1 && node.valid) = true ↔
      ∀ i node, t.nodes[i]? = some node → node.id.toNat = i + 1 := by
    simp only [all_eq_true, Prod.forall, mem_zipIdx_iff_getElem?, Bool.and_eq_true, beq_iff_eq]
    exact ⟨fun hall i node hi => (hall node i hi).1, fun hall node i hi =>
      ⟨hall i node hi, hvalid node (mem_of_getElem? hi)⟩⟩
  have hvalidate : templateValidate t = .ok () ↔
      (∀ i node, t.nodes[i]? = some node → node.id.toNat = i + 1) ∧ t.checkEdges [] t.edges = true ∧
        t.sorts = some true := by
    simp only [templateValidate, bind_eq_ok, failIf_eq_ok, Bool.not_eq_false', hids,
      all_eq_true.mpr htexts]
    simp [hne, hnodes, hedges, htags, huri, h₁, h₂, h₃]
  refine ⟨hvalidate.trans ⟨fun ⟨hid, hcheck, hsort⟩ => ?_, fun hs => ?_⟩, fun hcheck hnone => ?_⟩
  · obtain ⟨hjoins, hsingle, -⟩ := checkEdges_iff.mp hcheck
    obtain ⟨r, hr, hiff⟩ := sorts_iff hjoins
    exact ⟨hid, hjoins, hsingle, hiff.mp (Option.some.inj (hr.symm.trans hsort))⟩
  · obtain ⟨r, hr, hiff⟩ := sorts_iff hs.joins
    refine ⟨hs.ids, checkEdges_iff.mpr ⟨hs.joins, hs.single, by simp⟩, ?_⟩
    rw [hr, hiff.mpr hs.acyclic]
  · obtain ⟨r, hr, -⟩ := sorts_iff (checkEdges_iff.mp hcheck).1
    cases hnone.symm.trans hr

def pairTemplate : Template where
  uri := [97, 0]
  displayName := [0]
  description := [0]
  tags := []
  nodes := [⟨1, .fanOut, [0], [⟨[0], portOut, 0⟩]⟩, ⟨2, .fanIn, [0], [⟨[0], portIn, 1⟩]⟩]
  edges := [⟨1, 0, 2, 0⟩]

/-- Two connected nodes are accepted. -/
theorem pairTemplate_accepted : templateValidate pairTemplate = .ok () ∧ pairTemplate.Sound :=
  ⟨rfl, (template_validate_exact pairTemplate
    ⟨by decide, by decide, by decide, by decide⟩ nofun).1.mp rfl⟩

/-- A template without nodes is sound and refused. -/
theorem template_validate_empty :
    ∃ t : Template, t.WellFormed ∧ t.Sound ∧ templateValidate t = .error .einval := by
  refine ⟨{ pairTemplate with nodes := [], edges := [] },
    ⟨by decide, by decide, by decide, by decide⟩,
    ⟨nofun, nofun, nodup_nil, fun id hcycle => ?_⟩, rfl⟩
  obtain ⟨_, hedge, -⟩ := Relation.TransGen.head'_iff.mp hcycle
  cases hedge

end Anunix.Wf
