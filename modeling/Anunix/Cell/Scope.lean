import Anunix.Cell.Cell
import Anunix.Lib.Fallible

/-!
# Delegated scope

Model of `scope_widens`, `scope_contains`, `anx_cell_check_scope` and `anx_cell_derive_child`
(`kernel/core/exec/runtime.c`), and the proof that delegation only narrows.

The code compares a cell with its direct parent only, and walks up the parent links until it meets a
cell without a parent. `Narrower` is the order that every link must respect: flags are implications,
the numeric limits are compared in `ℕ∞` with `0` read as `⊤` (`limit`), and the four authority
handles are equal. It is a preorder (`Narrower.refl`, `Narrower.trans`), which is what carries the
comparison of adjacent cells over to every ancestor.

The walk is bounded because `scope_contains` demands that the parent sit exactly one level above its
child *and* strictly below its own recursion limit, so the 32-bit increment cannot wrap
(`Contains.depth_lt`) and the depth decreases along the walk whatever the parent links look like.
-/

namespace Anunix
open Fallible Keyed

/-- A child that drops or exceeds a numeric bound of its parent (C `scope_widens`). -/
def scopeWidens (child parent : Nat) : Bool :=
  parent != 0 && (child == 0 || child > parent)

/-- Whether a parent's scope contains a child's (C `scope_contains`). -/
def scopeContains (parent child : Cell) : Bool :=
  if parent.childCids.length > maxChildCells ||
      parent.identityId != child.identityId ||
      parent.effectFenceId != child.effectFenceId ||
      parent.toolNamespaceId != child.toolNamespaceId ||
      parent.revisionLeaseId != child.revisionLeaseId then
    false
  else if !parent.childCids.contains child.cid || parent.status.terminal ||
      !parent.execution.allowRecursiveCells ||
      parent.recursionDepth ≥ parent.execution.maxRecursionDepth ||
      parent.recursionDepth ≥ parent.constraints.maxRecursionDepth ||
      child.recursionDepth != parent.recursionDepth + 1 then
    false
  else if (child.execution.allowNetwork && !parent.execution.allowNetwork) ||
      (child.execution.allowRemoteModels && !parent.execution.allowRemoteModels) ||
      (child.execution.allowRecursiveCells && !parent.execution.allowRecursiveCells) ||
      (child.execution.allowSideEffects && !parent.execution.allowSideEffects) then
    false
  else if
      scopeWidens child.constraints.maxLatencyMs.toNat parent.constraints.maxLatencyMs.toNat ||
      scopeWidens child.constraints.maxMemoryAdmissionBytes.toNat
        parent.constraints.maxMemoryAdmissionBytes.toNat ||
      scopeWidens child.constraints.maxCostUsdCents.toNat
        parent.constraints.maxCostUsdCents.toNat ||
      scopeWidens child.cognitive.maxTokens.toNat parent.cognitive.maxTokens.toNat ||
      scopeWidens child.cognitive.maxReasoningDepth.toNat
        parent.cognitive.maxReasoningDepth.toNat ||
      child.constraints.maxChildCells > parent.constraints.maxChildCells ||
      child.constraints.maxRecursionDepth > parent.constraints.maxRecursionDepth ||
      child.execution.maxRecursionDepth > parent.execution.maxRecursionDepth then
    false
  else if (parent.constraints.locality == .localOnly ||
      parent.constraints.locality == .remoteRequired) &&
      child.constraints.locality != parent.constraints.locality then
    false
  else
    true

/-- The `while` loop of `anx_cell_check_scope`, one unit of fuel per iteration. `none` means that
    the fuel ran out before the loop was left. -/
def scopeWalk (s : CellStore) : Nat → Cell → Option (Except Err Unit)
  | 0, _ => none
  | fuel + 1, current =>
    if current.parentCid = .nil then
      some (if current.recursionDepth ≠ 0 then .error .eperm else .ok ())
    else
      match s.lookup current.parentCid with
      | none => some (.error .eperm)
      | some parent =>
        if scopeContains parent current then scopeWalk s fuel parent
        else some (.error .eperm)

/-- The scope check of one cell (C `anx_cell_check_scope`). The fuel is always enough, see
    `scopeWalk_total`. -/
def checkScope (s : CellStore) (cell : Cell) : Except Err Unit :=
  (scopeWalk s (cell.recursionDepth.toNat + 1) cell).getD (.error .eperm)

/-- What the surroundings of one `anx_cell_derive_child` call decide: the running cell
    (`anx_cell_current_id`), the verdict of `anx_identity_admit`, and the outcome of
    `anx_effect_fence_create_child`, which is an error or the CID drawn for the new cell. -/
structure DeriveEnv where
  active : Option Uuid
  identity : Except Err Unit
  createChild : Except Err Uuid

/-- The new child after the lineage and policy assignments of `anx_cell_derive_child`. -/
def Cell.inherit (parent : Cell) (cid : Uuid) : Cell :=
  { Cell.create cid with
    parentCid := parent.cid
    identityId := parent.identityId
    effectFenceId := parent.effectFenceId
    toolNamespaceId := parent.toolNamespaceId
    revisionLeaseId := parent.revisionLeaseId
    recursionDepth := parent.recursionDepth + 1
    constraints := parent.constraints
    execution := parent.execution
    cognitive := parent.cognitive }

def Cell.record (parent : Cell) (cid : Uuid) : Cell :=
  { parent with childCids := parent.childCids ++ [cid] }

/-- Create a child that inherits its parent's policies (C `anx_cell_derive_child`). Returns the
    child and the store in which it is registered and recorded by its parent. -/
def deriveChild (s : CellStore) (env : DeriveEnv) (parentPtr : Uuid) :
    Except Err (Cell × CellStore) := do
  let parent ← orThrow (s.lookup parentPtr) Err.einval
  failIf (env.active.any (· != parent.cid)) Err.eperm
  checkScope s parent
  env.identity
  failIf (parent.status.terminal || !parent.execution.allowRecursiveCells ||
      parent.recursionDepth ≥ parent.execution.maxRecursionDepth ||
      parent.recursionDepth ≥ parent.constraints.maxRecursionDepth) Err.eperm
  failIf (parent.childCids.length ≥ maxChildCells ||
      parent.childCids.length ≥ parent.constraints.maxChildCells.toNat) Err.enomem
  let cid ← env.createChild
  let child := parent.inherit cid
  return (child, child :: s.update (parent.record cid))

/-! ## The order that delegation respects -/

/-- A numeric limit as a bound: `0` removes it. -/
def limit (n : Nat) : ℕ∞ := if n = 0 then ⊤ else n

lemma scopeWidens_eq_false_iff {c p : Nat} : scopeWidens c p = false ↔ limit c ≤ limit p := by
  unfold scopeWidens limit
  by_cases hp : p = 0
  · simp [hp]
  · by_cases hc : c = 0 <;> simp [hp, hc]

/-- `c` has no more authority and no wider limits than `a`. -/
structure Narrower (c a : Cell) : Prop where
  network : c.execution.allowNetwork → a.execution.allowNetwork
  remoteModels : c.execution.allowRemoteModels → a.execution.allowRemoteModels
  recursiveCells : c.execution.allowRecursiveCells → a.execution.allowRecursiveCells
  sideEffects : c.execution.allowSideEffects → a.execution.allowSideEffects
  latency : limit c.constraints.maxLatencyMs.toNat ≤ limit a.constraints.maxLatencyMs.toNat
  memory : limit c.constraints.maxMemoryAdmissionBytes.toNat ≤
    limit a.constraints.maxMemoryAdmissionBytes.toNat
  cost : limit c.constraints.maxCostUsdCents.toNat ≤ limit a.constraints.maxCostUsdCents.toNat
  tokens : limit c.cognitive.maxTokens.toNat ≤ limit a.cognitive.maxTokens.toNat
  reasoning : limit c.cognitive.maxReasoningDepth.toNat ≤
    limit a.cognitive.maxReasoningDepth.toNat
  children : c.constraints.maxChildCells.toNat ≤ a.constraints.maxChildCells.toNat
  recursion : c.constraints.maxRecursionDepth.toNat ≤ a.constraints.maxRecursionDepth.toNat
  execRecursion : c.execution.maxRecursionDepth.toNat ≤ a.execution.maxRecursionDepth.toNat
  identity : c.identityId = a.identityId
  fence : c.effectFenceId = a.effectFenceId
  tools : c.toolNamespaceId = a.toolNamespaceId
  lease : c.revisionLeaseId = a.revisionLeaseId

lemma Narrower.refl (c : Cell) : Narrower c c := by
  constructor <;> first | exact id | exact le_refl _ | rfl

lemma Narrower.trans {c p a : Cell} (hcp : Narrower c p) (hpa : Narrower p a) : Narrower c a where
  network := hpa.network ∘ hcp.network
  remoteModels := hpa.remoteModels ∘ hcp.remoteModels
  recursiveCells := hpa.recursiveCells ∘ hcp.recursiveCells
  sideEffects := hpa.sideEffects ∘ hcp.sideEffects
  latency := hcp.latency.trans hpa.latency
  memory := hcp.memory.trans hpa.memory
  cost := hcp.cost.trans hpa.cost
  tokens := hcp.tokens.trans hpa.tokens
  reasoning := hcp.reasoning.trans hpa.reasoning
  children := hcp.children.trans hpa.children
  recursion := hcp.recursion.trans hpa.recursion
  execRecursion := hcp.execRecursion.trans hpa.execRecursion
  identity := hcp.identity.trans hpa.identity
  fence := hcp.fence.trans hpa.fence
  tools := hcp.tools.trans hpa.tools
  lease := hcp.lease.trans hpa.lease

/-- What `scope_contains` establishes about one parent link. -/
structure Contains (parent child : Cell) : Prop where
  count : parent.childCids.length ≤ maxChildCells
  linked : child.cid ∈ parent.childCids
  live : parent.status.terminal = false
  recursive : parent.execution.allowRecursiveCells = true
  belowExec : parent.recursionDepth < parent.execution.maxRecursionDepth
  belowConstraint : parent.recursionDepth < parent.constraints.maxRecursionDepth
  depth : child.recursionDepth = parent.recursionDepth + 1
  narrower : Narrower child parent
  locality : parent.constraints.locality = .localOnly ∨
    parent.constraints.locality = .remoteRequired →
    child.constraints.locality = parent.constraints.locality

section Walk

variable {s : CellStore} {parent child cell : Cell}

lemma scopeContains_iff : scopeContains parent child = true ↔ Contains parent child := by
  constructor
  · intro h
    unfold scopeContains at h
    split_ifs at h with hAuth hLink hFlags hLimits hLocality
    simp only [Bool.or_eq_true, decide_eq_true_eq, bne_iff_ne, not_or, not_not, not_lt,
      Bool.not_eq_true',
      Bool.not_eq_false, Bool.not_eq_true, UInt32.not_le, UInt32.not_lt, List.contains_iff_mem,
        scopeWidens_eq_false_iff] at hAuth hLink hFlags hLimits
    obtain ⟨⟨⟨⟨count, identity⟩, fence⟩, tools⟩, lease⟩ := hAuth
    obtain ⟨⟨⟨⟨⟨linked, live⟩, recursive⟩, belowExec⟩, belowConstraint⟩, depth⟩ := hLink
    obtain ⟨⟨⟨network, remote⟩, recCells⟩, sideEff⟩ := hFlags
    obtain ⟨⟨⟨⟨⟨⟨⟨latency, memory⟩, cost⟩, tokens⟩, reasoning⟩, children⟩, recursion⟩, execRec⟩ :=
      hLimits
    refine ⟨count, linked, live, recursive, belowExec, belowConstraint, depth, ?_, ?_⟩
    · exact
        { network := by simpa using network
          remoteModels := by simpa using remote
          recursiveCells := by simpa using recCells
          sideEffects := by simpa using sideEff
          latency, memory, cost, tokens, reasoning
          children := UInt32.le_iff_toNat_le.mp children
          recursion := UInt32.le_iff_toNat_le.mp recursion
          execRecursion := UInt32.le_iff_toNat_le.mp execRec
          identity := identity.symm
          fence := fence.symm
          tools := tools.symm
          lease := lease.symm }
    · simpa using hLocality
  · intro h
    obtain ⟨count, linked, live, recursive, belowExec, belowConstraint, depth, nar, loc⟩ := h
    have flag : ∀ {c p : Bool}, (c → p) → (c && !p) = false := by decide
    unfold scopeContains
    rw [if_neg, if_neg, if_neg, if_neg, if_neg]
    · simpa using loc
    · simp [scopeWidens_eq_false_iff.mpr nar.latency, scopeWidens_eq_false_iff.mpr nar.memory,
        scopeWidens_eq_false_iff.mpr nar.cost, scopeWidens_eq_false_iff.mpr nar.tokens,
        scopeWidens_eq_false_iff.mpr nar.reasoning, UInt32.le_iff_toNat_le, nar.children,
        nar.recursion, nar.execRecursion]
    · simp [flag nar.network, flag nar.remoteModels, flag nar.recursiveCells, flag nar.sideEffects]
    · simp [linked, live, recursive, belowExec, belowConstraint, depth]
    · simp [count, nar.identity, nar.fence, nar.tools, nar.lease]

/-- The parent of a contained cell sits strictly above it: the increment in `scope_contains` cannot
    wrap, because the parent is below its own 32-bit recursion limit. -/
lemma Contains.depth_lt (h : Contains parent child) :
    parent.recursionDepth.toNat < child.recursionDepth.toNat := by
  have hlt := UInt32.lt_iff_toNat_lt.mp h.belowExec
  have hmax := parent.execution.maxRecursionDepth.toNat_lt
  rw [h.depth, UInt32.toNat_add]
  simp only [UInt32.reduceToNat]
  omega

/-! ## The walk -/

/-- The walk ends within the recursion depth of its starting cell, whatever the parent links are,
    and more fuel does not change its result. -/
lemma scopeWalk_stable : ∀ {fuel fuel' : Nat} {cell : Cell}, cell.recursionDepth.toNat < fuel →
      cell.recursionDepth.toNat < fuel' →
      scopeWalk s fuel cell = scopeWalk s fuel' cell ∧ (scopeWalk s fuel cell).isSome
  | 0, _, _, h, _ => absurd h (Nat.not_lt_zero _)
  | _, 0, _, _, h => absurd h (Nat.not_lt_zero _)
  | fuel + 1, fuel' + 1, cell, h, h' => by
    simp only [scopeWalk]
    by_cases hnil : cell.parentCid = .nil
    · simp only [if_pos hnil]
      exact ⟨trivial, rfl⟩
    · simp only [if_neg hnil]
      cases s.lookup cell.parentCid with
      | none => exact ⟨rfl, rfl⟩
      | some parent =>
        by_cases hc : scopeContains parent cell = true
        · have hlt := (scopeContains_iff.mp hc).depth_lt
          simp only [if_pos hc]
          exact scopeWalk_stable (by omega) (by omega)
        · simp only [if_neg hc]
          exact ⟨trivial, rfl⟩

/-- Enough fuel makes the walk return, and what it returns is the scope check. -/
lemma scopeWalk_total {fuel : Nat} (h : cell.recursionDepth.toNat < fuel) :
    scopeWalk s fuel cell = some (checkScope s cell) := by
  obtain ⟨heq, hsome⟩ := scopeWalk_stable h (Nat.lt_succ_self cell.recursionDepth.toNat)
  obtain ⟨r, hr⟩ := Option.isSome_iff_exists.mp hsome
  rw [checkScope, ← heq, hr]
  rfl

/-- A chain of contained cells that ends in a root at depth 0. -/
inductive Delegated (s : CellStore) : Cell → Prop where
  | root {c} :
    c.parentCid = .nil →
    c.recursionDepth = 0 →
    Delegated s c
  | link {c p} :
    c.parentCid ≠ .nil →
    s.lookup c.parentCid = some p →
    Contains p c →
    Delegated s p →
    Delegated s c

lemma checkScope_link {c p : Cell} (hnil : c.parentCid ≠ .nil) (hp : s.lookup c.parentCid = some p)
    (hc : Contains p c) : checkScope s c = checkScope s p := by
  have hwalk : scopeWalk s (c.recursionDepth.toNat + 1) c =
      scopeWalk s c.recursionDepth.toNat p := by
    rw [scopeWalk, if_neg hnil, hp]
    exact if_pos (scopeContains_iff.mpr hc)
  have hc' := scopeWalk_total (s := s) (Nat.lt_succ_self c.recursionDepth.toNat)
  rw [hwalk, scopeWalk_total hc.depth_lt] at hc'
  exact (Option.some.inj hc').symm

lemma checkScope_ok_iff {c : Cell} : checkScope s c = .ok () ↔ Delegated s c := by
  constructor
  · -- the depth decreases along every link that the check follows
    induction hn : c.recursionDepth.toNat using Nat.strong_induction_on generalizing c with
    | _ n ih =>
      intro h
      have hwalk := scopeWalk_total (s := s) (Nat.lt_succ_self c.recursionDepth.toNat)
      rw [h, scopeWalk] at hwalk
      by_cases hnil : c.parentCid = .nil
      · rw [if_pos hnil] at hwalk
        by_cases hdepth : c.recursionDepth = 0
        · exact .root hnil hdepth
        · simp [hdepth] at hwalk
      · rw [if_neg hnil] at hwalk
        cases hp : s.lookup c.parentCid with
        | none => simp [hp] at hwalk
        | some p =>
          by_cases hc : scopeContains p c = true
          · have hc := scopeContains_iff.mp hc
            refine .link hnil hp hc (ih _ (hn ▸ hc.depth_lt) rfl ?_)
            rw [← checkScope_link hnil hp hc, h]
          · simp [hp, hc] at hwalk
  · intro h
    induction h with
    | @root c hnil hdepth => simp [checkScope, scopeWalk, hnil, hdepth]
    | @link c p hnil hp hc _ ih => rw [checkScope_link hnil hp hc, ih]

/-! ## Ancestors -/

/-- The CIDs met by following parent links upwards from a cell. A link that does not resolve is met
    as well, and ends the chain. -/
inductive AncestorId (s : CellStore) : Cell → Uuid → Prop where
  | parent {c} :
    c.parentCid ≠ .nil →
    AncestorId s c c.parentCid
  | up {c p id} :
    c.parentCid ≠ .nil →
    s.lookup c.parentCid = some p →
    AncestorId s p id →
    AncestorId s c id

/-- Every ancestor of a delegated cell is registered, live, allows recursion, and is at least as
    wide as the cell. -/
lemma Delegated.ancestor {c : Cell} (h : Delegated s c) : ∀ {id}, AncestorId s c id →
      ∃ a, s.lookup id = some a ∧ a.status.terminal = false ∧
        a.execution.allowRecursiveCells = true ∧ Narrower c a := by
  induction h with
  | root hnil _ =>
    intro id anc
    cases anc with
    | parent hne => exact absurd hnil hne
    | up hne => exact absurd hnil hne
  | @link c p hnil hp hc _ ih =>
    intro id anc
    cases anc with
    | parent => exact ⟨p, hp, hc.live, hc.recursive, hc.narrower⟩
    | up _ hp' anc =>
      cases hp.symm.trans hp'
      obtain ⟨a, ha, live, rec, nar⟩ := ih anc
      exact ⟨a, ha, live, rec, hc.narrower.trans nar⟩

lemma Delegated.exists_root {c : Cell} (h : Delegated s c) :
    ∃ r, (r = c ∨ ∃ id, AncestorId s c id ∧ s.lookup id = some r) ∧
      r.parentCid = .nil ∧ r.recursionDepth = 0 := by
  induction h with
  | @root c hnil hdepth => exact ⟨c, .inl rfl, hnil, hdepth⟩
  | @link c p hnil hp _ _ ih =>
    obtain ⟨r, hr, rnil, rdepth⟩ := ih
    refine ⟨r, .inr ?_, rnil, rdepth⟩
    obtain rfl | ⟨id, anc, hid⟩ := hr
    · exact ⟨_, .parent hnil, hp⟩
    · exact ⟨id, .up hnil hp anc, hid⟩

end Walk

/-! ## Deriving a child -/

def Grown (c c' : Cell) : Prop :=
  ∃ cids, c' = { c with childCids := cids } ∧ c.childCids ⊆ cids ∧
    (c.childCids.length ≤ maxChildCells → cids.length ≤ maxChildCells)

lemma Grown.refl (c : Cell) : Grown c c :=
  ⟨c.childCids, rfl, List.Subset.refl _, id⟩

lemma Contains.grown {p p' c c' : Cell} (h : Contains p c) (hp : Grown p p') (hc : Grown c c') :
    Contains p' c' := by
  obtain ⟨pcids, rfl, psub, plen⟩ := hp
  obtain ⟨ccids, rfl, _, _⟩ := hc
  exact { h with
    count := plen h.count
    linked := psub h.linked
    narrower := { h.narrower with } }

lemma Delegated.grown {s s' : CellStore}
    (hs : ∀ {id p}, s.lookup id = some p → ∃ p', s'.lookup id = some p' ∧ Grown p p')
    {c : Cell} (h : Delegated s c) : ∀ {c'}, Grown c c' → Delegated s' c' := by
  induction h with
  | root hnil hdepth =>
    rintro _ ⟨cids, rfl, _, _⟩
    exact .root hnil hdepth
  | @link c p hnil hp hc _ ih =>
    intro c' hg
    obtain ⟨p', hp', hgp⟩ := hs hp
    have hc' := hc.grown hgp hg
    obtain ⟨cids, rfl, _, _⟩ := hg
    exact .link hnil hp' hc' (ih hgp)

section Derive

variable {s s' : CellStore} {env : DeriveEnv} {ptr : Uuid} {child : Cell}

lemma deriveChild_ok (h : deriveChild s env ptr = .ok (child, s')) :
    ∃ parent cid, s.lookup ptr = some parent ∧
      env.createChild = .ok cid ∧ Delegated s parent ∧
      Contains (parent.record cid) (parent.inherit cid) ∧
      child = parent.inherit cid ∧ s' = child :: s.update (parent.record cid) := by
  simp only [deriveChild, bind_eq_ok, orThrow_eq_ok, failIf_eq_ok] at h
  obtain ⟨parent, hp, _, _, _, hscope, _, _, _, hgate, _, hcount, cid, hcid, hret⟩ := h
  simp only [Bool.or_eq_false_iff, Bool.not_eq_false', decide_eq_false_iff_not,
    UInt32.not_le] at hgate hcount
  obtain ⟨⟨⟨live, recursive⟩, belowExec⟩, belowConstraint⟩ := hgate
  cases hret
  refine ⟨parent, cid, hp, hcid, checkScope_ok_iff.mp hscope, ?_, rfl, rfl⟩
  exact
    { live, recursive, belowExec, belowConstraint
      count := by simpa [Cell.record] using hcount.1
      linked := by simp [Cell.record, Cell.inherit, Cell.create]
      depth := rfl
      narrower := { Narrower.refl parent with }
      locality := fun _ => rfl }

lemma deriveChild_delegated (hnil : ptr ≠ .nil)
    (fresh : ∀ cid, env.createChild = .ok cid → s.lookup cid = none)
    (h : deriveChild s env ptr = .ok (child, s')) : Delegated s' child := by
  obtain ⟨parent, cid, hp, hcid, hdel, hcontains, rfl, rfl⟩ := deriveChild_ok h
  obtain rfl : parent.cid = ptr := lookup_key hp
  have hgrown : Grown parent (parent.record cid) :=
    ⟨_, rfl, List.subset_append_left .., fun _ => hcontains.count⟩
  have hne : ∀ {id p}, s.lookup id = some p → (parent.inherit cid).cid ≠ id := by
    rintro id p hid rfl
    rw [show (parent.inherit cid).cid = cid from rfl, fresh cid hcid] at hid
    cases hid
  -- every cell that was registered before still is, with at most one more child
  have hs : ∀ {id p}, s.lookup id = some p →
      ∃ p', CellStore.lookup (parent.inherit cid :: s.update (parent.record cid)) id = some p' ∧
        Grown p p' := by
    intro id p hid
    rw [CellStore.lookup, lookup_cons, if_neg (hne hid)]
    by_cases hpar : parent.cid = id
    · subst hpar
      cases hp.symm.trans hid
      exact ⟨_, lookup_update_self hp, hgrown⟩
    · exact ⟨p, (lookup_update_of_ne (a := parent.record cid) hpar).trans hid, .refl p⟩
  have hparent : CellStore.lookup (parent.inherit cid :: s.update (parent.record cid)) parent.cid =
      some (parent.record cid) := by
    rw [CellStore.lookup, lookup_cons, if_neg (hne hp)]
    exact lookup_update_self hp
  exact .link hnil hparent hcontains (hdel.grown hs hgrown)

end Derive

/-! ## Main result -/

/-- Delegated scope only narrows: the walk ends, a cell that passes has registered, live and wider
ancestors up to a root, and a derived child passes in its turn. The CID drawn for the child is new
to the store. -/
theorem checkScope_narrows (s : CellStore) (cell : Cell) :
    (∀ fuel, cell.recursionDepth.toNat < fuel →
      scopeWalk s fuel cell = some (checkScope s cell)) ∧ (checkScope s cell = .ok () →
      (∀ id, AncestorId s cell id → ∃ a, s.lookup id = some a ∧ a.status.terminal = false ∧
          a.execution.allowRecursiveCells = true ∧ Narrower cell a) ∧
      ∃ r, (r = cell ∨ ∃ id, AncestorId s cell id ∧ s.lookup id = some r) ∧
        r.parentCid = .nil ∧ r.recursionDepth = 0) ∧ (∀ env ptr child s',
      (∀ c ∈ s, ∃ ts r₁ r₂, c.cid = Uuid.generate ts r₁ r₂) →
      (∀ cid, env.createChild = .ok cid → s.lookup cid = none) →
      deriveChild s env ptr = .ok (child, s') → checkScope s' child = .ok ()) := by
  refine ⟨fun fuel => scopeWalk_total, fun h => ?_, fun env ptr child s' drawn fresh h => ?_⟩
  · have hdel := checkScope_ok_iff.mp h
    exact ⟨fun id => hdel.ancestor, hdel.exists_root⟩
  · obtain ⟨parent, -, hp, -⟩ := deriveChild_ok h
    obtain ⟨ts, r₁, r₂, hcid⟩ := drawn parent (lookup_mem hp)
    have hnil : ptr ≠ .nil := by
      rw [← lookup_key hp, hcid]
      exact Uuid.generate_ne_nil ts r₁ r₂
    exact checkScope_ok_iff.mpr (deriveChild_delegated hnil fresh h)

def recursiveRoot : Cell :=
  let fresh := Cell.create (.generate 1 1 1)
  { fresh with execution := { fresh.execution with allowRecursiveCells := true } }

def openEnv : DeriveEnv := ⟨none, .ok (), .ok (.generate 2 2 2)⟩

/-- A recursive root passes, and so does a child that it derives. -/
theorem checkScope_narrows_recursiveRoot : checkScope [recursiveRoot] recursiveRoot = .ok () ∧
    ∃ child s', deriveChild [recursiveRoot] openEnv recursiveRoot.cid = .ok (child, s') ∧
      checkScope s' child = .ok () := by
  refine ⟨rfl, _, _, rfl, (checkScope_narrows [recursiveRoot] recursiveRoot).2.2 openEnv
    recursiveRoot.cid _ _ ?_ ?_ rfl⟩
  · exact List.forall_mem_singleton.mpr ⟨1, 1, 1, rfl⟩
  · rintro cid ⟨⟩
    decide

end Anunix
