import Anunix.Cell.Scope

/-!
# Effect fences

Model of `kernel/core/cap/effect_fence.c`: the run fences that trusted control code creates, binds
to root cells and moves between states, that cells hold or cancel, that expire by the clock, and
that accumulate the label of every payload read under them.

A fence is found by its identifier in a fixed table; `World.fences` is the list of its used entries.
The bodies of the critical sections under `fence_lock` are programs on a single fence (`FenceOp`),
and `locked` runs one on the fence of an identifier. The running cell, which C reads through
`anx_cell_current_id`, is the argument `active`.
-/

namespace Anunix
open Fallible

/-- Sensitivity labels (C `enum anx_sensitivity`). -/
inductive Sensitivity where
  | pub | internal | confidential | restricted
  deriving DecidableEq, Repr

def Sensitivity.rank : Sensitivity → Nat
  | .pub => 0
  | .internal => 1
  | .confidential => 2
  | .restricted => 3

lemma Sensitivity.rank_injective : Function.Injective rank := by
  intro a b h
  cases a <;> cases b <;> first | rfl | exact absurd h (by decide)

instance : LinearOrder Sensitivity :=
  LinearOrder.lift' Sensitivity.rank Sensitivity.rank_injective

/-- States of a fence (C `enum anx_effect_fence_state`). -/
inductive FenceState where
  | running | held | rejected | cancelled | timedOut
  deriving DecidableEq, Repr

/-- States that no transition leaves (C `closed`). -/
def FenceState.closed : FenceState → Bool
  | .running | .held => false
  | .rejected | .cancelled | .timedOut => true

/-- A run fence (C `struct anx_effect_fence_view`). -/
structure Fence where
  id : Uuid
  epoch : UInt64
  generation : UInt64
  state : FenceState
  readSensitivity : Sensitivity
  readOrigin : Uuid
  readCount : UInt64
  childLimit : UInt32
  childCreations : UInt64
  expiresAt : UInt64
  deriving DecidableEq, Repr

/-- Phases of a pending effect (C `enum anx_effect_phase`). -/
inductive EffectPhase where
  | prepared | dispatching | committed | restored | unknown
  deriving DecidableEq, Repr

/-- A pending effect (C `struct anx_pending_effect`). The sink is named by its address. -/
structure PendingEffect where
  cell : Uuid
  sink : Option Nat
  objectOid : Uuid
  phase : EffectPhase
  fenceId : Uuid
  fenceEpoch : UInt64
  deriving DecidableEq, Repr

/-- What the fence and effect calls read and write: the fence table, the cell store, the pending
    effects by handle, the label ceiling of every sink (C `sink->max_sensitivity`), and the
    clock. -/
structure World where
  fences : List Fence
  cells : CellStore
  effects : List PendingEffect
  sinks : Nat → Sensitivity
  now : UInt64

abbrev Kernel := EStateM Err World

/-- Size of the fence table (C `ANX_EFFECT_FENCE_MAX`). -/
def effectFenceMax : Nat := 256

/-- Largest child budget of a lease (C `ANX_EXECUTION_CHILDREN_MAX`). -/
def executionChildrenMax : UInt32 := 1024

/-- The largest 64-bit value (C `~(uint64_t)0`). -/
def uint64Max : UInt64 := 0xFFFFFFFFFFFFFFFF

lemma toNat_succ_of_ne {n : UInt64} (h : n ≠ uint64Max) : (n + 1).toNat = n.toNat + 1 := by
  have hlt := n.toNat_lt
  have hne : n.toNat ≠ 2 ^ 64 - 1 := fun e => h (UInt64.toNat_inj.mp e)
  rw [UInt64.toNat_add, UInt64.toNat_one]
  omega

/-! ## One fence

The bodies of the critical sections, as programs on the one fence that the lock protects. -/

abbrev FenceOp := EStateM Err Fence

/-- Move a fence to another state, if it may go there (C `change_state`). -/
def changeState (state : FenceState) : FenceOp PUnit := do
  let f ← get
  failIf f.state.closed Err.eperm
  failIf (state == f.state || (state == .running && f.state != .held) ||
    (state == .rejected && f.state != .held)) Err.einval
  failIf (f.generation == uint64Max && !state.closed) Err.efull
  modify fun f => { f with
    state := state
    generation := if f.generation != uint64Max then f.generation + 1 else f.generation
    epoch := if state.closed then f.epoch + 1 else f.epoch }

/-- Close a fence whose deadline has passed; the code drops the return value of `change_state`. -/
def expire (now : UInt64) : FenceOp PUnit := do
  let f ← get
  if !f.state.closed && f.expiresAt != 0 && now ≥ f.expiresAt then
    let _ ← attempt (changeState .timedOut)

/-- Whether a fence admits an effect, after lazy expiry (C `state_check`). -/
def stateCheck (now : UInt64) : FenceOp PUnit := do
  expire now
  let f ← get
  failIf (f.state == .held) Err.ebusy
  failIf f.state.closed Err.eperm

/-- Whether the accumulated label may flow to a sink of the given ceiling, or to no sink at all
    (C `sink_check`). -/
def sinkCheck (sink : Option Sensitivity) : FenceOp PUnit := do
  let f ← get
  match sink with
  | none => failIf (f.readSensitivity != .pub) Err.eperm
  | some ceiling => failIf (!decide (f.readSensitivity ≤ ceiling)) Err.eperm

def Fence.observe (f : Fence) (oid : Uuid) (sensitivity : Sensitivity) : Fence :=
  { f with
    readSensitivity := if sensitivity > f.readSensitivity then sensitivity else f.readSensitivity
    readOrigin := if sensitivity > f.readSensitivity then oid else f.readOrigin
    readCount := if f.readCount != uint64Max then f.readCount + 1 else f.readCount }

/-! ## The fence table -/

/-- Run a critical section on the fence under an identifier and write the fence back through its
    pointer (C `find_fence`, with `ANX_ENOENT` for its null result). -/
def locked {α : Type} (id : Uuid) (body : FenceOp α) : Kernel α := fun w =>
  match Keyed.lookup Fence.id w.fences id with
  | none => .error .enoent w
  | some f =>
    match body f with
    | .ok a f' => .ok a { w with fences := Keyed.update Fence.id w.fences f' }
    | .error e f' => .error e { w with fences := Keyed.update Fence.id w.fences f' }

/-- A fence as `anx_effect_fence_create` fills it in. -/
def Fence.create (id : Uuid) : Fence where
  id := id
  epoch := 1
  generation := 1
  state := .running
  readSensitivity := .pub
  readOrigin := .nil
  readCount := 0
  childLimit := 0
  childCreations := 0
  expiresAt := 0

/-- A new running fence (C `anx_effect_fence_create`). The identifier is the one drawn from
    `anx_uuid_generate`. -/
def fenceCreate (active : Option Uuid) (id : Uuid) : Kernel PUnit := do
  failIf active.isSome Err.eperm
  let w ← get
  failIf (w.fences.length == effectFenceMax || (Keyed.lookup Fence.id w.fences id).isSome) Err.efull
  modify fun w => { w with fences := w.fences ++ [Fence.create id] }

/-- A view of a fence after lazy expiry (C `anx_effect_fence_get`). -/
def fenceGet (id : Uuid) : Kernel Fence := do
  failIf (id == .nil) Err.einval
  let w ← get
  locked id do
    let _ ← attempt (stateCheck w.now)
    get

/-- Bind a fresh root cell to a fence (C `anx_effect_fence_bind`). -/
def fenceBind (active : Option Uuid) (cid id : Uuid) : Kernel PUnit := do
  failIf active.isSome Err.eperm
  let _ ← fenceGet id
  let w ← get
  let cell ← orThrow (w.cells.lookup cid) Err.enoent
  failIf (cell.status != .created || cell.runtimeActive || cell.effectFenceId != .nil ||
    cell.parentCid != .nil) Err.ebusy
  modify fun w => { w with cells := w.cells.update { cell with effectFenceId := id } }

/-- A controller transition against an expected generation (C `anx_effect_fence_transition`). -/
def fenceTransition (active : Option Uuid) (id : Uuid) (generation : UInt64)
    (state : FenceState) : Kernel PUnit := do
  failIf active.isSome Err.eperm
  failIf (id == .nil || generation == 0) Err.einval
  let w ← get
  locked id do
    let _ ← attempt (stateCheck w.now)
    let f ← get
    failIf (f.generation != generation) Err.ebusy
    changeState state

/-- Set the child budget and the deadline of a running fence
    (C `anx_effect_fence_set_execution_lease`). -/
def fenceSetExecutionLease (active : Option Uuid) (id : Uuid) (generation : UInt64)
    (childLimit : UInt32) (expiresAt : UInt64) : Kernel PUnit := do
  failIf active.isSome Err.eperm
  let w ← get
  failIf (id == .nil || generation == 0 || childLimit == 0 || childLimit > executionChildrenMax ||
    (expiresAt != 0 && expiresAt ≤ w.now)) Err.einval
  locked id do
    stateCheck w.now
    let f ← get
    failIf (generation != f.generation) Err.ebusy
    failIf (childLimit.toUInt64 < f.childCreations) Err.einval
    failIf (f.generation == uint64Max) Err.efull
    modify fun f => { f with
      childLimit := childLimit
      expiresAt := expiresAt
      generation := f.generation + 1 }

/-- Take one child out of the budget of a fence, if `anx_cell_create` delivers it. A review hold
    (`ANX_EBUSY`) pauses effects only. -/
def reserveChild (now : UInt64) (created : Except Err Cell) : FenceOp Cell := do
  let ret ← attempt (stateCheck now)
  failIf (ret matches .error .eperm) Err.eperm
  let f ← get
  failIf (f.childCreations == uint64Max ||
    (f.childLimit != 0 && f.childCreations ≥ f.childLimit.toUInt64)) Err.efull
  let child ← MonadExcept.ofExcept created
  modify fun f => { f with childCreations := f.childCreations + 1 }
  return child

/-- The child budget of a bound parent (C `anx_effect_fence_create_child`). The outcome of
    `anx_cell_create` is the argument `created`. -/
def fenceCreateChild (parent : Cell) (created : Except Err Cell) : Kernel Cell := do
  let w ← get
  if parent.effectFenceId = .nil then
    MonadExcept.ofExcept created
  else
    locked parent.effectFenceId (reserveChild w.now created)

/-- The critical section of `request_state`. -/
def requestBody (now : UInt64) (state : FenceState) : FenceOp PUnit := do
  let _ ← attempt (stateCheck now)
  let f ← get
  if f.state == state || (state == .cancelled && f.state.closed) then
    return
  else
    changeState state

/-- A hold or a cancellation asked for on behalf of a cell (C `request_state`). -/
def requestState (active : Option Uuid) (cid : Uuid) (state : FenceState) : Kernel PUnit := do
  let w ← get
  let cell ← orThrow (w.cells.lookup cid) Err.enoent
  if cell.effectFenceId = .nil then
    failIf (state != .cancelled) Err.enoent
  else
    failIf (active.any (· != cell.cid)) Err.eperm
    failIf (state == .held && cell.status.terminal) Err.eperm
    locked cell.effectFenceId (requestBody w.now state)

/-- C `anx_effect_fence_hold`. -/
def fenceHold (active : Option Uuid) (cid : Uuid) : Kernel PUnit :=
  requestState active cid .held

/-- C `anx_effect_fence_cancel`. -/
def fenceCancel (active : Option Uuid) (cid : Uuid) : Kernel PUnit :=
  requestState active cid .cancelled

/-- The fence of a cell and the epoch it stands at (C `anx_effect_fence_check`). The epoch is read
    before the expiry check, as in the code. -/
def fenceCheck (cell : Cell) : Kernel (Uuid × UInt64) := do
  let w ← get
  if cell.effectFenceId = .nil then
    return (.nil, 0)
  else
    locked cell.effectFenceId do
      let f ← get
      stateCheck w.now
      return (f.id, f.epoch)

/-- Record a read by the running cell on its fence (C `anx_effect_fence_observe_read`). -/
def fenceObserveRead (active : Option Uuid) (oid : Uuid) (sensitivity : Sensitivity) :
    Kernel PUnit := do
  let w ← get
  match active with
  | none => return
  | some cid =>
    let cell ← orThrow (w.cells.lookup cid) Err.enoent
    if cell.effectFenceId = .nil then
      return
    else
      failIf (oid == .nil) Err.einval
      locked cell.effectFenceId (modify fun f => f.observe oid sensitivity)

/-- Whether the label of a cell's fence may flow to a sink (C `anx_effect_fence_check_sink`). -/
def fenceCheckSink (cell : Cell) (sink : Option Nat) : Kernel PUnit := do
  let w ← get
  if cell.effectFenceId = .nil then
    return
  else
    locked cell.effectFenceId (sinkCheck (sink.map w.sinks))

end Anunix
