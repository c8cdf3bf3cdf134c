import Anunix.Effect.Fence
import Anunix.Lib.Run

/-!
# Protected effects

Model of `kernel/core/cap/effect.c` (prepare, dispatch, settle), of the payload read that feeds the
fence label (`anx_so_read_payload`, `kernel/core/state/objstore.c`), and of the machine whose inputs
are these calls together with everything the rest of the kernel may do in between.

A pending effect is named by its position in `World.effects`: the record is allocated by
`anx_effect_prepare` and its owner holds on to the pointer.
-/

namespace Anunix
open Fallible

/-- The fields of a state object that these calls read (C `struct anx_state_object`). The flag is
    set in the states `ANX_OBJ_DELETED` and `ANX_OBJ_TOMBSTONE`. -/
protected structure StateObject where
  oid : Uuid
  deleted : Bool
  sensitivity : Sensitivity
  payload : List UInt8

open Anunix (StateObject)

/-- What an effect call asks the rest of the kernel: the verdicts of `anx_identity_admit` and
    `anx_branch_group_effect_check`, the object store, and whether `anx_zalloc` finds memory. -/
structure Surroundings where
  identity : Except Err Unit
  branch : Except Err Unit
  object : Uuid → Option StateObject
  memory : Bool

/-- How a handle was opened (C `enum anx_open_mode`). -/
inductive OpenMode where
  | read | write | readwrite
  deriving DecidableEq, Repr

/-- Read part of a payload through a handle (C `anx_so_read_payload`). The result is what lands in
    the caller's buffer. -/
def soReadPayload (active : Option Uuid) (obj : StateObject) (mode : OpenMode)
    (offset len : UInt64) : Kernel (List UInt8) := do
  failIf (mode == .write) Err.eperm
  if offset.toNat ≥ obj.payload.length || len == 0 then
    return []
  else
    let n := min len.toNat (obj.payload.length - offset.toNat)
    failIf (n > 0x7fffffff) Err.einval
    fenceObserveRead active obj.oid obj.sensitivity
    return (obj.payload.drop offset.toNat).take n

/-- The one-way transition table (C `effect_transitions`). -/
def effectTransitions : EffectPhase → EffectPhase → Bool
  | .prepared, .dispatching => true
  | .dispatching, .committed => true
  | .dispatching, .restored => true
  | .dispatching, .unknown => true
  | _, _ => false

/-- Move an effect along the table (C `effect_transition`). -/
def effectTransition (k : Nat) (phase : EffectPhase) : Kernel PUnit := do
  let w ← get
  let effect ← orThrow w.effects[k]? Err.einval
  failIf (!effectTransitions effect.phase phase) Err.einval
  modify fun w => { w with effects := w.effects.set k { effect with phase := phase } }

/-- Whether an object may flow to a sink (C `anx_sink_check_send`, where an object that does not
    resolve counts as public). -/
def sinkCheckSend (sur : Surroundings) (oid : Uuid) (ceiling : Sensitivity) : Kernel PUnit :=
  failIf (((sur.object oid).map StateObject.sensitivity).getD .pub > ceiling) Err.eperm

/-- The data-flow half of the authority check: a live object whose label fits the sink. -/
def effectCheckObject (sur : Surroundings) (sink : Option Nat) (oid : Uuid) : Kernel PUnit := do
  let w ← get
  match sink with
  | none => return
  | some addr =>
    if oid = .nil then
      sinkCheckSend sur oid (w.sinks addr)
    else
      let object ← orThrow (sur.object oid) Err.enoent
      failIf object.deleted Err.enoent
      sinkCheckSend sur oid (w.sinks addr)

/-- Whether a cell may cause an effect now (C `effect_check_authority`). -/
def effectCheckAuthority (active : Option Uuid) (sur : Surroundings) (cid : Uuid)
    (sink : Option Nat) (oid : Uuid) : Kernel PUnit := do
  failIf (active.any (· != cid)) Err.eperm
  let w ← get
  let cell ← orThrow (w.cells.lookup cid) Err.enoent
  failIf (!(cell.execution.allowSideEffects && !cell.status.terminal &&
    (sur.identity matches .ok _))) Err.eperm
  fenceCheckSink cell sink
  MonadExcept.ofExcept sur.branch
  effectCheckObject sur sink oid

/-- Prepare an effect and remember the fence epoch it was admitted under (C
`anx_effect_prepare`). -/
def effectPrepare (active : Option Uuid) (sur : Surroundings) (cid : Uuid) (sink : Option Nat)
    (oid : Uuid) : Kernel PUnit := do
  effectCheckAuthority active sur cid sink oid
  let w ← get
  let owner ← orThrow (w.cells.lookup cid) Err.enoent
  let (fenceId, fenceEpoch) ← fenceCheck owner
  failIf (!sur.memory) Err.enomem
  modify fun w => { w with
    effects := w.effects ++
      [{ cell := cid, sink := sink, objectOid := oid, phase := .prepared, fenceId := fenceId,
         fenceEpoch := fenceEpoch }] }

/-- The critical section of the dispatch decision: same epoch as at preparation, still admitting,
    and a label that fits the sink. -/
def admitBody (now : UInt64) (epoch : UInt64) (sink : Option Sensitivity) : FenceOp PUnit := do
  let f ← get
  failIf (f.epoch != epoch) Err.eperm
  stateCheck now
  sinkCheck sink

def fenceAdmit (effect : PendingEffect) : Kernel PUnit := do
  let w ← get
  if effect.fenceId = .nil then
    failIf (effect.fenceEpoch != 0) Err.eperm
  else
    locked effect.fenceId (admitBody w.now effect.fenceEpoch (effect.sink.map w.sinks))

/-- The phase gate (C `anx_effect_fence_dispatch`). -/
def fenceDispatch (k : Nat) (effect : PendingEffect) : Kernel PUnit := do
  let w ← get
  let cell ← orThrow (w.cells.lookup effect.cell) Err.enoent
  failIf (effect.phase != .prepared) Err.einval
  failIf (cell.effectFenceId != effect.fenceId) Err.eperm
  fenceAdmit effect
  modify fun w => { w with effects := w.effects.set k { effect with phase := .dispatching } }

/-- C `anx_effect_mark_dispatching`. -/
def effectMarkDispatching (active : Option Uuid) (sur : Surroundings) (k : Nat) :
    Kernel PUnit := do
  let w ← get
  let effect ← orThrow w.effects[k]? Err.einval
  failIf (effect.phase != .prepared) Err.einval
  effectCheckAuthority active sur effect.cell effect.sink effect.objectOid
  fenceDispatch k effect

/-- C `anx_effect_commit`. -/
def effectCommit (k : Nat) : Kernel PUnit := effectTransition k .committed

/-- C `anx_effect_restore`. -/
def effectRestore (k : Nat) : Kernel PUnit := effectTransition k .restored

/-- C `anx_effect_mark_unknown`. -/
def effectMarkUnknown (k : Nat) : Kernel PUnit := effectTransition k .unknown

/-! ## The machine -/

/-- One call, or one thing the rest of the kernel does: the clock moves, a sink is registered anew,
    the cell store changes. -/
inductive EffectOp where
  | create (active : Option Uuid) (id : Uuid)
  | get (id : Uuid)
  | bind (active : Option Uuid) (cid id : Uuid)
  | transition (active : Option Uuid) (id : Uuid) (generation : UInt64) (state : FenceState)
  | lease (active : Option Uuid) (id : Uuid) (generation : UInt64) (childLimit : UInt32)
      (expiresAt : UInt64)
  | createChild (parent : Cell) (created : Except Err Cell)
  | hold (active : Option Uuid) (cid : Uuid)
  | cancel (active : Option Uuid) (cid : Uuid)
  | read (active : Option Uuid) (obj : StateObject) (mode : OpenMode) (offset len : UInt64)
  | prepare (active : Option Uuid) (sur : Surroundings) (cid : Uuid) (sink : Option Nat)
      (oid : Uuid)
  | markDispatching (active : Option Uuid) (sur : Surroundings) (k : Nat)
  | commit (k : Nat)
  | restore (k : Nat)
  | markUnknown (k : Nat)
  | clock (now : UInt64)
  | registerSink (addr : Nat) (ceiling : Sensitivity)
  | setCells (cells : CellStore)

def EffectOp.exec : EffectOp → Kernel PUnit
  | .create active id => fenceCreate active id
  | .get id => do let _ ← fenceGet id
  | .bind active cid id => fenceBind active cid id
  | .transition active id generation state => fenceTransition active id generation state
  | .lease active id generation childLimit expiresAt =>
    fenceSetExecutionLease active id generation childLimit expiresAt
  | .createChild parent created => do
    let child ← fenceCreateChild parent created
    modify fun w => { w with cells := child :: w.cells }
  | .hold active cid => fenceHold active cid
  | .cancel active cid => fenceCancel active cid
  | .read active obj mode offset len => do let _ ← soReadPayload active obj mode offset len
  | .prepare active sur cid sink oid => effectPrepare active sur cid sink oid
  | .markDispatching active sur k => effectMarkDispatching active sur k
  | .commit k => effectCommit k
  | .restore k => effectRestore k
  | .markUnknown k => effectMarkUnknown k
  | .clock now => modify fun w => { w with now := now }
  | .registerSink addr ceiling =>
    modify fun w => { w with sinks := Function.update w.sinks addr ceiling }
  | .setCells cells => modify fun w => { w with cells := cells }

def World.step (w : World) (op : EffectOp) : World :=
  final op.exec w

def World.boot (cells : CellStore) (sinks : Nat → Sensitivity) (now : UInt64) : World where
  fences := []
  cells := cells
  effects := []
  sinks := sinks
  now := now

end Anunix
