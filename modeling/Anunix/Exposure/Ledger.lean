import Anunix.Effect.Effect

/-!
# Exposure ledgers and protected operations

Model of the exposure budgets and of the prepare / dispatch / discard cycle of protected operations
in `kernel/core/exec/external.c`.

Both registries are fixed arrays of pointers searched by identifier; here they are the lists of
their used entries. A ledger's `parent` pointer is set once, when the ledger is created, so it is
modelled by the parent's identifier, and a loop `for (b = leaf; b; b = b->parent)` visits the
ledgers named by `chain`; `0` stands for the null pointer and names no ledger. Every call does its
work in one critical section under `operation_lock` and changes nothing when it fails, so a call is
a function into `Except Err`; dispatch has two critical sections with the provider running in
between (`dispatchEnter`, `dispatchSettle`).

The checks that surround the ledgers (request syntax, provider registration, contracts, tool and
object authority, the fence) enter as verdicts. The hook of the test builds that revokes a ledger
from inside `budget_enter` is left out.
-/

namespace Anunix
open Fallible

/-- An exposure ledger (C `struct exposure_ledger` with its `struct anx_exposure_view`). -/
structure Ledger where
  id : UInt64
  parent : UInt64
  limit : UInt64
  reserved : UInt64
  committed : UInt64
  uncertain : UInt64
  owner : Uuid
  depth : UInt32
  children : UInt32
  inFlight : UInt32
  revoked : Bool
  operations : UInt32
  deriving DecidableEq, Repr

/-- A protected operation (C `struct protected_operation`). `effect` is the phase of the pending
    effect it owns. -/
structure Operation where
  id : Uuid
  owner : Uuid
  phase : EffectPhase
  effect : EffectPhase
  exposureLedger : UInt64
  exposureUnits : UInt64
  deriving DecidableEq, Repr

structure Registry where
  budgets : List Ledger
  operations : List Operation
  budgetSequence : UInt64
  operationSequence : UInt64
  deriving DecidableEq, Repr

/-- C `ANX_EXPOSURE_MAX`. -/
def exposureMax : Nat := 32

/-- C `ANX_EXPOSURE_DEPTH`. -/
def exposureDepth : Nat := 8

/-- C `ANX_EXT_OPERATION_MAX`. -/
def extOperationMax : Nat := 32

/-! ## Walking the ledgers -/

/-- C `budget_find`. -/
def budgetFind (t : List Ledger) (id : UInt64) : Option Ledger :=
  Keyed.lookup Ledger.id t id

def chainFrom (t : List Ledger) : Nat → UInt64 → List UInt64
  | 0, _ => []
  | fuel + 1, id =>
    match budgetFind t id with
    | none => []
    | some b => id :: chainFrom t fuel b.parent

/-- The ledgers visited by `for (b = leaf; b; b = b->parent)`. No chain is longer than
    `ANX_EXPOSURE_DEPTH`, see `Tree.chain_cons`. -/
def chain (t : List Ledger) (leaf : UInt64) : List UInt64 :=
  chainFrom t exposureDepth leaf

def touch (ids : List UInt64) (g : Ledger → Ledger) (t : List Ledger) : List Ledger :=
  t.map fun b => if b.id ∈ ids then g b else b

/-- C `budget_revoked`. -/
def budgetRevoked (t : List Ledger) (leaf : UInt64) : Bool :=
  t.any fun b => (chain t leaf).contains b.id && b.revoked

/-- C `budget_descendant`: whether a cell descends from an owner within `ANX_EXPOSURE_DEPTH`
steps. -/
def budgetDescendant (cells : CellStore) (ancestor : Uuid) : Nat → Option Cell → Bool
  | 0, _ => false
  | _, none => false
  | n + 1, some walk =>
    if walk.cid = ancestor then true
    else budgetDescendant cells ancestor n
      (if walk.parentCid = .nil then none else cells.lookup walk.parentCid)

/-! ## Assignments to a ledger -/

def Ledger.addChild (b : Ledger) : Ledger := { b with children := b.children + 1 }

def Ledger.dropChild (b : Ledger) : Ledger := { b with children := b.children - 1 }

def Ledger.addOperation (b : Ledger) : Ledger := { b with operations := b.operations + 1 }

def Ledger.dropOperation (b : Ledger) : Ledger := { b with operations := b.operations - 1 }

def Ledger.reserve (units : UInt64) (b : Ledger) : Ledger :=
    { b with reserved := b.reserved + units }

def Ledger.release (units : UInt64) (b : Ledger) : Ledger :=
    { b with reserved := b.reserved - units }

def Ledger.enter (b : Ledger) : Ledger := { b with inFlight := b.inFlight + 1 }

/-- Move units from `reserved` to `committed` or `uncertain`, the body of the loop in
    `budget_settle`. -/
def Ledger.settle (units : UInt64) (confirmed : Bool) (b : Ledger) : Ledger :=
  { b with
    reserved := b.reserved - units
    inFlight := b.inFlight - 1
    committed := if confirmed then b.committed + units else b.committed
    uncertain := if confirmed then b.uncertain else b.uncertain + units }

def Ledger.revoke (b : Ledger) : Ledger := { b with revoked := true }

/-! ## Ledger calls -/

/-- A ledger as `anx_exposure_create` fills it in. -/
def Ledger.create (id parent limit : UInt64) (owner : Uuid) (depth : UInt32) : Ledger where
  id := id
  parent := parent
  limit := limit
  reserved := 0
  committed := 0
  uncertain := 0
  owner := owner
  depth := depth
  children := 0
  inFlight := 0
  revoked := false
  operations := 0

/-- The parent's side of `anx_exposure_create`: the depth of the new ledger. -/
def childDepth (s : Registry) (cells : CellStore) (cell : Cell) (parent limit : UInt64) :
    Except Err UInt32 := do
  if parent = 0 then
    return 0
  else
    let p ← orThrow (budgetFind s.budgets parent) Err.enoent
    failIf (budgetRevoked s.budgets parent ||
      !budgetDescendant cells p.owner exposureDepth (some cell)) Err.eperm
    failIf (p.depth.toNat + 1 ≥ exposureDepth || limit > p.limit) Err.einval
    return p.depth + 1

/-- Create a ledger, as a root or under a parent (C `anx_exposure_create`). `memory` tells whether
    `anx_zalloc` succeeds. -/
def exposureCreate (s : Registry) (active : Option Uuid) (cells : CellStore) (owner : Uuid)
    (parent limit : UInt64) (memory : Bool) : Except Err Registry := do
  failIf active.isSome Err.eperm
  failIf (limit == 0) Err.einval
  failIf (!memory) Err.enomem
  let cell ← orThrow (cells.lookup owner) Err.enoent
  failIf cell.status.terminal Err.eperm
  checkScope cells cell
  let depth ← childDepth s cells cell parent limit
  failIf (s.budgets.length == exposureMax || s.budgetSequence == uint64Max) Err.efull
  return { s with
    budgets := Ledger.create (s.budgetSequence + 1) parent limit owner depth ::
      touch [parent] Ledger.addChild s.budgets
    budgetSequence := s.budgetSequence + 1 }

/-- C `anx_exposure_revoke`. -/
def exposureRevoke (s : Registry) (active : Option Uuid) (id : UInt64) : Except Err Registry := do
  failIf active.isSome Err.eperm
  failIf (id == 0) Err.einval
  let _ ← orThrow (budgetFind s.budgets id) Err.enoent
  return { s with budgets := touch [id] Ledger.revoke s.budgets }

/-- C `anx_exposure_destroy`. -/
def exposureDestroy (s : Registry) (active : Option Uuid) (id : UInt64) : Except Err Registry := do
  failIf active.isSome Err.eperm
  failIf (id == 0) Err.einval
  let b ← orThrow (budgetFind s.budgets id) Err.enoent
  failIf (!budgetRevoked s.budgets id || b.children != 0 || b.operations != 0 || b.reserved != 0 ||
    b.uncertain != 0 || b.inFlight != 0) Err.ebusy
  return { s with
    budgets := touch [b.parent] Ledger.dropChild (Keyed.erase Ledger.id s.budgets id) }

/-! ## Operation calls -/

/-- Book an operation on a ledger and all its ancestors (C `budget_reserve`). -/
def budgetReserve (t : List Ledger) (owner : Uuid) (id units : UInt64) :
    Except Err (List Ledger) := do
  if id = 0 then
    return t
  else
    let leaf ← orThrow (budgetFind t id) Err.enoent
    failIf (leaf.owner != owner || budgetRevoked t id) Err.eperm
    failIf (t.any fun b => (chain t id).contains b.id &&
      units > b.limit - b.reserved - b.committed - b.uncertain) Err.efull
    return touch [id] Ledger.addOperation (touch (chain t id) (Ledger.reserve units) t)

def operationId (n : UInt64) : Uuid := ⟨0x414e584558544f50, n⟩

/-- C `operation_find`. -/
def operationFind (ops : List Operation) (id : Uuid) : Option Operation :=
  Keyed.lookup Operation.id ops id

/-- C `operation_prepare`; `admission` is the verdict of everything checked before the lock is
    taken, up to and including `anx_effect_prepare`. -/
def operationPrepare (s : Registry) (active : Option Uuid) (owner : Uuid)
    (admission : Except Err Unit) (ledger units : UInt64) : Except Err Registry := do
  failIf active.isSome Err.eperm
  admission
  failIf (s.operationSequence == uint64Max || s.operations.length == extOperationMax) Err.efull
  let budgets ← budgetReserve s.budgets owner ledger units
  return { s with
    budgets := budgets
    operations := { id := operationId (s.operationSequence + 1), owner := owner, phase := .prepared,
                    effect := .prepared, exposureLedger := ledger, exposureUnits := units } ::
      s.operations
    operationSequence := s.operationSequence + 1 }

/-- C `anx_external_operation_prepare`. -/
def externalOperationPrepare (s : Registry) (active : Option Uuid) (owner : Uuid)
    (admission : Except Err Unit) : Except Err Registry :=
  operationPrepare s active owner admission 0 0

/-- C `anx_external_operation_prepare_budgeted`. -/
def externalOperationPrepareBudgeted (s : Registry) (active : Option Uuid) (owner : Uuid)
    (admission : Except Err Unit) (ledger units : UInt64) : Except Err Registry := do
  failIf active.isSome Err.eperm
  failIf (ledger == 0 || units == 0) Err.einval
  operationPrepare s active owner admission ledger units

/-- The first critical section of `anx_external_operation_dispatch`, after which the provider is
    called. `checks` is the verdict of the tests between the phase check and the ledger check,
    `mark` that of `anx_effect_mark_dispatching` on an effect that is still prepared. -/
def dispatchEnter (s : Registry) (caller : Option Uuid) (id : Uuid)
    (checks mark : Except Err Unit) : Except Err Registry := do
  let op ← orThrow (operationFind s.operations id) Err.enoent
  failIf (caller != some op.owner) Err.eperm
  failIf (op.phase != .prepared) Err.ebusy
  checks
  failIf (budgetRevoked s.budgets op.exposureLedger) Err.eperm
  failIf (op.effect != .prepared) Err.einval
  mark
  return { s with
    budgets := touch (chain s.budgets op.exposureLedger) Ledger.enter s.budgets
    operations := Keyed.update Operation.id s.operations
      { op with effect := .dispatching, phase := .dispatching } }

/-- Where `anx_effect_commit` or `anx_effect_mark_unknown` leaves an effect; their return values are
    dropped. -/
def settledEffect (effect : EffectPhase) (confirmed : Bool) : EffectPhase :=
  let target := if confirmed then .committed else .unknown
  if effectTransitions effect target then target else effect

/-- C `budget_settle`. -/
def budgetSettle (t : List Ledger) (op : Operation) (confirmed : Bool) : List Ledger :=
  touch (chain t op.exposureLedger) (Ledger.settle op.exposureUnits confirmed) t

/-- The second critical section of `anx_external_operation_dispatch`, once the provider has
    returned; `confirmed` tells whether its result counts as `ANX_OK`. -/
def dispatchSettle (s : Registry) (op : Operation) (confirmed : Bool) : Registry :=
  { s with
    budgets := budgetSettle s.budgets op confirmed
    operations := Keyed.update Operation.id s.operations
      { op with
        effect := settledEffect op.effect confirmed
        phase := settledEffect op.effect confirmed } }

/-- C `budget_discard`. -/
def budgetDiscard (t : List Ledger) (op : Operation) : List Ledger :=
  touch [op.exposureLedger] Ledger.dropOperation
    (if op.phase = .prepared then
      touch (chain t op.exposureLedger) (Ledger.release op.exposureUnits) t
    else t)

/-- C `anx_external_operation_discard`. -/
def externalOperationDiscard (s : Registry) (active : Option Uuid) (id : Uuid) :
    Except Err Registry := do
  failIf active.isSome Err.eperm
  let op ← orThrow (operationFind s.operations id) Err.enoent
  failIf (op.phase != .prepared && op.phase != .committed) Err.ebusy
  return { s with
    budgets := budgetDiscard s.budgets op
    operations := Keyed.erase Operation.id s.operations id }

/-! ## The machine -/

/-- One critical section. The provider of an operation runs between its `enter` and its `settle`,
    and anything may happen in between. -/
inductive ExposureOp where
  | create (active : Option Uuid) (cells : CellStore) (owner : Uuid) (parent limit : UInt64)
      (memory : Bool)
  | revoke (active : Option Uuid) (id : UInt64)
  | destroy (active : Option Uuid) (id : UInt64)
  | prepare (active : Option Uuid) (owner : Uuid) (admission : Except Err Unit)
  | prepareBudgeted (active : Option Uuid) (owner : Uuid) (admission : Except Err Unit)
      (ledger units : UInt64)
  | enter (caller : Option Uuid) (id : Uuid) (checks mark : Except Err Unit)
  | settle (id : Uuid) (confirmed : Bool)
  | discard (active : Option Uuid) (id : Uuid)

/-- A committed operation, as history remembers it: the ledgers it was booked on, and its units. -/
structure Commitment where
  ledgers : List UInt64
  units : UInt64

/-- The registries, the operations whose provider is running, and the history of provider calls and
    of committed operations. -/
structure System extends Registry where
  running : List Uuid
  calls : List Uuid
  commitments : List Commitment

def System.apply (s : System) (r : Except Err Registry) : System :=
  match r with
  | .ok reg => { s with toRegistry := reg }
  | .error _ => s

/-- One step of the machine. Settling is done by the thread that entered, once per entry. -/
def System.step (s : System) (op : ExposureOp) : System :=
  match op with
  | .create active cells owner parent limit memory =>
    s.apply (exposureCreate s.toRegistry active cells owner parent limit memory)
  | .revoke active id => s.apply (exposureRevoke s.toRegistry active id)
  | .destroy active id => s.apply (exposureDestroy s.toRegistry active id)
  | .prepare active owner admission =>
    s.apply (externalOperationPrepare s.toRegistry active owner admission)
  | .prepareBudgeted active owner admission ledger units =>
    s.apply (externalOperationPrepareBudgeted s.toRegistry active owner admission ledger units)
  | .discard active id => s.apply (externalOperationDiscard s.toRegistry active id)
  | .enter caller id checks mark =>
    match dispatchEnter s.toRegistry caller id checks mark with
    | .error _ => s
    | .ok reg => { s with toRegistry := reg, running := id :: s.running, calls := id :: s.calls }
  | .settle id confirmed =>
    match operationFind s.operations id with
    | none => s
    | some op =>
      if id ∈ s.running then
        { s with
          toRegistry := dispatchSettle s.toRegistry op confirmed
          running := s.running.erase id
          commitments :=
            if confirmed then ⟨chain s.budgets op.exposureLedger, op.exposureUnits⟩ :: s.commitments
            else s.commitments }
      else s

def System.boot : System where
  budgets := []
  operations := []
  budgetSequence := 0
  operationSequence := 0
  running := []
  calls := []
  commitments := []

end Anunix
