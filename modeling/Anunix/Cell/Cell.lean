import Anunix.Error
import Anunix.Uuid
import Anunix.Lib.Keyed

/-!
# Execution cells

The part of `struct anx_cell` (`kernel/include/anx/cell.h`) that delegation looks at, the global
cell store of `kernel/core/exec/cell_store.c`, and the defaults of `anx_cell_create`.

A cell keeps its children in `child_cids[0 .. child_count)`; here they are the list `childCids`,
whose length is the count. The store is the list of live cells in bucket order: `anx_htable_add`
inserts at the front of the bucket and `anx_cell_store_lookup` returns the first cell of the bucket
with the given CID. A pointer to a live cell is named by its CID, since a cell enters the store when
it is created and leaves it when it is freed.
-/

namespace Anunix

/-- Lifecycle states (C `enum anx_cell_status`). -/
inductive CellStatus where
  | created | admitted | planning | planned | queued | running | waiting | validating | committing
  | completed | failed | cancelled | compensating | compensated
  deriving DecidableEq, Repr

/-- States no run leaves again (C `anx_cell_status_terminal`). -/
def CellStatus.terminal : CellStatus → Bool
  | .completed | .failed | .cancelled | .compensated => true
  | _ => false

/-- Where a cell may run (C `enum anx_locality`). -/
inductive Locality where
  | localOnly | localPreferred | remoteAllowed | remoteRequired
  deriving DecidableEq, Repr

/-- Resource constraints, `0` standing for "unlimited" in the first three (C
    `struct anx_cell_constraints`). -/
structure Constraints where
  maxLatencyMs : UInt64
  maxMemoryAdmissionBytes : UInt64
  maxCostUsdCents : UInt32
  locality : Locality
  maxRecursionDepth : UInt32
  maxChildCells : UInt32
  deriving DecidableEq, Repr

/-- Execution policy (C `struct anx_execution_policy`). -/
structure ExecutionPolicy where
  allowNetwork : Bool
  allowRemoteModels : Bool
  allowRecursiveCells : Bool
  allowSideEffects : Bool
  maxRecursionDepth : UInt32
  deriving DecidableEq, Repr

/-- Cognitive envelope, `0` standing for "unset" (C `struct anx_cognitive_envelope`). -/
structure CognitiveEnvelope where
  maxTokens : UInt32
  maxReasoningDepth : UInt32
  deriving DecidableEq, Repr

/-- Largest number of children a cell records (C `ANX_MAX_CHILD_CELLS`). -/
def maxChildCells : Nat := 32

/-- An execution cell (C `struct anx_cell`). -/
structure Cell where
  cid : Uuid
  status : CellStatus
  constraints : Constraints
  execution : ExecutionPolicy
  cognitive : CognitiveEnvelope
  parentCid : Uuid
  identityId : Uuid
  effectFenceId : Uuid
  toolNamespaceId : Uuid
  revisionLeaseId : Uuid
  childCids : List Uuid
  recursionDepth : UInt32
  runtimeActive : Bool
  deriving DecidableEq, Repr

/-- A zeroed cell with the defaults of `anx_cell_create`. -/
def Cell.create (cid : Uuid) : Cell where
  cid := cid
  status := .created
  constraints :=
    { maxLatencyMs := 0, maxMemoryAdmissionBytes := 0, maxCostUsdCents := 0, locality := .localOnly,
      maxRecursionDepth := 4, maxChildCells := 32 }
  execution :=
    { allowNetwork := false, allowRemoteModels := false, allowRecursiveCells := false,
      allowSideEffects := false, maxRecursionDepth := 4 }
  cognitive := { maxTokens := 0, maxReasoningDepth := 0 }
  parentCid := .nil
  identityId := .nil
  effectFenceId := .nil
  toolNamespaceId := .nil
  revisionLeaseId := .nil
  childCids := []
  recursionDepth := 0
  runtimeActive := false

/-- The registry of live cells (C `cell_table`). -/
abbrev CellStore := List Cell

/-- The first registered cell with a CID (C `anx_cell_store_lookup`). -/
def CellStore.lookup (s : CellStore) (cid : Uuid) : Option Cell :=
  Keyed.lookup Cell.cid s cid

/-- Write a cell back through its pointer, which leaves every other cell alone. -/
def CellStore.update (s : CellStore) (cell : Cell) : CellStore :=
  Keyed.update Cell.cid s cell

end Anunix
