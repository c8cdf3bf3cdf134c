import Anunix.Object.Review

/-!
# Staged mutations

Model of `kernel/core/state/stage.c`: a writable handle opens a stage on its object, writes then go
to a shadow of the payload, and the stage is published or discarded, alone or in a batch.

A batch checks all of its members before it publishes or discards the first one. The members are
sorted by OID, the order their locks are taken in; the checks run in that order.
-/

namespace Anunix.Object
open Fallible

/-- C `ANX_STAGE_BATCH_MAX`. -/
def stageBatchMax : Nat := 4

/-- The object behind a handle that was opened for writing (C `writable_handle`). -/
def writableHandle (h : Nat) : Prog (Nat × StateObject) := do
  let s ← get
  let target ← orThrow (s.held h) Err.einval
  failIf ((s.handles h).mode = .read) Err.eperm
  pure target

def StateObject.closed (obj : StateObject) : Bool :=
  obj.state = .sealed || obj.state = .deleted || obj.state = .tombstone

def StateObject.newStage (obj : StateObject) (stagingCell : Uuid) : StagedMutation where
  shadow := if obj.payload.present then obj.payload else .empty
  stagingCell := stagingCell
  baseVersion := obj.version
  epistemicId := 0

/-- Open a stage (C `anx_object_stage`). -/
def objectStage (env : Env) (h : Nat) (stagingCell : Uuid) : Prog Unit := do
  let s ← get
  let (addr, obj) ← orThrow (s.held h) Err.einval
  failIf ((s.handles h).mode = .read) Err.einval
  failIf (env.current.any fun active => active ≠ stagingCell) Err.eperm
  failIf obj.closed Err.eperm
  failIf obj.staged.isSome Err.ebusy
  MonadExcept.ofExcept (obj.accessPolicy.evaluate (some stagingCell) .writePayload)
  failIf (!env.alloc) Err.enomem
  modify fun s => s.setObject addr { obj with staged := some (obj.newStage stagingCell) }

/-- The cell that opened the stage may still write the object and cause effects (C
    `commit_authority`). -/
def StateObject.commitAuthority (obj : StateObject) (env : Env) (stage : StagedMutation) :
    Except Err Unit := do
  obj.stageCheckWriter env.current
  obj.accessPolicy.evaluate (some stage.stagingCell) .writePayload
  if stage.stagingCell ≠ .nil then
    let owner ← orThrow (env.cells.lookup stage.stagingCell) Err.enoent
    failIf (!owner.execution.allowSideEffects || owner.status.terminal) Err.eperm
    let _ ← env.identity stage.stagingCell
    env.fence stage.stagingCell
    env.branch stage.stagingCell

/-- A stage can be published (C `commit_check`). -/
def commitCheck (env : Env) (addr : Nat) : Prog Unit := do
  let s ← get
  let obj ← orThrow s.objects[addr]? Err.einval
  let stage ← orThrow obj.staged Err.einval
  MonadExcept.ofExcept (obj.commitAuthority env stage)
  failIf obj.closed Err.eperm
  failIf (obj.version ≠ stage.baseVersion) Err.ebusy
  failIf (obj.version = uint64Max) Err.efull
  epistemicStageCheck env obj

def StateObject.published (sha256 : List UInt8 → Digest) (obj : StateObject)
    (stage : StagedMutation) : StateObject :=
  { obj.mutate sha256 stage.shadow with staged := none }

/-- Publish a stage (C `commit_publish`). -/
def Store.commitPublish (s : Store) (addr : Nat) : Store :=
  match s.objects[addr]? with
  | none => s
  | some obj =>
    match obj.staged with
    | none => s
    | some stage => epistemicStageResolve (s.setObject addr (obj.published s.sha256 stage)) obj true

/-- A stage can be discarded (C `abort_check`). -/
def abortCheck (env : Env) (addr : Nat) : Prog Unit := do
  let s ← get
  let obj ← orThrow s.objects[addr]? Err.einval
  failIf obj.staged.isNone Err.einval
  MonadExcept.ofExcept (obj.stageCheckWriter env.current)

/-- Discard a stage (C `abort_discard`). -/
def Store.abortDiscard (s : Store) (addr : Nat) : Store :=
  match s.objects[addr]? with
  | none => s
  | some obj => epistemicStageResolve (s.setObject addr { obj with staged := none }) obj false

/-- Publish the stage of one object (C `anx_object_commit`). -/
def objectCommit (env : Env) (h : Nat) : Prog Unit := do
  let (addr, _) ← writableHandle h
  commitCheck env addr
  modify fun s => s.commitPublish addr

/-- Discard the stage of one object (C `anx_object_abort`). -/
def objectAbort (env : Env) (h : Nat) : Prog Unit := do
  let (addr, _) ← writableHandle h
  abortCheck env addr
  modify fun s => s.abortDiscard addr

/-! ## Batches -/

/-- The objects behind the handles of a batch, all of them different. -/
def batchTargets : List (Nat × StateObject) → List Nat → Prog (List (Nat × StateObject))
  | seen, [] => pure seen.reverse
  | seen, h :: rest => do
    let (addr, obj) ← writableHandle h
    failIf (seen.any fun other => other.1 = addr || other.2.oid = obj.oid) Err.eexist
    batchTargets ((addr, obj) :: seen) rest

/-- Move an object to its place among sorted ones: the inner loop of the insertion sort. -/
def insertTarget (target : Nat × StateObject) : List (Nat × StateObject) → List (Nat × StateObject)
  | [] => [target]
  | other :: rest =>
    if other.2.oid.before target.2.oid then other :: insertTarget target rest
    else target :: other :: rest

def sortTargets (targets : List (Nat × StateObject)) : List (Nat × StateObject) :=
  targets.foldl (fun sorted target => insertTarget target sorted) []

def batchOwned (owner : Option Uuid) : List (Nat × StateObject) → Except Err Unit
  | [] => pure ()
  | (_, obj) :: rest => do
    let stage ← orThrow obj.staged Err.einval
    failIf (stage.stagingCell = .nil || owner.getD stage.stagingCell ≠ stage.stagingCell) Err.eperm
    batchOwned (some (owner.getD stage.stagingCell)) rest

/-- Resolve all stages of a batch or none of them (C `resolve_batch`). -/
def resolveBatch (env : Env) (handles : List Nat) (commit : Bool) : Prog Unit := do
  failIf (handles = [] || stageBatchMax < handles.length) Err.einval
  let targets ← batchTargets [] handles
  let sorted := sortTargets targets
  MonadExcept.ofExcept (batchOwned none sorted)
  sorted.forM fun target => if commit then commitCheck env target.1 else abortCheck env target.1
  modify fun s => sorted.foldl
    (fun s target => if commit then s.commitPublish target.1 else s.abortDiscard target.1) s

/-- C `anx_object_commit_batch`. -/
def objectCommitBatch (env : Env) (handles : List Nat) : Prog Unit :=
  resolveBatch env handles true

/-- C `anx_object_abort_batch`. -/
def objectAbortBatch (env : Env) (handles : List Nat) : Prog Unit :=
  resolveBatch env handles false

end Anunix.Object
