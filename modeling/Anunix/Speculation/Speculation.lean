import Anunix.Lib.Slots
import Anunix.Object.Stage

/-!
# Speculative results

Model of `kernel/core/state/speculation.c`: a controller predicts an action and its result, and
reserves the bytes of the result privately; when the action turns out as predicted, `commit`
publishes the result as a staged mutation of the origin object.

The records are an array of slots, a nil identifier marking a free one. A call reads the clock
several times, and each of its allocations can fail on its own; `Around` lists these readings in
order. The object handle of a call is a variable on its stack: `withHandle` gives it a name for the
time of the call. Owner cells, which a record holds a reference to, are named by their CIDs.
-/

namespace Anunix.Speculation
open Fallible Object

/-- C `ANX_SPECULATION_MAX`. -/
def speculationMax : Nat := 64

/-- C `ANX_SPECULATION_OWNER_MAX`. -/
def ownerMax : Nat := 2

/-- C `ANX_SPECULATION_ACTION_MAX`. -/
def actionMax : Nat := 256

/-- C `ANX_SPECULATION_PAYLOAD_MAX`. -/
def payloadMax : UInt64 := 1024 * 1024

/-- C `ANX_SPECULATION_BYTES_MAX`. -/
def bytesMax : UInt64 := 16 * 1024 * 1024

/-- C `ANX_SPECULATION_LIFETIME_MAX`, in nanoseconds. -/
def lifetimeMax : UInt64 := 30000000000

/-! ## Records -/

/-- C `enum anx_speculation_state`. -/
inductive SpeculationState where
  | prepared | committed | discarded | expired
  deriving DecidableEq, Repr

/-- The public part of a record; `ANX_OK` as a reason is `none` (C
`struct anx_speculation_view`). -/
structure View where
  id : Uuid
  origin : Uuid
  owner : Uuid
  originVersion : UInt64
  resultSize : UInt64
  expiresAt : UInt64
  state : SpeculationState
  reason : Option Err
  deriving DecidableEq

/-- A predicted action with its result (C `struct speculation_record`). -/
structure Record where
  view : View
  result : Payload
  action : List UInt8
  digest : Digest
  type : ObjectType
  sensitivity : Sensitivity
  deriving DecidableEq

structure State where
  store : Store
  records : List (Option Record)
  reservedBytes : UInt64

structure Around where
  env : Env
  /-- The readings of `arch_time_now`. -/
  clock : Nat → UInt64
  allocs : Nat → Bool
  /-- The identifier that `anx_uuid_generate` makes of a time and two random words. -/
  seed : UInt64 × UInt64 × UInt64

/-- The environment of a nested call that allocates. -/
def Around.allocating (a : Around) (i : Nat) : Env :=
  { a.env with alloc := a.allocs i }

abbrev SProg := EStateM Err State

def onStore {α : Type} (x : Prog α) : SProg α :=
  zoom State.store (fun s store => { s with store := store }) x

/-- C `lookup`. -/
def State.lookup (s : State) (id : Uuid) : Option (Nat × Record) :=
  Slots.firstWith s.records fun r => r.view.id = id

/-- Outside any cell, or in the cell that owns a record (C `caller_check`). -/
def callerCheck (env : Env) (owner : Uuid) : Except Err Unit :=
  failIf (env.current.any fun caller => caller ≠ owner) Err.eperm

def Record.closed (r : Record) (state : SpeculationState) (reason : Option Err) : Record :=
  { r with
    result := if r.view.state = .prepared then .null r.view.resultSize else r.result
    view := { r.view with state := state, reason := reason } }

/-- Close the record in a slot and give its bytes back (C `close_record`). -/
def State.close (s : State) (i : Nat) (state : SpeculationState) (reason : Option Err) : State :=
  match Slots.get s.records i with
  | some r =>
    { s with
      records := s.records.set i (some (r.closed state reason))
      reservedBytes :=
        if r.view.state = .prepared then s.reservedBytes - r.view.resultSize else s.reservedBytes }
  | none => s

def Record.overdue (r : Record) (now : UInt64) : Bool :=
  r.view.state = .prepared && r.view.expiresAt ≤ now

/-- Close the records whose time is over (C `expire`). -/
@[irreducible]
def State.expire (s : State) (now : UInt64) : State :=
  (List.range speculationMax).foldl (fun s i =>
    if (Slots.get s.records i).any fun r => r.overdue now then s.close i .expired (some .etimedout)
    else s) s

/-! ## The origin object -/

def schemaBytes (obj : StateObject) : List UInt8 :=
  Codec.fill 256 obj.schemaUri ++ Codec.fill 32 obj.schemaVersion

/-- Hash schema and committed bytes of an object for its owner (C `origin_digest`). -/
def originDigest (sha256 : List UInt8 → Digest) (obj : StateObject) (owner : Uuid) :
    Except Err Digest := do
  failIf (obj.state ≠ .active) Err.eperm
  failIf
    (payloadMax < obj.payload.size || (obj.payload.size ≠ 0 && !obj.payload.present)) Err.einval
  obj.accessPolicy.evaluate (some owner) .readPayload
  pure (sha256 (schemaBytes obj ++ obj.payload.bytes))

/-- The object is what it was when the record was prepared, staged by the record's owner or not at
    all (C `origin_check`). -/
def Record.originCheck (r : Record) (sha256 : List UInt8 → Digest) (obj : StateObject)
    (ownStage : Bool) : Except Err Unit := do
  let digest ← originDigest sha256 obj r.view.owner
  failIf (match obj.staged with
    | some stage =>
      !ownStage || stage.stagingCell ≠ r.view.owner || stage.baseVersion ≠ r.view.originVersion
    | none => ownStage) Err.ebusy
  failIf (obj.version ≠ r.view.originVersion || obj.objectType ≠ r.type ||
    obj.sensitivity ≠ r.sensitivity || digest ≠ r.digest) Err.ebusy

def withHandle {α : Type} (h : Nat) (x : Prog α) : Prog α := fun s =>
  match x (s.setHandle h ⟨none, .read, 0⟩) with
  | .ok a s' => .ok a (s'.setHandle h (s.handles h))
  | .error e s' => .error e (s'.setHandle h (s.handles h))

def heldObject (h : Nat) : Prog StateObject := do
  let s ← get
  let (_, obj) ← orThrow (s.held h) Err.einval
  pure obj

/-! ## Calls -/

/-- A prediction (C `struct anx_speculation_request`). -/
structure Request where
  owner : Uuid
  origin : Uuid
  action : List UInt8
  result : Payload
  expiresAt : UInt64
  deriving DecidableEq

def Request.wellFormed (req : Request) (now : UInt64) : Bool :=
  req.owner ≠ .nil && req.origin ≠ .nil && req.action ≠ [] && req.action.length ≤ actionMax &&
    (req.result.size = 0 || req.result.present) && req.result.size ≤ payloadMax &&
    now < req.expiresAt && req.expiresAt - now ≤ lifetimeMax

def Request.record (req : Request) (id : Uuid) (obj : StateObject) (digest : Digest) : Record where
  view :=
    { id := id, origin := req.origin, owner := req.owner, originVersion := obj.version,
      resultSize := req.result.size, expiresAt := req.expiresAt, state := .prepared,
      reason := none }
  result := req.result.replacement
  action := req.action
  digest := digest
  type := obj.objectType
  sensitivity := obj.sensitivity

def State.ownerCount (s : State) (owner : Uuid) : Nat :=
  s.records.countP fun o => o.any fun r => r.view.state = .prepared && r.view.owner = owner

/-- Reserve a slot and the bytes of a result (C `anx_speculation_prepare`). -/
def prepare (a : Around) (req : Request) : SProg Uuid := do
  failIf (!req.wellFormed (a.clock 0)) Err.einval
  MonadExcept.ofExcept (callerCheck a.env req.owner)
  let owner ← orThrow (a.env.cells.lookup req.owner) Err.enoent
  failIf owner.status.terminal Err.eperm
  let obj ← onStore (withHandle 0 do
    soOpen a.env req.origin .read 0
    heldObject 0)
  failIf obj.staged.isSome Err.ebusy
  let s ← get
  let digest ← MonadExcept.ofExcept (originDigest s.store.sha256 obj req.owner)
  modify fun s => s.expire (a.clock 1)
  let s ← get
  let slot ← orThrow (Slots.firstFree s.records) Err.efull
  failIf
    (ownerMax ≤ s.ownerCount req.owner || bytesMax - s.reservedBytes < req.result.size) Err.efull
  failIf (req.expiresAt ≤ a.clock 2) Err.etimedout
  failIf (req.result.size ≠ 0 && !a.allocs 0) Err.enomem
  let id := Uuid.generate a.seed.1 a.seed.2.1 a.seed.2.2
  modify fun s =>
    { s with
      records := s.records.set slot (some (req.record id obj digest))
      reservedBytes := s.reservedBytes + req.result.size }
  pure id

/-- Look at a record (C `anx_speculation_get`). -/
def get (a : Around) (id : Uuid) : SProg View := do
  modify fun s => s.expire (a.clock 0)
  let s ← MonadState.get
  let (_, r) ← orThrow (s.lookup id) Err.enoent
  MonadExcept.ofExcept (callerCheck a.env r.view.owner)
  pure r.view

def replaceStaged (a : Around) (r : Record) : Prog Unit := do
  let obj ← heldObject 0
  let s ← MonadState.get
  MonadExcept.ofExcept (r.originCheck s.sha256 obj true)
  soReplacePayload (a.allocating 1) 0 r.result
  failIf (r.view.expiresAt ≤ a.clock 1) Err.etimedout
  objectCommit a.env 0

/-- Publish the result of a record as a staged mutation of its origin, or leave no stage behind: the
    part of `anx_speculation_commit` that works on the object. -/
def publish (a : Around) (r : Record) : Prog Unit := withHandle 0 do
  soOpen a.env r.view.origin .readwrite 0
  let obj ← heldObject 0
  let s ← MonadState.get
  MonadExcept.ofExcept (r.originCheck s.sha256 obj false)
  objectStage (a.allocating 0) 0 r.view.owner
  match ← attempt (replaceStaged a r) with
  | .ok _ => pure ()
  | .error e => do
    let _ ← attempt (objectAbort a.env 0)
    throw e

/-- Compare the action with the predicted one before anything is published. -/
def matchAndPublish (a : Around) (r : Record) (actual : List UInt8) : SProg Unit := do
  failIf (actual ≠ r.action) Err.ecanceled
  onStore (publish a r)

/-- Publish the result of a record if the action is the predicted one (C
`anx_speculation_commit`). -/
def commit (a : Around) (id : Uuid) (actual : List UInt8) : SProg Unit := do
  failIf (actual = [] || actionMax < actual.length) Err.einval
  modify fun s => s.expire (a.clock 0)
  let s ← MonadState.get
  let (i, r) ← orThrow (s.lookup id) Err.enoent
  MonadExcept.ofExcept (callerCheck a.env r.view.owner)
  failIf (r.view.state ≠ .prepared) (r.view.reason.getD Err.ebusy)
  match ← attempt (matchAndPublish a r actual) with
  | .ok _ => modify fun s => s.close i .committed none
  | .error e => do
    modify fun s => s.close i (if e = .etimedout then .expired else .discarded) (some e)
    throw e

/-- Close a record, and free its slot if asked to (C `remove_record`). -/
def removeRecord (a : Around) (id : Uuid) (release : Bool) : SProg Unit := do
  let s ← MonadState.get
  let (i, r) ← orThrow (s.lookup id) Err.enoent
  MonadExcept.ofExcept (callerCheck a.env r.view.owner)
  if r.view.state = .prepared then modify fun s => s.close i .discarded (some .ecanceled)
  if release then modify fun s => { s with records := s.records.set i none }

/-- C `anx_speculation_discard`. -/
def discard (a : Around) (id : Uuid) : SProg Unit :=
  removeRecord a id false

/-- C `anx_speculation_release`. -/
def release (a : Around) (id : Uuid) : SProg Unit :=
  removeRecord a id true

end Anunix.Speculation
