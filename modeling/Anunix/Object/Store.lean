import Anunix.Object.Object

/-!
# The object store

Model of `kernel/core/state/objstore.c`: the table of State Objects and the calls that create, open,
close, seal, delete, read and write them.

An object is named by its address, its position in `Store.objects`; objects are never freed, and a
deleted one only leaves the table `Store.table`, which is searched front to back as a bucket is. The
handle variables of the callers are the cells of `Store.handles`. A call runs on one CPU with the
object's lock held, so it is one program on the store.

What a call learns from the rest of the kernel is its `Env`: the running cell, the cell store, the
verdicts of the identity, scope, fence and branch checks, whether memory can be had, and what fresh
memory holds. A `memcpy` that leaves its buffer overwrites whatever lies there; which objects that
hits is decided by the layout of the heap, so `Env.stray` names the objects afterwards.
-/

namespace Anunix.Object
open Fallible

/-! ## Review records -/

/-- One captured piece of evidence (C `struct evidence_node`). The masks `nodes` and `roots` are
    sets of indices into the record's own arrays. -/
structure EvidenceNode where
  oid : Uuid
  parents : List Uuid
  version : UInt64
  size : UInt64
  sensitivity : Sensitivity
  digest : Digest
  nodes : BitVec 32
  roots : BitVec 32
  deriving DecidableEq

/-- A vote that was cast (C `struct evidence_vote` with `cast` set). -/
structure EvidenceVote where
  approve : Bool
  nodes : BitVec 32
  roots : BitVec 32
  deriving DecidableEq

/-- What the controller asks for; the array of reviewers is nil beyond the list (C
    `struct anx_epistemic_spec`). -/
structure EpistemicSpec where
  count : Nat
  threshold : Nat
  minimumCut : Nat
  reviewers : List Uuid
  deriving DecidableEq

/-- C `enum anx_epistemic_state`. -/
inductive EpistemicState where
  | opened | committed | aborted
  deriving DecidableEq, Repr

/-- The public part of a record (C `struct anx_epistemic_view`). -/
structure EpistemicView where
  id : UInt64
  owner : Uuid
  target : Uuid
  proposalDigest : Digest
  votes : Nat
  validApprovals : Nat
  structuralCut : Nat
  roots : Nat
  state : EpistemicState
  ready : Bool
  deriving DecidableEq

/-- A review of a staged mutation (C `struct epistemic_record`). -/
structure EpistemicRecord where
  view : EpistemicView
  spec : EpistemicSpec
  ownerIdentity : Uuid
  reviewerIdentity : List Uuid
  roots : List Uuid
  nodes : List EvidenceNode
  votes : List (Option EvidenceVote)
  proposalSize : UInt64
  sensitivity : Sensitivity
  baseVersion : UInt64
  deriving DecidableEq

/-! ## Store and environment -/

/-- Open modes (C `enum anx_open_mode`). -/
inductive OpenMode where
  | read | write | readwrite
  deriving DecidableEq, Repr

/-- An open object (C `struct anx_object_handle`). -/
structure Handle where
  obj : Option Nat
  mode : OpenMode
  openVersion : UInt64
  deriving DecidableEq, Repr

structure Store where
  sha256 : List UInt8 → Digest
  objects : List StateObject
  table : List Nat
  handles : Nat → Handle
  records : List EpistemicRecord
  sequence : UInt64

structure Env where
  /-- The running cell (C `anx_cell_current_id`). -/
  current : Option Uuid
  cells : CellStore
  /-- The identity a cell acts under (C `anx_identity_admit`). -/
  identity : Uuid → Except Err Uuid
  /-- C `anx_cell_check_scope`. -/
  scope : Uuid → Except Err Unit
  /-- C `anx_effect_fence_check`. -/
  fence : Uuid → Except Err Unit
  /-- C `anx_branch_group_effect_check`. -/
  branch : Uuid → Except Err Unit
  /-- C `anx_effect_fence_observe_read`. -/
  observe : Uuid → Sensitivity → Except Err Unit
  alloc : Bool
  /-- What the unwritten part of a fresh buffer holds. -/
  junk : Nat → UInt8
  freshOid : Uuid
  /-- The objects after a copy that left its buffer. -/
  stray : List StateObject → List StateObject

abbrev Prog := EStateM Err Store

def Store.named (s : Store) (oid : Uuid) (addr : Nat) : Option (Nat × StateObject) :=
  match s.objects[addr]? with
  | some obj => if obj.oid = oid then some (addr, obj) else none
  | none => none

/-- The first object of the table with an identifier (C `anx_objstore_lookup`). -/
def Store.lookup (s : Store) (oid : Uuid) : Option (Nat × StateObject) :=
  s.table.findSome? (s.named oid)

/-- The object a handle refers to (C `handle->obj`). -/
def Store.held (s : Store) (h : Nat) : Option (Nat × StateObject) :=
  match (s.handles h).obj with
  | some addr => (s.objects[addr]?).map fun obj => (addr, obj)
  | none => none

def Store.setObject (s : Store) (addr : Nat) (obj : StateObject) : Store :=
  { s with objects := s.objects.set addr obj }

def Store.setHandle (s : Store) (h : Nat) (handle : Handle) : Store :=
  { s with handles := Function.update s.handles h handle }

/-! ## Calls -/

/-- Arguments of a creation (C `struct anx_so_create_params`). -/
structure CreateParams where
  objectType : ObjectType
  schemaUri : Option (List UInt8)
  schemaVersion : Option (List UInt8)
  payload : Payload
  parentOids : List Uuid
  creatorCell : Uuid
  sensitivity : Sensitivity
  deriving DecidableEq

/-- The label of a new object and where it comes from: an explicit one, or the highest of the
    parents that still resolve. -/
def Store.inheritedLabel (s : Store) (params : CreateParams) : Sensitivity × Uuid :=
  if params.sensitivity = .pub then
    params.parentOids.foldl (fun acc oid =>
      match s.lookup oid with
      | some (_, parent) =>
        if acc.1 < parent.sensitivity then (parent.sensitivity, parent.oid) else acc
      | none => acc) (.pub, .nil)
  else (params.sensitivity, .nil)

/-- The object that `anx_so_create` sets up. -/
def Store.fresh (s : Store) (oid : Uuid) (params : CreateParams) : StateObject :=
  let payload := if params.payload.present then params.payload else .empty
  { oid := oid
    contentHash := contentHashOf s.sha256 payload
    version := 1
    objectType := params.objectType
    schemaUri := (params.schemaUri.getD []).take 255
    schemaVersion := (params.schemaVersion.getD []).take 31
    payload := payload
    staged := none
    sensitivity := (s.inheritedLabel params).1
    sensitivityOrigin := (s.inheritedLabel params).2
    accessPolicy := { rules := [], ruleCount := 0 }
    deletionHold := false
    state := .active
    creatorCell := params.creatorCell
    parentOids := params.parentOids }

/-- Create and register an object, and return its address (C `anx_so_create`). -/
def soCreate (env : Env) (params : CreateParams) : Prog Nat := do
  failIf (params.objectType = .structuredData && params.schemaUri.isNone) Err.einval
  failIf (!env.alloc) Err.enomem
  let s ← get
  modify fun s =>
    { s with
      objects := s.objects ++ [s.fresh env.freshOid params]
      table := s.objects.length :: s.table }
  pure s.objects.length

def StateObject.openCheck (obj : StateObject) (env : Env) (mode : OpenMode) : Except Err Unit := do
  if mode ≠ .write then obj.accessPolicy.evaluate env.current .readPayload
  if mode ≠ .read then obj.accessPolicy.evaluate env.current .writePayload

/-- Open an object into a handle variable (C `anx_so_open`). -/
def soOpen (env : Env) (oid : Uuid) (mode : OpenMode) (h : Nat) : Prog Unit := do
  modify fun s => s.setHandle h { s.handles h with obj := none }
  let s ← get
  let (addr, obj) ← orThrow (s.lookup oid) Err.enoent
  failIf (obj.state ≠ .active && obj.state ≠ .sealed) Err.einval
  failIf (mode ≠ .read && obj.state = .sealed) Err.eperm
  MonadExcept.ofExcept (obj.openCheck env mode)
  modify fun s => s.setHandle h ⟨some addr, mode, obj.version⟩

/-- Close a handle (C `anx_so_close`). -/
def soClose (h : Nat) : Prog Unit :=
  modify fun s => s.setHandle h { s.handles h with obj := none }

/-- Seal an object (C `anx_so_seal`). -/
def soSeal (oid : Uuid) : Prog Unit := do
  let s ← get
  let (addr, obj) ← orThrow (s.lookup oid) Err.enoent
  failIf obj.staged.isSome Err.ebusy
  let obj ← MonadExcept.ofExcept (obj.transition .sealed)
  modify fun s => s.setObject addr obj

/-- Delete an object: it leaves the table, and the handles on it stay as they are (C
    `anx_so_delete`). -/
def soDelete (oid : Uuid) (force : Bool) : Prog Unit := do
  let s ← get
  let (addr, obj) ← orThrow (s.lookup oid) Err.enoent
  failIf obj.staged.isSome Err.ebusy
  failIf (obj.deletionHold && !force) Err.eperm
  let obj ← MonadExcept.ofExcept (obj.transition .deleted)
  modify fun s => { s.setObject addr obj with table := s.table.erase addr }

/-- Set the label of an object (C `anx_object_set_sensitivity`). -/
def objectSetSensitivity (oid : Uuid) (level : Sensitivity) : Prog Unit := do
  let s ← get
  let (addr, obj) ← orThrow (s.lookup oid) Err.enoent
  modify fun s => s.setObject addr { obj with sensitivity := level, sensitivityOrigin := .nil }

/-- Put a new payload where writes go: into the shadow of an open stage, else into the object. -/
def StateObject.assign (sha256 : List UInt8 → Digest) (obj : StateObject) (p : Payload) :
    StateObject :=
  match obj.staged with
  | some stage => { obj with staged := some { stage with shadow := p } }
  | none => obj.mutate sha256 p

def StateObject.target (obj : StateObject) : Payload :=
  match obj.staged with
  | some stage => stage.shadow
  | none => obj.payload

/-- The object behind a handle that passes the checks writes and replacements share. -/
def writeTarget (env : Env) (h : Nat) : Prog (Nat × StateObject) := do
  let s ← get
  let (addr, obj) ← orThrow (s.held h) Err.einval
  failIf ((s.handles h).mode = .read) Err.eperm
  failIf (obj.state = .sealed) Err.eperm
  MonadExcept.ofExcept (obj.stageCheckWriter env.current)
  pure (addr, obj)

/-- Write bytes at an offset (C `anx_so_write_payload`, data not null). The returned byte count is
    left to the caller, who passed it. -/
def soWritePayload (env : Env) (h : Nat) (offset : UInt64) (data : Buffer) : Prog Unit := do
  let (addr, obj) ← writeTarget env h
  failIf (obj.target.size < offset + UInt64.ofNat data.1.length && !env.alloc) Err.enomem
  match obj.target.write offset data env.junk with
  | some p => modify fun s => s.setObject addr (obj.assign s.sha256 p)
  | none => modify fun s => { s with objects := env.stray s.objects }

/-- Replace the whole payload (C `anx_so_replace_payload`). -/
def soReplacePayload (env : Env) (h : Nat) (data : Payload) : Prog Unit := do
  let (addr, obj) ← writeTarget env h
  failIf (data.present && !env.alloc) Err.enomem
  modify fun s => s.setObject addr (obj.assign s.sha256 data.replacement)

end Anunix.Object
