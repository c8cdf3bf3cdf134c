import Anunix.Effect.Fence

/-!
# State Objects

The State Object of `kernel/include/anx/state_object.h` with the code that works on a single one:
the lifecycle table of `kernel/core/state/lifecycle.c`, the access policy of
`kernel/core/state/access.c`, and the payload buffer that `anx_so_write_payload` grows and fills.

A payload is a pointer with a separate size. A buffer that is there has as many bytes as the size
says, so the bytes carry the size; a null pointer keeps a size of its own, which
`anx_so_replace_payload(handle, NULL, len)` sets to `len`. Bytes that exist fit the block
`anx_alloc` returns for them, which is not so for every size a write may ask for: the allocator adds
its header in 64 bits and counts pages in 32.
-/

namespace Anunix.Object
open Fallible

/-! ## Lifecycle -/

/-- Lifecycle states (C `enum anx_object_state`). -/
inductive ObjectState where
  | creating | active | sealed | expired | deleted | tombstone
  deriving DecidableEq, Repr

/-- The transition table (C `valid_transitions`). -/
def validTransition : ObjectState → ObjectState → Bool
  | .creating, .active => true
  | .active, .sealed | .active, .deleted => true
  | .sealed, .expired | .sealed, .deleted => true
  | .expired, .deleted => true
  | .deleted, .tombstone => true
  | _, _ => false

/-- Object types (C `enum anx_object_type`). -/
inductive ObjectType where
  | byteData | structuredData | embedding | graphNode | modelOutput | executionTrace | capability
  | credential | surface | event | tensor | vm | workflow
  | jepaObs | jepaLatent | jepaTrace | jepaWorldProfile
  | loopSession | beliefState | worldProposal | score | plan | counterexample | memoryConsolidation
  | audioClip | videoClip
  deriving DecidableEq, Repr

/-! ## Access policy -/

/-- Operations a policy controls (C `enum anx_access_op`). -/
inductive AccessOp where
  | readPayload | readMeta | writePayload | writeMeta | seal | delete | derive | queryProv
  deriving DecidableEq, Repr

def AccessOp.bit : AccessOp → UInt32
  | .readPayload => 1
  | .readMeta => 2
  | .writePayload => 4
  | .writeMeta => 8
  | .seal => 16
  | .delete => 32
  | .derive => 64
  | .queryProv => 128

/-- C `enum anx_access_effect`. -/
inductive AccessEffect where
  | allow | deny
  deriving DecidableEq, Repr

/-- One rule; a nil principal stands for every cell (C `struct anx_access_rule`). -/
structure AccessRule where
  principal : Uuid
  operations : UInt32
  effect : AccessEffect
  deriving DecidableEq, Repr

/-- C `ANX_MAX_ACCESS_RULES`. -/
def maxAccessRules : Nat := 16

/-- The rules of an object and how many of them count (C `struct anx_access_policy`). -/
structure AccessPolicy where
  rules : List AccessRule
  ruleCount : UInt32
  deriving DecidableEq, Repr

/-- A rule speaks about a request when both its principal and its mask match. -/
def AccessRule.applies (rule : AccessRule) (cell : Option Uuid) (op : AccessOp) : Bool :=
  (rule.principal = .nil ∨ cell = some rule.principal) ∧ rule.operations &&& op.bit ≠ 0

/-- The first matching rule decides, and without one the request is allowed (C
    `anx_access_evaluate`). -/
def AccessPolicy.evaluate (policy : AccessPolicy) (cell : Option Uuid) (op : AccessOp) :
    Except Err Unit :=
  let rules := (policy.rules.take policy.ruleCount.toNat).take maxAccessRules
  match rules.find? fun rule => rule.applies cell op with
  | some rule => failIf (rule.effect = .deny) Err.eperm
  | none => pure ()

/-! ## Payloads -/

/-- The bytes behind the header of the block that C `anx_alloc` returns. -/
def allocBytes (size : UInt64) : Nat :=
  if 4096 < size + 8 then 2 ^ Nat.clog 2 ((size + 8 + 4095) >>> 12).toUInt32.toNat * 4096 - 8
  else 2 ^ max 5 (Nat.clog 2 (size + 8).toNat) - 8

/-- The contents of an allocated buffer: its length is a `uint64_t`, and they lie in their block. -/
abbrev Buffer :=
  { bytes : List UInt8 // bytes.length < 2 ^ 64 ∧
    bytes.length ≤ allocBytes (UInt64.ofNat bytes.length) }

/-- A payload pointer with its size (C `payload`, `payload_size`). -/
inductive Payload where
  | null (size : UInt64)
  | buffer (b : Buffer)
  deriving DecidableEq

/-- C `payload_size`. -/
def Payload.size : Payload → UInt64
  | .null n => n
  | .buffer b => UInt64.ofNat b.1.length

def Payload.bytes : Payload → List UInt8
  | .null _ => []
  | .buffer b => b.1

def Payload.empty : Payload := .null 0

def Payload.present (p : Payload) : Bool :=
  !p.bytes.isEmpty

lemma grown_length (p : Payload) (size : UInt64) (junk : Nat → UInt8) :
    ((p.bytes ++ (List.range (size.toNat - p.bytes.length)).map junk).take size.toNat).length =
    size.toNat := by
  simp only [List.length_take, List.length_append, List.length_map, List.length_range]
  omega

/-- A fresh buffer of `size` bytes into which the old ones were copied. What the allocator left in
    the rest of it is `junk`. -/
def Payload.grow (p : Payload) (size : UInt64) (h : size.toNat ≤ allocBytes size)
    (junk : Nat → UInt8) : Buffer :=
  ⟨(p.bytes ++ (List.range (size.toNat - p.bytes.length)).map junk).take size.toNat, by
    rw [grown_length, UInt64.ofNat_toNat]
    exact ⟨size.toNat_lt, h⟩⟩

/-- Copy `data` into a payload at an offset (C `anx_memcpy(payload + offset, data, len)`), or `none`
    when the copy leaves the buffer. -/
def Payload.copyIn (p : Payload) (offset : UInt64) (data : List UInt8) : Option Payload :=
  match p, data with
  | p, [] => some p
  | .null _, _ :: _ => none
  | .buffer b, data =>
    if h : offset.toNat + data.length ≤ b.1.length then
      some (.buffer ⟨b.1.take offset.toNat ++ data ++ b.1.drop (offset.toNat + data.length), by
        have hlen :
          (b.1.take offset.toNat ++ data ++ b.1.drop (offset.toNat + data.length)).length =
            b.1.length := by
          simp only [List.length_append, List.length_take, List.length_drop]
          omega
        rw [hlen]
        exact b.2⟩)
    else none

/-- The write of `anx_so_write_payload` once its checks have passed: grow the buffer if the end of
    the write, computed in 64 bits, lies beyond it, then copy. A block that is too small for its
    size cannot take what is copied now or read later. -/
def Payload.write (p : Payload) (offset : UInt64) (data : Buffer) (junk : Nat → UInt8) :
    Option Payload :=
  let newSize := offset + UInt64.ofNat data.1.length
  if p.size < newSize then
    if h : newSize.toNat ≤ allocBytes newSize then
      Payload.copyIn (.buffer (p.grow newSize h junk)) offset data.1
    else none
  else p.copyIn offset data.1

/-- What `anx_so_replace_payload(handle, data, len)` makes of its arguments, themselves a pointer
    with a size: bytes are copied, and without any the pointer is null. -/
def Payload.replacement (data : Payload) : Payload :=
  if data.present then data else .null data.size

/-! ## Objects -/

/-- The result of `anx_sha256`. -/
abbrev Digest := List UInt8

/-- A zeroed `struct anx_hash`. -/
def Digest.zero : Digest := List.replicate 32 0

/-- A pending mutation (C `struct anx_staged_mutation`). -/
structure StagedMutation where
  shadow : Payload
  stagingCell : Uuid
  baseVersion : UInt64
  epistemicId : UInt64
  deriving DecidableEq

/-- A State Object (C `struct anx_state_object`). -/
structure StateObject where
  oid : Uuid
  contentHash : Digest
  version : UInt64
  objectType : ObjectType
  schemaUri : List UInt8
  schemaVersion : List UInt8
  payload : Payload
  staged : Option StagedMutation
  sensitivity : Sensitivity
  sensitivityOrigin : Uuid
  accessPolicy : AccessPolicy
  deletionHold : Bool
  state : ObjectState
  creatorCell : Uuid
  parentOids : List Uuid
  deriving DecidableEq

/-- Move an object along the table (C `anx_lifecycle_transition`). -/
def StateObject.transition (obj : StateObject) (newState : ObjectState) :
    Except Err StateObject := do
  failIf (!validTransition obj.state newState) Err.einval
  pure { obj with state := newState }

/-- The hash of a payload, which `anx_sha256` is given the low 32 bits of the size for (C
    `anx_so_compute_content_hash`). -/
def contentHashOf (sha256 : List UInt8 → Digest) (p : Payload) : Digest :=
  if p.present then sha256 (p.bytes.take p.size.toUInt32.toNat) else Digest.zero

/-- Put a new live payload in place: the version counts up and the hash is taken again. -/
def StateObject.mutate (sha256 : List UInt8 → Digest) (obj : StateObject) (p : Payload) :
    StateObject :=
  { obj with payload := p, version := obj.version + 1, contentHash := contentHashOf sha256 p }

/-- An open stage belongs to the cell that opened it; code that runs outside any cell may touch
    every stage (C `anx_object_stage_check_writer`). -/
def StateObject.stageCheckWriter (obj : StateObject) (active : Option Uuid) : Except Err Unit :=
  match obj.staged, active with
  | some stage, some cell => failIf (cell ≠ stage.stagingCell) Err.eperm
  | _, _ => pure ()

/-! ## What the small functions do -/

section Lemmas

variable {p : Payload}

lemma le_allocBytes {size : UInt64} (h : size.toNat ≤ 2 ^ 43 - 8) :
    size.toNat ≤ allocBytes size := by
  have hadd : (size + 8).toNat = size.toNat + 8 := by
    exact Nat.mod_eq_of_lt (by simp; omega)
  unfold allocBytes
  split
  · have hpages : ((size + 8 + 4095) >>> 12).toUInt32.toNat = (size.toNat + 8 + 4095) / 2 ^ 12 := by
      simp
      omega
    have hle := Nat.le_pow_clog (b := 2) (by decide) ((size.toNat + 8 + 4095) / 2 ^ 12)
    rw [hpages]
    omega
  · have hle := Nat.le_pow_clog (b := 2) (by decide) (size.toNat + 8)
    have hmax :=
      Nat.pow_le_pow_right (n := 2) (by decide) (Nat.le_max_right 5 (Nat.clog 2 (size.toNat + 8)))
    rw [hadd]
    omega

lemma Payload.bytes_length (b : Buffer) : (Payload.buffer b).size.toNat = b.1.length := by
  exact Nat.mod_eq_of_lt b.2.1

lemma Payload.bytes_length_of_present (h : p.present = true) : p.bytes.length = p.size.toNat := by
  cases p with
  | null n => simp [present, bytes] at h
  | buffer b => exact (bytes_length b).symm

lemma StateObject.transition_eq_ok {obj obj' : StateObject} {st : ObjectState} :
    obj.transition st = .ok obj' ↔ validTransition obj.state st = true ∧
    obj' = { obj with state := st } := by
  unfold transition
  rw [bind_eq_ok]
  constructor
  · rintro ⟨_, hv, hr⟩
    have hv' := failIf_eq_ok.mp hv
    cases hr
    exact ⟨by simpa using hv', rfl⟩
  · rintro ⟨hv, rfl⟩
    exact ⟨⟨⟩, failIf_eq_ok.mpr (by simp [hv]), rfl⟩

end Lemmas

end Anunix.Object
