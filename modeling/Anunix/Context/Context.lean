import Anunix.Lib.Mask
import Anunix.Lib.Slots
import Anunix.Object.Store

/-!
# Context records

Model of `kernel/core/state/context.c`: the texts that a model is given are taken from sealed
objects, each under a record that says where the text comes from and how high it may stand. What
is imported has its ceilings from its origin, a derivation from all its parents, and `compile` puts
texts together into a bundle after everything they were derived from has been looked at again.

The records are an array of slots. A record is named by its identifier, which is never given out
twice: a pointer to a parent is the parent's identifier, and `find` follows it. Following a pointer
to a record that is gone is undefined in the source; here it fails, and `Sound.parents` says that it
does not happen. The owner pointer of a record leads to a cell that the record keeps alive; what the
cell holds at the time of a call is part of the call's `Around`.
-/

namespace Anunix.Context
open Fallible Object

/-- C `ANX_CONTEXT_MAX`. -/
def contextMax : Nat := 32

/-- C `ANX_CONTEXT_PARENTS`. -/
def contextParents : Nat := 4

/-- C `ANX_CONTEXT_SEGMENTS`, also the limit of the depth of derivations. -/
def contextSegments : Nat := 8

/-- C `ANX_CONTEXT_BYTES`. -/
def contextBytes : Nat := 4096

/-! ## Ceilings -/

/-- C `enum anx_context_role`. -/
inductive Role where
  | tool | user | developer | system
  deriving DecidableEq, Repr

def Role.code : Role → Nat
  | .tool => 0
  | .user => 1
  | .developer => 2
  | .system => 3

lemma Role.code_injective : Function.Injective code := by
  intro a b h
  cases a <;> cases b <;> first | rfl | exact absurd h (by decide)

instance : LinearOrder Role :=
  LinearOrder.lift' Role.code Role.code_injective

/-- C `enum anx_context_scope`. -/
inductive Scope where
  | session | project | account | machine
  deriving DecidableEq, Repr

def Scope.code : Scope → Nat
  | .session => 0
  | .project => 1
  | .account => 2
  | .machine => 3

lemma Scope.code_injective : Function.Injective code := by
  intro a b h
  cases a <;> cases b <;> first | rfl | exact absurd h (by decide)

instance : LinearOrder Scope :=
  LinearOrder.lift' Scope.code Scope.code_injective

/-- C `enum anx_context_origin`. -/
inductive Origin where
  | toolOutput | userInput | repository | policy | derived
  deriving DecidableEq, Repr

/-- The highest role an origin allows. What is derived has no limit of its own. -/
def Origin.roleCeiling : Origin → Role
  | .toolOutput => .tool
  | .userInput | .repository => .user
  | .policy | .derived => .system

def Origin.scopeCeiling : Origin → Scope
  | .toolOutput | .userInput => .session
  | .repository => .project
  | .policy | .derived => .machine

/-! ## Records -/

/-- The public part of a record (C `struct anx_context_view`). -/
structure View where
  id : UInt64
  owner : Uuid
  source : Uuid
  version : UInt64
  size : UInt64
  sensitivity : Sensitivity
  parentCount : Nat
  origin : Origin
  roleCeiling : Role
  scopeCeiling : Scope
  digest : Digest
  deriving DecidableEq

/-- A text with its provenance (C `struct context_record`). -/
structure Record where
  view : View
  identity : Uuid
  ownerParent : Uuid
  parents : List UInt64
  references : Nat
  depth : Nat
  slot : Nat
  deriving DecidableEq

/-- One text of a bundle to be compiled; the two enumerations come from the caller unchecked. -/
structure SpecSegment where
  id : UInt64
  role : UInt32
  scope : UInt32
  deriving DecidableEq

structure BundleSegment where
  id : UInt64
  offset : Nat
  size : UInt64
  role : UInt32
  scope : UInt32
  digest : Digest
  deriving DecidableEq

/-- A compiled bundle: its texts and their bytes one after another (C
`struct anx_context_bundle`). -/
structure Bundle where
  segments : List BundleSegment
  bytes : List UInt8
  deriving DecidableEq

def Bundle.empty : Bundle := ⟨[], []⟩

structure State where
  store : Store
  records : List (Option Record)
  sequence : UInt64
  out : Bundle

structure Around where
  env : Env
  /-- The cell behind the owner pointer of a record. -/
  ownerCell : UInt64 → Cell

abbrev CProg := EStateM Err State

/-- C `find`. -/
def State.find (s : State) (id : UInt64) : Option Record :=
  (Slots.firstWith s.records fun r => r.view.id = id).map Prod.snd

/-- Outside any cell, or in the owner (C `access_owner`). -/
def accessOwner (env : Env) (owner : Uuid) : Except Err Unit :=
  failIf (env.current.any fun caller => caller ≠ owner) Err.eperm

/-! ## Checks -/

/-- The owner is still the cell it was, and acts under the identity it had. The identity it acts
    under now is what `capture` puts into the record (C `owner_current`). -/
def Record.ownerCurrent (r : Record) (a : Around) (owner : Cell) (capture : Bool) :
    Except Err Uuid := do
  failIf (owner.cid ≠ r.view.owner || owner.parentCid ≠ r.ownerParent) Err.eperm
  a.env.scope r.view.owner
  let identity ← a.env.identity r.view.owner
  failIf (!capture && identity ≠ r.identity) Err.ebusy
  pure identity

def Record.admissible (r : Record) (obj : StateObject) : Bool :=
  obj.state = .sealed && obj.objectType = .byteData && obj.version ≠ 0 && obj.payload.present &&
    obj.payload.size.toNat ≤ contextBytes && obj.parentOids.length = r.parents.length &&
    obj.accessPolicy.ruleCount.toNat ≤ maxAccessRules

/-- The object names the source of a parent record as its own parent, and its label is not lower. -/
def State.admitsParent (s : State) (obj : StateObject) (oid : Uuid) (parent : UInt64) : Bool :=
  (s.find parent).any fun q => oid = q.view.source && q.view.sensitivity ≤ obj.sensitivity

def Record.stale (r : Record) (sha256 : List UInt8 → Digest) (obj : StateObject) : Bool :=
  obj.version ≠ r.view.version || obj.payload.size ≠ r.view.size ||
    obj.sensitivity ≠ r.view.sensitivity || sha256 obj.payload.bytes ≠ r.view.digest

def observeRead (env : Env) (obj : StateObject) : Except Err Unit :=
  if env.current.isSome then env.observe obj.oid obj.sensitivity else pure ()

/-- The source object is fit for the record and, unless it is just being captured, is what it was (C
    `source_current`). -/
def State.sourceCurrent (s : State) (a : Around) (r : Record) (capture : Bool) :
    Except Err StateObject := do
  let (_, obj) ← orThrow (s.store.lookup r.view.source) Err.enoent
  failIf (!r.admissible obj) Err.einval
  failIf ((obj.parentOids.zip r.parents).any fun (oid, p) => !s.admitsParent obj oid p) Err.eperm
  obj.accessPolicy.evaluate (some r.view.owner) .readPayload
  failIf (!capture && r.stale s.store.sha256 obj) Err.ebusy
  observeRead a.env obj
  pure obj

/-- Check a record and everything it was derived from, passing over the slots already seen (C
    `validate`). The depth of records is limited, which `fuel` stands for; `validate_fuel` says that
    the limit of `create` is enough. -/
def State.validate (s : State) (a : Around) : Nat → Record → BitVec 32 → Except Err (BitVec 32)
  | 0, _, _ => throw Err.efull
  | fuel + 1, r, seen =>
    if seen.getLsbD r.slot then pure seen
    else do
      let _ ← r.ownerCurrent a (a.ownerCell r.view.id) false
      let seen ← r.parents.foldlM (fun seen p => do
        let parent ← orThrow (s.find p) Err.enoent
        s.validate a fuel parent seen) seen
      let _ ← s.sourceCurrent a r false
      pure (seen ||| Mask.single r.slot)

/-! ## Calls -/

structure Inherited where
  seen : BitVec 32
  roleCeiling : Role
  scopeCeiling : Scope
  depth : Nat

def Inherited.lower (h : Inherited) (parent : Record) (seen : BitVec 32) : Inherited where
  seen := seen
  roleCeiling := min parent.view.roleCeiling h.roleCeiling
  scopeCeiling := min parent.view.scopeCeiling h.scopeCeiling
  depth := max h.depth (parent.depth + 1)

/-- The loop of `create` over the parents, the first of them already dealt with. -/
def State.inherit (s : State) (a : Around) (owner source : Uuid) (earlier : List UInt64) :
    List UInt64 → Inherited → Except Err Inherited
  | [], h => pure h
  | p :: parents, h => do
    let parent ← orThrow (s.find p) Err.enoent
    failIf (parent.view.owner ≠ owner || parent.view.source = source) Err.eperm
    failIf (p ∈ earlier) Err.einval
    let seen ← s.validate a contextSegments parent h.seen
    s.inherit a owner source (earlier ++ [p]) parents (h.lower parent seen)

def Record.counted (change : Nat → Nat → Nat) (parents : List UInt64) (q : Record) : Record :=
  { q with references := change q.references (parents.count q.view.id) }

def countReferences (change : Nat → Nat → Nat) (parents : List UInt64)
    (records : List (Option Record)) : List (Option Record) :=
  records.map (Option.map (Record.counted change parents))

def Record.start (owner source : Uuid) (origin : Origin) (parents : List UInt64)
    (ownerParent : Uuid) : Record where
  view :=
    { id := 0, owner := owner, source := source, version := 0, size := 0, sensitivity := .pub,
      parentCount := parents.length, origin := origin, roleCeiling := origin.roleCeiling,
      scopeCeiling := origin.scopeCeiling, digest := Digest.zero }
  identity := .nil
  ownerParent := ownerParent
  parents := parents
  references := 0
  depth := 0
  slot := 0

def Record.inheriting (r : Record) (identity : Uuid) (h : Inherited) : Record :=
  { r with
    view := { r.view with roleCeiling := h.roleCeiling, scopeCeiling := h.scopeCeiling }
    identity := identity
    depth := h.depth }

def Record.capturing (r : Record) (sha256 : List UInt8 → Digest) (obj : StateObject) (id : UInt64)
    (slot : Nat) : Record :=
  { r with
    view :=
      { r.view with
        id := id, version := obj.version, size := obj.payload.size, sensitivity := obj.sensitivity,
        digest := sha256 obj.payload.bytes }
    slot := slot }

/-- Make a record of an object (C `create`). -/
def create (a : Around) (owner source : Uuid) (origin : Origin) (parents : List UInt64) :
    CProg View := do
  failIf (origin ≠ .derived && a.env.current.isSome) Err.eperm
  failIf (owner = .nil || source = .nil || contextParents < parents.length ||
    (if origin = .derived then parents = [] else parents ≠ [])) Err.einval
  MonadExcept.ofExcept (accessOwner a.env owner)
  failIf (!a.env.alloc) Err.enomem
  let cell ← orThrow (a.env.cells.lookup owner) Err.enoent
  let r := Record.start owner source origin parents cell.parentCid
  let identity ← MonadExcept.ofExcept (r.ownerCurrent a cell true)
  let s ← get
  let h ← MonadExcept.ofExcept (s.inherit a owner source [] parents
    ⟨0#32, r.view.roleCeiling, r.view.scopeCeiling, 0⟩)
  failIf (contextSegments ≤ h.depth) Err.efull
  let r := r.inheriting identity h
  let obj ← MonadExcept.ofExcept (s.sourceCurrent a r true)
  let slot ← orThrow (Slots.firstFree s.records) Err.efull
  failIf (s.sequence = uint64Max) Err.efull
  let r := r.capturing s.store.sha256 obj (s.sequence + 1) slot
  modify fun s =>
    { s with
      records := countReferences (· + ·) parents (s.records.set slot (some r))
      sequence := s.sequence + 1 }
  pure r.view

/-- Only the controller says where a text comes from (C `anx_context_import`). -/
def contextImport (a : Around) (owner source : Uuid) (origin : Origin) : CProg View := do
  failIf (origin = .derived) Err.einval
  create a owner source origin []

/-- A text made from others (C `anx_context_derive`). -/
def contextDerive (a : Around) (owner source : Uuid) (parents : List UInt64) : CProg View :=
  create a owner source .derived parents

/-- Look at a record (C `anx_context_get`). -/
def contextGet (a : Around) (id : UInt64) : CProg View := do
  failIf (id = 0) Err.einval
  let s ← get
  let r ← orThrow (s.find id) Err.enoent
  MonadExcept.ofExcept (accessOwner a.env r.view.owner)
  let _ ← MonadExcept.ofExcept (s.validate a contextSegments r 0#32)
  pure r.view

def Bundle.add (b : Bundle) (r : Record) (segment : SpecSegment) (bytes : List UInt8) : Bundle where
  segments := b.segments ++
    [⟨r.view.id, b.bytes.length, r.view.size, segment.role, segment.scope, r.view.digest⟩]
  bytes := b.bytes ++ bytes

/-- The loop of `compile` that puts the texts together. -/
def State.assemble (s : State) (a : Around) (owner : Uuid) :
    List SpecSegment → BitVec 32 → Bundle → Except Err Bundle
  | [], _, b => pure b
  | segment :: rest, seen, b => do
    let r ← orThrow (s.find segment.id) Err.enoent
    failIf (r.view.owner ≠ owner || r.view.roleCeiling.code < segment.role.toNat ||
      r.view.scopeCeiling.code < segment.scope.toNat) Err.eperm
    failIf (contextBytes - b.bytes.length < r.view.size.toNat) Err.efull
    let seen ← s.validate a contextSegments r seen
    let obj ← s.sourceCurrent a r false
    s.assemble a owner rest seen (b.add r segment (obj.payload.bytes.take r.view.size.toNat))

/-- The loop of `compile` that checks everything once more. -/
def State.recheck (s : State) (a : Around) (spec : List SpecSegment) : Except Err (BitVec 32) :=
  spec.foldlM (fun seen segment => do
    let r ← orThrow (s.find segment.id) Err.enoent
    s.validate a contextSegments r seen) 0#32

/-- Put texts together into the caller's bundle (C `anx_context_compile`). -/
def contextCompile (a : Around) (owner : Uuid) (spec : List SpecSegment) : CProg Unit := do
  failIf (owner = .nil) Err.einval
  MonadExcept.ofExcept (accessOwner a.env owner)
  failIf (spec = [] || contextSegments < spec.length) Err.einval
  failIf (!a.env.alloc) Err.enomem
  let s ← get
  let b ← MonadExcept.ofExcept (s.assemble a owner spec 0#32 .empty)
  let _ ← MonadExcept.ofExcept (s.recheck a spec)
  modify fun s => { s with out := b }

/-- Free a record that nothing is derived from (C `anx_context_destroy`). -/
def contextDestroy (a : Around) (id : UInt64) : CProg Unit := do
  failIf a.env.current.isSome Err.eperm
  failIf (id = 0) Err.einval
  let s ← get
  let r ← orThrow (s.find id) Err.enoent
  failIf (r.references ≠ 0) Err.ebusy
  modify fun s =>
    { s with records := countReferences (· - ·) r.parents (s.records.set r.slot none) }

end Anunix.Context
