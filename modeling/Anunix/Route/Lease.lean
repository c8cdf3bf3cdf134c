import Anunix.Error
import Anunix.Lib.Fallible
import Anunix.Lib.Keyed
import Anunix.Uuid

/-!
# Resource leases

Model of `kernel/core/route/lease.c`: engines hold leases on memory tiers and accelerators, and a
lease can be divided among child leases.

A lease is named by its address. The list of leases is the state, and an address is registered when
a lease of the list has it; freed addresses can be handed out again, to which `Allocator` gives the
choice. Sums are computed in 64 and 32 bits as in the source.
-/

namespace Anunix.Route
open Fallible

/-- C `enum anx_mem_tier`. -/
inductive MemTier where
  | l0 | l1 | l2 | l3 | l4 | l5
  deriving DecidableEq, Repr

/-- The tier of a number below `ANX_MEM_TIER_COUNT`. -/
def MemTier.ofCode : UInt32 → Option MemTier
  | 0 => some .l0
  | 1 => some .l1
  | 2 => some .l2
  | 3 => some .l3
  | 4 => some .l4
  | 5 => some .l5
  | _ => none

/-- C `enum anx_accel_type`. -/
inductive AccelType where
  | none | gpu | npu
  deriving DecidableEq, Repr

/-- The accelerator of a number below `ANX_ACCEL_COUNT`. -/
def AccelType.ofCode : UInt32 → Option AccelType
  | 0 => some .none
  | 1 => some .gpu
  | 2 => some .npu
  | _ => Option.none

/-- C `ANX_LEASE_DEPTH_MAX`. -/
def leaseDepthMax : Nat := 8

/-- A reservation (C `struct anx_engine_lease`). -/
structure Lease where
  addr : Nat
  engineId : Uuid
  memTier : MemTier
  memReservedBytes : UInt64
  memUsedBytes : UInt64
  accel : AccelType
  accelPct : UInt32
  parent : Option Nat
  depth : Nat
  revoked : Bool
  deriving DecidableEq, Repr

/-- What there is to lease, and the leases in the order of their grants. -/
structure State where
  totalMemPerTier : MemTier → UInt64
  totalAccelPct : AccelType → UInt32
  leases : List Lease

/-- The capacity that `anx_lease_init` sets. -/
def State.init : State where
  totalMemPerTier := fun _ => 16 * 1024 * 1024 * 1024
  totalAccelPct := fun _ => 100
  leases := []

/-- What `anx_zalloc` returns while some addresses are in use: nothing, or another address. -/
abbrev Allocator := (live : List Nat) → Option { addr : Nat // addr ∉ live }

abbrev RProg := EStateM Err State

/-- The lease at a registered address (C `registered`). -/
def State.lookup (s : State) (addr : Nat) : Option Lease :=
  Keyed.lookup Lease.addr s.leases addr

/-- Some lease has the engine (C `engine_leased`). -/
def State.engineLeased (s : State) (id : Uuid) : Bool :=
  s.leases.any fun l => l.engineId = id

/-! ## Sums -/

def Lease.root (l : Lease) : Bool :=
  l.parent.isNone && !l.revoked

def Lease.childOf (addr : Nat) (l : Lease) : Bool :=
  l.parent = some addr && !l.revoked

/-- C `sum_reserved_mem`. -/
def State.sumReservedMem (s : State) (tier : MemTier) : UInt64 :=
  s.leases.foldl (fun total l =>
    if l.root && l.memTier = tier then total + l.memReservedBytes else total) 0

/-- C `sum_reserved_accel`. -/
def State.sumReservedAccel (s : State) (accel : AccelType) : UInt32 :=
  s.leases.foldl (fun total l =>
    if l.root && l.accel = accel then total + l.accelPct else total) 0

/-- C `anx_lease_avail_mem`. -/
def State.availMem (s : State) (tier : MemTier) : UInt64 :=
  s.totalMemPerTier tier - s.sumReservedMem tier

/-- C `anx_lease_avail_accel`. -/
def State.availAccel (s : State) (accel : AccelType) : UInt32 :=
  s.totalAccelPct accel - s.sumReservedAccel accel

/-- Take an amount that counts from what is left, if there is enough. -/
def takeMem (e : Err) (counts : Bool) (available amount : UInt64) : Except Err UInt64 := do
  failIf (counts && available < amount) e
  pure (if counts then available - amount else available)

/-- Take a share that counts from what is left, if there is enough. -/
def takePct (e : Err) (counts : Bool) (available amount : UInt32) : Except Err UInt32 := do
  failIf (counts && available < amount) e
  pure (if counts then available - amount else available)

/-- The loops that take the reservations of some leases from what is available: memory from those
    with the property `mem`, accelerator shares from those with the property `acc`. -/
def spend (e : Err) (mem acc : Lease → Bool) :
    List Lease → UInt64 × UInt32 → Except Err (UInt64 × UInt32)
  | [], left => pure left
  | l :: leases, (available, pct) => do
    let available ← takeMem e (mem l) available l.memReservedBytes
    let pct ← takePct e (acc l) pct l.accelPct
    spend e mem acc leases (available, pct)

/-! ## Calls -/

/-- A new lease at an address, a root or the child of another lease. -/
def Lease.fresh (addr : Nat) (id : Uuid) (parent : Option Lease) (tier : MemTier) (bytes : UInt64)
    (accel : AccelType) (pct : UInt32) : Lease where
  addr := addr
  engineId := id
  memTier := tier
  memReservedBytes := bytes
  memUsedBytes := 0
  accel := accel
  accelPct := pct
  parent := parent.map Lease.addr
  depth := parent.elim 0 fun p => p.depth + 1
  revoked := false

/-- Add a lease at the end of the list (C `create_lease`). -/
def createLease (alloc : Allocator) (id : Uuid) (parent : Option Lease) (tier : MemTier)
    (bytes : UInt64) (accel : AccelType) (pct : UInt32) : RProg Nat := do
  let s ← get
  let addr ← orThrow (alloc (s.leases.map Lease.addr)) Err.enomem
  modify fun s => { s with leases := s.leases ++ [.fresh addr.1 id parent tier bytes accel pct] }
  pure addr.1

/-- Grant a root lease (C `anx_lease_grant`); the two enumerations come from the caller
unchecked. -/
def leaseGrant (alloc : Allocator) (id : Uuid) (tier : UInt32) (bytes : UInt64)
    (accel pct : UInt32) : RProg Nat := do
  failIf (id = .nil) Err.einval
  let tier ← orThrow (MemTier.ofCode tier) Err.einval
  let accel ← orThrow (AccelType.ofCode accel) Err.einval
  failIf (100 < pct || (accel = .none && pct ≠ 0)) Err.einval
  let s ← get
  failIf (s.engineLeased id) Err.eexist
  failIf (s.availMem tier < bytes) Err.enomem
  failIf (accel ≠ .none && s.availAccel accel < pct) Err.enomem
  createLease alloc id none tier bytes accel pct

/-- What a lease has left for its children, before any of them is looked at. -/
def Lease.spare (e : Err) (l : Lease) : Except Err (UInt64 × UInt32) := do
  failIf (l.memReservedBytes < l.memUsedBytes) e
  pure (l.memReservedBytes - l.memUsedBytes, l.accelPct)

/-- Divide a lease (C `anx_lease_grant_child`). -/
def leaseGrantChild (alloc : Allocator) (parent : Nat) (id : Uuid) (bytes : UInt64) (pct : UInt32) :
    RProg Nat := do
  failIf (id = .nil || 100 < pct) Err.einval
  let s ← get
  let p ← orThrow (s.lookup parent) Err.enoent
  failIf (p.revoked || leaseDepthMax ≤ p.depth) Err.eperm
  failIf (p.accel = .none && pct ≠ 0) Err.einval
  failIf (s.engineLeased id) Err.eexist
  let spare ← MonadExcept.ofExcept (p.spare Err.enomem)
  let left ← MonadExcept.ofExcept
    (spend Err.enomem (Lease.childOf parent) (Lease.childOf parent) s.leases spare)
  failIf (left.1 < bytes || left.2 < pct) Err.enomem
  createLease alloc id (some p) p.memTier bytes p.accel pct

/-- What the parent of a lease, or the machine, has to give to it and to its siblings. -/
def State.supply (s : State) (l : Lease) : Except Err (UInt64 × UInt32) :=
  match l.parent with
  | some parent => do
    let p ← orThrow (s.lookup parent) Err.eperm
    failIf p.revoked Err.eperm
    p.spare Err.enomem
  | none => pure (s.totalMemPerTier l.memTier, s.totalAccelPct l.accel)

/-- Another unrevoked lease with the same parent, or another unrevoked root. -/
def Lease.sibling (l other : Lease) : Bool :=
  other.addr ≠ l.addr && !other.revoked && other.parent = l.parent

/-- The siblings that have their memory from the same place. -/
def Lease.sharesMem (l other : Lease) : Bool :=
  l.sibling other && (l.parent.isSome || other.memTier = l.memTier)

/-- The siblings that have their accelerator share from the same place. -/
def Lease.sharesAccel (l other : Lease) : Bool :=
  l.sibling other && l.accel ≠ .none && (l.parent.isSome || other.accel = l.accel)

/-- Change a reservation (C `anx_lease_resize`). -/
def leaseResize (current : Option Uuid) (addr : Nat) (bytes : UInt64) (pct : UInt32) :
    RProg Unit := do
  failIf current.isSome Err.eperm
  failIf (100 < pct) Err.einval
  let s ← get
  let l ← orThrow (s.lookup addr) Err.enoent
  failIf l.revoked Err.eperm
  failIf (l.accel = .none && pct ≠ 0) Err.einval
  -- A shrink takes nothing from what is used or reserved by children.
  let spare ← MonadExcept.ofExcept
    (Lease.spare Err.ebusy { l with memReservedBytes := bytes, accelPct := pct })
  let _ ← MonadExcept.ofExcept
    (spend Err.ebusy (Lease.childOf addr) (Lease.childOf addr) s.leases spare)
  let supply ← MonadExcept.ofExcept (s.supply l)
  let left ← MonadExcept.ofExcept (spend Err.enomem l.sharesMem l.sharesAccel s.leases supply)
  failIf (left.1 < bytes || left.2 < pct) Err.enomem
  modify fun s =>
    { s with
      leases := Keyed.update Lease.addr s.leases
        { l with memReservedBytes := bytes, accelPct := pct } }

/-- The walk from a lease up to the root finds the lease at `root` (C `in_subtree`). -/
def State.inSubtree (s : State) (root : Nat) : Nat → Option Nat → Bool
  | 0, _ => false
  | _, none => false
  | fuel + 1, some addr => addr = root || s.inSubtree root fuel ((s.lookup addr).bind Lease.parent)

def State.below (s : State) (root : Nat) (l : Lease) : Bool :=
  s.inSubtree root (leaseDepthMax + 1) (some l.addr)

def State.mark (s : State) (root : Nat) (l : Lease) : Lease :=
  { l with revoked := l.revoked || s.below root l }

/-- Revoke a lease and everything below it, unless some of it is in use (C `anx_lease_revoke`). -/
def leaseRevoke (addr : Nat) : RProg Unit := do
  let s ← get
  let _ ← orThrow (s.lookup addr) Err.enoent
  failIf (s.leases.any fun l => s.below addr l && l.memUsedBytes ≠ 0) Err.ebusy
  modify fun s => { s with leases := s.leases.map (s.mark addr) }

/-- Free a lease without children (C `anx_lease_release`). -/
def leaseRelease (addr : Nat) : RProg Unit := do
  let s ← get
  let l ← orThrow (s.lookup addr) Err.enoent
  failIf (l.memUsedBytes ≠ 0) Err.ebusy
  failIf (s.leases.any fun child => child.parent = some addr) Err.ebusy
  modify fun s => { s with leases := Keyed.erase Lease.addr s.leases addr }

/-- The figures of a snapshot (C `struct anx_lease_capacity`). -/
structure Capacity where
  freeMemory : MemTier → UInt64
  freeAccelerator : AccelType → UInt32

def Capacity.without (c : Capacity) (l : Lease) : Capacity where
  freeMemory := Function.update c.freeMemory l.memTier (c.freeMemory l.memTier - l.memReservedBytes)
  freeAccelerator :=
    Function.update c.freeAccelerator l.accel (c.freeAccelerator l.accel - l.accelPct)

/-- The loop of `anx_lease_snapshot_capacity`. -/
def Capacity.subtract : List Lease → Capacity → Except Err Capacity
  | [], c => pure c
  | l :: leases, c =>
    if l.root then do
      failIf (c.freeMemory l.memTier < l.memReservedBytes || c.freeAccelerator l.accel <
        l.accelPct) Err.eio
      subtract leases (c.without l)
    else subtract leases c

/-- What is free, of every kind at once (C `anx_lease_snapshot_capacity`). -/
def State.snapshotCapacity (s : State) : Except Err Capacity :=
  Capacity.subtract s.leases ⟨s.totalMemPerTier, s.totalAccelPct⟩

end Anunix.Route
