import Anunix.Lib.Region
import Anunix.Md.Layout

/-!
# Block devices and the array table

The state behind `kernel/drivers/storage/blk.c` and `kernel/core/md/md.c`: the registry of block
devices, the active device and the table of arrays. A pointer to a device or an array is its slot.

The drivers are outside the kernel core. A drive is a memory of sectors of a given capacity; whether
a request is met is up to `io`, which has an entry for each request in turn. A request that is not
met returns an error, and one that was to write leaves the sectors it names as the entry says. The
trace records every request that reaches a driver.

Partitions are left out: every registered device other than an array is a drive of its own. This
assumes that no two members overlap; an array over two partitions of one drive is that only if the
partitions do not share sectors, and over a drive and a partition of it never.
-/

namespace Anunix.Md
open Fallible

/-- Slots of the registry (C `ANX_BLK_MAX_DEVS`). -/
abbrev DevId := Fin 32

scoped instance devs_ne_zero : NeZero 32 :=
  ⟨by decide⟩

abbrev ArrayId := Fin maxArrays

/-- A registered device (C `struct anx_blk_dev`, with the drive behind it). -/
structure BlkDev where
  used : Bool
  name : List UInt8
  isArray : Bool
  isMember : Bool
  capacity : UInt64
  data : Nat → Sector

/-- A slot of an array (C `struct anx_md_member`). -/
structure MdMember where
  dev : Option DevId
  dataOffset : UInt64
  state : MemberState
  events : UInt64
  deriving DecidableEq

/-- An array (C `struct anx_md_array`). -/
structure MdArray where
  used : Bool
  name : List UInt8
  uuid : Uuid
  level : Level
  chunkSectors : UInt32
  memberCount : UInt32
  memberSectors : UInt64
  arraySectors : UInt64
  events : UInt64
  created : UInt64
  tailMeta : Bool
  readCursor : UInt32
  resyncOffset : UInt64
  members : Nat → MdMember
  bdev : Option DevId

/-- What a request meets that is not met: the driver's error and, for a write, what the sectors it
names hold afterwards. -/
structure Fault where
  err : Err
  junk : Nat → Sector

/-- A request that reached a driver. -/
structure Access where
  dev : DevId
  lba : UInt64
  count : UInt32
  write : Bool
  deriving DecidableEq

/-- The registry, the array table and the drives. -/
structure Machine where
  devs : DevId → BlkDev
  active : Option DevId
  arrays : ArrayId → MdArray
  io : Nat → Option Fault
  tick : Nat
  trace : List Access

abbrev MdM := EStateM Err Machine

/-! ## State access -/

def Machine.setDev (m : Machine) (d : DevId) (f : BlkDev → BlkDev) : Machine :=
  { m with devs := Function.update m.devs d (f (m.devs d)) }

def Machine.setArray (m : Machine) (a : ArrayId) (f : MdArray → MdArray) : Machine :=
  { m with arrays := Function.update m.arrays a (f (m.arrays a)) }

def MdArray.setMember (arr : MdArray) (i : Nat) (f : MdMember → MdMember) : MdArray :=
  { arr with members := Function.update arr.members i (f (arr.members i)) }

/-- A request that reached a driver uses up an entry of `io` and is recorded. -/
def Machine.noted (m : Machine) (acc : Access) : Machine :=
  { m with tick := m.tick + 1, trace := m.trace ++ [acc] }

def getArray (a : ArrayId) : MdM MdArray := do
  return (← get).arrays a

def modifyArray (a : ArrayId) (f : MdArray → MdArray) : MdM Unit :=
  modify fun m => m.setArray a f

def getDev (d : DevId) : MdM BlkDev := do
  return (← get).devs d

def modifyDev (d : DevId) (f : BlkDev → BlkDev) : MdM Unit :=
  modify fun m => m.setDev d f

/-! ## Drivers -/

def BlkDev.read (dev : BlkDev) (lba : UInt64) (count : UInt32) : Buffer where
  sectors := Region.load dev.data lba.toNat count.toNat
  fits := by
    rw [Region.length_load]
    exact count.toNat_lt

def BlkDev.write (dev : BlkDev) (lba : UInt64) (l : List Sector) : BlkDev :=
  { dev with data := Region.store dev.data lba.toNat l }

/-- A driver takes a request: it is recorded, and met or not. -/
def request (acc : Access) : MdM (Option Fault) := do
  let fault := (← get).io (← get).tick
  modify fun m => m.noted acc
  failIf ((← getDev acc.dev).capacity.toNat < acc.lba.toNat + acc.count.toNat) Err.eio
  return fault

def driverRead (d : DevId) (lba : UInt64) (count : UInt32) : MdM Buffer := do
  match ← request ⟨d, lba, count, false⟩ with
  | some fault => throw fault.err
  | none => return (← getDev d).read lba count

def driverWrite (d : DevId) (lba : UInt64) (buf : Buffer) : MdM Unit := do
  match ← request ⟨d, lba, buf.count, true⟩ with
  | some fault =>
    modifyDev d fun dev => dev.write lba (Region.load fault.junk lba.toNat buf.count.toNat)
    throw fault.err
  | none => modifyDev d fun dev => dev.write lba buf.sectors

/-! ## Registry -/

/-- C `anx_blk_dev_read`. -/
def blkDevRead (d : DevId) (lba : UInt64) (count : UInt32) : MdM Buffer := do
  failIf (!(← getDev d).used) Err.enodev
  if count = 0 then
    return ⟨[], by decide⟩
  else
    driverRead d lba count

/-- C `anx_blk_dev_write`. -/
def blkDevWrite (d : DevId) (lba : UInt64) (buf : Buffer) : MdM Unit := do
  failIf (!(← getDev d).used) Err.enodev
  if buf.count = 0 then
    return ()
  else
    driverWrite d lba buf

/-- C `anx_blk_dev_capacity`. -/
def BlkDev.blkDevCapacity (dev : BlkDev) : UInt64 :=
  if dev.used then dev.capacity else 0

/-- C `anx_blk_dev_claim`. -/
def blkDevClaim (d : DevId) : MdM Unit :=
  modifyDev d fun dev => { dev with isMember := true }

/-- C `anx_blk_dev_release`. -/
def blkDevRelease (d : DevId) : MdM Unit :=
  modifyDev d fun dev => { dev with isMember := false }

/-- The decimal digits of an index below 1000. -/
def indexDigits (n : Nat) : List UInt8 :=
  (if 100 ≤ n then [UInt8.ofNat (48 + n / 100 % 10)] else []) ++
    (if 10 ≤ n then [UInt8.ofNat (48 + n / 10 % 10)] else []) ++ [UInt8.ofNat (48 + n % 10)]

/-- A candidate for a device's name: the base, cut so that the index fits, and the index. -/
def nameCandidate (base : List UInt8) (n : Nat) : List UInt8 :=
  let cand := base.take (blkNameMax - 1)
  let len := if blkNameMax ≤ cand.length + 4 then blkNameMax - 5 else cand.length
  cand.take len ++ indexDigits n

def nameTaken (devs : DevId → BlkDev) (name : List UInt8) : Bool :=
  (List.finRange 32).any fun d => (devs d).used && (devs d).name == name

/-- The base with the lowest index that is not taken (C `blk_pick_name`). -/
def blkPickName (devs : DevId → BlkDev) (base : List UInt8) : List UInt8 :=
  (((List.range 1000).map (nameCandidate base)).find? fun cand => !nameTaken devs cand).getD
    (base.take (blkNameMax - 1))

def freeSlot (devs : DevId → BlkDev) : Option DevId :=
  (List.finRange 32).find? fun d => !(devs d).used

/-- A device takes the first free slot, and becomes active when none is (C `anx_blk_dev_register`,
for a device that is no drive). The name is picked with the slot already in use, under the name it
last had. -/
def blkDevRegister (base : List UInt8) : MdM (Option DevId) := do
  match freeSlot (← get).devs with
  | none => return none
  | some d =>
    modifyDev d fun dev =>
      { dev with used := true, isArray := false, isMember := false, capacity := 0 }
    let name := blkPickName (← get).devs base
    modifyDev d fun dev => { dev with name := name }
    if (← get).active.isNone then
      modify fun m => { m with active := some d }
    return some d

/-- C `anx_blk_dev_unregister`. -/
def blkDevUnregister (d : DevId) : MdM Unit := do
  if (← getDev d).used then
    if (← get).active == some d then
      modify fun m => { m with active := none }
    modifyDev d fun dev =>
      { dev with used := false, isArray := false, isMember := false, name := [] }

/-! ## Array table -/

def MdMember.blank : MdMember where
  dev := none
  dataOffset := 0
  state := .empty
  events := 0

def MdArray.blank : MdArray where
  used := false
  name := []
  uuid := Uuid.nil
  level := .raid0
  chunkSectors := 0
  memberCount := 0
  memberSectors := 0
  arraySectors := 0
  events := 0
  created := 0
  tailMeta := false
  readCursor := 0
  resyncOffset := 0
  members := fun _ => .blank
  bdev := none

def freeArray (arrays : ArrayId → MdArray) : Option ArrayId :=
  (List.finRange maxArrays).find? fun a => !(arrays a).used

/-- The first free slot is zeroed and taken (C `anx_md_alloc_array`). -/
def mdAllocArray : MdM (Option ArrayId) := do
  match freeArray (← get).arrays with
  | none => return none
  | some a =>
    modifyArray a fun _ => { MdArray.blank with used := true }
    return some a

/-- C `anx_md_free_array`. -/
def mdFreeArray (a : ArrayId) : MdM Unit :=
  modifyArray a fun _ => .blank

end Anunix.Md
