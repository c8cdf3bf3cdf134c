import Anunix.Disk.Layout
import Anunix.Error
import Anunix.Lib.Fallible
import Anunix.Lib.Keyed

/-!
# The disk object store

`kernel/core/state/disk_store.c` over the active block device of `kernel/drivers/storage/blk.c`.

The state is the device together with the static variables of `disk_store.c`. Every request to the
device or the allocator may fail: `faults` says what request number `tick` reports. A device
refuses a transfer that leaves its capacity, and a refused or failed write changes nothing. `log` is
a ghost: the block writes carried out so far, which is where a machine can stop.
-/

namespace Anunix.Disk
open Fallible Region

/-- A block write: the first byte address and the bytes. -/
structure Write where
  addr : Nat
  bytes : List UInt8

def Write.apply (d : Nat → UInt8) (w : Write) : Nat → UInt8 :=
  store d w.addr w.bytes

/-- The active block device, if there is one, and the allocator. -/
structure Device where
  ready : Bool
  /-- Capacity in sectors (C `anx_blk_capacity`). -/
  capacity : UInt64
  disk : Nat → UInt8
  faults : Nat → Option Err
  tick : Nat
  log : List Write

/-- The static variables of `disk_store.c`; the length of the cache is C `index_count`. -/
structure Memory where
  super : Super
  indexCache : List IndexEntry
  mounted : Bool
  nextTxnId : UInt32

structure Store where
  dev : Device
  mem : Memory

abbrev StoreM := EStateM Err Store

def getMem : StoreM Memory := do
  return (← get).mem

def modifyMem (f : Memory → Memory) : StoreM Unit :=
  modify fun s => { s with mem := f s.mem }

/-! ## Device and allocator -/

def nextFault : StoreM (Option Err) := do
  let s ← get
  modify fun s => { s with dev.tick := s.dev.tick + 1 }
  return s.dev.faults s.dev.tick

/-- A memory request, which fails with one code only (C `anx_alloc`, `anx_zalloc` and the null
test). -/
def alloc : StoreM Unit := do
  failIf (← nextFault).isSome Err.enomem

/-- Ask the device for a transfer of `count` sectors from `lba` on. -/
def transfer (lba : UInt64) (count : UInt32) : StoreM Unit := do
  match ← nextFault with
  | some e => throw e
  | none => failIf ((← get).dev.capacity.toNat < lba.toNat + count.toNat) Err.eio

/-- Read sectors of the active device (C `anx_blk_read`). -/
def blkRead (lba : UInt64) (count : UInt32) : StoreM (List UInt8) := do
  failIf (!(← get).dev.ready) Err.eio
  if count = 0 then return []
  transfer lba count
  return load (← get).dev.disk (512 * lba.toNat) (512 * count.toNat)

/-- Write sectors of the active device from a buffer (C `anx_blk_write`). -/
def blkWrite (lba : UInt64) (count : UInt32) (buf : List UInt8) : StoreM Unit := do
  failIf (!(← get).dev.ready) Err.eio
  if count = 0 then return
  transfer lba count
  let w : Write := ⟨512 * lba.toNat, buf.take (512 * count.toNat)⟩
  modify fun s => { s with dev.disk := w.apply s.dev.disk, dev.log := s.dev.log ++ [w] }

/-! ## Superblock -/

/-- C `read_super`. -/
def readSuper : StoreM Unit := do
  let buf ← blkRead superSector 1
  modifyMem fun m => { m with super := Super.codec.decode buf }
  failIf ((← getMem).super.magic != diskMagic) Err.einval
  failIf ((← getMem).super.version != diskVersion) Err.einval

/-- C `write_super`. -/
def writeSuper : StoreM Unit := do
  blkWrite superSector 1 (superImage (← getMem).super)

/-! ## Index -/

/-- Load the live entries into the cache (C `load_index`). Where the cache itself cannot be
allocated the code is left with a count and a null cache; here the cache is left empty. -/
def loadIndex : StoreM Unit := do
  alloc
  let buf ← blkRead indexStart indexSectors
  modifyMem fun m => { m with indexCache := [] }
  if parseIndex buf ≠ [] then
    alloc
  modifyMem fun m => { m with indexCache := parseIndex buf }

/-- C `flush_index`. -/
def flushIndex : StoreM Unit := do
  alloc
  blkWrite indexStart indexSectors (indexImage (← getMem).indexCache)

/-- C `find_index_entry`. -/
def findIndexEntry (cache : List IndexEntry) (oid : Uuid) : Option IndexEntry :=
  Keyed.lookup IndexEntry.oid cache oid

/-- Whether an entry sorts before another: by boundary key, then by OID (C `entry_cmp` below
zero). -/
def entryBefore (a b : IndexEntry) : Bool :=
  if a.boundaryKey < b.boundaryKey then true
  else if b.boundaryKey < a.boundaryKey then false
  else if a.oid.hi < b.oid.hi then true
  else if b.oid.hi < a.oid.hi then false
  else a.oid.lo < b.oid.lo

/-- The binary search of C `index_lower_bound` on the entries from `lo` to `hi`. Every round
shortens the interval, so its length bounds the number of rounds. -/
def lowerBoundFrom (cache : List IndexEntry) (target : IndexEntry) : Nat → Nat → Nat → Nat
  | 0, lo, _ => lo
  | n + 1, lo, hi =>
    if lo < hi then
      let mid := lo + (hi - lo) / 2
      match cache[mid]? with
      | some e =>
        if entryBefore e target then lowerBoundFrom cache target n (mid + 1) hi
        else lowerBoundFrom cache target n lo mid
      | none => lo
    else lo

/-- Where an entry belongs in the cache (C `index_lower_bound`). -/
def indexLowerBound (cache : List IndexEntry) (target : IndexEntry) : Nat :=
  lowerBoundFrom cache target cache.length 0 cache.length

/-- Insert an entry at its place (C `add_index_entry`). -/
def addIndexEntry (entry : IndexEntry) : StoreM Unit := do
  failIf (indexMaxEntries ≤ (← getMem).indexCache.length) Err.enomem
  alloc
  modifyMem fun m => { m with
    indexCache := m.indexCache.insertIdx (indexLowerBound m.indexCache entry) entry }

/-! ## Journal -/

/-- Write bytes over part of a buffer (C `anx_memcpy` into it). -/
def patch (buf : List UInt8) (offset : Nat) (bytes : List UInt8) : List UInt8 :=
  buf.take offset ++ bytes ++ buf.drop (offset + bytes.length)

/-- C `write_journal_entry`. -/
def writeJournalEntry (entry : JournalEntry) : StoreM Unit := do
  let slot := (← getMem).super.journalHead
  let sector := journalStart + slot / jrnlEntriesPerSector
  let offset := (slot % jrnlEntriesPerSector) * 64
  let buf ← blkRead sector.toUInt64 1
  blkWrite sector.toUInt64 1 (patch buf offset.toNat entry.encode)
  modifyMem fun m => { m with super.journalHead := (slot + 1) % jrnlMaxEntries }

/-- C `journal_begin_write`. -/
def journalBeginWrite (oid : Uuid) (dataSector : UInt64) (dataSectors objSize : UInt32) :
    StoreM Unit := do
  writeJournalEntry ⟨(← getMem).nextTxnId, .writeObj, oid, dataSector, dataSectors, objSize⟩

/-- C `journal_commit`. -/
def journalCommit : StoreM Unit := do
  writeJournalEntry ⟨(← getMem).nextTxnId, .commit, Uuid.nil, 0, 0, 0⟩
  modifyMem fun m => { m with super.journalCommitted := m.super.journalHead }
  modifyMem fun m => { m with nextTxnId := m.nextTxnId + 1 }
  writeSuper

/-! ## Public interface -/

def emptySuper (capacity : UInt64) : Super where
  magic := diskMagic
  version := diskVersion
  totalSectors := capacity
  objCount := 0
  nextDataSector := dataStart
  journalHead := 0
  journalCommitted := 0

/-- A sector of zeros (C `zero_buf`). -/
def zeroBuf : List UInt8 :=
  List.replicate 512 0

/-- Write zeros to the first `n` sectors, the loop of C `anx_disk_format_forced`. -/
def zeroSectors : Nat → StoreM Unit
  | 0 => pure ()
  | n + 1 => do
    zeroSectors n
    blkWrite (UInt64.ofNat n) 1 zeroBuf

/-- C `anx_disk_format_forced`. -/
def formatForced : StoreM Unit := do
  failIf (!(← get).dev.ready) Err.eio
  alloc
  zeroSectors dataStart.toNat
  let capacity := (← get).dev.capacity
  modifyMem fun m => { m with super := emptySuper capacity }
  writeSuper
  modifyMem fun m => { m with indexCache := [], mounted := true, nextTxnId := 1 }

/-- C `anx_disk_recover`. -/
def recover : StoreM Unit := do
  modifyMem fun m => { m with super.journalCommitted := m.super.journalHead }
  loadIndex

/-- Recover when the journal has uncommitted entries, a step of C `anx_disk_store_init`. -/
def recoverJournal : StoreM Unit := do
  if (← getMem).super.journalHead ≠ (← getMem).super.journalCommitted then
    recover

/-- Repair an object count that disagrees with the index, a step of C `anx_disk_store_init`. The
result of the write is not looked at. -/
def repairCount : StoreM Unit := do
  if (← getMem).super.objCount.toNat ≠ (← getMem).indexCache.length then
    modifyMem fun m => { m with super.objCount := UInt64.ofNat m.indexCache.length }
    let _ ← attempt writeSuper

/-- C `anx_disk_store_init`. -/
def storeInit : StoreM Unit := do
  failIf (!(← get).dev.ready) Err.enoent
  readSuper
  loadIndex
  recoverJournal
  repairCount
  modifyMem fun m => { m with mounted := true }

/-- A payload, whose size is a 32-bit number. -/
structure Payload where
  bytes : List UInt8
  fits : bytes.length < 2 ^ 32

/-- C `payload_size`. -/
def Payload.size (p : Payload) : UInt32 :=
  UInt32.ofNat p.bytes.length

/-- Sectors for a payload, in 32-bit arithmetic; an empty payload still takes one. -/
def sectorsNeeded (size : UInt32) : UInt32 :=
  let n := (size + 511) / 512
  if n = 0 then 1 else n

/-- Put the entry of a written object into the cache: in place when its boundary key is unchanged,
at its new sorted place otherwise, counted when it is new. -/
def updateIndex (entry : IndexEntry) : StoreM Unit := do
  match findIndexEntry (← getMem).indexCache entry.oid with
  | some old =>
    if old.boundaryKey = entry.boundaryKey then
      modifyMem fun m => { m with indexCache := Keyed.update IndexEntry.oid m.indexCache entry }
    else
      modifyMem fun m => { m with indexCache := Keyed.erase IndexEntry.oid m.indexCache entry.oid }
      addIndexEntry entry
  | none =>
    addIndexEntry entry
    modifyMem fun m => { m with super.objCount := m.super.objCount + 1 }

/-- C `anx_disk_write_obj_bk`. The buffer holds as much of the payload as the sectors computed for
it, which is all of it unless the size wraps when it is rounded up. -/
def writeObjBk (oid : Uuid) (objType : UInt32) (boundaryKey : UInt64) (payload : Payload) :
    StoreM Unit := do
  failIf (!(← getMem).mounted) Err.eio
  let needed := sectorsNeeded payload.size
  let dataSector := (← getMem).super.nextDataSector
  failIf ((← getMem).super.totalSectors < dataSector + needed.toUInt64) Err.enomem
  journalBeginWrite oid dataSector needed payload.size
  alloc
  blkWrite dataSector needed (Codec.fill (512 * needed.toNat) payload.bytes)
  updateIndex
    { oid, dataSector, dataSectors := needed, payloadSize := payload.size, objType, flags := 0x1,
      boundaryKey }
  modifyMem fun m => { m with super.nextDataSector := dataSector + needed.toUInt64 }
  flushIndex
  journalCommit

/-- The first part of a write: the intent and the data of the object, whose entry is handed on. -/
def writeData (oid : Uuid) (objType : UInt32) (boundaryKey : UInt64) (payload : Payload) :
    StoreM IndexEntry := do
  failIf (!(← getMem).mounted) Err.eio
  let needed := sectorsNeeded payload.size
  let dataSector := (← getMem).super.nextDataSector
  failIf ((← getMem).super.totalSectors < dataSector + needed.toUInt64) Err.enomem
  journalBeginWrite oid dataSector needed payload.size
  alloc
  blkWrite dataSector needed (Codec.fill (512 * needed.toNat) payload.bytes)
  return { oid, dataSector, dataSectors := needed, payloadSize := payload.size, objType,
           flags := 0x1, boundaryKey }

/-- The last part of a write, once the entry is in the index. -/
def finishWrite (entry : IndexEntry) : StoreM Unit := do
  modifyMem fun m =>
    { m with super.nextDataSector := entry.dataSector + entry.dataSectors.toUInt64 }
  flushIndex
  journalCommit

lemma writeObjBk_eq (oid : Uuid) (objType : UInt32) (boundaryKey : UInt64) (payload : Payload) :
    writeObjBk oid objType boundaryKey payload = (do
      let entry ← writeData oid objType boundaryKey payload
      updateIndex entry
      finishWrite entry) := by
  simp only [writeObjBk, writeData, finishWrite, bind_assoc, pure_bind]

/-- C `anx_disk_write_obj`. -/
def writeObj (oid : Uuid) (objType : UInt32) (payload : Payload) : StoreM Unit :=
  writeObjBk oid objType 0 payload

/-- C `anx_disk_delete_obj`. -/
def deleteObj (oid : Uuid) : StoreM Unit := do
  failIf (!(← getMem).mounted) Err.eio
  let _ ← orThrow (findIndexEntry (← getMem).indexCache oid) Err.enoent
  modifyMem fun m => { m with indexCache := Keyed.erase IndexEntry.oid m.indexCache oid }
  if 0 < (← getMem).super.objCount then
    modifyMem fun m => { m with super.objCount := m.super.objCount - 1 }
  flushIndex
  writeSuper

/-- What a read hands back: the bytes copied to the buffer, the object's size and its type. -/
structure Reading where
  bytes : List UInt8
  actualSize : UInt32
  objType : UInt32
  deriving DecidableEq

/-- C `anx_disk_read_obj` with a buffer of `bufSize` bytes. -/
def readObj (oid : Uuid) (bufSize : UInt32) : StoreM Reading := do
  failIf (!(← getMem).mounted) Err.eio
  let entry ← orThrow (findIndexEntry (← getMem).indexCache oid) Err.enoent
  alloc
  let buf ← blkRead entry.dataSector entry.dataSectors
  let copySize := if bufSize < entry.payloadSize then bufSize else entry.payloadSize
  return ⟨buf.take copySize.toNat, entry.payloadSize, entry.objType⟩

/-- C `anx_disk_get_boundary_key`. -/
def getBoundaryKey (oid : Uuid) : StoreM UInt64 := do
  failIf (!(← getMem).mounted) Err.eio
  let entry ← orThrow (findIndexEntry (← getMem).indexCache oid) Err.enoent
  return entry.boundaryKey

/-- C `anx_disk_obj_exists`. -/
def objExists (m : Memory) (oid : Uuid) : Bool :=
  m.mounted && (findIndexEntry m.indexCache oid).isSome

/-- What C `anx_disk_stats` reports. -/
structure Stats where
  objCount : UInt64
  usedSectors : UInt64
  totalSectors : UInt64

/-- C `anx_disk_stats`. -/
def stats : StoreM Stats := do
  failIf (!(← getMem).mounted) Err.eio
  let m ← getMem
  return ⟨m.super.objCount, m.super.nextDataSector, m.super.totalSectors⟩

/-! ## Runs -/

def Memory.boot : Memory where
  super := ⟨0, 0, 0, 0, 0, 0, 0⟩
  indexCache := []
  mounted := false
  nextTxnId := 1

/-- The operations that change the store. A `mount` may follow a power cycle or not. -/
inductive DiskOp where
  | writeBk (oid : Uuid) (objType : UInt32) (boundaryKey : UInt64) (payload : Payload)
  | write (oid : Uuid) (objType : UInt32) (payload : Payload)
  | delete (oid : Uuid)
  | mount (afterPowerCycle : Bool)

def DiskOp.exec : DiskOp → StoreM Unit
  | .writeBk oid objType boundaryKey payload => writeObjBk oid objType boundaryKey payload
  | .write oid objType payload => writeObj oid objType payload
  | .delete oid => deleteObj oid
  | .mount afterPowerCycle => do
    if afterPowerCycle then modifyMem fun _ => Memory.boot
    storeInit

def execAll : List DiskOp → StoreM Unit
  | [] => pure ()
  | op :: ops => do
    op.exec
    execAll ops

end Anunix.Disk
