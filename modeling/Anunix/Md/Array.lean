import Anunix.Md.Super

/-!
# Arrays

Striping (`kernel/core/md/md_raid0.c`), mirroring (`kernel/core/md/md_raid1.c`), and the life of an
array (`kernel/core/md/md.c`, and assembly in `kernel/core/md/md_super.c`).

Loops over the members are recursions over the list of indices still to be visited. The chunk loop
of RAID 0 and the rebuild loop are given the number of passes they may make: the first moves at
least one sector a pass, the second at least one sector of the rebuild point.
-/

namespace Anunix.Md
open Fallible

/-! ## RAID 0 -/

def MdArray.stripe (arr : MdArray) (lba : UInt64) : Nat × UInt64 :=
  let chunk := arr.chunkSectors.toUInt64
  let chunkIndex := lba / chunk
  let offset := lba % chunk
  ((chunkIndex % arr.memberCount.toUInt64).toNat,
    chunkIndex / arr.memberCount.toUInt64 * chunk + offset)

/-- Sectors of a request that go to the member its first sector is on. -/
def MdArray.stripeRun (arr : MdArray) (lba : UInt64) (count : UInt32) : UInt32 :=
  let run := arr.chunkSectors - (lba % arr.chunkSectors.toUInt64).toUInt32
  if run > count then count else run

/-- The member request of one pass: the sectors read, none for a write. -/
def raid0Part (a : ArrayId) (idx : Nat) (memberLba : UInt64) (run : UInt32) :
    Option Buffer → MdM (List Sector)
  | some buf => do
    memberWrite a idx memberLba (buf.take run.toNat)
    return []
  | none => do return (← memberRead a idx memberLba run).sectors

/-- The chunk loop of `raid0_io`, for at most `fuel` passes. -/
def raid0Loop (a : ArrayId) : Nat → UInt64 → UInt32 → Option Buffer → MdM (List Sector)
  | 0, _, _, _ => return []
  | fuel + 1, lba, count, write => do
    if count = 0 then
      return []
    else
      let arr ← getArray a
      let (idx, memberLba) := arr.stripe lba
      let run := arr.stripeRun lba count
      match ← attempt (raid0Part a idx memberLba run write) with
      | .error e => do memberFault a idx; throw e
      | .ok part =>
        let rest ← raid0Loop a fuel (lba + run.toUInt64) (count - run)
          (write.map fun buf => buf.drop run.toNat)
        return part ++ rest

/-- Walk a request one chunk at a time (C `raid0_io`). -/
def raid0Io (a : ArrayId) (lba : UInt64) (count : UInt32) (write : Option Buffer) :
    MdM (List Sector) := do
  let arr ← getArray a
  failIf (arr.chunkSectors == 0 || arr.memberCount == 0) Err.einval
  raid0Loop a count.toNat lba count write

/-- C `anx_md_raid0_read`. -/
def raid0Read (a : ArrayId) (lba : UInt64) (count : UInt32) : MdM (List Sector) :=
  raid0Io a lba count none

/-- C `anx_md_raid0_write`. -/
def raid0Write (a : ArrayId) (lba : UInt64) (buf : Buffer) : MdM Unit := do
  let _ ← raid0Io a lba buf.count (some buf)

/-! ## RAID 1 -/

/-- C `raid1_readable`. -/
def MdArray.raid1Readable (arr : MdArray) (idx : Nat) : Bool :=
  (arr.members idx).dev.isSome && (arr.members idx).state == .active

def MdArray.readIndex (arr : MdArray) (tried : Nat) : Nat :=
  ((arr.readCursor + UInt32.ofNat tried) % arr.memberCount).toNat

def raid1ReadEach (a : ArrayId) (lba : UInt64) (count : UInt32) : List Nat → Err → MdM Buffer
  | [], last => throw last
  | tried :: rest, last => do
    let arr ← getArray a
    let idx := arr.readIndex tried
    if !arr.raid1Readable idx then
      raid1ReadEach a lba count rest last
    else
      match ← attempt (memberRead a idx lba count) with
      | .ok buf =>
        -- hand the next read to the next drive
        modifyArray a fun arr =>
          { arr with readCursor := (UInt32.ofNat idx + 1) % arr.memberCount }
        return buf
      | .error e =>
        memberFault a idx
        raid1ReadEach a lba count rest e

/-- C `anx_md_raid1_read`. -/
def raid1Read (a : ArrayId) (lba : UInt64) (count : UInt32) : MdM Buffer := do
  let arr ← getArray a
  failIf (arr.memberCount == 0) Err.einval
  raid1ReadEach a lba count (List.range arr.memberCount.toNat) Err.enodev

/-- Whether a write passes a member over: it has no device or has failed, or it is a spare and the
write starts at or above the rebuild point. -/
def MdArray.raid1Skips (arr : MdArray) (i : Nat) (lba : UInt64) : Bool :=
  (arr.members i).dev.isNone || (arr.members i).state == .faulty ||
    ((arr.members i).state == .spare && lba >= arr.resyncOffset)

def raid1WriteEach (a : ArrayId) (lba : UInt64) (buf : Buffer) : List Nat → Nat → Err → MdM Unit
  | [], ok, last => if 0 < ok then return () else throw last
  | i :: is, ok, last => do
    let arr ← getArray a
    if arr.raid1Skips i lba then
      raid1WriteEach a lba buf is ok last
    else
      match ← attempt (memberWrite a i lba buf) with
      | .ok _ =>
        raid1WriteEach a lba buf is (if (arr.members i).state = .active then ok + 1 else ok) last
      | .error e =>
        memberFault a i
        raid1WriteEach a lba buf is ok e

/-- C `anx_md_raid1_write`. -/
def raid1Write (a : ArrayId) (lba : UInt64) (buf : Buffer) : MdM Unit := do
  raid1WriteEach a lba buf (List.range (← getArray a).memberCount.toNat) 0 Err.enodev

/-- The spare being rebuilt (C `raid1_spare`). -/
def MdArray.raid1Spare (arr : MdArray) : Option Nat :=
  (List.range arr.memberCount.toNat).find? fun i =>
    (arr.members i).dev.isSome && (arr.members i).state == .spare

/-- Sectors copied per rebuild pass (C `RAID1_RESYNC_CHUNK`). -/
def resyncChunk : UInt32 := 128

def MdArray.resyncRun (arr : MdArray) (maxSectors : UInt32) : UInt32 :=
  let run := if maxSectors ≠ 0 ∧ resyncChunk > maxSectors then maxSectors else resyncChunk
  if run.toUInt64 > arr.memberSectors - arr.resyncOffset then
    (arr.memberSectors - arr.resyncOffset).toUInt32
  else run

/-- One rebuild pass: the sectors copied (C `anx_md_resync_step`). -/
def resyncStep (a : ArrayId) (maxSectors : UInt32) : MdM UInt32 := do
  let arr ← getArray a
  failIf (!arr.used) Err.einval
  failIf (arr.level != .raid1) Err.enotsup
  let spare ← orThrow arr.raid1Spare Err.enoent
  if arr.resyncOffset >= arr.memberSectors then
    return 0
  else
    let run := arr.resyncRun maxSectors
    let buf ← raid1Read a arr.resyncOffset run
    match ← attempt (memberWrite a spare arr.resyncOffset buf) with
    | .error e =>
      memberFault a spare
      throw e
    | .ok _ =>
      modifyArray a fun arr => { arr with resyncOffset := arr.resyncOffset + run.toUInt64 }
      let arr ← getArray a
      if arr.resyncOffset >= arr.memberSectors then
        modifyArray a fun arr => arr.setMember spare fun mem => { mem with state := .active }
        let _ ← attempt (superSync a)
      return run

/-- The rebuild loop, for at most `fuel` passes. -/
def resyncLoop (a : ArrayId) : Nat → MdM Unit
  | 0 => return ()
  | fuel + 1 => do
    if (← getArray a).raid1Spare.isNone then
      return ()
    else
      let ret ← resyncStep a 0
      if ret = 0 then
        return ()
      else
        resyncLoop a fuel

/-- Run the rebuild to its end (C `anx_md_resync`). -/
def resync (a : ArrayId) : MdM Unit := do
  let arr ← getArray a
  failIf (!arr.used) Err.einval
  failIf (arr.level != .raid1) Err.enotsup
  let _ ← orThrow arr.raid1Spare Err.enoent
  -- each pass but the last two moves the rebuild point
  resyncLoop a ((arr.memberSectors - arr.resyncOffset).toNat + 2)

/-! ## The array as a block device -/

/-- C `md_blk_read`. -/
def mdBlkRead (a : ArrayId) (lba : UInt64) (count : UInt32) : MdM (List Sector) := do
  let arr ← getArray a
  failIf (!arr.used) Err.enodev
  failIf (lba + count.toUInt64 > arr.arraySectors) Err.einval
  match arr.level with
  | .raid0 => raid0Read a lba count
  | .raid1 => return (← raid1Read a lba count).sectors

/-- C `md_blk_write`. -/
def mdBlkWrite (a : ArrayId) (lba : UInt64) (buf : Buffer) : MdM Unit := do
  let arr ← getArray a
  failIf (!arr.used) Err.enodev
  failIf (lba + buf.count.toUInt64 > arr.arraySectors) Err.einval
  match arr.level with
  | .raid0 => raid0Write a lba buf
  | .raid1 => raid1Write a lba buf

end Anunix.Md
