import Anunix.Md.Machine

/-!
# Superblock and member I/O

The part of `kernel/core/md/md_super.c` that reads and writes superblocks, and the member I/O of
`kernel/core/md/md.c`. A member that fails is marked faulty, and the failure is recorded in the
superblocks of all members that have a device.
-/

namespace Anunix.Md
open Fallible

/-! ## Superblocks -/

/-- Sector of the superblock for a placement (C `md_super_sector`). -/
def superSector (dev : BlkDev) (tail : Bool) : Except Err UInt64 :=
  let cap := dev.blkDevCapacity
  if !tail then
    if cap ≤ headDataOffset then .error .einval else .ok sbSectorHead
  else
    if cap ≤ sbTailBack then .error .einval else .ok (cap - sbTailBack)

/-- C `md_super_read_at`. -/
def superReadAt (d : DevId) (tail : Bool) : MdM MdSuper := do
  let sector ← MonadExcept.ofExcept (superSector (← getDev d) tail)
  let buf ← blkDevRead d sector 1
  let sb := MdSuper.ofSector (buf.sectors.headD zeroSector)
  MonadExcept.ofExcept (sb.check tail)
  return sb

/-- The superblock from either placement, the head first (C `md_super_read`). -/
def superRead (d : DevId) : MdM MdSuper := do
  match ← attempt (superReadAt d false) with
  | .ok sb => return sb
  | .error _ => superReadAt d true

/-- A name in a field of 16 bytes (C `anx_strlcpy` into a zeroed field). -/
def nameField (name : List UInt8) : Codec.Bytes 16 :=
  ⟨Codec.fill 16 (name.take 15), Codec.length_fill _ _⟩

def nameOfField (field : Codec.Bytes 16) : List UInt8 :=
  (field.val.takeWhile (· != 0)).take 15

def MdArray.plainSuper (arr : MdArray) (i : Nat) : MdSuper where
  magic := mdMagic
  version := sbVersion
  level := arr.level.code
  chunkSectors := arr.chunkSectors
  uuid := arr.uuid
  name := nameField arr.name
  memberCount := arr.memberCount
  memberIndex := UInt32.ofNat i
  dataOffset := (arr.members i).dataOffset
  memberSectors := arr.memberSectors
  arraySectors := arr.arraySectors
  events := arr.events
  memberState := (arr.members i).state.code
  sbFlags := if arr.tailMeta then sbTail else 0
  resyncOffset := arr.resyncOffset
  created := arr.created
  checksum := 0
  pad := ⟨List.replicate 396 0, List.length_replicate⟩

def MdArray.superOf (arr : MdArray) (i : Nat) : MdSuper :=
  { arr.plainSuper i with checksum := mdChecksum (arr.plainSuper i) }

lemma MdArray.superOf_valid {arr : MdArray} {i : Nat} (hcount : arr.memberCount.toNat ≤ maxMembers)
    (hi : i < arr.memberCount.toNat) : (arr.superOf i).Valid arr.tailMeta where
  magic := rfl
  version := rfl
  checksum := by
    -- the sum is taken without the field that stores it
    simp only [MdArray.superOf, mdChecksum]
  count := ⟨Nat.zero_lt_of_lt hi, hcount⟩
  index := by
    show (UInt32.ofNat i).toNat < arr.memberCount.toNat
    rw [UInt32.toNat_ofNat_of_lt' (Nat.lt_trans hi arr.memberCount.toNat_lt)]
    exact hi
  level := by
    show arr.level.code = _ ∨ arr.level.code = _
    cases arr.level with
    | raid0 => exact .inl rfl
    | raid1 => exact .inr rfl
  placement := by
    show ((if arr.tailMeta then sbTail else 0) &&& sbTail != 0) = arr.tailMeta
    cases arr.tailMeta <;> rfl

def Buffer.single (s : Sector) : Buffer :=
  ⟨[s], by simp⟩

/-- C `anx_md_super_write`. -/
def superWrite (a : ArrayId) (i : Nat) : MdM Unit := do
  let arr ← getArray a
  failIf (arr.memberCount.toNat ≤ i) Err.einval
  let d ← orThrow (arr.members i).dev Err.enodev
  let sector ← MonadExcept.ofExcept (superSector (← getDev d) arr.tailMeta)
  modifyArray a fun arr => arr.setMember i fun mem => { mem with events := arr.events }
  blkDevWrite d sector (Buffer.single (arr.superOf i).toSector)

/-- Superblocks to the listed members, with the last error met. -/
def superSyncEach (a : ArrayId) : List Nat → Option Err → MdM (Option Err)
  | [], last => return last
  | i :: is, last => do
    if ((← getArray a).members i).dev.isNone then
      superSyncEach a is last
    else
      match ← attempt (superWrite a i) with
      | .ok _ => superSyncEach a is last
      | .error e => superSyncEach a is (some e)

/-- Superblocks to every member that has a device (C `anx_md_super_sync`). -/
def superSync (a : ArrayId) : MdM Unit := do
  modifyArray a fun arr => { arr with events := arr.events + 1 }
  let arr ← getArray a
  match ← superSyncEach a (List.range arr.memberCount.toNat) none with
  | none => return ()
  | some e => throw e

/-- C `anx_md_zero_super`. -/
def zeroSuper (d : DevId) : MdM Unit := do
  failIf (← getDev d).isMember Err.ebusy
  let tail ← do
    match ← attempt (superReadAt d false) with
    | .ok _ => pure false
    | .error _ =>
      match ← attempt (superReadAt d true) with
      | .ok _ => pure true
      | .error _ => throw Err.enoent
  let sector ← MonadExcept.ofExcept (superSector (← getDev d) tail)
  blkDevWrite d sector (Buffer.single zeroSector)

/-! ## Member I/O -/

/-- The member a request goes to, if it may go there: the slot has a device that has not failed, and
the range ends within the data area, as far as a 64-bit sum shows. -/
def MdArray.memberTarget (arr : MdArray) (idx : Nat) (lba : UInt64) (count : UInt32) :
    Except Err (DevId × UInt64) := do
  failIf (arr.memberCount.toNat ≤ idx) Err.einval
  let mem := arr.members idx
  let d ← orThrow mem.dev Err.enodev
  failIf (mem.state == .faulty) Err.enodev
  failIf (lba + count.toUInt64 > arr.memberSectors) Err.einval
  return (d, mem.dataOffset + lba)

/-- C `anx_md_member_read`. -/
def memberRead (a : ArrayId) (idx : Nat) (lba : UInt64) (count : UInt32) : MdM Buffer := do
  let (d, sector) ← MonadExcept.ofExcept ((← getArray a).memberTarget idx lba count)
  blkDevRead d sector count

/-- C `anx_md_member_write`. -/
def memberWrite (a : ArrayId) (idx : Nat) (lba : UInt64) (buf : Buffer) : MdM Unit := do
  let (d, sector) ← MonadExcept.ofExcept ((← getArray a).memberTarget idx lba buf.count)
  blkDevWrite d sector buf

/-- Mark a member faulty, and record it in the superblocks (C `anx_md_member_fault`). -/
def memberFault (a : ArrayId) (idx : Nat) : MdM Unit := do
  let arr ← getArray a
  if idx < arr.memberCount.toNat ∧ (arr.members idx).dev.isSome ∧
      (arr.members idx).state ≠ .faulty then
    modifyArray a fun arr => arr.setMember idx fun mem => { mem with state := .faulty }
    let _ ← attempt (superSync a)

end Anunix.Md
