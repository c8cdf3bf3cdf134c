import Anunix.Md.Array

/-!
# The life of an array

Starting, stopping and creating arrays and changing their members (`kernel/core/md/md.c`), and
assembly from superblocks (`kernel/core/md/md_super.c`). The identifier and the time an array is
created with are arguments of `create`.
-/

namespace Anunix.Md
open Fallible

/-! ## Starting and stopping -/

def MdArray.eachDev (arr : MdArray) (f : DevId → MdM Unit) : List Nat → MdM Unit
  | [] => return ()
  | i :: is => do
    match (arr.members i).dev with
    | some d => f d
    | none => pure ()
    arr.eachDev f is

def MdArray.slots (arr : MdArray) : List Nat :=
  List.range arr.memberCount.toNat

/-- Whether one of the members is the active device. -/
def MdArray.takesOver (arr : MdArray) (active : Option DevId) : Bool :=
  arr.slots.any fun i => (arr.members i).dev.isSome && (arr.members i).dev == active

def mdBase : List UInt8 := [109, 100]

/-- Register an array as a block device and claim its members (C `anx_md_start_array`). -/
def startArray (a : ArrayId) : MdM Unit := do
  let active := (← get).active
  let arr ← getArray a
  failIf (!arr.used) Err.einval
  failIf (arr.arraySectors == 0) Err.einval
  let bdev ← blkDevRegister mdBase
  modifyArray a fun arr => { arr with bdev := bdev }
  let b ← orThrow bdev Err.efull
  modifyDev b fun dev => { dev with isArray := true }
  let name := (← getDev b).name
  modifyArray a fun arr => { arr with name := name }
  arr.eachDev blkDevClaim arr.slots
  if arr.takesOver active || active.isNone then
    modify fun m => { m with active := some b }

/-- C `anx_md_stop`. -/
def stop (a : ArrayId) : MdM Unit := do
  let arr ← getArray a
  failIf (!arr.used) Err.einval
  failIf (arr.bdev.isSome && (← get).active == arr.bdev) Err.ebusy
  let _ ← attempt (superSync a)
  arr.eachDev blkDevRelease arr.slots
  match arr.bdev with
  | some b => blkDevUnregister b
  | none => pure ()
  mdFreeArray a

/-! ## Creation -/

/-- Round down to whole chunks (C `md_round_chunks`). -/
def mdRoundChunks (sectors : UInt64) (chunk : UInt32) : UInt64 :=
  if chunk = 0 then sectors else sectors / chunk.toUInt64 * chunk.toUInt64

def chunkFor (level : Level) (chunkSectors : UInt32) : Except Err UInt32 :=
  match level with
  | .raid0 => do
    let chunk := if chunkSectors = 0 then defaultChunk else chunkSectors
    failIf (chunk &&& (chunk - 1) != 0) Err.einval
    return chunk
  | .raid1 => return 0

/-- Duplicates and devices already spoken for are refused. -/
def checkFree (devs : DevId → BlkDev) : List DevId → Except Err Unit
  | [] => return ()
  | d :: ds => do
    failIf (devs d).isMember Err.ebusy
    failIf (devs d).isArray Err.einval
    failIf (ds.contains d) Err.einval
    checkFree devs ds

def metaSectors (tailMeta : Bool) : UInt64 :=
  if tailMeta then sbTailBack else headDataOffset

def dataOffsetFor (tailMeta : Bool) : UInt64 :=
  if tailMeta then 0 else headDataOffset

/-- The smallest usable capacity of the members, from the smallest so far on; 0 stands for none. -/
def smallestUsable (devs : DevId → BlkDev) (tailMeta : Bool) :
    List DevId → UInt64 → Except Err UInt64
  | [], smallest => return smallest
  | d :: ds, smallest => do
    let cap := (devs d).blkDevCapacity
    failIf (cap ≤ metaSectors tailMeta) Err.einval
    let usable := cap - metaSectors tailMeta
    smallestUsable devs tailMeta ds (if smallest = 0 ∨ usable < smallest then usable else smallest)

def createdArray (level : Level) (chunk : UInt32) (members : List DevId) (tailMeta : Bool)
    (smallest : UInt64) (uuid : Uuid) (now : UInt64) : MdArray where
  used := true
  name := []
  uuid := uuid
  level := level
  chunkSectors := chunk
  memberCount := UInt32.ofNat members.length
  memberSectors := smallest
  arraySectors := match level with
    | .raid0 => smallest * UInt64.ofNat members.length
    | .raid1 => smallest
  events := 1
  created := now
  tailMeta := tailMeta
  readCursor := 0
  resyncOffset := 0
  members := fun i => match members[i]? with
    | some d => ⟨some d, dataOffsetFor tailMeta, .active, 1⟩
    | none => .blank
  bdev := none

/-- The first superblocks; when one cannot be written the array is stopped. -/
def createSupers (a : ArrayId) : List Nat → MdM Unit
  | [] => return ()
  | i :: is => do
    match ← attempt (superWrite a i) with
    | .ok _ => createSupers a is
    | .error e =>
      let _ ← attempt (stop a)
      throw e

/-- Build a new array over the given members (C `anx_md_create`). -/
def create (level chunkSectors : UInt32) (members : List DevId) (tailMeta : Bool) (uuid : Uuid)
    (now : UInt64) : MdM ArrayId := do
  failIf (decide (members.length < 2) || decide (maxMembers < members.length)) Err.einval
  failIf (level != Level.raid0.code && level != Level.raid1.code) Err.enotsup
  let level := Level.ofCode level
  let chunk ← MonadExcept.ofExcept (chunkFor level chunkSectors)
  let devs := (← get).devs
  MonadExcept.ofExcept (checkFree devs members)
  let smallest ← MonadExcept.ofExcept (smallestUsable devs tailMeta members 0)
  let smallest := mdRoundChunks smallest chunk
  failIf (smallest == 0) Err.einval
  let a ← orThrow (← mdAllocArray) Err.efull
  modifyArray a fun _ => createdArray level chunk members tailMeta smallest uuid now
  match ← attempt (startArray a) with
  | .error e =>
    mdFreeArray a
    throw e
  | .ok _ =>
    createSupers a (List.range members.length)
    return a

/-! ## Member administration -/

/-- C `anx_md_fail`. -/
def fail (a : ArrayId) (memberIndex : Nat) : MdM Unit := do
  let arr ← getArray a
  failIf (!arr.used || decide (arr.memberCount.toNat ≤ memberIndex)) Err.einval
  failIf (arr.members memberIndex).dev.isNone Err.enodev
  memberFault a memberIndex

def MdArray.replaceable (arr : MdArray) : Option Nat :=
  (List.range arr.memberCount.toNat).find? fun i =>
    (arr.members i).dev.isNone || (arr.members i).state == .faulty

def usableSectors (dev : BlkDev) (tailMeta : Bool) : UInt64 :=
  if dev.blkDevCapacity > metaSectors tailMeta then dev.blkDevCapacity - metaSectors tailMeta else 0

/-- A replacement for a failed member enters as a spare (C `anx_md_add`). -/
def add (a : ArrayId) (d : DevId) : MdM Unit := do
  let arr ← getArray a
  failIf (!arr.used) Err.einval
  failIf (arr.level != .raid1) Err.enotsup
  let dev ← getDev d
  failIf (dev.isMember || dev.isArray) Err.ebusy
  let slot ← orThrow arr.replaceable Err.efull
  failIf (usableSectors dev arr.tailMeta < arr.memberSectors) Err.einval
  match (arr.members slot).dev with
  | some old => blkDevRelease old
  | none => pure ()
  modifyArray a fun arr =>
    { arr.setMember slot fun mem =>
        { mem with dev := some d, dataOffset := dataOffsetFor arr.tailMeta, state := .spare } with
      resyncOffset := 0 }
  blkDevClaim d
  let _ ← attempt (superSync a)

/-! ## Assembly -/

/-- A device with the superblock found on it (C `md_cand`). -/
structure Candidate where
  dev : DevId
  sb : MdSuper

/-- An array as its first candidate describes it, with no members yet. -/
def arrayOf (ref : MdSuper) : MdArray where
  used := true
  name := nameOfField ref.name
  uuid := ref.uuid
  level := Level.ofCode ref.level
  chunkSectors := ref.chunkSectors
  memberCount := ref.memberCount
  memberSectors := ref.memberSectors
  arraySectors := ref.arraySectors
  events := 0
  created := ref.created
  tailMeta := ref.sbFlags &&& sbTail != 0
  readCursor := 0
  resyncOffset := ref.resyncOffset
  members := fun _ => .blank
  bdev := none

/-- A candidate takes the slot its superblock names, unless that is taken or it has failed. -/
def MdArray.place (arr : MdArray) (c : Candidate) : MdArray :=
  let i := c.sb.memberIndex.toNat
  if arr.memberCount ≤ c.sb.memberIndex then arr
  else if (arr.members i).dev.isSome then arr
  else if c.sb.memberState = MemberState.faulty.code then arr
  else
    let arr := arr.setMember i fun _ =>
      ⟨some c.dev, c.sb.dataOffset, MemberState.ofCode c.sb.memberState, c.sb.events⟩
    if c.sb.events > arr.events then
      { arr with events := c.sb.events, resyncOffset := c.sb.resyncOffset }
    else arr

def MdArray.dropStale (arr : MdArray) : MdArray :=
  { arr with
    members := fun i =>
      let mem := arr.members i
      if i < arr.memberCount.toNat ∧ mem.dev.isSome ∧ mem.events ≠ arr.events then
        { mem with dev := none, state := .empty }
      else mem }

def MdArray.present (arr : MdArray) : Nat :=
  (List.range arr.memberCount.toNat).countP fun i => (arr.members i).dev.isSome

def gather (ref : Candidate) (rest : List Candidate) : MdArray :=
  ((ref :: rest).foldl MdArray.place (arrayOf ref.sb)).dropStale

/-- Start one array from candidates that share a UUID (C `md_assemble_one`). -/
def assembleOne (ref : Candidate) (rest : List Candidate) : MdM ArrayId := do
  let a ← orThrow (← mdAllocArray) Err.efull
  modifyArray a fun _ => gather ref rest
  let arr ← getArray a
  if (arr.level = .raid0 ∧ arr.present ≠ arr.memberCount.toNat) ∨ arr.present = 0 then
    mdFreeArray a
    throw Err.enodev
  else
    match ← attempt (startArray a) with
    | .error e =>
      mdFreeArray a
      throw e
    | .ok _ => return a

/-- The unclaimed devices among the listed that carry a superblock. -/
def scan : List DevId → MdM (List Candidate)
  | [] => return []
  | d :: ds => do
    let dev ← getDev d
    if !dev.used || dev.isMember || dev.isArray then
      scan ds
    else
      match ← attempt (superRead d) with
      | .error _ => scan ds
      | .ok sb => return ⟨d, sb⟩ :: (← scan ds)

/-- Group the candidates by UUID and start each group, for at most `fuel` groups: the arrays
started. A group is cut to the greatest number of members. -/
def assembleGroups : Nat → List Candidate → MdM (List ArrayId)
  | 0, _ => return []
  | _ + 1, [] => return []
  | fuel + 1, c :: cs => do
    let group := cs.filter fun c' => c'.sb.uuid == c.sb.uuid
    let others := cs.filter fun c' => c'.sb.uuid != c.sb.uuid
    match ← attempt (assembleOne c (group.take (maxMembers - 1))) with
    | .error _ => assembleGroups fuel others
    | .ok a => return a :: (← assembleGroups fuel others)

/-- Scan the registry and start every array that can run (C `anx_md_assemble`). -/
def assemble : MdM (List ArrayId) := do
  let cands ← scan (List.finRange 32)
  assembleGroups cands.length cands

end Anunix.Md
