import Anunix.Error
import Anunix.Lib.Fallible
import Anunix.Uuid

/-!
# The RAID superblock

The on-disk array descriptor of `kernel/include/anx/md.h`, one 512-byte sector per member, with the
checksum and the tests `kernel/core/md/md_super.c` puts a sector to before it is taken for a
superblock.

The descriptor covers its whole sector, padding included, because the checksum does. Level and
member state are words on the disk; in memory they are the enumerations `Level` and `MemberState`.
-/

namespace Anunix.Md
open Fallible Codec

/-! ## Constants -/

/-- The superblock's magic, "ANXR" (C `ANX_MD_MAGIC`). -/
def mdMagic : UInt32 := 0x414E5852

/-- C `ANX_MD_SB_VERSION`. -/
def sbVersion : UInt32 := 1

/-- C `ANX_MD_MAX_MEMBERS`. -/
def maxMembers : Nat := 8

/-- C `ANX_MD_MAX_ARRAYS`. -/
def maxArrays : Nat := 4

/-- Sector of a superblock at the head of a member (C `ANX_MD_SB_SECTOR_HEAD`). -/
def sbSectorHead : UInt64 := 8

/-- First data sector behind a superblock at the head (C `ANX_MD_DATA_OFFSET`). -/
def headDataOffset : UInt64 := 2048

/-- How far from the end a superblock at the tail stands (C `ANX_MD_SB_TAIL_BACK`). -/
def sbTailBack : UInt64 := 8

/-- C `ANX_MD_DEFAULT_CHUNK`. -/
def defaultChunk : UInt32 := 128

/-- Superblock flag of tail placement (C `ANX_MD_SB_TAIL`). -/
def sbTail : UInt32 := 0x1

/-- C `ANX_BLK_NAME_MAX`. -/
def blkNameMax : Nat := 16

/-- The RAID levels (C `ANX_MD_LEVEL_*`). -/
inductive Level where
  | raid0 | raid1
  deriving DecidableEq, Repr

def Level.code : Level → UInt32
  | .raid0 => 0
  | .raid1 => 1

/-- The level of a code that is 0 or 1; code that tests a level takes anything but 0 for RAID 1. -/
def Level.ofCode (c : UInt32) : Level :=
  if c = 0 then .raid0 else .raid1

/-- The member states (C `ANX_MD_MEMBER_*`). Assembly copies the state word of a superblock as it
is, so a member may be in a state that has no name. -/
inductive MemberState where
  | empty | active | faulty | spare
  | other (code : UInt32)
  deriving DecidableEq, Repr

def MemberState.code : MemberState → UInt32
  | .empty => 0
  | .active => 1
  | .faulty => 2
  | .spare => 3
  | .other code => code

def MemberState.ofCode (c : UInt32) : MemberState :=
  if c = 0 then .empty
  else if c = 1 then .active
  else if c = 2 then .faulty
  else if c = 3 then .spare
  else .other c

/-! ## Sectors -/

abbrev Sector := Codec.Bytes 512

def zeroSector : Sector :=
  ⟨List.replicate 512 0, List.length_replicate⟩

/-- A run of sectors handed to a driver; the count of a request is a 32-bit number. -/
structure Buffer where
  sectors : List Sector
  fits : sectors.length < 2 ^ 32

namespace Buffer

def count (b : Buffer) : UInt32 :=
  UInt32.ofNat b.sectors.length

lemma count_toNat (b : Buffer) : b.count.toNat = b.sectors.length :=
  UInt32.toNat_ofNat_of_lt' b.fits

def take (b : Buffer) (n : Nat) : Buffer where
  sectors := b.sectors.take n
  fits := Nat.lt_of_le_of_lt (List.take_sublist n b.sectors).length_le b.fits

/-- The buffer from a sector on (C `buf += n * 512`). -/
def drop (b : Buffer) (n : Nat) : Buffer where
  sectors := b.sectors.drop n
  fits := Nat.lt_of_le_of_lt (List.drop_sublist n b.sectors).length_le b.fits

end Buffer

/-! ## Superblocks -/

/-- The array descriptor of one member (C `struct anx_md_super`). -/
structure MdSuper where
  magic : UInt32
  version : UInt32
  level : UInt32
  chunkSectors : UInt32
  uuid : Uuid
  name : Codec.Bytes 16
  memberCount : UInt32
  memberIndex : UInt32
  dataOffset : UInt64
  memberSectors : UInt64
  arraySectors : UInt64
  events : UInt64
  memberState : UInt32
  sbFlags : UInt32
  resyncOffset : UInt64
  created : UInt64
  checksum : UInt32
  pad : Codec.Bytes 396
  deriving DecidableEq

def MdSuper.codec : Codec MdSuper :=
  (u32.pair <| u32.pair <| u32.pair <| u32.pair <| Uuid.codec.pair <|
    (bytes 16).pair <| u32.pair <| u32.pair <| u64.pair <| u64.pair <|
    u64.pair <| u64.pair <| u32.pair <| u32.pair <| u64.pair <|
    u64.pair <| u32.pair <| bytes 396).iso
    (fun (magic, version, level, chunkSectors, uuid, name, memberCount, memberIndex, dataOffset,
        memberSectors, arraySectors, events, memberState, sbFlags, resyncOffset, created, checksum,
        pad) =>
      ⟨magic, version, level, chunkSectors, uuid, name, memberCount, memberIndex, dataOffset,
        memberSectors, arraySectors, events, memberState, sbFlags, resyncOffset, created, checksum,
        pad⟩)
    (fun s => (s.magic, s.version, s.level, s.chunkSectors, s.uuid, s.name, s.memberCount,
      s.memberIndex, s.dataOffset, s.memberSectors, s.arraySectors, s.events, s.memberState,
      s.sbFlags, s.resyncOffset, s.created, s.checksum, s.pad))
    fun _ => rfl

lemma MdSuper.size_codec : MdSuper.codec.size = 512 := rfl

def MdSuper.toSector (sb : MdSuper) : Sector :=
  ⟨MdSuper.codec.encode sb, (MdSuper.codec.length_encode sb).trans MdSuper.size_codec⟩

/-- The superblock a sector reads as, valid or not. -/
def MdSuper.ofSector (s : Sector) : MdSuper :=
  MdSuper.codec.decode s.val

lemma MdSuper.ofSector_toSector (sb : MdSuper) : MdSuper.ofSector sb.toSector = sb := by
  have h := MdSuper.codec.decode_encode sb []
  rwa [List.append_nil] at h

/-- FNV-1a over a byte sequence. -/
def fnv1a (l : List UInt8) : UInt32 :=
  l.foldl (fun hash b => (hash ^^^ b.toUInt32) * 16777619) 2166136261

/-- The checksum of a superblock, taken with its checksum field zeroed (C `md_checksum`). -/
def mdChecksum (sb : MdSuper) : UInt32 :=
  fnv1a (MdSuper.codec.encode { sb with checksum := 0 })

/-- The tests a sector passes to be a superblock of the given placement, each with the error of the
first one it fails (C `md_super_read_at`, behind the read). -/
def MdSuper.check (tail : Bool) (sb : MdSuper) : Except Err Unit := do
  failIf (sb.magic != mdMagic) Err.enoent
  failIf (sb.version != sbVersion) Err.enotsup
  failIf (sb.checksum != mdChecksum sb) Err.eio
  failIf (sb.memberCount == 0 || sb.memberCount > 8 || sb.memberIndex >= sb.memberCount) Err.einval
  failIf (sb.level != Level.raid0.code && sb.level != Level.raid1.code) Err.enotsup
  failIf ((sb.sbFlags &&& sbTail != 0) != tail) Err.einval

/-- A superblock of the given placement. -/
structure MdSuper.Valid (tail : Bool) (sb : MdSuper) : Prop where
  magic : sb.magic = mdMagic
  version : sb.version = sbVersion
  checksum : sb.checksum = mdChecksum sb
  count : 0 < sb.memberCount.toNat ∧ sb.memberCount.toNat ≤ 8
  index : sb.memberIndex.toNat < sb.memberCount.toNat
  level : sb.level = Level.raid0.code ∨ sb.level = Level.raid1.code
  placement : (sb.sbFlags &&& sbTail != 0) = tail

lemma MdSuper.check_eq_ok {tail : Bool} {sb : MdSuper} :
    sb.check tail = .ok () ↔ sb.Valid tail := by
  have hcount : sb.memberCount = 0 ↔ sb.memberCount.toNat = 0 := UInt32.toNat_inj.symm
  simp only [MdSuper.check, bind_eq_ok, failIf_eq_ok, bne_eq_false_iff_eq, Bool.or_eq_false_iff,
    Bool.and_eq_false_iff, beq_eq_false_iff_ne, decide_eq_false_iff_not, UInt32.lt_iff_toNat_lt,
      UInt32.le_iff_toNat_le, exists_const, ne_eq, hcount]
  have height : (8 : UInt32).toNat = 8 := rfl
  constructor
  · rintro ⟨hmagic, hversion, hsum, ⟨⟨hzero, hmax⟩, hindex⟩, hlevel, htail⟩
    exact ⟨hmagic, hversion, hsum, ⟨by omega, by omega⟩, by omega, hlevel, htail⟩
  · rintro ⟨hmagic, hversion, hsum, hcount, hindex, hlevel, htail⟩
    exact ⟨hmagic, hversion, hsum, ⟨⟨by omega, by omega⟩, by omega⟩, hlevel, htail⟩

end Anunix.Md
