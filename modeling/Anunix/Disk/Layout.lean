import Anunix.Lib.Region
import Anunix.Uuid

/-!
# Disk layout of the object store

The on-disk structures of `kernel/include/anx/objstore_disk.h`: the superblock in sector 0, the
journal in sectors 1 to 256, the index in sectors 257 to 512, object data from sector 513 on. The
disk is a memory of bytes; sector `n` starts at byte `512 * n`.

Besides the structures and their byte images, this file says what a disk holds as seen by a mount
(`diskSuper`, `diskIndex`) and by a read of one object (`IndexEntry.payload`), and which writes
leave each of the three alone.

The superblock's UUID and label are only ever printed, and its padding is never read, so they are
left out: the image has zero bytes in their place.
-/

namespace Anunix.Disk
open Region Codec List

/-! ## Constants -/

/-- The superblock's magic, "ANXD" (C `ANX_DISK_MAGIC`). -/
def diskMagic : UInt32 := 0x414E5844

/-- C `ANX_DISK_VERSION`. -/
def diskVersion : UInt32 := 2

/-- C `ANX_SUPER_SECTOR`. -/
def superSector : UInt64 := 0

/-- C `ANX_JOURNAL_START`. -/
def journalStart : UInt32 := 1

/-- C `ANX_JOURNAL_SECTORS`. -/
def journalSectors : UInt32 := 256

/-- C `ANX_INDEX_START`. -/
def indexStart : UInt64 := 257

/-- C `ANX_INDEX_SECTORS`. -/
def indexSectors : UInt32 := 256

/-- C `ANX_DATA_START`. -/
def dataStart : UInt64 := 513

/-- C `ANX_JRNL_ENTRIES_PER_SECTOR`. -/
def jrnlEntriesPerSector : UInt32 := 512 / 64

/-- C `ANX_JRNL_MAX_ENTRIES`. -/
def jrnlMaxEntries : UInt32 := journalSectors * jrnlEntriesPerSector

/-- Entries the index may hold, computed from an entry size of 56 (C `ANX_INDEX_MAX_ENTRIES`). -/
def indexMaxEntries : Nat := 256 * (512 / 56)

/-! ## Structures -/

/-- The superblock (C `struct anx_disk_super`). -/
structure Super where
  magic : UInt32
  version : UInt32
  totalSectors : UInt64
  objCount : UInt64
  nextDataSector : UInt64
  journalHead : UInt32
  journalCommitted : UInt32
  deriving DecidableEq, Repr

/-- One object's place on the disk (C `struct anx_disk_index_entry`). -/
structure IndexEntry where
  oid : Uuid
  dataSector : UInt64
  dataSectors : UInt32
  payloadSize : UInt32
  objType : UInt32
  flags : UInt32
  boundaryKey : UInt64
  deriving DecidableEq, Repr

/-- The journal operations (C `enum anx_journal_op`). -/
inductive JournalOp where
  | nop | writeObj | deleteObj | commit
  deriving DecidableEq, Repr

def JournalOp.code : JournalOp → UInt32
  | .nop => 0
  | .writeObj => 1
  | .deleteObj => 2
  | .commit => 3

/-- A journal entry without its padding (C `struct anx_journal_entry`). -/
structure JournalEntry where
  txnId : UInt32
  op : JournalOp
  oid : Uuid
  dataSector : UInt64
  dataSectors : UInt32
  objSize : UInt32
  deriving DecidableEq, Repr

/-- An entry is live when bit 0 of its flags is set. -/
def IndexEntry.active (e : IndexEntry) : Bool :=
  e.flags &&& 0x1 != 0

/-! ## Byte images -/

def Super.codec : Codec Super :=
  (u32.pair (u32.pair (u64.pair (u64.pair (u64.pair
      (u32.pair u32)))))).iso
    (fun x => ⟨x.1, x.2.1, x.2.2.1, x.2.2.2.1, x.2.2.2.2.1, x.2.2.2.2.2.1, x.2.2.2.2.2.2⟩)
    (fun s => (s.magic, s.version, s.totalSectors, s.objCount, s.nextDataSector, s.journalHead,
      s.journalCommitted))
    fun _ => rfl

def IndexEntry.codec : Codec IndexEntry :=
  (Uuid.codec.pair (u64.pair (u32.pair (u32.pair (u32.pair
      (u32.pair u64)))))).iso
    (fun x => ⟨x.1, x.2.1, x.2.2.1, x.2.2.2.1, x.2.2.2.2.1, x.2.2.2.2.2.1, x.2.2.2.2.2.2⟩)
    (fun e =>
      (e.oid, e.dataSector, e.dataSectors, e.payloadSize, e.objType, e.flags, e.boundaryKey))
    fun _ => rfl

/-- A journal entry is written and never read back, so only its image is needed: 40 bytes of fields
and 8 bytes of padding. -/
def JournalEntry.encode (e : JournalEntry) : List UInt8 :=
  u32.encode e.txnId ++ u32.encode e.op.code ++ Uuid.codec.encode e.oid ++
    u64.encode e.dataSector ++ u32.encode e.dataSectors ++ u32.encode e.objSize ++
    replicate 8 0

def superImage (sup : Super) : List UInt8 :=
  fill 512 (Super.codec.encode sup)

/-- The buffer the index is flushed from: the entries at its front, zeros behind them. -/
def indexImage (cache : List IndexEntry) : List UInt8 :=
  fill (512 * 256) ((cache.take indexMaxEntries).flatMap IndexEntry.codec.encode)

def parseIndex (buf : List UInt8) : List IndexEntry :=
  (IndexEntry.codec.decodeMany indexMaxEntries buf).filter IndexEntry.active

lemma length_superImage (sup : Super) : (superImage sup).length = 512 :=
  length_fill _ _

lemma length_indexImage (cache : List IndexEntry) : (indexImage cache).length = 512 * 256 :=
  length_fill _ _

lemma decode_superImage (sup : Super) : Super.codec.decode (superImage sup) = sup := by
  have hlen : (Super.codec.encode sup).length ≤ 512 := by
    rw [length_encode]
    decide
  rw [superImage, fill_of_le hlen, decode_encode]

lemma filter_active_zeros (n k : Nat) :
    (IndexEntry.codec.decodeMany n (replicate k 0)).filter IndexEntry.active = [] := by
  rw [filter_eq_nil_iff]
  intro e he
  obtain ⟨j, rfl⟩ := mem_decodeMany_zeros he
  simp [IndexEntry.codec, iso, pair, IndexEntry.active]

variable {cache : List IndexEntry}

/-- A flushed index reads back as it was, when it is not longer than the index may be. -/
lemma parseIndex_indexImage (hlen : cache.length ≤ indexMaxEntries)
    (hact : ∀ e ∈ cache, e.active) : parseIndex (indexImage cache) = cache := by
  have hsize : IndexEntry.codec.size = 48 := rfl
  have hmax : indexMaxEntries = 2304 := rfl
  have hfit : (cache.flatMap IndexEntry.codec.encode).length ≤ 512 * 256 := by
    rw [length_flatMap_encode, hsize]
    omega
  obtain ⟨n, hn⟩ := Nat.exists_eq_add_of_le hlen
  rw [indexImage, take_of_length_le hlen, fill_of_le hfit, parseIndex, hn,
    decodeMany_flatMap, filter_append, filter_eq_self.mpr hact,
    filter_active_zeros, append_nil]

/-! ## What a disk holds -/

def diskSuper (d : Nat → UInt8) : Super :=
  Super.codec.decode (load d 0 512)

def diskIndex (d : Nat → UInt8) : List IndexEntry :=
  parseIndex (load d (512 * 257) (512 * 256))

def IndexEntry.payload (d : Nat → UInt8) (e : IndexEntry) : List UInt8 :=
  (load d (512 * e.dataSector.toNat) (512 * e.dataSectors.toNat)).take e.payloadSize.toNat

variable {d : Nat → UInt8} {a : Nat} {l : List UInt8}

lemma diskSuper_store_superImage (sup : Super) : diskSuper (store d 0 (superImage sup)) = sup := by
  have h : load (store d 0 (superImage sup)) 0 512 = superImage sup := by
    rw [← length_superImage sup]
    exact load_store_self
  rw [diskSuper, h, decode_superImage]

lemma diskSuper_store (h : 512 ≤ a) : diskSuper (store d a l) = diskSuper d := by
  rw [diskSuper, load_store_of_disjoint (.inl (by omega))]
  rfl

lemma diskIndex_zeros (h : ∀ i, 512 * 257 ≤ i → i < 512 * 513 → d i = 0) : diskIndex d = [] := by
  have hload : load d (512 * 257) (512 * 256) = replicate (512 * 256) 0 := by
    rw [eq_replicate_iff]
    refine ⟨length_load, fun b hb => ?_⟩
    obtain ⟨k, hk, rfl⟩ := mem_load hb
    exact h _ (by omega) (by omega)
  rw [diskIndex, hload]
  exact filter_active_zeros _ _

lemma diskIndex_store (h : a + l.length ≤ 512 * 257 ∨ 512 * 513 ≤ a) :
    diskIndex (store d a l) = diskIndex d := by
  have hd : 512 * 257 + 512 * 256 ≤ a ∨ a + l.length ≤ 512 * 257 := by omega
  rw [diskIndex, load_store_of_disjoint hd]
  rfl

-- What a disk holds is reasoned about through the lemmas above; unfolding it would evaluate the
-- reads.
attribute [irreducible] diskSuper diskIndex IndexEntry.payload

end Anunix.Disk
