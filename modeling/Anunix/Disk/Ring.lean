import Anunix.Disk.Store

/-!
# The boot-log ring

Model of `kernel/core/log/bootlog_ring.c`: eight slots in the last sectors of the active device,
written without the object store. A slot is one sector of header followed by the text of a boot's
log. What the log of this boot holds when it is flushed is an argument.
-/

namespace Anunix.Disk
open Fallible Codec

/-- C `ANX_BLOG_RING_MAGIC`. -/
def blogRingMagic : UInt32 := 0x424C4752

/-- C `ANX_BOOTLOG_VERSION`. -/
def bootlogVersion : UInt32 := 1

/-- C `ANX_BLOG_RING_SLOTS`. -/
def blogRingSlots : Nat := 8

/-- C `ANX_BLOG_SLOT_SECTORS`. -/
def blogSlotSectors : UInt64 := 520

/-- C `ANX_BLOG_RING_SECTORS`. -/
def blogRingSectors : UInt64 := 8 * 520

/-- C `ANX_BLOG_SLOT_PRUNED`. -/
def blogSlotPruned : UInt32 := 1

/-- The header of a slot without its padding (C `struct blog_slot_hdr`). -/
structure SlotHdr where
  magic : UInt32
  version : UInt32
  seq : UInt64
  bootTime : UInt64
  logBytes : UInt32
  flags : UInt32
  kver : Codec.Bytes 32

def SlotHdr.codec : Codec SlotHdr :=
  (u32.pair (u32.pair (u64.pair (u64.pair (u32.pair
      (u32.pair (bytes 32))))))).iso
    (fun x => ⟨x.1, x.2.1, x.2.2.1, x.2.2.2.1, x.2.2.2.2.1, x.2.2.2.2.2.1, x.2.2.2.2.2.2⟩)
    (fun h => (h.magic, h.version, h.seq, h.bootTime, h.logBytes, h.flags, h.kver))
    fun _ => rfl

/-- The string `2026.9.18` in its field (C `ANX_VERSION`). -/
def kernelVersion : Codec.Bytes 32 :=
  ⟨fill 32 [50, 48, 50, 54, 46, 57, 46, 49, 56], length_fill _ _⟩

/-- The static variables of `bootlog_ring.c`. -/
structure Ring where
  ok : Bool
  start : UInt64
  slot : UInt64
  seq : UInt64

structure Machine where
  store : Store
  ring : Ring

abbrev RingM := EStateM Err Machine

def onDevice {α : Type} (x : StoreM α) : RingM α :=
  zoom Machine.store (fun m s => { m with store := s }) x

/-- C `slot_lba`. -/
def slotLba (start slot : UInt64) : UInt64 :=
  start + slot * blogSlotSectors

/-- C `device_is_ours`. -/
def deviceIsOurs : StoreM Bool := do
  match ← attempt (blkRead superSector 1) with
  | .ok sector => pure ((Super.codec.decode sector).magic == diskMagic)
  | .error _ => pure false

/-- What a slot adds to the search for the newest: the best sequence number so far and the slot
after it. -/
def scanSlot (start : UInt64) (best : UInt64 × Nat) (i : Nat) : StoreM (UInt64 × Nat) := do
  match ← attempt (blkRead (slotLba start (UInt64.ofNat i)) 1) with
  | .ok sector =>
    let h := SlotHdr.codec.decode sector
    pure (if h.magic = blogRingMagic ∧ best.1 ≤ h.seq then (h.seq, (i + 1) % blogRingSlots) else
      best)
  | .error _ => pure best

/-- C `anx_bootlog_ring_init`. -/
def ringInit : RingM Unit := do
  modify fun m => { m with ring.ok := false }
  let m ← get
  failIf (!m.store.dev.ready) Err.enodev
  let ours ← onDevice deviceIsOurs
  failIf (!ours) Err.eperm
  failIf (m.store.dev.capacity ≤ blogRingSectors + dataStart) Err.efull
  modify fun m => { m with ring.start := m.store.dev.capacity - blogRingSectors }
  let best ← onDevice ((List.range blogRingSlots).foldlM
    (scanSlot (m.store.dev.capacity - blogRingSectors)) (0, 0))
  modify fun m =>
    { m with ring.ok := true, ring.slot := UInt64.ofNat best.2, ring.seq := best.1 + 1 }

def flushSector (lba : UInt64) (text : List UInt8) (i : Nat) : StoreM Unit := do
  match ← attempt
      (blkWrite (lba + UInt64.ofNat i) 1 (fill 512 ((text.drop (512 * i)).take 512))) with
  | .ok _ => pure ()
  | .error _ => throw Err.eio

def slotText (log : List UInt8) : List UInt8 :=
  log.take (519 * 512)

def slotHdr (seq : UInt64) (text : List UInt8) : SlotHdr :=
  ⟨blogRingMagic, bootlogVersion, seq, 0, UInt32.ofNat text.length, 0, kernelVersion⟩

/-- Text first, header last (C `anx_bootlog_ring_flush`). -/
def ringFlush (log : List UInt8) : RingM Unit := do
  let m ← get
  failIf (!m.ring.ok) Err.enodev
  let text := slotText log
  onDevice ((List.range ((text.length + 511) / 512)).forM
    (flushSector (slotLba m.ring.start m.ring.slot + 1) text))
  onDevice (blkWrite (slotLba m.ring.start m.ring.slot) 1
    (fill 512 (SlotHdr.codec.encode (slotHdr m.ring.seq text))))

/-- Mark the first slot with the sequence number among the given ones. -/
def pruneFrom (start seq : UInt64) : List Nat → StoreM Unit
  | [] => throw Err.enoent
  | i :: rest => do
    match ← attempt (blkRead (slotLba start (UInt64.ofNat i)) 1) with
    | .error _ => pruneFrom start seq rest
    | .ok sector =>
      let h := SlotHdr.codec.decode sector
      if h.magic ≠ blogRingMagic ∨ h.seq ≠ seq then pruneFrom start seq rest
      else
        blkWrite (slotLba start (UInt64.ofNat i)) 1
          (SlotHdr.codec.encode { h with flags := h.flags ||| blogSlotPruned } ++ sector.drop 64)

/-- C `anx_bootlog_ring_prune`. -/
def ringPrune (seq : UInt64) : RingM Unit := do
  let m ← get
  failIf (!m.ring.ok) Err.enodev
  onDevice (pruneFrom m.ring.start seq (List.range blogRingSlots))

end Anunix.Disk
