import Anunix.Disk.Refinement
import Anunix.Md.Layout

/-!
# The format guard

`kernel/drivers/storage/blk_probe.c` and C `anx_disk_format` over it. The probe looks at five
sectors. It refuses when one of the first two cannot be read, and counts unrecognised bytes in the
first three only. A device with a superblock of an Anunix array in sector 8 is blank to it.
-/

namespace Anunix.Disk
open Fallible Region

/-! ## The probe -/

/-- C `enum anx_blk_content`. -/
inductive Content where
  | blank | anunix | foreign
  deriving DecidableEq

/-- Bytes at an offset of a sector, and what they stand for. -/
structure Signature where
  offset : Nat
  bytes : List UInt8
  content : Content
  desc : String

/-- C `match`. -/
def Signature.isIn (sig : Signature) (buf : List UInt8) : Bool :=
  (buf.drop sig.offset).take sig.bytes.length == sig.bytes

/-- What C `anx_blk_probe` does with one sector. -/
structure Probe where
  sector : UInt64
  /-- A read error ends the probe. -/
  required : Bool
  /-- Unrecognised bytes count as data. -/
  counted : Bool
  signatures : List Signature

/-- The boot signature comes last of those in sector 0; behind it nothing else is looked at. -/
def firstProbe : Probe :=
  ⟨0, true, true,
    [⟨0, Codec.toLE 4 diskMagic.toNat, .anunix, "Anunix object store"⟩,
      ⟨0, Codec.toLE 4 Md.mdMagic.toNat, .anunix, "Anunix RAID member"⟩,
      ⟨0, [0x58, 0x46, 0x53, 0x42], .foreign, "xfs"⟩,
      ⟨0, [0x4C, 0x55, 0x4B, 0x53, 0xBA, 0xBE], .foreign, "LUKS"⟩,
      ⟨3, [0x4E, 0x54, 0x46, 0x53, 0x20, 0x20, 0x20, 0x20], .foreign, "ntfs"⟩,
      ⟨0x36, [0x46, 0x41, 0x54], .foreign, "fat"⟩,
      ⟨0x52, [0x46, 0x41, 0x54, 0x33, 0x32], .foreign, "fat"⟩,
      ⟨0x1FE, [0x55, 0xAA], .foreign, "MBR partition table"⟩]⟩

def laterProbes : List Probe :=
  [⟨1, true, true, [⟨0, [0x45, 0x46, 0x49, 0x20, 0x50, 0x41, 0x52, 0x54], .foreign, "GPT"⟩]⟩,
    ⟨2, false, true, [⟨0x38, [0x53, 0xEF], .foreign, "ext2/3/4"⟩]⟩,
    ⟨8, false, false, [⟨0, Codec.toLE 4 0xA92B4EFC, .foreign, "Linux RAID member"⟩]⟩,
    ⟨128, false, false,
      [⟨0x40, [0x5F, 0x42, 0x48, 0x52, 0x66, 0x53, 0x5F, 0x4D], .foreign, "btrfs"⟩]⟩]

/-- The five sectors. -/
def probes : List Probe :=
  firstProbe :: laterProbes

/-- The listed sectors of a device, as far as its capacity reaches. -/
def probeLoop (capacity : UInt64) (read : UInt64 → Option (List UInt8)) :
    List Probe → Bool → Content × String
  | [], sawData => if sawData then (.foreign, "unrecognised data") else (.blank, "blank")
  | p :: rest, sawData =>
    if p.sector < capacity then
      match read p.sector with
      | none =>
        if p.required then (.foreign, "unreadable") else probeLoop capacity read rest sawData
      | some buf =>
        match p.signatures.find? fun sig => sig.isIn buf with
        | some sig => (sig.content, sig.desc)
        | none => probeLoop capacity read rest (sawData || (p.counted && !buf.all (· == 0)))
    else probeLoop capacity read rest sawData

/-- C `anx_blk_probe`: what is on a device and its name. `allocated` says whether there was a
buffer. -/
def blkProbe (capacity : UInt64) (allocated : Bool) (read : UInt64 → Option (List UInt8)) :
    Content × String :=
  if capacity = 0 || !allocated then (.foreign, "unreadable") else
    probeLoop capacity read probes false

def Device.sector (v : Device) (lba : UInt64) : List UInt8 :=
  load v.disk (512 * lba.toNat) 512

def Device.answer (v : Device) (readable : UInt64 → Bool) (lba : UInt64) : Option (List UInt8) :=
  if readable lba then some (v.sector lba) else none

/-- The checks of C `anx_disk_format`. -/
def formatGuard (readable : UInt64 → Bool) (allocated isMember : Bool) : StoreM Unit := do
  failIf (!(← get).dev.ready) Err.eio
  failIf isMember Err.ebusy
  let dev := (← get).dev
  failIf ((blkProbe dev.capacity allocated (dev.answer readable)).1 == .foreign) Err.eexist

/-- C `anx_disk_format`. -/
def diskFormat (readable : UInt64 → Bool) (allocated isMember : Bool) : StoreM Unit := do
  formatGuard readable allocated isMember
  formatForced

/-! ## What passes -/

/-- What a probe lets pass without a word: a read error that does not matter, or bytes that are not
recognised. -/
def Probe.Passes (p : Probe) : Option (List UInt8) → Prop
  | none => p.required = false
  | some buf =>
    (∀ sig ∈ p.signatures, sig.isIn buf = false) ∧ (p.counted = true → buf.all (· == 0) = true)

/-- Where no signature says blank, a probe ends in blank exactly if it lets every sector pass. -/
lemma probeLoop_blank {capacity : UInt64} {read : UInt64 → Option (List UInt8)} {ps : List Probe}
    {sawData : Bool} (hsig : ∀ p ∈ ps, ∀ sig ∈ p.signatures, sig.content ≠ .blank) :
    (probeLoop capacity read ps sawData).1 = .blank ↔
      sawData = false ∧ ∀ p ∈ ps, p.sector < capacity → p.Passes (read p.sector) := by
  induction ps generalizing sawData with
  | nil => cases sawData <;> simp [probeLoop]
  | cons p ps ih =>
    obtain ⟨hp, hps⟩ := List.forall_mem_cons.mp hsig
    rw [List.forall_mem_cons, probeLoop]
    by_cases hin : p.sector < capacity
    · cases hread : read p.sector with
      | none =>
        cases hrequired : p.required with
        | true => simp [Probe.Passes, hin, hrequired]
        | false => simpa [Probe.Passes, hin, hrequired] using ih hps
      | some buf =>
        cases hfind : p.signatures.find? fun sig => sig.isIn buf with
        | some sig =>
          have hmem := List.mem_of_find?_eq_some hfind
          have hpass : ¬ p.Passes (some buf) :=
            fun h => Bool.noConfusion ((List.find?_some hfind).symm.trans (h.1 sig hmem))
          simp [hin, hfind, hp sig hmem, hpass]
        | none =>
          have hno : ∀ sig ∈ p.signatures, sig.isIn buf = false :=
            fun sig h => by simpa using List.find?_eq_none.mp hfind sig h
          simp only [hin, hfind, if_true, ih hps, Probe.Passes, Bool.or_eq_false_iff]
          cases p.counted <;> simp_all [and_assoc]
    · simpa [hin] using ih hps

lemma probeLoop_ne_anunix {capacity : UInt64} {read : UInt64 → Option (List UInt8)}
    {ps : List Probe} {sawData : Bool}
    (hsig : ∀ p ∈ ps, ∀ sig ∈ p.signatures, sig.content = .foreign) :
    (probeLoop capacity read ps sawData).1 ≠ .anunix := by
  fun_induction probeLoop capacity read ps sawData with
  | case1 | case2 | case3 => decide
  | case4 p rest sawData hin hread hrequired ih => exact ih fun p hp => hsig p (.tail _ hp)
  | case5 p rest sawData hin buf hread sig hfind =>
    simp [hsig p (.head _) sig (List.mem_of_find?_eq_some hfind)]
  | case6 p rest sawData hin buf hread hfind ih => exact ih fun p hp => hsig p (.tail _ hp)
  | case7 p rest sawData hin ih => exact ih fun p hp => hsig p (.tail _ hp)

/-! ## The guard -/

def Device.Clear (v : Device) (readable : UInt64 → Bool) (lba : UInt64) : Prop :=
  readable lba = true ∧ (v.sector lba).all (· == 0) = true

/-- A sector that cannot be read, or that holds bytes the probe does not know. -/
def Device.Strange (v : Device) (readable : UInt64 → Bool) (p : Probe) : Prop :=
  readable p.sector = false ∨ (v.sector p.sector).all (· == 0) = false ∧
    ∀ sig ∈ p.signatures, sig.isIn (v.sector p.sector) = false

/-- The first signature that is in sector 0 is one of Anunix. -/
def Device.Ours (v : Device) (readable : UInt64 → Bool) : Prop :=
  0 < v.capacity ∧ readable 0 = true ∧
    (firstProbe.signatures.find? fun sig => sig.isIn (v.sector 0)).map Signature.content =
    some .anunix

/-- The first two sectors can be read, those of the first three that can be read are zero, and no
sector has a signature. -/
def Device.Plain (v : Device) (readable : UInt64 → Bool) : Prop :=
  ∀ p ∈ probes, p.sector < v.capacity → p.Passes (v.answer readable p.sector)

/-- The magic of an Anunix RAID superblock stands at its head position. -/
def Device.HasRaid (v : Device) : Prop :=
  8 < v.capacity ∧ (v.sector 8).take 4 = Codec.toLE 4 Md.mdMagic.toNat

variable {readable : UInt64 → Bool} {v : Device}

lemma probeLoop_anunix (hcap : 0 < v.capacity) :
    (probeLoop v.capacity (v.answer readable) probes false).1 = .anunix ↔ v.Ours readable := by
  have hsig : ∀ p ∈ laterProbes, ∀ sig ∈ p.signatures, sig.content = .foreign := by decide
  have hzero : firstProbe.sector = 0 := rfl
  rw [probes, probeLoop, hzero, if_pos hcap, Device.answer, Device.Ours]
  cases hread : readable 0 with
  | false => simp [firstProbe]
  | true =>
    rw [if_pos rfl]
    dsimp only
    cases firstProbe.signatures.find? fun sig => sig.isIn (v.sector 0) with
    | some sig => simp [hcap]
    | none => simp [probeLoop_ne_anunix hsig]

/-- The probe calls a device foreign unless there is a buffer and the device is plain or ours. -/
lemma blkProbe_iff (v : Device) (readable : UInt64 → Bool) (allocated : Bool) :
    ((blkProbe v.capacity allocated (v.answer readable)).1 = .blank ↔
      0 < v.capacity ∧ allocated = true ∧ v.Plain readable) ∧
    ((blkProbe v.capacity allocated (v.answer readable)).1 = .anunix ↔
      allocated = true ∧ v.Ours readable) := by
  have hsig : ∀ p ∈ probes, ∀ sig ∈ p.signatures, sig.content ≠ .blank := by decide
  rw [blkProbe]
  rcases eq_or_ne v.capacity 0 with hcap | hcap
  · simp [hcap, Device.Ours]
  have hpos := UInt64.pos_iff_ne_zero.mpr hcap
  cases allocated with
  | false => simp
  | true => simp [hcap, hpos, probeLoop_blank hsig, probeLoop_anunix hpos, Device.Plain]

lemma Probe.Passes.clear {p : Probe} (h : p.Passes (v.answer readable p.sector))
    (hrest : (p.required = false → readable p.sector = true) ∧
      (p.counted = false → (v.sector p.sector).all (· == 0) = true)) :
      v.Clear readable p.sector := by
  unfold Device.answer at h
  cases hread : readable p.sector with
  | false =>
    rw [hread] at h
    exact absurd (hrest.1 h) (by simp [hread])
  | true =>
    rw [hread] at h
    refine ⟨hread, ?_⟩
    cases hcounted : p.counted with
    | true => exact h.2 hcounted
    | false => exact hrest.2 hcounted

lemma Device.Clear.not_strange {p : Probe} (h : v.Clear readable p.sector) :
    ¬ v.Strange readable p := by
  rintro (hread | ⟨hdata, -⟩)
  · exact Bool.noConfusion (h.1.symm.trans hread)
  · exact Bool.noConfusion (h.2.symm.trans hdata)

lemma Device.HasRaid.strange (h : v.HasRaid) :
    ∃ p ∈ probes, p.sector < v.capacity ∧ v.Strange readable p := by
  obtain ⟨hcap, hmagic⟩ := h
  refine ⟨⟨8, false, false, _⟩, .tail _ (.tail _ (.tail _ (.head _))), hcap, .inr ⟨?_, ?_⟩⟩
  · refine Bool.eq_false_iff.mpr fun hzero => ?_
    have hfirst : (0x41 : UInt8) ∈ (v.sector 8).take 4 := hmagic ▸ by decide
    simpa using List.all_eq_true.mp hzero _ (List.mem_of_mem_take hfirst)
  · have hother : (v.sector 8).take 4 ≠ Codec.toLE 4 0xA92B4EFC := hmagic ▸ by decide
    exact List.forall_mem_singleton.mpr (beq_eq_false_iff_ne.mpr hother)

/-- The checks pass for a ready device that is no member and not foreign. -/
lemma formatGuard_ends (s : Store) (readable : UInt64 → Bool) (allocated isMember : Bool) :
    Ends (formatGuard readable allocated isMember) s
      (fun _ s' => s' = s ∧ s.dev.ready = true ∧ isMember = false ∧
        (blkProbe s.dev.capacity allocated (s.dev.answer readable)).1 ≠ .foreign)
      fun _ s' => s' = s ∧ (s.dev.ready = true → isMember = false →
        (blkProbe s.dev.capacity allocated (s.dev.answer readable)).1 = .foreign) := by
  refine .get_bind (.failIf_bind (fun h => ⟨rfl, fun hready => ?_⟩) fun hready => ?_)
  · simp [hready] at h
  refine .failIf_bind (fun h => ⟨rfl, fun _ hmember => ?_⟩) fun hmember => ?_
  · exact Bool.noConfusion (h.symm.trans hmember)
  refine .get_bind ?_
  change Ends
    (failIf ((blkProbe s.dev.capacity allocated (s.dev.answer readable)).1 == .foreign) _) s _ _
  cases hforeign : (blkProbe s.dev.capacity allocated (s.dev.answer readable)).1 == .foreign with
  | true => exact ⟨rfl, fun _ _ => eq_of_beq hforeign⟩
  | false => exact ⟨rfl, by simpa using hready, hmember, beq_eq_false_iff_ne.mp hforeign⟩

/-- What is blank to the probe is zero, and a device with something strange is not formatted,
exactly where a plain device can be read and is zero behind its first three sectors, and where one
with an Anunix signature that may be formatted has nothing strange. -/
theorem format_guarded (s : Store) (readable : UInt64 → Bool) (allocated isMember : Bool) :
    (((blkProbe s.dev.capacity allocated (s.dev.answer readable)).1 = .blank →
        ∀ p ∈ probes, p.sector < s.dev.capacity → s.dev.Clear readable p.sector) ∧
      ((∃ p ∈ probes, p.sector < s.dev.capacity ∧ s.dev.Strange readable p) ∨ s.dev.HasRaid →
        ∃ err, formatGuard readable allocated isMember s = .error err s ∧
          diskFormat readable allocated isMember s = .error err s)) ↔
    (allocated = true →
      (s.dev.Plain readable → ∀ p ∈ probes, p.sector < s.dev.capacity →
        (p.required = false → readable p.sector = true) ∧
        (p.counted = false → (s.dev.sector p.sector).all (· == 0) = true)) ∧
      (s.dev.ready = true → isMember = false → s.dev.Ours readable →
        ∀ p ∈ probes, p.sector < s.dev.capacity → ¬ s.dev.Strange readable p)) := by
  obtain ⟨hblank, hours⟩ := blkProbe_iff s.dev readable allocated
  constructor
  · rintro ⟨hclear, hrefused⟩ hallocated
    refine ⟨fun hplain p hp hlt => ?_, fun hready hmember h p hp hlt hstrange => ?_⟩
    · have hpos : 0 < s.dev.capacity := UInt64.lt_of_le_of_lt UInt64.zero_le hlt
      have h := hclear (hblank.mpr ⟨hpos, hallocated, hplain⟩) p hp hlt
      exact ⟨fun _ => h.1, fun _ => h.2⟩
    · obtain ⟨err, herr, -⟩ := hrefused (.inl ⟨p, hp, hlt, hstrange⟩)
      have hforeign :=
        ((formatGuard_ends s readable allocated isMember).of_error herr).2 hready hmember
      exact Content.noConfusion (hforeign.symm.trans (hours.mpr ⟨hallocated, h⟩))
  · intro h
    have hclear (hprobe : (blkProbe s.dev.capacity allocated (s.dev.answer readable)).1 = .blank) :
        ∀ p ∈ probes, p.sector < s.dev.capacity → s.dev.Clear readable p.sector := by
      obtain ⟨-, hallocated, hplain⟩ := hblank.mp hprobe
      exact fun p hp hlt => (hplain p hp hlt).clear ((h hallocated).1 hplain p hp hlt)
    refine ⟨hclear, fun hbad => ?_⟩
    obtain ⟨p, hp, hlt, hstrange⟩ := hbad.elim id Device.HasRaid.strange
    cases hguard : formatGuard readable allocated isMember s with
    | ok _ s' =>
      obtain ⟨-, hready, hmember, hne⟩ :=
        (formatGuard_ends s readable allocated isMember).of_ok hguard
      cases hprobe : (blkProbe s.dev.capacity allocated (s.dev.answer readable)).1 with
      | blank => exact absurd hstrange (hclear hprobe p hp hlt).not_strange
      | anunix =>
        obtain ⟨hallocated, h'⟩ := hours.mp hprobe
        exact absurd hstrange ((h hallocated).2 hready hmember h' p hp hlt)
      | foreign => exact absurd hprobe hne
    | error err s' =>
      obtain ⟨rfl, -⟩ := (formatGuard_ends s readable allocated isMember).of_error hguard
      exact ⟨err, rfl, by simp [diskFormat, Bind.bind, EStateM.bind, hguard]⟩

def raidDrive : Store where
  dev :=
    { ready := true, capacity := 1000, faults := fun _ => none, tick := 0, log := []
      disk := store (fun _ => 0) 4096 (Codec.toLE 4 Md.mdMagic.toNat) }
  mem := Memory.boot

/-- It counts as blank and is formatted. -/
theorem format_unguarded : (blkProbe 1000 true (raidDrive.dev.answer (· != 2))).1 = .blank ∧
    (raidDrive.dev.sector 8).take 4 = Codec.toLE 4 Md.mdMagic.toNat ∧
    ∃ s, diskFormat (· != 2) true false raidDrive = .ok () s := by
  have hblank : (blkProbe 1000 true (raidDrive.dev.answer (· != 2))).1 = .blank := by decide +kernel
  obtain ⟨s, hformat, -⟩ := format_calm (s := raidDrive) ⟨rfl, by decide⟩ fun _ => rfl
  refine ⟨hblank, by decide +kernel, s, run_bind_eq_ok.mpr ⟨(), raidDrive, ?_, hformat⟩⟩
  refine run_bind_eq_ok.mpr ⟨raidDrive, raidDrive, rfl, run_bind_eq_ok.mpr ⟨(), raidDrive, rfl, ?_⟩⟩
  refine run_bind_eq_ok.mpr ⟨(), raidDrive, rfl, run_bind_eq_ok.mpr ⟨raidDrive, raidDrive, rfl, ?_⟩⟩
  exact run_failIf_eq_ok.mpr ⟨beq_eq_false_iff_ne.mpr (hblank.trans_ne nofun), rfl⟩

end Anunix.Disk
