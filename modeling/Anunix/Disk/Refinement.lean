import Anunix.Disk.Sound

/-!
# The disk store refines a finite map

The abstract store is a finite map from OIDs to objects; a write inserts, a delete erases, a mount
does nothing. `Represents s m` ties a store to such a map: the store is sound, and what is stored
under an OID is what the map holds.

Every operation that succeeds takes a represented map to the map the operation makes of it
(`Represents.exec`), so a run does (`Represents.execAll`), and the queries of a store answer from
the map it represents (`Represents.answers`).
-/

namespace Anunix.Disk
open Fallible Region List

abbrev ObjectMap := Finmap fun _ : Uuid => Object

def DiskOp.apply (m : ObjectMap) : DiskOp → ObjectMap
  | .writeBk oid objType boundaryKey payload =>
    m.insert oid ⟨objType, boundaryKey, payload.size, payload.bytes⟩
  | .write oid objType payload => m.insert oid ⟨objType, 0, payload.size, payload.bytes⟩
  | .delete oid => m.erase oid
  | .mount _ => m

/-- A payload whose size can be rounded up to sectors in 32 bits. -/
def Payload.Fits (p : Payload) : Prop :=
  p.bytes.length + 511 ≤ 2 ^ 32 - 1

def DiskOp.Fits : DiskOp → Prop
  | .writeBk _ _ _ payload => payload.Fits
  | .write _ _ payload => payload.Fits
  | .delete _ => True
  | .mount _ => True

def DiskOp.target : DiskOp → Option Uuid
  | .writeBk oid _ _ _ => some oid
  | .write oid _ _ => some oid
  | .delete oid => some oid
  | .mount _ => none

/-! ## Payload sizes -/

lemma Payload.size_toNat (p : Payload) : p.size.toNat = p.bytes.length :=
  UInt32.toNat_ofNat_of_lt' p.fits

variable {p : Payload}

lemma sectorsNeeded_toNat (h : p.Fits) :
    p.bytes.length ≤ 512 * (sectorsNeeded p.size).toNat := by
  unfold Payload.Fits at h
  have hround : ((p.size + 511) / 512).toNat = (p.bytes.length + 511) / 512 := by
    rw [UInt32.toNat_div, UInt32.toNat_add, p.size_toNat]
    show (p.bytes.length + 511) % 2 ^ 32 / 512 = _
    rw [Nat.mod_eq_of_lt (by omega)]
  simp only [sectorsNeeded]
  split
  · rename_i hz
    rw [hz] at hround
    have hzero : (0 : UInt32).toNat = 0 := rfl
    omega
  · omega

lemma Payload.kept_eq (h : p.Fits) : p.kept = p.bytes := by
  rw [Payload.kept, p.size_toNat]
  exact Codec.take_fill (sectorsNeeded_toNat h)

/-! ## The refinement -/

structure Represents (s : Store) (m : ObjectMap) : Prop where
  sound : Sound s
  lookup : ∀ oid, m.lookup oid = s.value oid

section Refinement

variable {s s' : Store} {m : ObjectMap} {op : DiskOp} {ops : List DiskOp} {oid : Uuid}

section

variable (h : Represents s m)
include h

lemma Represents.write {objType : UInt32} {boundaryKey : UInt64} {p : Payload}
    (hp : p.Fits) (hok : writeObjBk oid objType boundaryKey p s = .ok () s') :
    Represents s' (m.insert oid ⟨objType, boundaryKey, p.size, p.bytes⟩) := by
  obtain ⟨hsound, hvalue⟩ := h.sound.write hok
  refine ⟨hsound, fun o => ?_⟩
  rw [hvalue, Payload.kept_eq hp]
  by_cases ho : oid = o
  · rw [if_pos ho, ← ho, Finmap.lookup_insert]
  · rw [if_neg ho, Finmap.lookup_insert_of_ne _ (Ne.symm ho), h.lookup]

lemma Represents.delete (hok : deleteObj oid s = .ok () s') :
    Represents s' (m.erase oid) := by
  obtain ⟨hsound, hvalue⟩ := h.sound.delete hok
  refine ⟨hsound, fun o => ?_⟩
  rw [hvalue]
  by_cases ho : oid = o
  · rw [if_pos ho, ← ho, Finmap.lookup_erase]
  · rw [if_neg ho, Finmap.lookup_erase_ne (Ne.symm ho), h.lookup]

lemma Represents.exec (hfits : op.Fits) (hok : op.exec s = .ok () s') :
    Represents s' (op.apply m) := by
  cases op with
  | writeBk oid objType boundaryKey payload => exact h.write hfits hok
  | write oid objType payload => exact h.write hfits hok
  | delete oid => exact h.delete hok
  | mount afterPowerCycle =>
    obtain ⟨hsound, hvalue⟩ := h.sound.mount hok
    exact ⟨hsound, fun o => (h.lookup o).trans (hvalue o).symm⟩

lemma Represents.execAll (hfits : ∀ op ∈ ops, op.Fits)
    (hok : execAll ops s = .ok () s') : Represents s' (ops.foldl DiskOp.apply m) := by
  induction ops generalizing s m with
  | nil =>
    obtain ⟨-, rfl⟩ := run_pure_eq_ok.mp hok
    exact h
  | cons op ops ih =>
    obtain ⟨_, s1, hop, hrest⟩ := run_bind_eq_ok.mp hok
    exact ih (h.exec (hfits op mem_cons_self) hop)
      (fun o ho => hfits o (mem_cons_of_mem _ ho)) hrest

end

/-! ## Queries -/

/-- What a read with a buffer of `bufSize` bytes returns for a stored object: its payload, unless
the buffer for it cannot be allocated or the device fails. -/
def readAnswer (v : Device) (o : Option Object) (bufSize : UInt32) : Except Err Reading :=
  match o with
  | none => .error .enoent
  | some o =>
    match v.faults v.tick with
    | some _ => .error .enomem
    | none =>
      match v.faults (v.tick + 1) with
      | some e => .error e
      | none => .ok ⟨o.payload.take bufSize.toNat, o.size, o.objType⟩

def Store.tock (s : Store) : Store :=
  { s with dev.tick := s.dev.tick + 1 }

section Requests

variable {β : Type} {Q : β → Store → Prop} {E : Err → Store → Prop}

lemma alloc_bind_ends {k : Unit → StoreM β}
    (herr : ∀ e, s.dev.faults s.dev.tick = some e → E .enomem s.tock)
    (hok : s.dev.faults s.dev.tick = none → Ends (k ()) s.tock Q E) : Ends (alloc >>= k) s Q E := by
  show Ends (failIf (s.dev.faults s.dev.tick).isSome Err.enomem >>= k) s.tock Q E
  cases h : s.dev.faults s.dev.tick with
  | none => exact hok h
  | some e => exact herr e h

variable {lba : UInt64} {count : UInt32}

lemma transfer_ends (herr : ∀ e, s.dev.faults s.dev.tick = some e → E e s.tock)
    (hfull : s.dev.capacity.toNat < lba.toNat + count.toNat → E .eio s.tock)
    {P : Unit → Store → Prop} (hok : s.dev.faults s.dev.tick = none → P () s.tock) :
    Ends (transfer lba count) s P E := by
  apply Ends.bind
  show Ends (match s.dev.faults s.dev.tick with
    | some e => throw e
    | none => do failIf ((← get).dev.capacity.toNat < lba.toNat + count.toNat) Err.eio) s.tock _ _
  cases h : s.dev.faults s.dev.tick with
  | some e => exact herr e h
  | none =>
    refine .get_bind ?_
    cases hfit : decide (s.tock.dev.capacity.toNat < lba.toNat + count.toNat) with
    | true => exact hfull (of_decide_eq_true hfit)
    | false => exact hok h

lemma blkRead_bind_ends {k : List UInt8 → StoreM β} (hready : s.dev.ready) (hcount : count ≠ 0)
    (hfit : lba.toNat + count.toNat ≤ s.dev.capacity.toNat)
    (herr : ∀ e, s.dev.faults s.dev.tick = some e → E e s.tock)
    (hok : s.dev.faults s.dev.tick = none →
      Ends (k (load s.dev.disk (512 * lba.toNat) (512 * count.toNat))) s.tock Q E) :
    Ends (blkRead lba count >>= k) s Q E := by
  apply Ends.bind
  refine .get_bind (.pass (by simp [hready]) ?_)
  rw [if_neg hcount]
  exact .bind (transfer_ends herr (fun hlt => absurd hfit (Nat.not_le.mpr hlt)) hok)

end Requests

lemma readObj_outcome (hready : s.dev.ready) (hmounted : s.mem.mounted)
    (hextent : ∀ e, findIndexEntry s.mem.indexCache oid = some e →
      e.dataSectors ≠ 0 ∧ e.stop ≤ s.dev.capacity.toNat) (bufSize : UInt32) :
    outcome (readObj oid bufSize) s = readAnswer s.dev (s.value oid) bufSize := by
  apply Ends.outcome
  refine .get_bind (.pass (by simp [hmounted]) ?_)
  refine .get_bind (.orThrow_bind (fun hnone => ?_) fun e he => ?_)
  · rw [Store.value, objectAt, hnone]
    rfl
  obtain ⟨hsome, hstop⟩ := hextent e he
  rw [Store.value, objectAt, he]
  refine alloc_bind_ends (fun e' hf => ?_) fun hf => ?_
  · simp only [readAnswer, Option.map_some, hf]
  refine blkRead_bind_ends hready hsome hstop (fun e' hf' => ?_) fun hf' => ?_
  · have hf' : s.dev.faults (s.dev.tick + 1) = some e' := hf'
    simp only [readAnswer, Option.map_some, hf, hf']
  · have hf' : s.dev.faults (s.dev.tick + 1) = none := hf'
    have hcopy : (if bufSize < e.payloadSize then bufSize else e.payloadSize).toNat =
        min bufSize.toNat e.payloadSize.toNat := by
      split
      · rename_i hlt
        rw [UInt32.lt_iff_toNat_lt] at hlt
        omega
      · rename_i hlt
        rw [UInt32.lt_iff_toNat_lt] at hlt
        omega
    simp only [readAnswer, Option.map_some, hf, hf', IndexEntry.object, IndexEntry.payload,
      take_take, hcopy]
    rfl

lemma Sound.read (h : Sound s) (oid : Uuid) (bufSize : UInt32) :
    outcome (readObj oid bufSize) s = readAnswer s.dev (s.value oid) bufSize := by
  refine readObj_outcome h.serves.ready h.mounted (fun e he => ?_) bufSize
  have hmem := Keyed.lookup_mem he
  exact ⟨h.fit.valid.extent e hmem, Nat.le_trans (h.fit.valid.stop e hmem) h.fit.room⟩

lemma getBoundaryKey_outcome (hmounted : s.mem.mounted) (oid : Uuid) :
    outcome (getBoundaryKey oid) s =
      match s.value oid with
      | none => .error .enoent
      | some o => .ok o.boundaryKey := by
  apply Ends.outcome
  refine .get_bind (.pass (by simp [hmounted]) ?_)
  rw [Store.value, objectAt]
  refine .get_bind (.orThrow_bind (fun hnone => ?_) fun e he => ?_)
  · rw [hnone]
    rfl
  · rw [he]
    rfl

lemma Represents.card_keys (h : Represents s m) : m.keys.card = s.mem.indexCache.length := by
  have hkeys : m.keys = (s.mem.indexCache.map IndexEntry.oid).toFinset := by
    ext oid
    rw [Finmap.mem_keys, ← Finmap.lookup_isSome, h.lookup, Store.value, objectAt, findIndexEntry,
      Keyed.lookup]
    simp
  rw [hkeys, toFinset_card_of_nodup h.sound.fit.valid.oids, length_map]

structure Answers (s : Store) (m : ObjectMap) : Prop where
  read : ∀ oid bufSize, outcome (readObj oid bufSize) s = readAnswer s.dev (m.lookup oid) bufSize
  boundaryKey : ∀ oid, outcome (getBoundaryKey oid) s =
    match m.lookup oid with
    | none => .error .enoent
    | some o => .ok o.boundaryKey
  objExists : ∀ oid, objExists s.mem oid = (m.lookup oid).isSome
  count : ∃ r, outcome stats s = .ok r ∧ r.objCount.toNat = m.keys.card

lemma Represents.answers (h : Represents s m) : Answers s m := by
  refine ⟨fun oid bufSize => ?_, fun oid => ?_, fun oid => ?_, ?_⟩
  · rw [h.lookup]
    exact h.sound.read oid bufSize
  · rw [h.lookup]
    exact getBoundaryKey_outcome h.sound.mounted oid
  · rw [h.lookup, Store.value, objectAt, Option.isSome_map, Disk.objExists, h.sound.mounted,
      Bool.true_and]
  · refine ⟨⟨s.mem.super.objCount, s.mem.super.nextDataSector, s.mem.super.totalSectors⟩, ?_, ?_⟩
    · apply Ends.outcome
      exact .get_bind (.pass (by simp [h.sound.mounted]) rfl)
    · rw [h.card_keys]
      exact h.sound.fit.count

/-! ## Runs -/

def Store.calm (s : Store) : Store :=
  { s with dev.faults := fun _ => none }

lemma Sound.calm (h : Sound s) : Sound s.calm :=
  ⟨⟨h.serves.ready, h.serves.room⟩, h.mounted, h.fit, h.persisted, h.index, h.next⟩

lemma Represents.calm (h : Represents s m) : Represents s.calm m :=
  ⟨h.sound.calm, h.lookup⟩

lemma DiskOp.lookup_apply (h : op.target ≠ some oid) :
    (op.apply m).lookup oid = m.lookup oid := by
  cases op with
  | writeBk o objType boundaryKey payload =>
    exact Finmap.lookup_insert_of_ne _ fun e => h (congrArg some e.symm)
  | write o objType payload => exact Finmap.lookup_insert_of_ne _ fun e => h (congrArg some e.symm)
  | delete o => exact Finmap.lookup_erase_ne fun e => h (congrArg some e.symm)
  | mount afterPowerCycle => rfl

lemma format_represents (hok : formatForced s = .ok () s') : Represents s' ∅ := by
  obtain ⟨hsound, hvalue⟩ := format_sound hok
  exact ⟨hsound, fun o => (Finmap.lookup_empty o).trans (hvalue o).symm⟩

end Refinement

/-- **The disk store is a map**: behind any operations it answers as the map that they define. -/
theorem diskStore_refines {s₀ s₁ s : Store} {ops : List DiskOp}
    (hformat : formatForced s₀ = .ok () s₁) (hfits : ∀ op ∈ ops, op.Fits)
    (hrun : execAll ops s₁ = .ok () s) :
    Answers s (ops.foldl DiskOp.apply ∅) ∧ ∀ (op : DiskOp) (s' : Store), op.Fits →
    op.exec s = .ok () s' →
        ∀ oid, op.target ≠ some oid → ∀ bufSize,
          outcome (readObj oid bufSize) s'.calm = outcome (readObj oid bufSize) s.calm := by
  have h := (format_represents hformat).execAll hfits hrun
  refine ⟨h.answers, fun op s' hop hok oid ho bufSize => ?_⟩
  have h' := h.exec hop hok
  rw [h'.calm.answers.read, h.calm.answers.read, DiskOp.lookup_apply ho]
  -- without faults the two devices answer alike
  rfl

def blankStore : Store where
  dev := { ready := true, capacity := 1000, disk := fun _ => 0, faults := fun _ => none, tick := 0,
           log := [] }
  mem := Memory.boot

def samplePayload : Payload :=
  ⟨[10, 20], by decide⟩

/-- Two objects get the same key, the second of them when it is written again. -/
def writeThenReboot : List DiskOp :=
  [.writeBk ⟨1, 2⟩ 3 5 samplePayload, .writeBk ⟨1, 3⟩ 4 7 samplePayload,
    .writeBk ⟨1, 4⟩ 4 6 samplePayload, .writeBk ⟨1, 2⟩ 5 7 samplePayload, .mount true]

/-- A sound store with memory `m` on a device of 1000 sectors that meets every request. -/
structure Calmly (m : Memory) (s : Store) : Prop where
  sound : Sound s
  calm : s.dev.Calm
  mem : s.mem = m
  capacity : s.dev.capacity = 1000

lemma blankStore_format :
    ∃ s, formatForced blankStore = .ok () s ∧ Calmly (formattedMemory 1000) s := by
  have hserves : blankStore.dev.Serves := ⟨rfl, by decide⟩
  obtain ⟨s, hformat, hcalm, hmem, hcap⟩ := format_calm hserves fun _ => rfl
  exact ⟨s, hformat, (format_sound hformat).1, hcalm, hmem, hcap⟩

lemma Calmly.write {m : Memory} (h : Calmly m s) (hp : sectorsNeeded p.size = 1)
    (hroom : ¬ Store.Full ⟨blankStore.dev, m⟩ 1) (oid : Uuid) (objType : UInt32)
    (boundaryKey : UInt64) : ∃ s', writeObjBk oid objType boundaryKey p s = .ok () s' ∧
      Calmly (m.extend (m.newEntry oid objType boundaryKey p)).committed s' := by
  have hfull : ¬ s.Full (sectorsNeeded p.size) := by
    rw [Store.Full, h.mem, h.capacity, hp]
    exact hroom
  have hs := h.sound.serves
  have hhead := h.sound.fit.head
  obtain ⟨s', hok, hcalm⟩ := writeObjBk_calm hs h.sound.mounted hhead h.calm hfull
  obtain ⟨⟨t, hdev⟩, hmem, -⟩ := (writeObjBk_issues rfl hs h.sound.mounted hhead).of_ok hok
  refine ⟨s', hok, (h.sound.write hok).1, hcalm, ?_, ?_⟩
  · rw [hmem, h.mem]
  · rw [hdev, Device.after_capacity, h.capacity]

lemma writeThenReboot_ok : ∃ s₁ s, formatForced blankStore = .ok () s₁ ∧
    execAll writeThenReboot s₁ = .ok () s := by
  have hp : sectorsNeeded samplePayload.size = 1 := by decide
  obtain ⟨s₁, hformat, h₁⟩ := blankStore_format
  obtain ⟨s₂, hok₂, h₂⟩ := h₁.write hp (by unfold Store.Full; decide +kernel) ⟨1, 2⟩ 3 5
  obtain ⟨s₃, hok₃, h₃⟩ := h₂.write hp (by unfold Store.Full; decide +kernel) ⟨1, 3⟩ 4 7
  obtain ⟨s₄, hok₄, h₄⟩ := h₃.write hp (by unfold Store.Full; decide +kernel) ⟨1, 4⟩ 4 6
  obtain ⟨s₅, hok₅, h₅⟩ := h₄.write hp (by unfold Store.Full; decide +kernel) ⟨1, 2⟩ 5 7
  obtain ⟨s, hmount, -⟩ := h₅.sound.mount_calm h₅.calm
  refine ⟨s₁, s, hformat, run_bind_eq_ok.mpr ⟨_, s₂, hok₂, run_bind_eq_ok.mpr ⟨_, s₃, hok₃, ?_⟩⟩⟩
  refine run_bind_eq_ok.mpr ⟨_, s₄, hok₄, run_bind_eq_ok.mpr ⟨_, s₅, hok₅, ?_⟩⟩
  exact run_bind_eq_ok.mpr ⟨_, s, hmount, rfl⟩

lemma writeThenReboot_fits : ∀ op ∈ writeThenReboot, op.Fits := by
  simp [writeThenReboot, DiskOp.Fits, Payload.Fits, samplePayload]

/-- After a reboot the rewritten object reads as it was written last. -/
theorem diskStore_refines_writeThenReboot : ∃ s₁ s, formatForced blankStore = .ok () s₁ ∧
    execAll writeThenReboot s₁ = .ok () s ∧ Answers s (Finmap.insert ⟨1, 2⟩ ⟨5, 7, 2, [10, 20]⟩
      (Finmap.insert ⟨1, 4⟩ ⟨4, 6, 2, [10, 20]⟩ (Finmap.insert ⟨1, 3⟩ ⟨4, 7, 2, [10, 20]⟩
        (Finmap.insert ⟨1, 2⟩ ⟨3, 5, 2, [10, 20]⟩ ∅)))) := by
  obtain ⟨s₁, s, hformat, hrun⟩ := writeThenReboot_ok
  exact ⟨s₁, s, hformat, hrun, (diskStore_refines hformat writeThenReboot_fits hrun).1⟩

end Anunix.Disk
