import Anunix.Disk.Store

/-!
# The block writes of a program

`Issues x s ws R Q` follows a program of the store from a known state. If it succeeds, it has
carried out exactly the block writes `ws`, and `Q` holds of its result and of the static variables
it leaves. If it fails, it has carried out the first few of them, and with a device and an allocator
that never fail it does so only for the reason `R`.

One rule per program former, then one lemma for each function that reaches the device. A crash stops
a machine after some of the writes, so this judgement serves the completed operations as well as the
interrupted ones.
-/

namespace Anunix.Disk
open Fallible Region List

def applyAll (d : Nat → UInt8) (ws : List Write) : Nat → UInt8 :=
  ws.foldl Write.apply d

@[simp]
lemma applyAll_nil (d : Nat → UInt8) : applyAll d [] = d :=
  rfl

@[simp]
lemma applyAll_cons (d : Nat → UInt8) (w : Write) (ws : List Write) :
    applyAll d (w :: ws) = applyAll (store d w.addr w.bytes) ws :=
  rfl

lemma applyAll_append (d : Nat → UInt8) (ws us : List Write) :
    applyAll d (ws ++ us) = applyAll (applyAll d ws) us :=
  foldl_append

def Device.Calm (v : Device) : Prop :=
  ∀ n, v.faults n = none

def Device.after (v : Device) (ws : List Write) (t : Nat) : Device :=
  { v with disk := applyAll v.disk ws, log := v.log ++ ws, tick := t }

lemma Device.after_disk (v : Device) (ws : List Write) (t : Nat) :
    (v.after ws t).disk = applyAll v.disk ws :=
  rfl

lemma Device.after_capacity (v : Device) (ws : List Write) (t : Nat) :
    (v.after ws t).capacity = v.capacity :=
  rfl

variable {v : Device}

lemma Device.Calm.after (h : v.Calm) (ws : List Write) (t : Nat) : (v.after ws t).Calm :=
  h

lemma Device.after_after (v : Device) (ws us : List Write) (t u : Nat) :
    (v.after ws t).after us u = v.after (ws ++ us) u := by
  simp [Device.after, applyAll_append]

def Issues {α : Type} (x : StoreM α) (s : Store) (ws : List Write) (R : Prop)
    (Q : α → Memory → Prop) : Prop :=
  Ends x s (fun a s' => (∃ t, s'.dev = s.dev.after ws t) ∧ Q a s'.mem)
    fun _ s' => (∃ n t, s'.dev = s.dev.after (ws.take n) t) ∧ (s.dev.Calm → R)

variable {s : Store} {R : Prop} {head : UInt32}

section Rules

variable {α β : Type} {x : StoreM α} {f : α → StoreM β} {ws us : List Write} {P : α → Memory → Prop}
  {Q : β → Memory → Prop} {g : Memory → Memory} {e : Err} {c : Bool} {k : PUnit → StoreM β}

lemma Issues.pure {P : α → Memory → Prop} {a : α} (h : P a s.mem) : Issues (pure a) s [] R P :=
  ⟨⟨s.dev.tick, by simp [Device.after]⟩, h⟩

lemma Issues.bind (hx : Issues x s ws R P)
    (hf : ∀ a s' t, s'.dev = s.dev.after ws t → P a s'.mem → Issues (f a) s' us R Q) :
    Issues (x >>= f) s (ws ++ us) R Q := by
  refine .call hx ?_ ?_
  · rintro a s1 ⟨⟨t, hdev⟩, hP⟩
    refine .mono (hf a s1 t hdev hP) ?_ ?_
    · rintro b s2 ⟨⟨u, hdev'⟩, hQ⟩
      exact ⟨⟨u, by rw [hdev', hdev, Device.after_after]⟩, hQ⟩
    · rintro e s2 ⟨⟨n, u, hdev'⟩, hR⟩
      refine ⟨⟨ws.length + n, u, ?_⟩, fun hc => hR (hdev ▸ hc)⟩
      rw [hdev', hdev, Device.after_after, take_length_add_append]
  · rintro e s1 ⟨⟨n, t, hdev⟩, hR⟩
    -- the first few of `ws` are the first few of `ws ++ us` as well
    refine ⟨⟨min n ws.length, t, ?_⟩, hR⟩
    rw [hdev, ← take_take]
    simp

lemma Issues.ok_of_calm (hx : Issues x s ws R P) (hc : s.dev.Calm) (hR : ¬ R) :
    ∃ a s', x s = .ok a s' := by
  cases h : x s with
  | ok a s' => exact ⟨a, s', rfl⟩
  | error e s' => exact absurd ((hx.of_error h).2 hc) hR

lemma Issues.bind_nil (hx : Issues x s [] R P)
    (hf : ∀ a s' t, s'.dev = s.dev.after [] t → P a s'.mem → Issues (f a) s' us R Q) :
    Issues (x >>= f) s us R Q :=
  .bind hx hf

lemma Issues.bind_one {w : Write} (hx : Issues x s [w] R P)
    (hf : ∀ a s' t, s'.dev = s.dev.after [w] t → P a s'.mem → Issues (f a) s' us R Q) :
    Issues (x >>= f) s (w :: us) R Q :=
  .bind hx hf

lemma Issues.mono {P' : α → Memory → Prop} (hx : Issues x s ws R P) (h : ∀ a m, P a m → P' a m) :
    Issues x s ws R P' :=
  Ends.mono hx (fun a s' hs' => ⟨hs'.1, h a s'.mem hs'.2⟩) fun _ _ hs' => hs'

lemma Issues.get_bind {k : Store → StoreM β} (h : Issues (k s) s us R Q) :
    Issues (get >>= k) s us R Q :=
  h

lemma Issues.getMem_bind {k : Memory → StoreM β} (h : Issues (k s.mem) s us R Q) :
    Issues (getMem >>= k) s us R Q :=
  h

lemma Issues.modifyMem {P : Unit → Memory → Prop} (h : P () (g s.mem)) :
    Issues (modifyMem g) s [] R P :=
  ⟨⟨s.dev.tick, by simp [Device.after]⟩, h⟩

lemma Issues.modifyMem_bind {k : Unit → StoreM β} (h : Issues (k ()) ⟨s.dev, g s.mem⟩ us R Q) :
    Issues (Disk.modifyMem g >>= k) s us R Q :=
  h

lemma Issues.throw (h : s.dev.Calm → R) : Issues (throw e) s us R Q :=
  ⟨⟨0, s.dev.tick, by simp [Device.after]⟩, h⟩

lemma Issues.failIf {P : PUnit → Memory → Prop} (herr : s.dev.Calm → c = true → R)
    (hok : c = false → P ⟨⟩ s.mem) : Issues (failIf c e) s [] R P := by
  cases c with
  | false => exact .pure (hok rfl)
  | true => exact .throw fun hc => herr hc rfl

lemma Issues.failIf_bind (herr : c = true → R) (hok : c = false → Issues (k ⟨⟩) s us R Q) :
    Issues (Fallible.failIf c e >>= k) s us R Q := by
  cases c with
  | false => exact hok rfl
  | true => exact .throw fun _ => herr rfl

lemma Issues.pass (hc : c = false) (h : Issues (k ⟨⟩) s us R Q) :
    Issues (Fallible.failIf c e >>= k) s us R Q :=
  Ends.pass hc h

lemma Issues.orThrow_bind {o : Option α} (herr : o = none → R)
    (hok : ∀ a, o = some a → Issues (f a) s us R Q) : Issues (orThrow o e >>= f) s us R Q := by
  cases o with
  | none => exact .throw fun _ => herr rfl
  | some a => exact hok a rfl

end Rules

/-! ## Requests -/

section Requests

variable {lba : UInt64} {count : UInt32} (buf : List UInt8)

lemma nextFault_issues : Issues nextFault s [] R fun o m => (s.dev.Calm → o = none) ∧ m = s.mem :=
  ⟨⟨s.dev.tick + 1, by simp [Device.after]⟩, fun hc => hc _, rfl⟩

lemma alloc_issues : Issues alloc s [] R fun _ m => m = s.mem := by
  refine .bind_nil nextFault_issues fun o s' t hdev ⟨ho, hm⟩ => ?_
  refine .failIf (fun hc h => ?_) fun _ => hm
  rw [hdev] at hc
  rw [ho hc] at h
  cases h

lemma transfer_issues (hfit : lba.toNat + count.toNat ≤ s.dev.capacity.toNat ∨ R) :
    Issues (transfer lba count) s [] R fun _ m =>
      lba.toNat + count.toNat ≤ s.dev.capacity.toNat ∧ m = s.mem := by
  refine .bind_nil nextFault_issues fun o s' t hdev ⟨ho, hm⟩ => ?_
  cases o with
  | some e =>
    refine .throw fun hc => ?_
    rw [hdev] at hc
    cases ho hc
  | none =>
    have hcap : s'.dev.capacity = s.dev.capacity := by rw [hdev]; rfl
    rw [← hcap] at hfit ⊢
    refine .get_bind (.failIf (fun _ h => ?_) fun h => ⟨?_, hm⟩)
    · simp only [decide_eq_true_eq] at h
      exact hfit.resolve_left (by omega)
    · simpa using h

section

variable (hready : s.dev.ready) (hcount : count ≠ 0)
include hready hcount

lemma blkRead_issues (hfit : lba.toNat + count.toNat ≤ s.dev.capacity.toNat ∨ R) :
    Issues (blkRead lba count) s [] R fun a m =>
      a = load s.dev.disk (512 * lba.toNat) (512 * count.toNat) ∧ m = s.mem := by
  refine .get_bind (.pass (by simp [hready]) ?_)
  rw [if_neg hcount]
  refine .bind_nil (transfer_issues hfit) fun _ s' t hdev ⟨_, hm⟩ => ?_
  refine .get_bind (.pure ⟨?_, hm⟩)
  rw [hdev]
  rfl

lemma blkWrite_issues (hfit : lba.toNat + count.toNat ≤ s.dev.capacity.toNat ∨ R) :
    Issues (blkWrite lba count buf) s [⟨512 * lba.toNat, buf.take (512 * count.toNat)⟩] R fun _ m =>
      lba.toNat + count.toNat ≤ s.dev.capacity.toNat ∧ m = s.mem := by
  refine .get_bind (.pass (by simp [hready]) ?_)
  rw [if_neg hcount]
  refine .bind_nil (transfer_issues hfit) fun _ s' t hdev ⟨hin, hm⟩ => ?_
  exact ⟨⟨s'.dev.tick, by simp [Device.after, Write.apply]⟩, hin, hm⟩

lemma blkWrite_issues_of_length (hlen : buf.length ≤ 512 * count.toNat)
    (hfit : lba.toNat + count.toNat ≤ s.dev.capacity.toNat ∨ R) :
    Issues (blkWrite lba count buf) s [⟨512 * lba.toNat, buf⟩] R fun _ m =>
      lba.toNat + count.toNat ≤ s.dev.capacity.toNat ∧ m = s.mem := by
  have h := blkWrite_issues buf hready hcount hfit
  rwa [take_of_length_le hlen] at h

end

end Requests

/-! ## Programs that leave the static variables alone -/

/-- What device programs do to the machine: block writes of a kind. -/
def Trace (P : Write → Prop) (s s' : Store) : Prop :=
  ∃ ws t, s'.dev = s.dev.after ws t ∧ s'.mem = s.mem ∧ ∀ w ∈ ws, P w

instance (P : Write → Prop) : IsPreorder Store (Trace P) where
  refl s := ⟨[], s.dev.tick, by simp [Device.after], rfl, nofun⟩
  trans s s' s'' := by
    rintro ⟨ws, t, hdev, hmem, hws⟩ ⟨us, u, hdev', hmem', hus⟩
    refine ⟨ws ++ us, u, ?_, hmem'.trans hmem, forall_mem_append.mpr ⟨hws, hus⟩⟩
    rw [hdev', hdev, Device.after_after]

section Programs

variable {P : Write → Prop} {lba : UInt64} {count : UInt32} {buf : List UInt8}

lemma nextFault_trace : Within (Trace P) nextFault := by
  refine .bind Within.get fun _ => .bind (.modify fun s => ?_) fun _ => .pure _
  exact ⟨[], s.dev.tick + 1, by simp [Device.after], rfl, nofun⟩

lemma alloc_trace : Within (Trace P) alloc :=
  .bind nextFault_trace fun _ => .failIf _ _

lemma transfer_trace : Within (Trace P) (transfer lba count) := by
  refine .bind nextFault_trace fun o => ?_
  cases o with
  | some e => exact .throw e
  | none => exact .bind Within.get fun s => .failIf _ _

lemma blkRead_trace : Within (Trace P) (blkRead lba count) := by
  refine .bind Within.get fun s => .bind (.failIf _ _) fun _ => ?_
  split
  · exact .pure _
  · exact .bind transfer_trace fun _ => .bind Within.get fun s => .pure _

lemma blkWrite_trace (h : P ⟨512 * lba.toNat, buf.take (512 * count.toNat)⟩) :
    Within (Trace P) (blkWrite lba count buf) := by
  refine .bind Within.get fun s => .bind (.failIf _ _) fun _ => ?_
  split
  · exact .pure _
  · refine .bind transfer_trace fun _ => .modify fun s => ?_
    exact ⟨[⟨512 * lba.toNat, buf.take (512 * count.toNat)⟩], s.dev.tick, rfl, rfl,
      forall_mem_singleton.mpr h⟩

end Programs

/-! ## The store's own writes -/

/-- A device with room for the superblock, the journal and the index. -/
structure Device.Serves (v : Device) : Prop where
  ready : v.ready
  room : 513 ≤ v.capacity.toNat

lemma Device.Serves.after (hv : v.Serves) (ws : List Write) (t : Nat) : (v.after ws t).Serves :=
  ⟨hv.ready, hv.room⟩

lemma Device.Serves.fits_super (hv : v.Serves) :
    superSector.toNat + (1 : UInt32).toNat ≤ v.capacity.toNat :=
  Nat.le_trans (by decide) hv.room

def journalWrite (d : Nat → UInt8) (head : UInt32) (entry : JournalEntry) : Write :=
  let sector := (journalStart + head / jrnlEntriesPerSector).toUInt64.toNat
  ⟨512 * sector, (patch (load d (512 * sector) 512)
    ((head % jrnlEntriesPerSector) * 64).toNat entry.encode).take 512⟩

def indexWrite (cache : List IndexEntry) : Write :=
  ⟨512 * 257, indexImage cache⟩

def superWrite (sup : Super) : Write :=
  ⟨0, superImage sup⟩

def dataWrite (e : IndexEntry) (payload : Payload) : Write :=
  ⟨512 * e.dataSector.toNat, Codec.fill (512 * e.dataSectors.toNat) payload.bytes⟩

def Write.InJournal (w : Write) : Prop :=
  512 ≤ w.addr ∧ w.addr + w.bytes.length ≤ 512 * 257

lemma journalSector_toNat (h : head.toNat < 2048) :
    (journalStart + head / jrnlEntriesPerSector).toUInt64.toNat = 1 + head.toNat / 8 := by
  have h1 : journalStart.toNat = 1 := rfl
  have h8 : jrnlEntriesPerSector.toNat = 8 := rfl
  rw [UInt32.toNat_toUInt64, UInt32.toNat_add, UInt32.toNat_div, h8]
  omega

lemma journalWrite_inJournal {d : Nat → UInt8} {entry : JournalEntry}
    (h : head.toNat < 2048) : (journalWrite d head entry).InJournal := by
  have hlen := length_take_le 512 (patch (load d (512 * (1 + head.toNat / 8)) 512)
    ((head % jrnlEntriesPerSector) * 64).toNat entry.encode)
  unfold Write.InJournal journalWrite
  simp only [journalSector_toNat h]
  omega

/-! ### Memory -/

def nextHead (head : UInt32) : UInt32 :=
  (head + 1) % jrnlMaxEntries

lemma nextHead_lt (head : UInt32) : (nextHead head).toNat < 2048 := by
  have h : jrnlMaxEntries.toNat = 2048 := rfl
  rw [nextHead, UInt32.toNat_mod]
  exact Nat.mod_lt _ (by omega)

def Memory.logged (m : Memory) : Memory :=
  { m with super.journalHead := nextHead m.super.journalHead }

def Memory.committed (m : Memory) : Memory :=
  { m with
    super.journalHead := nextHead m.super.journalHead
    super.journalCommitted := nextHead m.super.journalHead
    nextTxnId := m.nextTxnId + 1 }

def insertEntry (cache : List IndexEntry) (e : IndexEntry) : List IndexEntry :=
  cache.insertIdx (indexLowerBound cache e) e

/-- The static variables after the index took in the entry of a written object. -/
def Memory.place (m : Memory) (e : IndexEntry) : Memory :=
  match findIndexEntry m.indexCache e.oid with
  | some old =>
    if old.boundaryKey = e.boundaryKey then
      { m with indexCache := Keyed.update IndexEntry.oid m.indexCache e }
    else { m with indexCache := insertEntry (Keyed.erase IndexEntry.oid m.indexCache e.oid) e }
  | none =>
    { m with indexCache := insertEntry m.indexCache e, super.objCount := m.super.objCount + 1 }

section Store

variable {E : Err → Store → Prop} {oid : Uuid} {e : IndexEntry}

lemma Device.Serves.fits_journal (hs : v.Serves) (hhead : head.toNat < 2048) :
    (journalStart + head / jrnlEntriesPerSector).toUInt64.toNat + (1 : UInt32).toNat ≤
    v.capacity.toNat := by
  have hsec := journalSector_toNat hhead
  have hone : (1 : UInt32).toNat = 1 := rfl
  have hroom := hs.room
  omega

lemma writeJournalEntry_issues {entry : JournalEntry} (hs : s.dev.Serves)
    (hhead : s.mem.super.journalHead.toNat < 2048) :
    Issues (writeJournalEntry entry) s [journalWrite s.dev.disk s.mem.super.journalHead entry] R
      fun _ m => m = s.mem.logged := by
  apply Issues.getMem_bind
  refine .bind_nil (blkRead_issues hs.ready (by decide) (.inl (hs.fits_journal hhead)))
    fun buf s1 t1 hdev1 ⟨hbuf, hm1⟩ => ?_
  have hs1 : s1.dev.Serves := hdev1 ▸ hs.after _ _
  refine .bind_one (P := fun _ m => m = s.mem) ?_ fun _ s2 t2 hdev2 hm2 => ?_
  · have hw := blkWrite_issues (R := R)
      (patch buf ((s.mem.super.journalHead % jrnlEntriesPerSector) * 64).toNat entry.encode)
      hs1.ready (by decide) (.inl (hs1.fits_journal hhead))
    rw [hbuf] at hw ⊢
    exact hw.mono fun _ m h => h.2.trans hm1
  · apply Issues.modifyMem
    rw [hm2]
    rfl

lemma writeSuper_issues (hs : s.dev.Serves) :
    Issues writeSuper s [superWrite s.mem.super] R fun _ m => m = s.mem := by
  have hw := blkWrite_issues_of_length (R := R) (superImage s.mem.super) hs.ready (by decide)
    (Nat.le_of_eq (length_superImage _)) (.inl hs.fits_super)
  exact .getMem_bind (hw.mono fun _ m h => h.2)

lemma flushIndex_issues (hs : s.dev.Serves) :
    Issues flushIndex s [indexWrite s.mem.indexCache] R fun _ m => m = s.mem := by
  refine .bind_nil alloc_issues fun _ s1 t1 hdev1 hm1 => ?_
  have hs1 : s1.dev.Serves := hdev1 ▸ hs.after _ _
  have hfit : indexStart.toNat + indexSectors.toNat ≤ s1.dev.capacity.toNat := hs1.room
  have hw := blkWrite_issues_of_length (R := R) (indexImage s1.mem.indexCache) hs1.ready
    (by decide) (Nat.le_of_eq (length_indexImage _)) (.inl hfit)
  rw [← hm1]
  exact .getMem_bind (hw.mono fun _ m h => h.2)

lemma addIndexEntry_issues (hfull : indexMaxEntries ≤ s.mem.indexCache.length → R) :
    Issues (addIndexEntry e) s [] R fun _ m =>
      m = { s.mem with indexCache := insertEntry s.mem.indexCache e } ∧
        s.mem.indexCache.length < indexMaxEntries := by
  refine .getMem_bind (.failIf_bind (fun h => hfull (by simpa using h)) fun h => ?_)
  refine .bind_nil alloc_issues fun _ s1 t1 hdev1 hm1 => ?_
  apply Issues.modifyMem
  rw [hm1]
  exact ⟨rfl, by simpa using h⟩

lemma updateIndex_issues (hfull : indexMaxEntries ≤ s.mem.indexCache.length → R) :
    Issues (updateIndex e) s [] R fun _ m => m = s.mem.place e ∧
        (findIndexEntry s.mem.indexCache e.oid = none →
          s.mem.indexCache.length < indexMaxEntries) := by
  unfold Memory.place
  apply Issues.getMem_bind
  cases hfind : findIndexEntry s.mem.indexCache e.oid with
  | none =>
    refine .bind_nil (addIndexEntry_issues hfull) ?_
    rintro _ s1 t1 hdev1 ⟨hm1, hlt⟩
    apply Issues.modifyMem
    rw [hm1]
    exact ⟨rfl, fun _ => hlt⟩
  | some old =>
    have hfound : some old = none → s.mem.indexCache.length < indexMaxEntries := by rintro ⟨⟩
    have hlen := (Keyed.perm_erase hfind).length_eq
    by_cases hbk : old.boundaryKey = e.boundaryKey
    · simp only [hbk, if_true]
      exact .modifyMem ⟨rfl, hfound⟩
    · simp only [hbk]
      refine .modifyMem_bind (.mono (addIndexEntry_issues fun h => hfull ?_)
        fun _ m h => ⟨h.1, hfound⟩)
      simp only [length_cons] at hlen h
      omega

/-! ### Whole operations -/

def Memory.newEntry (m : Memory) (oid : Uuid) (objType : UInt32) (boundaryKey : UInt64)
    (payload : Payload) : IndexEntry where
  oid := oid
  dataSector := m.super.nextDataSector
  dataSectors := sectorsNeeded payload.size
  payloadSize := payload.size
  objType := objType
  flags := 0x1
  boundaryKey := boundaryKey

/-- The static variables once the index holds the entry and the data region is extended over it. -/
def Memory.extend (m : Memory) (e : IndexEntry) : Memory :=
  { m.logged.place e with
    super.nextDataSector := e.dataSector + e.dataSectors.toUInt64 }

lemma Memory.place_rest (m : Memory) (e : IndexEntry) :
    (m.place e).super = { m.super with objCount := (m.place e).super.objCount } ∧
      (m.place e).mounted = m.mounted := by
  unfold Memory.place
  split
  · split <;> exact ⟨rfl, rfl⟩
  · exact ⟨rfl, rfl⟩

lemma Memory.extend_super (m : Memory) (e : IndexEntry) :
    (m.extend e).super = { m.super with
      objCount := (m.logged.place e).super.objCount
      nextDataSector := e.dataSector + e.dataSectors.toUInt64
      journalHead := nextHead m.super.journalHead } := by
  show { (m.logged.place e).super with
    nextDataSector := e.dataSector + e.dataSectors.toUInt64 } = _
  rw [(m.logged.place_rest e).1]
  rfl

lemma Memory.extend_journalHead (m : Memory) (e : IndexEntry) :
    (m.extend e).super.journalHead = nextHead m.super.journalHead := by
  rw [Memory.extend_super]

/-- The write of the intent, the data, the index, the commit entry and the superblock. -/
def writePlan (d : Nat → UInt8) (m : Memory) (e : IndexEntry) (payload : Payload) : List Write :=
  let intent := journalWrite d m.super.journalHead
    ⟨m.nextTxnId, .writeObj, e.oid, e.dataSector, e.dataSectors, e.payloadSize⟩
  let m' := m.extend e
  let body := [intent, dataWrite e payload, indexWrite m'.indexCache]
  let commit := journalWrite (applyAll d body) m'.super.journalHead
    ⟨m'.nextTxnId, .commit, Uuid.nil, 0, 0, 0⟩
  body ++ [commit, superWrite m'.committed.super]

/-- A write has no room: the sectors run past the end, or the index is full. -/
def Store.Full (s : Store) (needed : UInt32) : Prop :=
  s.mem.super.totalSectors < s.mem.super.nextDataSector + needed.toUInt64 ∨
    s.dev.capacity.toNat < s.mem.super.nextDataSector.toNat + needed.toNat ∨
    indexMaxEntries ≤ s.mem.indexCache.length

lemma journalCommit_issues (hs : s.dev.Serves) (hhead : s.mem.super.journalHead.toNat < 2048) :
    Issues journalCommit s
      [journalWrite s.dev.disk s.mem.super.journalHead ⟨s.mem.nextTxnId, .commit, Uuid.nil, 0, 0,
        0⟩, superWrite s.mem.committed.super] R fun _ m => m = s.mem.committed := by
  apply Issues.getMem_bind
  refine .bind_one (writeJournalEntry_issues hs hhead) fun _ s1 t1 hdev1 hm1 => ?_
  have hs1 : s1.dev.Serves := hdev1 ▸ hs.after _ _
  refine .modifyMem_bind (.modifyMem_bind ?_)
  rw [hm1]
  exact writeSuper_issues hs1

lemma sectorsNeeded_pos (size : UInt32) : sectorsNeeded size ≠ 0 := by
  simp only [sectorsNeeded]
  split
  · decide
  · assumption

section Write

variable {objType : UInt32} {boundaryKey : UInt64} {payload : Payload} {e : IndexEntry}

lemma writeData_issues (he : e = s.mem.newEntry oid objType boundaryKey payload) (hs : s.dev.Serves)
    (hmounted : s.mem.mounted) (hhead : s.mem.super.journalHead.toNat < 2048)
    (hR : s.Full e.dataSectors → R) :
    Issues (writeData oid objType boundaryKey payload) s
    ((writePlan s.dev.disk s.mem e payload).take 2) R
      fun e' m => e' = e ∧ m = s.mem.logged ∧
        e.dataSector.toNat + e.dataSectors.toNat ≤ s.dev.capacity.toNat := by
  subst he
  refine .getMem_bind (.pass (by simp [hmounted]) ?_)
  refine .getMem_bind (.getMem_bind (.failIf_bind (fun h => ?_) fun _ => ?_))
  · exact hR (.inl (of_decide_eq_true h))
  -- the intent
  refine .bind_one (.getMem_bind (writeJournalEntry_issues hs hhead)) fun _ s1 t1 hdev1 hm1 => ?_
  -- the data
  refine .bind_nil alloc_issues fun _ s2 t2 hdev2 hm2 => ?_
  rw [hdev1, Device.after_after] at hdev2
  have hs2 : s2.dev.Serves := hdev2 ▸ hs.after _ _
  have hcap2 : s2.dev.capacity = s.dev.capacity := by rw [hdev2]; rfl
  have hfit : s.mem.super.nextDataSector.toNat + (sectorsNeeded payload.size).toNat ≤
      s2.dev.capacity.toNat ∨ R := by
    rw [hcap2]
    exact (le_or_gt _ _).imp_right fun h => hR (.inr (.inl h))
  refine .bind_one (blkWrite_issues_of_length _ hs2.ready (sectorsNeeded_pos _)
    (Nat.le_of_eq (Codec.length_fill _ _)) hfit) fun _ s3 t3 hdev3 ⟨hin, hm3⟩ => ?_
  exact .pure ⟨rfl, hm3.trans (hm2.trans hm1), hcap2 ▸ hin⟩

lemma finishWrite_issues (hs : s.dev.Serves) {m : Memory} (hm : s.mem = m.logged.place e) :
    Issues (finishWrite e) s
      (let body := applyAll s.dev.disk [indexWrite (m.extend e).indexCache]
      [indexWrite (m.extend e).indexCache, journalWrite body (m.extend e).super.journalHead
        ⟨(m.extend e).nextTxnId, .commit, Uuid.nil, 0, 0, 0⟩,
        superWrite (m.extend e).committed.super]) R
      fun _ m' => m' = (m.extend e).committed := by
  apply Issues.modifyMem_bind
  rw [hm]
  refine .bind_one (flushIndex_issues (s := ⟨s.dev, m.extend e⟩) hs) fun _ s1 t1 hdev1 hm1 => ?_
  have hs1 : s1.dev.Serves := hdev1 ▸ hs.after _ _
  have hhead1 : s1.mem.super.journalHead.toNat < 2048 := by
    rw [hm1, Memory.extend_journalHead]
    exact nextHead_lt _
  have hcommit := journalCommit_issues (R := R) hs1 hhead1
  rw [hdev1, hm1] at hcommit
  exact hcommit

lemma writeObjBk_issues (he : e = s.mem.newEntry oid objType boundaryKey payload)
    (hs : s.dev.Serves) (hmounted : s.mem.mounted) (hhead : s.mem.super.journalHead.toNat < 2048) :
    Issues (writeObjBk oid objType boundaryKey payload) s (writePlan s.dev.disk s.mem e payload)
      (s.Full e.dataSectors) fun _ m => m = (s.mem.extend e).committed ∧
        e.dataSector.toNat + e.dataSectors.toNat ≤ s.dev.capacity.toNat ∧
        (findIndexEntry s.mem.indexCache e.oid = none →
          s.mem.indexCache.length < indexMaxEntries) := by
  rw [writeObjBk_eq]
  show Issues _ s ((writePlan s.dev.disk s.mem e payload).take 2 ++
    (writePlan s.dev.disk s.mem e payload).drop 2) _ _
  refine .bind (writeData_issues he hs hmounted hhead id) fun e' s1 t1 hdev1 ⟨he', hm1, hin⟩ => ?_
  subst he'
  have hfull : indexMaxEntries ≤ s1.mem.indexCache.length → s.Full e'.dataSectors := by
    rw [hm1]
    exact fun h => .inr (.inr h)
  refine .bind_nil (updateIndex_issues hfull) fun _ s2 t2 hdev2 ⟨hm2, hroom⟩ => ?_
  rw [hdev1, Device.after_after] at hdev2
  rw [hm1] at hm2 hroom
  have hfinish := finishWrite_issues (R := s.Full e'.dataSectors) (hdev2 ▸ hs.after _ _) hm2
  rw [hdev2] at hfinish
  exact hfinish.mono fun _ m hm => ⟨hm, hin, hroom⟩

lemma writeObjBk_calm (hs : s.dev.Serves) (hmounted : s.mem.mounted)
    (hhead : s.mem.super.journalHead.toNat < 2048)
    (hc : s.dev.Calm) (hfull : ¬ s.Full (sectorsNeeded payload.size)) :
    ∃ s', writeObjBk oid objType boundaryKey payload s = .ok () s' ∧ s'.dev.Calm := by
  have hissues := writeObjBk_issues (e := s.mem.newEntry oid objType boundaryKey payload) rfl hs
    hmounted hhead
  obtain ⟨_, s', hok⟩ := hissues.ok_of_calm hc hfull
  obtain ⟨⟨t, hdev⟩, -⟩ := hissues.of_ok hok
  exact ⟨s', hok, hdev ▸ hc.after _ _⟩

end Write

def Memory.remove (m : Memory) (oid : Uuid) : Memory :=
  { m with
    indexCache := Keyed.erase IndexEntry.oid m.indexCache oid
    super.objCount := if 0 < m.super.objCount then m.super.objCount - 1 else m.super.objCount }

lemma deleteObj_issues (hs : s.dev.Serves) (hmounted : s.mem.mounted) : Issues (deleteObj oid) s
      [indexWrite (s.mem.remove oid).indexCache, superWrite (s.mem.remove oid).super]
      (findIndexEntry s.mem.indexCache oid = none)
      fun _ m => m = s.mem.remove oid ∧ ∃ old, findIndexEntry s.mem.indexCache oid = some old := by
  refine .getMem_bind (.pass (by simp [hmounted]) ?_)
  refine .getMem_bind (.orThrow_bind id fun old hold => ?_)
  refine .modifyMem_bind (.getMem_bind ?_)
  -- both branches leave the same variables behind
  have hrest : ∀ m, m = s.mem.remove oid → Issues (flushIndex >>= fun _ => writeSuper) ⟨s.dev, m⟩
      [indexWrite (s.mem.remove oid).indexCache, superWrite (s.mem.remove oid).super]
      (findIndexEntry s.mem.indexCache oid = none)
      fun _ m => m = s.mem.remove oid ∧ ∃ old, findIndexEntry s.mem.indexCache oid = some old := by
    rintro m rfl
    refine .bind_one (flushIndex_issues hs) fun _ s1 t1 hdev1 hm1 => ?_
    have hs1 : s1.dev.Serves := hdev1 ▸ hs.after _ _
    have hw := writeSuper_issues (R := findIndexEntry s.mem.indexCache oid = none) hs1
    rw [hm1] at hw
    exact hw.mono fun _ m hm => ⟨hm, old, hold⟩
  by_cases hpos : 0 < s.mem.super.objCount
  · rw [if_pos hpos]
    refine .modifyMem_bind (hrest _ ?_)
    simp [Memory.remove, hpos]
  · rw [if_neg hpos]
    refine hrest _ ?_
    simp [Memory.remove, hpos]

/-! ### Mounting -/

/-- The static variables after a mount: the superblock and the index read from the disk, the journal
taken as committed and the count repaired. -/
def mountedMemory (sup : Super) (cache : List IndexEntry) (txn : UInt32) : Memory where
  super := { sup with
    objCount := UInt64.ofNat cache.length
    journalCommitted := sup.journalHead }
  indexCache := cache
  mounted := true
  nextTxnId := txn

def Marked (d : Nat → UInt8) : Prop :=
  (diskSuper d).magic = diskMagic ∧ (diskSuper d).version = diskVersion

lemma readSuper_issues (hs : s.dev.Serves) : Issues readSuper s [] (¬ Marked s.dev.disk) fun _ m =>
      m = { s.mem with super := diskSuper s.dev.disk } ∧ Marked s.dev.disk := by
  refine .bind_nil
    (blkRead_issues hs.ready (by decide) (.inl hs.fits_super)) fun buf s1 t1 hdev1 ⟨hbuf, hm1⟩ => ?_
  have hsup : Super.codec.decode buf = diskSuper s.dev.disk := by
    rw [hbuf, diskSuper]
    rfl
  refine .modifyMem_bind (.getMem_bind ?_)
  rw [hsup, hm1]
  refine .failIf_bind (fun h => ?_) fun hmagic => ?_
  · exact fun hmark => by simp [hmark.1] at h
  refine .getMem_bind (.failIf (fun _ h => ?_) fun hversion => ⟨rfl, ?_, ?_⟩)
  · exact fun hmark => by simp [hmark.2] at h
  · simpa using hmagic
  · simpa using hversion

lemma loadIndex_issues (hs : s.dev.Serves) :
    Issues loadIndex s [] R fun _ m => m = { s.mem with indexCache := diskIndex s.dev.disk } := by
  refine .bind_nil alloc_issues fun _ s1 t1 hdev1 hm1 => ?_
  have hs1 : s1.dev.Serves := hdev1 ▸ hs.after _ _
  have hfit : indexStart.toNat + indexSectors.toNat ≤ s1.dev.capacity.toNat := hs1.room
  refine .bind_nil (blkRead_issues hs1.ready (by decide) (.inl hfit)) fun buf s2 t2 hdev2 ⟨hbuf,
    hm2⟩ => ?_
  have hindex : parseIndex buf = diskIndex s.dev.disk := by
    rw [hbuf, hdev1, diskIndex]
    rfl
  refine .modifyMem_bind ?_
  rw [hindex, hm2, hm1]
  by_cases hnil : diskIndex s.dev.disk ≠ []
  · rw [if_pos hnil]
    refine .bind_nil alloc_issues fun _ s3 t3 hdev3 hm3 => ?_
    apply Issues.modifyMem
    rw [hm3]
  · rw [if_neg hnil]
    exact .modifyMem rfl

/-- A step that writes nothing, followed by a program with an outcome of its own. -/
lemma Issues.ends_bind {α β : Type} {x : StoreM α} {f : α → StoreM β} {P : α → Memory → Prop}
    {Q : β → Store → Prop} (hx : Issues x s [] R P)
    (hf : ∀ a s' t, s'.dev = s.dev.after [] t → P a s'.mem → Ends (f a) s' Q E)
    (herr : ∀ e s', (s.dev.Calm → R) → E e s') : Ends (x >>= f) s Q E := by
  refine .call hx ?_ fun e s1 h => herr e s1 h.2
  rintro a s1 ⟨⟨t, hdev⟩, hP⟩
  exact hf a s1 t hdev hP

section

variable (hs : s.dev.Serves)
include hs

lemma recoverJournal_issues (hindex : s.mem.indexCache = diskIndex s.dev.disk) :
    Issues recoverJournal s [] R fun _ m =>
      m = { s.mem with super.journalCommitted := s.mem.super.journalHead } := by
  refine .getMem_bind (.getMem_bind ?_)
  by_cases hne : s.mem.super.journalHead ≠ s.mem.super.journalCommitted
  · rw [if_pos hne]
    refine .modifyMem_bind (.mono (loadIndex_issues hs) ?_)
    rintro _ m rfl
    rw [← hindex]
  · rw [if_neg hne]
    apply Issues.pure
    rw [not_not.mp hne]

lemma repairCount_ends :
    Ends repairCount s
      (fun _ s' =>
        s'.mem = { s.mem with super.objCount := UInt64.ofNat s.mem.indexCache.length } ∧
        ∃ ws t, (ws = [] ∨ ws = [superWrite s'.mem.super]) ∧ s'.dev = s.dev.after ws t) E := by
  refine .get_bind (.get_bind ?_)
  by_cases hne : s.mem.super.objCount.toNat ≠ s.mem.indexCache.length
  · rw [if_pos hne]
    let s1 : Store := ⟨s.dev, { s.mem with super.objCount := UInt64.ofNat s.mem.indexCache.length }⟩
    have hkeep : (final writeSuper s1).mem = s1.mem := by
      have htrace : Trace (fun _ => True) s1 (final writeSuper s1) := blkWrite_trace trivial s1
      obtain ⟨_, _, _, hmem, _⟩ := htrace
      exact hmem
    have hw :=
      (writeSuper_issues (s := s1) (R := True) hs).and_final (P := fun s' => s'.mem = s1.mem) hkeep
    refine .attempt_bind (.mono hw ?_ ?_)
    · rintro _ s2 ⟨⟨⟨t, hdev⟩, hm⟩, hkeep⟩
      exact ⟨hkeep, _, t, .inr (by rw [hm]), hdev⟩
    · rintro _ s2 ⟨⟨⟨n, t, hdev⟩, -⟩, hkeep⟩
      refine ⟨hkeep, _, t, ?_, hdev⟩
      cases n with
      | zero => exact .inl rfl
      | succ n => exact .inr (by simp [hkeep])
  · rw [if_neg hne]
    have hcount : UInt64.ofNat s.mem.indexCache.length = s.mem.super.objCount := by
      rw [← not_not.mp hne]
      exact UInt64.ofNat_toNat
    refine ⟨?_, [], s.dev.tick, .inl rfl, by simp [Device.after]⟩
    rw [hcount]

/-- A mount takes over what the disk holds; at most the superblock is written. On a marked disk it
fails only when a request does. -/
lemma storeInit_ends : Ends storeInit s (fun _ s' => Marked s.dev.disk ∧
        s'.mem = mountedMemory (diskSuper s.dev.disk) (diskIndex s.dev.disk) s.mem.nextTxnId ∧
        ∃ ws t, (ws = [] ∨ ws = [superWrite s'.mem.super]) ∧ s'.dev = s.dev.after ws t)
      fun _ _ => s.dev.Calm → ¬ Marked s.dev.disk := by
  refine .get_bind (.pass (by simp [hs.ready]) ?_)
  refine Issues.ends_bind (readSuper_issues hs) (fun _ s1 t1 hdev1 ⟨hm1, hmark⟩ => ?_)
    fun e s' h => h
  have hs1 : s1.dev.Serves := hdev1 ▸ hs.after _ _
  refine Issues.ends_bind (R := False) (loadIndex_issues hs1) (fun _ s2 t2 hdev2 hm2 => ?_)
    fun e s' h hc => (h (hdev1 ▸ hc)).elim
  rw [hdev1, Device.after_after] at hdev2
  rw [hm1, hdev1] at hm2
  have hs2 : s2.dev.Serves := hdev2 ▸ hs.after _ _
  have hindex : s2.mem.indexCache = diskIndex s2.dev.disk := by
    rw [hm2, hdev2]
    rfl
  refine Issues.ends_bind (R := False) (recoverJournal_issues hs2 hindex)
    (fun _ s3 t3 hdev3 hm3 => ?_) fun e s' h hc => (h (hdev2 ▸ hc)).elim
  rw [hdev2, Device.after_after] at hdev3
  rw [hm2] at hm3
  have hs3 : s3.dev.Serves := hdev3 ▸ hs.after _ _
  have hrepair := repairCount_ends hs3 (E := fun _ _ => s.dev.Calm → ¬ Marked s.dev.disk)
  rw [hm3, hdev3] at hrepair
  refine .next hrepair ?_
  rintro _ s4 ⟨hm4, ws, t, hws, hdev4⟩
  rw [Device.after_after] at hdev4
  refine ⟨hmark, ?_, ws, t, hws, hdev4⟩
  show { s4.mem with mounted := true } = _
  rw [hm4]
  rfl

lemma storeInit_calm (hc : s.dev.Calm) (hmark : Marked s.dev.disk) :
    ∃ s', storeInit s = .ok () s' ∧ s'.dev.Calm := by
  cases h : storeInit s with
  | ok a s' =>
    obtain ⟨-, -, ws, t, -, hdev⟩ := (storeInit_ends hs).of_ok h
    exact ⟨s', rfl, hdev ▸ hc.after ws t⟩
  | error e s' => exact absurd hmark ((storeInit_ends hs).of_error h hc)

end

/-! ### Formatting -/

lemma length_zeroBuf : zeroBuf.length = 512 :=
  length_replicate

def zeroPlan (n : Nat) : List Write :=
  (range n).map fun i => ⟨512 * i, zeroBuf⟩

lemma zeroPlan_succ (n : Nat) : zeroPlan (n + 1) = zeroPlan n ++ [⟨512 * n, zeroBuf⟩] := by
  simp [zeroPlan, range_succ]

lemma applyAll_zeroPlan (d : Nat → UInt8) (n : Nat) {i : Nat} (h : i < 512 * n) :
    applyAll d (zeroPlan n) i = 0 := by
  induction n with
  | zero => omega
  | succ n ih =>
    rw [zeroPlan_succ, applyAll_append, applyAll_cons, applyAll_nil]
    rcases Nat.lt_or_ge i (512 * n) with hlt | hge
    · rw [store_of_lt hlt]
      exact ih hlt
    · obtain ⟨k, rfl⟩ := Nat.exists_eq_add_of_le hge
      have hk : k < zeroBuf.length := by
        rw [length_zeroBuf]
        omega
      rw [store_of_mem hk]
      exact eq_of_mem_replicate (getElem_mem hk)

lemma zeroSectors_issues (hready : s.dev.ready) {n : Nat} (hn : n < 2 ^ 64)
    (hR : s.dev.capacity.toNat < n → R) :
    Issues (zeroSectors n) s (zeroPlan n) R fun _ m => m = s.mem ∧ n ≤ s.dev.capacity.toNat := by
  induction n with
  | zero => exact .pure ⟨rfl, Nat.zero_le _⟩
  | succ n ih =>
    rw [zeroPlan_succ]
    refine .bind (ih (by omega) fun h => hR (by omega)) fun _ s1 t1 hdev1 ⟨hm1, _⟩ => ?_
    have hready1 : s1.dev.ready := by
      rw [hdev1]
      exact hready
    have hcap1 : s1.dev.capacity = s.dev.capacity := by
      rw [hdev1]
      rfl
    have hlba : (UInt64.ofNat n).toNat = n := UInt64.toNat_ofNat_of_lt' (Nat.lt_of_succ_lt hn)
    have hfit : (UInt64.ofNat n).toNat + (1 : UInt32).toNat ≤ s1.dev.capacity.toNat ∨ R := by
      rw [hcap1, hlba]
      exact (le_or_gt _ _).imp_right hR
    have hlen : zeroBuf.length ≤ 512 * (1 : UInt32).toNat := Nat.le_of_eq length_zeroBuf
    have hw := blkWrite_issues_of_length zeroBuf hready1 (by decide) hlen hfit
    rw [hlba, hm1, hcap1] at hw
    exact hw.mono fun _ m h => ⟨h.2, h.1⟩

def formattedMemory (capacity : UInt64) : Memory where
  super := emptySuper capacity
  indexCache := []
  mounted := true
  nextTxnId := 1

lemma formatForced_issues :
    Issues formatForced s (zeroPlan dataStart.toNat ++ [superWrite (emptySuper s.dev.capacity)])
      (¬ s.dev.Serves) fun _ m => m = formattedMemory s.dev.capacity ∧ s.dev.Serves := by
  refine .get_bind (.failIf_bind (fun h hs => ?_) fun hready => ?_)
  · simp [hs.ready] at h
  have hready : s.dev.ready = true := by simpa using hready
  refine .bind_nil alloc_issues fun _ s1 t1 hdev1 hm1 => ?_
  have hready1 : s1.dev.ready = true := by
    rw [hdev1]
    exact hready
  have hcap1 : s1.dev.capacity = s.dev.capacity := by
    rw [hdev1]
    rfl
  -- the number of sectors is kept as a variable, or the loop would be unfolded
  generalize hn : dataStart.toNat = n
  have hstart : n = 513 := hn.symm
  refine .bind (zeroSectors_issues hready1 (by omega) fun h hs => ?_) fun _ s2 t2 hdev2 ⟨hm2,
    hroom⟩ => ?_
  · have := hs.room
    rw [hcap1] at h
    omega
  rw [hdev1, Device.after_after] at hdev2
  have hs : s.dev.Serves := ⟨hready, by rw [← hcap1]; omega⟩
  have hs2 : s2.dev.Serves := hdev2 ▸ hs.after _ _
  have hcap2 : s2.dev.capacity = s.dev.capacity := by
    rw [hdev2]
    rfl
  refine .get_bind (.modifyMem_bind ?_)
  rw [hcap2]
  refine .bind_one (writeSuper_issues hs2) fun _ s3 t3 hdev3 hm3 => ?_
  apply Issues.modifyMem
  rw [hm3]
  exact ⟨rfl, hs⟩

end Store

end Anunix.Disk
