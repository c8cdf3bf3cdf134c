import Anunix.Disk.Refinement

/-!
# Crashes of the disk store

A machine stops after the first `k` block writes of an operation, loses its memory and mounts the
store again. An object write makes five block writes: the intent, the data, the index, the commit
entry and the superblock. Only the last one moves the next free sector on the disk, so between the
third and the fifth the index already names an extent that the superblock still counts as free: the
next write after the mount goes over it. Stopped anywhere else, writes and deletes leave a store
that is as it was before or as it is after the operation.
-/

namespace Anunix.Disk
open Fallible Region List

/-! ## Stopping a machine -/

/-- The block writes an operation carries out, whether or not it completes. -/
def DiskOp.issued (op : DiskOp) (s : Store) : List Write :=
  (final op.exec s).dev.log.drop s.dev.log.length

/-- The machine after a stop behind the first `k` block writes of an operation: the static variables
are lost, and what the device and the allocator do from then on is up to them. -/
def crash (op : DiskOp) (s : Store) (k : Nat) (faults : Nat → Option Err) : Store where
  dev := { s.dev with disk := applyAll s.dev.disk ((op.issued s).take k), faults := faults }
  mem := Memory.boot

def DiskOp.isWrite : DiskOp → Bool
  | .writeBk _ _ _ _ => true
  | .write _ _ _ => true
  | .delete _ => false
  | .mount _ => false

def DiskOp.result : DiskOp → Option Object
  | .writeBk _ objType boundaryKey payload =>
    some ⟨objType, boundaryKey, payload.size, payload.kept⟩
  | .write _ objType payload => some ⟨objType, 0, payload.size, payload.kept⟩
  | .delete _ => none
  | .mount _ => none

/-- What is stored after an operation that succeeded, given what was stored before. -/
def DiskOp.leaves (stored : Uuid → Option Object) (op : DiskOp) (oid : Uuid) : Option Object :=
  if op.target = some oid then op.result else stored oid

/-! ## What must survive -/

def Store.Reads (s : Store) (oid : Uuid) (o : Option Object) : Prop :=
  (∀ bufSize, outcome (readObj oid bufSize) s.calm = readAnswer s.calm.dev o bufSize) ∧
    outcome (getBoundaryKey oid) s.calm =
      match o with
      | none => .error .enoent
      | some o => .ok o.boundaryKey

def SameReading (s s' : Store) (oid : Uuid) : Prop :=
  (∀ bufSize, outcome (readObj oid bufSize) s'.calm = outcome (readObj oid bufSize) s.calm) ∧
    outcome (getBoundaryKey oid) s'.calm = outcome (getBoundaryKey oid) s.calm

def IndexEntry.Holds (e : IndexEntry) (sector : Nat) : Prop :=
  e.dataSector.toNat ≤ sector ∧ sector < e.stop

/-- No two entries share a data sector, and all lie below the next free one. -/
structure Separate (m : Memory) : Prop where
  disjoint : m.indexCache.Pairwise fun a b => ∀ sector, ¬ (a.Holds sector ∧ b.Holds sector)
  below : ∀ e ∈ m.indexCache, ∀ sector, e.Holds sector → sector < m.super.nextDataSector.toNat

/-- A store that came back from a crash of an operation: every OID reads as before the operation or
as after it, the extents are separate, and later writes of other OIDs change neither. -/
structure Recovered (s : Store) (op : DiskOp) (s' : Store) : Prop where
  reads : ∀ oid, SameReading s s' oid ∨ op.target = some oid ∧ s'.Reads oid op.result
  separate : Separate s'.mem
  later : ∀ (ops : List DiskOp) (s'' : Store), (∀ o ∈ ops, o.isWrite) →
    execAll ops s' = .ok () s'' →
    Separate s''.mem ∧ ∀ oid, (∀ o ∈ ops, o.target ≠ some oid) → SameReading s' s'' oid

/-- Whatever fails or not after a stop behind `k` block writes, a mount that succeeds recovers the
store. -/
def CrashSafe (s : Store) (op : DiskOp) (k : Nat) : Prop :=
  ∀ faults s', storeInit (crash op s k faults) = .ok () s' → Recovered s op s'

section Crash

variable {s s' : Store} {op : DiskOp} {k : Nat} {ws : List Write} {Q : Unit → Memory → Prop}
  {d : Nat → UInt8} {oid : Uuid} {ops : List DiskOp} {R : Prop}

/-! ## Sound stores -/

section

variable (h : Sound s)
include h

lemma Sound.reads (oid : Uuid) : s.Reads oid (s.value oid) :=
  ⟨h.calm.read oid, getBoundaryKey_outcome h.calm.mounted oid⟩

lemma Sound.sameReading (h' : Sound s') (hv : s'.value oid = s.value oid) :
    SameReading s s' oid := by
  refine ⟨fun bufSize => ?_, ?_⟩
  · rw [(h.reads oid).1, (h'.reads oid).1, hv]
    rfl
  · rw [(h.reads oid).2, (h'.reads oid).2, hv]

lemma Sound.separate : Separate s.mem := by
  refine ⟨h.fit.valid.apart.imp fun hab sector hs => ?_, fun e he sector hs => ?_⟩
  · obtain ⟨⟨ha, ha'⟩, hb, hb'⟩ := hs
    rcases hab with hab | hab <;> omega
  · exact Nat.lt_of_lt_of_le hs.2 (h.fit.valid.stop e he)

lemma Sound.exec (hok : op.exec s = .ok () s') : Sound s' ∧ s'.value = op.leaves s.value := by
  have hleaves :
    ∀ {o}, op.target = some o → (∀ oid, s'.value oid = if o = oid then op.result else s.value oid) →
      s'.value = op.leaves s.value := by
    intro o ht hv
    funext oid
    rw [hv, DiskOp.leaves, ht]
    exact if_congr Option.some_inj.symm rfl rfl
  cases op with
  | writeBk o objType boundaryKey payload => exact (h.write hok).imp_right (hleaves rfl)
  | write o objType payload => exact (h.write hok).imp_right (hleaves rfl)
  | delete o => exact (h.delete hok).imp_right (hleaves rfl)
  | mount afterPowerCycle =>
    obtain ⟨hs, hv⟩ := h.mount hok
    exact ⟨hs, funext hv⟩

lemma Sound.execAll (hok : execAll ops s = .ok () s') :
    Sound s' ∧ s'.value = ops.foldl DiskOp.leaves s.value := by
  induction ops generalizing s with
  | nil =>
    obtain ⟨-, rfl⟩ := run_pure_eq_ok.mp hok
    exact ⟨h, rfl⟩
  | cons op ops ih =>
    obtain ⟨_, s1, hop, hrest⟩ := run_bind_eq_ok.mp hok
    obtain ⟨h1, hv1⟩ := h.exec hop
    rw [foldl_cons, ← hv1]
    exact ih h1 hrest

end

lemma leaves_of_ne {stored : Uuid → Option Object} (ho : ∀ op ∈ ops, op.target ≠ some oid) :
    ops.foldl DiskOp.leaves stored oid = stored oid := by
  induction ops generalizing stored with
  | nil => rfl
  | cons op ops ih =>
    obtain ⟨hop, hops⟩ := forall_mem_cons.mp ho
    exact (ih hops).trans (if_neg hop)

/-! ## The writes of an operation -/

lemma Issues.take_issued (hx : Issues op.exec s ws R Q) (hk : k ≤ (op.issued s).length) :
    (op.issued s).take k = ws.take k ∧ k ≤ ws.length := by
  have hprefix : ∃ j, op.issued s = ws.take j := by
    unfold DiskOp.issued final
    cases h : op.exec s with
    | ok a s1 =>
      obtain ⟨⟨t, hdev⟩, -⟩ := hx.of_ok h
      refine ⟨ws.length, ?_⟩
      simp [hdev, Device.after]
    | error e s1 =>
      obtain ⟨⟨n, t, hdev⟩, -⟩ := hx.of_error h
      refine ⟨n, ?_⟩
      simp [hdev, Device.after]
  obtain ⟨j, hj⟩ := hprefix
  rw [hj, length_take] at hk
  rw [hj, take_take]
  exact ⟨by rw [Nat.min_eq_left (by omega)], by omega⟩

lemma Issues.issued_of_ok (hx : Issues op.exec s ws R Q) (hok : op.exec s = .ok () s') :
    op.issued s = ws := by
  obtain ⟨⟨t, hdev⟩, -⟩ := hx.of_ok hok
  unfold DiskOp.issued
  rw [final_of_ok hok, hdev]
  simp [Device.after]

variable {objType : UInt32} {boundaryKey : UInt64} {p : Payload} {e : IndexEntry}

/-- There are sectors for the entry on the device and a place for it in the index. -/
def Store.Room (s : Store) (e : IndexEntry) : Prop :=
  e.stop ≤ s.dev.capacity.toNat ∧
    (findIndexEntry s.mem.indexCache e.oid = none → s.mem.indexCache.length < indexMaxEntries)

lemma writeObjBk_issues_noRoom (he : e = s.mem.newEntry oid objType boundaryKey p)
    (hs : s.dev.Serves) (hmounted : s.mem.mounted) (hhead : s.mem.super.journalHead.toNat < 2048)
    (hroom : ¬ s.Room e) :
    Issues (writeObjBk oid objType boundaryKey p) s ((writePlan s.dev.disk s.mem e p).take 2) True
      fun _ _ => False := by
  rw [writeObjBk_eq]
  refine .bind (writeData_issues he hs hmounted hhead fun _ => trivial)
    fun e' s1 t1 hdev1 ⟨he', hm1, hin⟩ => ?_
  subst he'
  -- the data fits, so it is the index that is full
  refine .bind_nil (updateIndex_issues fun _ => trivial) fun _ s2 t2 hdev2 ⟨hm2, hlen⟩ => ?_
  rw [hm1] at hlen
  exact absurd ⟨hin, hlen⟩ hroom

/-! ## Stops that are safe -/

/-- A stopped machine whose disk can be mounted, with every OID holding what it held before or what
the operation leaves there. -/
structure Resumable (s : Store) (op : DiskOp) (d : Nat → UInt8) : Prop where
  persisted : Persisted d s.dev.capacity
  objects : ∀ oid, objectAt d (diskIndex d) oid = s.value oid ∨
    op.target = some oid ∧ objectAt d (diskIndex d) oid = op.result

lemma Resumable.of_value (hpers : Persisted d s.dev.capacity) (ht : op.target = some oid)
    (hvalue : ∀ o, objectAt d (diskIndex d) o = if oid = o then op.result else s.value o) :
    Resumable s op d := by
  refine ⟨hpers, fun o => ?_⟩
  rw [hvalue]
  by_cases ho : oid = o
  · rw [if_pos ho, ht, ho]
    exact .inr ⟨rfl, rfl⟩
  · rw [if_neg ho]
    exact .inl rfl

section

variable (h : Sound s)
include h

section

variable (he : e = s.mem.newEntry oid objType boundaryKey p)
include he

lemma Sound.sameStore_body
    (hk : k ≤ 2) : SameStore s.mem.super.nextDataSector.toNat s.dev.disk
      (applyAll s.dev.disk ((writePlan s.dev.disk s.mem e p).take k)) := by
  obtain ⟨intent, commit, hintent, -, hplan⟩ :=
    writePlan_shape h.fit.head
  rw [hplan]
  obtain rfl | rfl | rfl : k = 0 ∨ k = 1 ∨ k = 2 := by omega
  · exact ⟨rfl, rfl, fun _ _ _ => rfl⟩
  · exact hintent.sameStore
  · exact (disk_body h.fit.start he hintent).1

lemma Sound.resumable_body (hk : k ≤ 2) :
    Resumable s op (applyAll s.dev.disk ((writePlan s.dev.disk s.mem e p).take k)) := by
  have hsame := h.sameStore_body he hk
  refine ⟨hsame.persisted h.persisted, fun o => .inl ?_⟩
  rw [hsame.index, h.index]
  exact hsame.data.objectAt h.fit.valid o

end

lemma Sound.resumable_erased (hpers : Persisted d s.dev.capacity)
    (hindex : diskIndex d = (s.mem.remove oid).indexCache)
    (hdata : SameData s.mem.super.nextDataSector.toNat s.dev.disk d) :
    Resumable s (.delete oid) d := by
  refine .of_value hpers rfl fun o => ?_
  rw [hindex]
  exact objectAt_erase h.fit.valid hdata oid o

lemma Sound.resumable_delete (hk : k ≤ 2) : Resumable s (.delete oid) (applyAll s.dev.disk
      ([indexWrite (s.mem.remove oid).indexCache,
        superWrite (s.mem.remove oid).super].take k)) := by
  have hlaid := h.fit.toLaid.remove oid
  obtain rfl | rfl | rfl : k = 0 ∨ k = 1 ∨ k = 2 := by omega
  · refine ⟨h.persisted, fun o => .inl ?_⟩
    show objectAt s.dev.disk (diskIndex s.dev.disk) o = _
    rw [h.index]
    rfl
  · have hindex := diskIndex_indexWrite (d := s.dev.disk) hlaid.valid.count hlaid.valid.active
    obtain ⟨hsuper, hdata⟩ := rest_indexWrite
      (s.mem.remove oid).indexCache
    refine h.resumable_erased ?_ hindex hdata
    obtain ⟨hmagic, hversion, htotal, hhead, hstart, hroom, -⟩ := h.persisted
    rw [← hsuper] at hmagic hversion htotal hhead hstart hroom
    refine ⟨hmagic, hversion, htotal, hhead, hstart, hroom, ?_⟩
    show ValidIndex (diskSuper (store _ _ _)).nextDataSector.toNat (diskIndex (store _ _ _))
    rw [hsuper, h.next, hindex]
    exact hlaid.valid
  · obtain ⟨hsuper, hindex, hdata⟩ := disk_flush
      hlaid.valid.count hlaid.valid.active
      (s.mem.remove oid).super
    exact h.resumable_erased (.of_flushed hlaid hsuper hindex) hindex hdata

end

/-! ## Stops that are not -/

/-- Once the index is written the new extent is in it, and until the superblock is, the extent
counts as free. -/
lemma Sound.disk_exposed (h : Sound s) (he : e = s.mem.newEntry oid objType boundaryKey p)
    (hroom : s.Room e) (hk : 2 < k)
    (hd : d = applyAll s.dev.disk ((writePlan s.dev.disk s.mem e p).take k)) :
    (k < 5 → diskSuper d = diskSuper s.dev.disk) ∧ diskIndex d = (s.mem.extend e).indexCache ∧
      SameData s.mem.super.nextDataSector.toNat s.dev.disk d ∧ e.payload d = p.kept := by
  have hvalid := h.fit.extend_valid he hroom.1 hroom.2
  have hstart : 513 ≤ e.dataSector.toNat := by
    rw [he]
    exact h.fit.start
  obtain ⟨intent, commit, hintent, hcommit, hplan⟩ := writePlan_shape h.fit.head
  obtain ⟨hbody, hpay⟩ := disk_body h.fit.start he hintent
  have hindex :=
    diskIndex_indexWrite (d := applyAll s.dev.disk [intent, dataWrite e p]) hvalid.count
    hvalid.active
  have hrest := fun n => rest_indexWrite (d := applyAll s.dev.disk [intent, dataWrite e p]) (n := n)
    (s.mem.extend e).indexCache
  have hsuper := (hrest 0).1.trans hbody.super
  rw [hplan] at hd
  -- what follows the index leaves the index and the data alone
  have hafter :
    (k < 5 → diskSuper d = diskSuper s.dev.disk) ∧ diskIndex d = (s.mem.extend e).indexCache ∧
      ∀ n, SameData n (applyAll s.dev.disk [intent, dataWrite e p]) d := by
    have hjournal := fun n => hcommit.sameStore (n := n) (d := applyAll s.dev.disk
      [intent, dataWrite e p, indexWrite (s.mem.extend e).indexCache])
    obtain rfl | rfl | hk : k = 3 ∨ k = 4 ∨ 5 ≤ k := by omega
    · subst hd
      exact ⟨fun _ => hsuper, hindex, fun n => (hrest n).2⟩
    · subst hd
      exact ⟨fun _ => (hjournal 0).super.trans hsuper, (hjournal 0).index.trans hindex,
        fun n => (hrest n).2.trans (hjournal n).data⟩
    · rw [take_of_length_le hk] at hd
      subst hd
      exact ⟨fun hlt => by omega, (disk_finish hcommit hvalid.count hvalid.active _).2,
        fun n => data_finish hcommit _ _⟩
  refine ⟨hafter.1, hafter.2.1, hbody.data.trans (hafter.2.2 _), ?_⟩
  rw [← hpay]
  exact congrArg Object.payload ((hafter.2.2 _).object hstart (Nat.le_refl _))

lemma readObj_calm (hready : s.dev.ready) (hmounted : s.mem.mounted) (hc : s.dev.Calm)
    (hfind : findIndexEntry s.mem.indexCache oid = some e) (hextent : e.dataSectors ≠ 0)
    (hstop : e.stop ≤ s.dev.capacity.toNat) (bufSize : UInt32) :
    outcome (readObj oid bufSize) s =
      .ok ⟨(e.payload s.dev.disk).take bufSize.toNat, e.payloadSize, e.objType⟩ := by
  have hone : ∀ e', findIndexEntry s.mem.indexCache oid = some e' →
      e'.dataSectors ≠ 0 ∧ e'.stop ≤ s.dev.capacity.toNat := by
    intro e' he'
    rw [hfind] at he'
    cases he'
    exact ⟨hextent, hstop⟩
  rw [readObj_outcome hready hmounted hone, Store.value, objectAt, hfind,
    Option.map_some, readAnswer]
  simp only [hc s.dev.tick, hc (s.dev.tick + 1)]
  rfl

/-- A mounted store whose index names an extent that starts at the next free sector. -/
structure Exposed (s : Store) (e : IndexEntry) : Prop where
  serves : s.dev.Serves
  mounted : s.mem.mounted
  head : s.mem.super.journalHead.toNat < 2048
  start : 513 ≤ s.mem.super.nextDataSector.toNat
  total : s.mem.super.totalSectors = s.dev.capacity
  oids : (s.mem.indexCache.map IndexEntry.oid).Nodup
  listed : e ∈ s.mem.indexCache
  extent : e.dataSectors ≠ 0
  stop : e.stop ≤ s.dev.capacity.toNat
  next : s.mem.super.nextDataSector = e.dataSector

section

variable (h : Exposed s e)
include h

lemma Exposed.find : findIndexEntry s.mem.indexCache e.oid = some e :=
  (Keyed.lookup_eq_some_iff h.oids).mpr ⟨h.listed, rfl⟩

lemma Exposed.reads (hc : s.dev.Calm) (bufSize : UInt32) : outcome (readObj e.oid bufSize) s =
      .ok ⟨(e.payload s.dev.disk).take bufSize.toNat, e.payloadSize, e.objType⟩ :=
  readObj_calm h.serves.ready h.mounted hc h.find h.extent h.stop bufSize

lemma Exposed.not_separate : ¬ Separate s.mem := by
  intro hsep
  have hextent : e.dataSectors.toNat ≠ 0 := fun hz => h.extent (UInt32.toNat_inj.mp hz)
  have hholds : e.Holds e.dataSector.toNat := by
    refine ⟨Nat.le_refl _, ?_⟩
    unfold IndexEntry.stop
    omega
  have hbelow := hsep.below e h.listed _ hholds
  rw [h.next] at hbelow
  exact Nat.lt_irrefl _ hbelow

lemma Exposed.overwritten (hoid : oid ≠ e.oid) (hsectors : e.dataSectors = sectorsNeeded p.size)
    (hsize : e.payloadSize = p.size) (hok : writeObjBk oid objType boundaryKey p s = .ok () s')
    (hc : s'.dev.Calm) (bufSize : UInt32) :
    outcome (readObj e.oid bufSize) s' = .ok ⟨p.kept.take bufSize.toNat, p.size, e.objType⟩ := by
  generalize hnew : s.mem.newEntry oid objType boundaryKey p = new
  obtain ⟨⟨t, hdev⟩, hmem, -⟩ := (writeObjBk_issues hnew.symm h.serves h.mounted h.head).of_ok hok
  have hpay : e.payload s'.dev.disk = p.kept := by
    rw [hdev, ← payload_write h.head h.start hnew.symm]
    rw [IndexEntry.payload, IndexEntry.payload, ← hnew, hsectors, hsize, ← h.next]
    rfl
  have hready : s'.dev.ready := hdev ▸ (h.serves.after _ _).ready
  have hmounted : s'.mem.mounted := by
    rw [hmem]
    show (s.mem.logged.place new).mounted = true
    rw [(s.mem.logged.place_rest new).2]
    exact h.mounted
  have hstop : e.stop ≤ s'.dev.capacity.toNat := by
    rw [hdev]
    exact h.stop
  have hfind : findIndexEntry s'.mem.indexCache e.oid = some e := by
    have hnewoid : new.oid = oid := by rw [← hnew]; rfl
    have hp := s.mem.logged.place_perm new
    rw [hnewoid] at hp
    have hn :
        ((new :: Keyed.erase IndexEntry.oid s.mem.indexCache oid).map IndexEntry.oid).Nodup := by
      rw [map_cons, hnewoid, nodup_cons]
      exact ⟨Keyed.not_mem_erase h.oids, Keyed.nodup_erase h.oids⟩
    have hn' := (hp.map IndexEntry.oid).nodup_iff.mpr hn
    rw [hmem]
    show Keyed.lookup IndexEntry.oid (s.mem.logged.place new).indexCache e.oid = some e
    rw [Keyed.lookup_perm hn' hp, Keyed.lookup_cons, hnewoid, if_neg hoid,
      Keyed.lookup_erase_of_ne hoid]
    exact h.find
  rw [readObj_calm hready hmounted hc hfind h.extent hstop, hpay, hsize]

end

section Exposed

variable (h : Sound s) (he : e = s.mem.newEntry oid objType boundaryKey p) (hroom : s.Room e)
  (hk : k = 3 ∨ k = 4) (hplan : (op.issued s).take k = (writePlan s.dev.disk s.mem e p).take k)
include h he hroom hk hplan

lemma Sound.exposed {faults : Nat → Option Err}
    (hok : storeInit (crash op s k faults) = .ok () s') :
    Exposed s' e ∧ s'.mem.indexCache = (s.mem.extend e).indexCache ∧
    e.payload s'.dev.disk = p.kept := by
  generalize hc : crash op s k faults = c at hok
  have hdisk : c.dev.disk = applyAll s.dev.disk ((writePlan s.dev.disk s.mem e p).take k) := by
    rw [← hc, ← hplan]
    rfl
  have hserves : c.dev.Serves := by
    rw [← hc]
    exact ⟨h.serves.ready, h.serves.room⟩
  have hcap : c.dev.capacity = s.dev.capacity := by rw [← hc]; rfl
  obtain ⟨hsuper, hindex, -, hpay⟩ := h.disk_exposed he hroom (by omega) hdisk
  obtain ⟨-, hmem, ws, t, hws, hdev⟩ := (storeInit_ends hserves).of_ok hok
  rw [hsuper (by omega), hindex] at hmem
  obtain ⟨hmounted, hcache, hnext, hhead, htotal⟩ :=
    mountedMemory_rest (diskSuper s.dev.disk) (s.mem.extend e).indexCache c.mem.nextTxnId
  rw [← hmem] at hmounted hcache hnext hhead htotal
  have hvalid := h.fit.extend_valid he hroom.1 hroom.2
  have hdata : e.dataSector = s.mem.super.nextDataSector := by rw [he]; rfl
  have hsame : SameData e.stop c.dev.disk s'.dev.disk := by
    rw [hdev]
    rcases hws with rfl | rfl
    · exact fun _ _ _ => rfl
    · exact (super_store_superWrite _).2.2
  refine ⟨⟨hdev ▸ hserves.after _ _, hmounted, ?_, ?_, ?_, ?_, ?_, ?_, ?_, ?_⟩, hcache, ?_⟩
  · rw [hhead]
    exact h.persisted.head
  · rw [hnext]
    exact h.persisted.start
  · rw [htotal, hdev, Device.after_capacity, hcap]
    exact h.persisted.total
  · rw [hcache]
    exact hvalid.oids
  · rw [hcache]
    exact (s.mem.logged.place_perm e).mem_iff.mpr mem_cons_self
  · exact he ▸ sectorsNeeded_pos _
  · rw [hdev, Device.after_capacity, hcap]
    exact hroom.1
  · rw [hnext, h.next, hdata]
  · rw [← hpay]
    exact congrArg Object.payload (hsame.object (hdata ▸ h.fit.start) (Nat.le_refl _))

lemma Sound.exposed_mounts : ∃ s', storeInit (crash op s k fun _ => none) = .ok () s' ∧
    s'.dev.Calm := by
  have hdisk : (crash op s k fun _ => none).dev.disk =
      applyAll s.dev.disk ((writePlan s.dev.disk s.mem e p).take k) := by
    rw [← hplan]
    rfl
  have hmark : Marked (crash op s k fun _ => none).dev.disk := by
    unfold Marked
    rw [(h.disk_exposed he hroom (by omega) hdisk).1 (by omega)]
    exact h.persisted.marked
  exact storeInit_calm ⟨h.serves.ready, h.serves.room⟩ (fun _ => rfl) hmark

lemma Sound.exposed_unsafe : ¬ CrashSafe s op k := by
  intro hsafe
  obtain ⟨s', hok, -⟩ := h.exposed_mounts he hroom hk hplan
  exact (h.exposed he hroom hk hplan hok).1.not_separate (hsafe _ s' hok).separate

end Exposed

lemma CrashSafe.of_resumable (h : Sound s)
    (hr : Resumable s op (applyAll s.dev.disk ((op.issued s).take k))) : CrashSafe s op k := by
  intro faults s' hok
  have hpers : Persisted (crash op s k faults).dev.disk (crash op s k faults).dev.capacity :=
    hr.persisted
  obtain ⟨hs', hmem, hdata, -⟩ := hpers.mount ⟨h.serves.ready, h.serves.room⟩ hok
  have hvalue : ∀ oid, s'.value oid = objectAt (crash op s k faults).dev.disk
      (diskIndex (crash op s k faults).dev.disk) oid := by
    intro oid
    rw [Store.value, hmem]
    exact (hdata _).objectAt hpers.valid oid
  refine ⟨fun oid => ?_, hs'.separate, fun ops s'' _ hrun => ?_⟩
  · rcases hr.objects oid with ho | ⟨ht, ho⟩
    · exact .inl (h.sameReading hs' ((hvalue oid).trans ho))
    · refine .inr ⟨ht, ?_⟩
      rw [← ho]
      exact hvalue oid ▸ hs'.reads oid
  · obtain ⟨hs'', hvalue''⟩ := hs'.execAll hrun
    exact ⟨hs''.separate, fun oid ho => hs'.sameReading hs'' (hvalue''.symm ▸ leaves_of_ne ho)⟩

/-- A stopped object write is recovered unless it stopped between the index and the superblock. -/
lemma Sound.write_crashSafe_iff (h : Sound s)
    (hexec : op.exec = writeObjBk oid objType boundaryKey p) (htarget : op.target = some oid)
    (hresult : op.result = some ⟨objType, boundaryKey, p.size, p.kept⟩)
    (hk : k ≤ (op.issued s).length) : CrashSafe s op k ↔ ¬ (k = 3 ∨ k = 4) := by
  generalize he : s.mem.newEntry oid objType boundaryKey p = e
  have hlen : (writePlan s.dev.disk s.mem e p).length = 5 := rfl
  by_cases hroom : s.Room e
  · have hissues := writeObjBk_issues he.symm h.serves h.mounted h.fit.head
    rw [← hexec] at hissues
    obtain ⟨htake, hk'⟩ := hissues.take_issued hk
    refine ⟨fun hsafe hbad => h.exposed_unsafe he.symm hroom hbad htake hsafe, fun hgood => ?_⟩
    apply CrashSafe.of_resumable h
    rw [htake]
    rcases Nat.lt_or_ge 2 k with hk2 | hk2
    · obtain rfl : k = 5 := by omega
      -- once the superblock is written, all of the work is done
      rw [take_of_length_le (Nat.le_of_eq hlen)]
      have hvalid := h.fit.extend_valid he.symm hroom.1 hroom.2
      obtain ⟨hsuper, hindex, hdata, hpay⟩ := h.disk_write he.symm hvalid rfl
      refine .of_value (.of_flushed (h.fit.extend he.symm hroom.1 hroom.2).toLaid hsuper hindex)
        htarget fun o => ?_
      rw [hindex, h.fit.objectAt_extend he.symm hvalid hdata hpay o, hresult]
      rfl
    · exact h.resumable_body he.symm hk2
  · have hissues := writeObjBk_issues_noRoom he.symm h.serves h.mounted h.fit.head hroom
    rw [← hexec] at hissues
    obtain ⟨htake, hk'⟩ := hissues.take_issued hk
    rw [length_take] at hk'
    refine ⟨fun _ => by omega, fun _ => .of_resumable h ?_⟩
    rw [htake, take_take]
    exact h.resumable_body he.symm (by omega)

lemma Sound.delete_crashSafe (h : Sound s) (hk : k ≤ ((DiskOp.delete oid).issued s).length) :
    CrashSafe s (.delete oid) k := by
  have hissues : Issues (DiskOp.delete oid).exec s _ _ _ := deleteObj_issues h.serves h.mounted
  obtain ⟨htake, hk'⟩ := hissues.take_issued hk
  apply CrashSafe.of_resumable h
  rw [htake]
  exact h.resumable_delete hk'

end Crash

/-- A crash is recovered from, unless it cuts a write between its index and its superblock. -/
theorem crash_recovers_iff {s₀ s₁ s : Store} {ops : List DiskOp} {op : DiskOp} {k : Nat}
    (hformat : formatForced s₀ = .ok () s₁) (hrun : execAll ops s₁ = .ok () s)
    (hop : op.target ≠ none) (hk : k ≤ (op.issued s).length) :
    CrashSafe s op k ↔ ¬ (op.isWrite ∧ (k = 3 ∨ k = 4)) := by
  have h := ((format_sound hformat).1.execAll hrun).1
  cases op with
  | writeBk oid objType boundaryKey payload =>
    rw [h.write_crashSafe_iff rfl rfl rfl hk]
    simp [DiskOp.isWrite]
  | write oid objType payload =>
    rw [h.write_crashSafe_iff rfl rfl rfl hk]
    simp [DiskOp.isWrite]
  | delete oid =>
    simp [DiskOp.isWrite, h.delete_crashSafe hk]
  | mount afterPowerCycle => exact absurd rfl hop

def sampleWrite : DiskOp :=
  .writeBk ⟨1, 2⟩ 3 7 samplePayload

def otherPayload : Payload :=
  ⟨[30, 40], by decide⟩

lemma blankStore_formatted : ∃ s1, formatForced blankStore = .ok () s1 ∧ s1.dev.Calm ∧
    s1.mem = formattedMemory 1000 ∧ s1.dev.capacity = 1000 ∧ Sound s1 ∧ sampleWrite.issued s1 =
      writePlan s1.dev.disk s1.mem (s1.mem.newEntry ⟨1, 2⟩ 3 7 samplePayload) samplePayload := by
  obtain ⟨s1, hformat, h⟩ := blankStore_format
  obtain ⟨s2, hwrite, -⟩ :=
    h.write (p := samplePayload) (by decide) (by unfold Store.Full; decide +kernel) ⟨1, 2⟩ 3 7
  have hissues : Issues sampleWrite.exec s1 _ _ _ :=
    writeObjBk_issues rfl h.sound.serves h.sound.mounted h.sound.fit.head
  exact ⟨s1, hformat, h.calm, h.mem, h.capacity, h.sound, hissues.issued_of_ok hwrite⟩

/-- A write that is cut behind its data is recovered from. -/
theorem crash_recovers_iff_afterData : ∃ s₁, formatForced blankStore = .ok () s₁ ∧
    2 ≤ (sampleWrite.issued s₁).length ∧ CrashSafe s₁ sampleWrite 2 := by
  obtain ⟨s₁, hformat, -, -, -, -, hplan⟩ := blankStore_formatted
  have hlen : (sampleWrite.issued s₁).length = 5 := by
    rw [hplan]
    rfl
  have hk : 2 ≤ (sampleWrite.issued s₁).length := by omega
  refine ⟨s₁, hformat, hk, ?_⟩
  have hrun : execAll [] s₁ = .ok () s₁ := rfl
  exact (crash_recovers_iff hformat hrun (by simp [sampleWrite, DiskOp.target]) hk).mpr (by simp)

/-- Stopped behind its index, it is not: after the mount the object is there, and the next object
written takes its place. -/
theorem crash_overwrites_afterIndex : ∃ s₁ s₂ s₃, formatForced blankStore = .ok () s₁ ∧
    3 ≤ (sampleWrite.issued s₁).length ∧ ¬ CrashSafe s₁ sampleWrite 3 ∧
    storeInit (crash sampleWrite s₁ 3 fun _ => none) = .ok () s₂ ∧
    writeObjBk ⟨1, 3⟩ 3 8 otherPayload s₂ = .ok () s₃ ∧ outcome (readObj ⟨1, 2⟩ 2) s₂ =
    .ok ⟨[10, 20], 2, 3⟩ ∧ outcome (readObj ⟨1, 2⟩ 2) s₃ = .ok ⟨[30, 40], 2, 3⟩ := by
  obtain ⟨s₁, hformat, hcalm, hmem, hcap, hsound, hplan⟩ := blankStore_formatted
  generalize he : s₁.mem.newEntry ⟨1, 2⟩ 3 7 samplePayload = e at hplan
  have hentry : e = (formattedMemory 1000).newEntry ⟨1, 2⟩ 3 7 samplePayload := by rw [← he, hmem]
  have hroom : s₁.Room e := by
    rw [Store.Room, hentry, hmem, hcap]
    decide
  have hlen : (sampleWrite.issued s₁).length = 5 := by
    rw [hplan]
    rfl
  have htake :
      (sampleWrite.issued s₁).take 3 = (writePlan s₁.dev.disk s₁.mem e samplePayload).take 3 := by
    rw [hplan]
  obtain ⟨s₂, hmount, hcalm₂⟩ := hsound.exposed_mounts he.symm hroom (.inl rfl) htake
  obtain ⟨hexp, hcache, hpay⟩ := hsound.exposed he.symm hroom (.inl rfl) htake hmount
  have hnext : s₂.mem.super.nextDataSector = 513 := by
    rw [hexp.next, hentry]
    rfl
  have hcap₂ : 514 ≤ s₂.dev.capacity.toNat := by
    have hstop : e.stop = 514 := by rw [hentry]; rfl
    exact hstop ▸ hexp.stop
  have hfull : ¬ s₂.Full (sectorsNeeded otherPayload.size) := by
    have hneeded : sectorsNeeded otherPayload.size = 1 := by decide
    have hcount : s₂.mem.indexCache.length = 1 := by
      rw [hcache, hmem]
      rfl
    rw [Store.Full, hexp.total, hnext, hneeded, hcount, UInt64.lt_iff_toNat_lt]
    rintro (h | h | h)
    · have : (513 + (1 : UInt32).toUInt64).toNat = 514 := rfl
      omega
    · have : (513 : UInt64).toNat + (1 : UInt32).toNat = 514 := rfl
      omega
    · exact absurd h (by decide)
  obtain ⟨s₃, hwrite, hcalm₃⟩ : ∃ s₃, writeObjBk ⟨1, 3⟩ 3 8 otherPayload s₂ = .ok () s₃ ∧
      s₃.dev.Calm :=
    writeObjBk_calm hexp.serves hexp.mounted hexp.head hcalm₂ hfull
  have hoid : e.oid = ⟨1, 2⟩ := by rw [hentry]; rfl
  have hobj : e.payloadSize = 2 ∧ e.objType = 3 := by
    rw [hentry]
    exact ⟨rfl, rfl⟩
  have hread₂ := hexp.reads hcalm₂ 2
  have hread₃ := hexp.overwritten (by rw [hoid]; decide) (by rw [hentry]; rfl) (by rw [hentry]; rfl)
    hwrite hcalm₃ 2
  rw [hoid, hobj.2] at hread₂ hread₃
  rw [hpay, hobj.1] at hread₂
  exact ⟨s₁, s₂, s₃, hformat, by omega, hsound.exposed_unsafe he.symm hroom (.inl rfl) htake,
    hmount, hwrite, hread₂, hread₃⟩

end Anunix.Disk
