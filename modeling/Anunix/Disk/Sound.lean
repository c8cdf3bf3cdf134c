import Anunix.Disk.Issues

/-!
# The invariant of the disk store

What is on the disk makes sense by itself (`Persisted`): the superblock carries its marks, the
entries of the index are live, have distinct OIDs and disjoint extents below the next free sector. A
mounted store (`Sound`) works on what its disk holds; only the object count and the commit pointer
of the superblock may be ahead of the disk.

Every operation that succeeds keeps `Sound`, and what it does to the objects is said of
`Store.value`, the map from OIDs to what is stored under them.
-/

namespace Anunix.Disk
open Fallible Region Keyed

/-! ## Extents -/

def IndexEntry.stop (e : IndexEntry) : Nat :=
  e.dataSector.toNat + e.dataSectors.toNat

/-- Two extents one of which ends before the other begins. -/
def IndexEntry.Apart (a b : IndexEntry) : Prop :=
  a.stop ≤ b.dataSector.toNat ∨ b.stop ≤ a.dataSector.toNat

/-- An index whose extents lie between the start of the data region and the next free sector. -/
structure ValidIndex (next : Nat) (cache : List IndexEntry) : Prop where
  count : cache.length ≤ indexMaxEntries
  active : ∀ e ∈ cache, e.active
  oids : (cache.map IndexEntry.oid).Nodup
  extent : ∀ e ∈ cache, e.dataSectors ≠ 0
  start : ∀ e ∈ cache, 513 ≤ e.dataSector.toNat
  stop : ∀ e ∈ cache, e.stop ≤ next
  apart : cache.Pairwise IndexEntry.Apart

variable {cache : List IndexEntry} {e : IndexEntry}

section ValidIndex

variable {next next' : Nat} {cache' : List IndexEntry}

lemma ValidIndex.nil : ValidIndex next [] :=
  ⟨Nat.zero_le _, nofun, List.nodup_nil, nofun, nofun, nofun, List.Pairwise.nil⟩

section

variable (h : ValidIndex next cache)
include h

lemma ValidIndex.subperm (hs : cache'.Subperm cache) : ValidIndex next cache' := by
  have hmem := hs.subset
  obtain ⟨l, hp, hl⟩ := hs
  exact {
    count := Nat.le_trans (hp.length_eq ▸ hl.length_le) h.count
    active := fun e he => h.active e (hmem he)
    oids := (hp.map _).nodup ((hl.map _).nodup h.oids)
    extent := fun e he => h.extent e (hmem he)
    start := fun e he => h.start e (hmem he)
    stop := fun e he => h.stop e (hmem he)
    apart := hp.pairwise (h.apart.sublist hl) fun h' => h'.symm }

lemma ValidIndex.cons (hcount : cache.length < indexMaxEntries)
    (hactive : e.active) (hoid : e.oid ∉ cache.map IndexEntry.oid) (hextent : e.dataSectors ≠ 0)
    (hnext : 513 ≤ next) (hstart : e.dataSector.toNat = next) (hstop : e.stop = next') :
    ValidIndex next' (e :: cache) := by
  have hgrow : next ≤ next' := by
    rw [← hstop, IndexEntry.stop]
    omega
  refine ⟨hcount, List.forall_mem_cons.mpr ⟨hactive, h.active⟩, List.nodup_cons.mpr ⟨hoid, h.oids⟩,
    List.forall_mem_cons.mpr ⟨hextent, h.extent⟩, List.forall_mem_cons.mpr ⟨by omega, h.start⟩,
    List.forall_mem_cons.mpr ⟨by omega, fun a ha => Nat.le_trans (h.stop a ha) hgrow⟩, ?_⟩
  refine List.pairwise_cons.mpr ⟨fun a ha => .inr ?_, h.apart⟩
  rw [hstart]
  exact h.stop a ha

lemma ValidIndex.erase (oid : Uuid) :
    ValidIndex next (erase IndexEntry.oid cache oid) :=
  h.subperm erase_sublist.subperm

end

end ValidIndex

/-! ## The index after a write -/

lemma lowerBoundFrom_le (cache : List IndexEntry) (e : IndexEntry) (n : Nat) {lo hi : Nat}
    (h : lo ≤ hi) : lowerBoundFrom cache e n lo hi ≤ hi := by
  induction n generalizing lo hi with
  | zero => exact h
  | succ n ih =>
    rw [lowerBoundFrom]
    split
    · simp only
      split
      · split
        · exact ih (by omega)
        · exact Nat.le_trans (ih (by omega)) (by omega)
      · exact h
    · exact h

lemma insertEntry_perm (cache : List IndexEntry) (e : IndexEntry) :
    (insertEntry cache e).Perm (e :: cache) :=
  List.perm_insertIdx _ _ (lowerBoundFrom_le cache e _ (Nat.zero_le _))

lemma Memory.place_perm (m : Memory) (e : IndexEntry) :
    (m.place e).indexCache.Perm (e :: erase IndexEntry.oid m.indexCache e.oid) := by
  unfold Memory.place
  cases hf : findIndexEntry m.indexCache e.oid with
  | none =>
    rw [erase_of_lookup_none hf]
    exact insertEntry_perm _ _
  | some old =>
    simp only
    split
    · exact perm_update hf
    · exact insertEntry_perm _ _

lemma Memory.place_count (m : Memory) (e : IndexEntry)
    (h : m.super.objCount.toNat = m.indexCache.length)
    (hlen : (m.place e).indexCache.length ≤ indexMaxEntries) :
    (m.place e).super.objCount.toNat = (m.place e).indexCache.length := by
  have hmax : indexMaxEntries = 2304 := rfl
  have hone : (1 : UInt64).toNat = 1 := rfl
  have hp := (m.place_perm e).length_eq
  rw [List.length_cons] at hp
  rw [hp] at hlen ⊢
  unfold Memory.place
  cases hf : findIndexEntry m.indexCache e.oid with
  | none =>
    rw [erase_of_lookup_none hf] at hlen ⊢
    rw [UInt64.toNat_add, h]
    exact Nat.mod_eq_of_lt (by omega)
  | some old =>
    have hold := (perm_erase hf).length_eq
    rw [List.length_cons] at hold
    rw [← hold, ← h]
    simp only
    split <;> rfl

/-! ## The invariant -/

/-- A superblock and an index that make sense on a device of the given capacity. -/
structure Laid (sup : Super) (cache : List IndexEntry) (capacity : UInt64) : Prop where
  magic : sup.magic = diskMagic
  version : sup.version = diskVersion
  total : sup.totalSectors = capacity
  head : sup.journalHead.toNat < 2048
  start : 513 ≤ sup.nextDataSector.toNat
  room : sup.nextDataSector.toNat ≤ capacity.toNat
  valid : ValidIndex sup.nextDataSector.toNat cache

def Persisted (d : Nat → UInt8) (capacity : UInt64) : Prop :=
  Laid (diskSuper d) (diskIndex d) capacity

/-- Static variables that make sense by themselves: the object count is right as well. -/
structure Memory.Fit (m : Memory) (capacity : UInt64) : Prop
    extends Laid m.super m.indexCache capacity where
  count : m.super.objCount.toNat = m.indexCache.length

structure Sound (s : Store) : Prop where
  serves : s.dev.Serves
  mounted : s.mem.mounted
  fit : s.mem.Fit s.dev.capacity
  persisted : Persisted s.dev.disk s.dev.capacity
  index : diskIndex s.dev.disk = s.mem.indexCache
  next : (diskSuper s.dev.disk).nextDataSector = s.mem.super.nextDataSector

/-- A stored object: its type and boundary key, and its payload with the size recorded for it. -/
structure Object where
  objType : UInt32
  boundaryKey : UInt64
  size : UInt32
  payload : List UInt8

def IndexEntry.object (d : Nat → UInt8) (e : IndexEntry) : Object :=
  ⟨e.objType, e.boundaryKey, e.payloadSize, e.payload d⟩

/-- The object an index finds under an OID on a disk. -/
def objectAt (d : Nat → UInt8) (cache : List IndexEntry) (oid : Uuid) : Option Object :=
  (findIndexEntry cache oid).map (IndexEntry.object d)

def Store.value (s : Store) (oid : Uuid) : Option Object :=
  objectAt s.dev.disk s.mem.indexCache oid

section Sound

variable {s s' : Store} {d d' : Nat → UInt8} {n a : Nat} {capacity : UInt64} {d'' : Nat → UInt8}
  {w : Write} {m : Memory} {l : List UInt8} {p : Payload}

lemma Persisted.marked (h : Persisted d capacity) : Marked d :=
  ⟨h.magic, h.version⟩

lemma Persisted.of_flushed (h : Laid m.super m.indexCache capacity) (hsuper : diskSuper d = m.super)
    (hindex : diskIndex d = m.indexCache) : Persisted d capacity := by
  rw [Persisted, hsuper, hindex]
  exact h

lemma Sound.of_flushed (hserves : s.dev.Serves) (hmounted : s.mem.mounted)
    (hfit : s.mem.Fit s.dev.capacity) (hsuper : diskSuper s.dev.disk = s.mem.super)
    (hindex : diskIndex s.dev.disk = s.mem.indexCache) : Sound s := by
  refine ⟨hserves, hmounted, hfit, Persisted.of_flushed hfit.toLaid hsuper hindex, hindex, ?_⟩
  rw [hsuper]

/-! ## What a write leaves alone -/

def SameData (n : Nat) (d d' : Nat → UInt8) : Prop :=
  ∀ i, 512 * 513 ≤ i → i < 512 * n → d' i = d i

lemma SameData.trans (h : SameData n d d') (h' : SameData n d' d'') : SameData n d d'' :=
  fun i hl hr => (h' i hl hr).trans (h i hl hr)

lemma sameData_store (h : a + l.length ≤ 512 * 513 ∨ 512 * n ≤ a) : SameData n d (store d a l) := by
  intro i hl hr
  apply store_of_disjoint
  omega

lemma SameData.object (h : SameData n d d') (hstart : 513 ≤ e.dataSector.toNat)
    (hstop : e.stop ≤ n) : e.object d' = e.object d := by
  unfold IndexEntry.stop at hstop
  have hload : load d' (512 * e.dataSector.toNat) (512 * e.dataSectors.toNat) =
      load d (512 * e.dataSector.toNat) (512 * e.dataSectors.toNat) := by
    apply load_congr
    intro i hl hr
    exact h i (by omega) (by omega)
  rw [IndexEntry.object, IndexEntry.object, IndexEntry.payload, IndexEntry.payload, hload]

lemma SameData.objectAt (h : SameData n d d') (hvalid : ValidIndex n cache) (oid : Uuid) :
    objectAt d' cache oid = objectAt d cache oid := by
  unfold Disk.objectAt
  cases hf : findIndexEntry cache oid with
  | none => rfl
  | some e =>
    have he := lookup_mem hf
    exact congrArg some (h.object (hvalid.start e he) (hvalid.stop e he))

structure SameStore (n : Nat) (d d' : Nat → UInt8) : Prop where
  super : diskSuper d' = diskSuper d
  index : diskIndex d' = diskIndex d
  data : SameData n d d'

lemma SameStore.trans (h : SameStore n d d') (h' : SameStore n d' d'') : SameStore n d d'' :=
  ⟨h'.super.trans h.super, h'.index.trans h.index, h.data.trans h'.data⟩

lemma SameStore.persisted (h : SameStore n d d') (hp : Persisted d capacity) :
    Persisted d' capacity := by
  rw [Persisted, h.super, h.index]
  exact hp

lemma Write.InJournal.sameStore (h : w.InJournal) : SameStore n d (store d w.addr w.bytes) := by
  obtain ⟨hl, hr⟩ := h
  exact ⟨diskSuper_store hl, diskIndex_store (.inl hr), sameData_store (.inl (by omega))⟩

lemma sameStore_data (hn : 513 ≤ n) (h : 512 * n ≤ a) : SameStore n d (store d a l) :=
  ⟨diskSuper_store (by omega), diskIndex_store (.inr (by omega)), sameData_store (.inr h)⟩

lemma diskIndex_indexWrite (hlen : cache.length ≤ indexMaxEntries) (hact : ∀ e ∈ cache, e.active) :
    diskIndex (store d (indexWrite cache).addr (indexWrite cache).bytes) = cache := by
  have hload :
    load (store d (indexWrite cache).addr (indexWrite cache).bytes) (512 * 257) (512 * 256) =
      indexImage cache := by
    rw [← length_indexImage cache]
    exact load_store_self
  rw [diskIndex, hload, parseIndex_indexImage hlen hact]

lemma rest_indexWrite (cache : List IndexEntry) :
    diskSuper (store d (indexWrite cache).addr (indexWrite cache).bytes) = diskSuper d ∧
      SameData n d (store d (indexWrite cache).addr (indexWrite cache).bytes) := by
  refine ⟨diskSuper_store ?_, sameData_store (.inl ?_)⟩
  · show 512 ≤ 512 * 257
    omega
  · show 512 * 257 + (indexImage cache).length ≤ 512 * 513
    rw [length_indexImage]

lemma super_store_superWrite (sup : Super) :
    diskSuper (store d (superWrite sup).addr (superWrite sup).bytes) = sup ∧
      diskIndex (store d (superWrite sup).addr (superWrite sup).bytes) = diskIndex d ∧
      SameData n d (store d (superWrite sup).addr (superWrite sup).bytes) := by
  have hlen : (superWrite sup).addr + (superWrite sup).bytes.length = 512 := by
    show 0 + (superImage sup).length = 512
    rw [length_superImage]
  exact ⟨diskSuper_store_superImage sup, diskIndex_store (.inl (by omega)),
    sameData_store (.inl (by omega))⟩

/-! ## Writing -/

lemma Sound.of_sameStore (h : Sound s) (hserves : s'.dev.Serves)
    (hcap : s'.dev.capacity = s.dev.capacity) (hmounted : s'.mem.mounted)
    (hfit : s'.mem.Fit s.dev.capacity) (hcache : s'.mem.indexCache = s.mem.indexCache)
    (hnext : s'.mem.super.nextDataSector = s.mem.super.nextDataSector)
    (hsame : SameStore s.mem.super.nextDataSector.toNat s.dev.disk s'.dev.disk) :
    Sound s' ∧ ∀ o, s'.value o = s.value o := by
  refine ⟨⟨hserves, hmounted, hcap ▸ hfit, hcap ▸ hsame.persisted h.persisted, ?_, ?_⟩, fun o => ?_⟩
  · rw [hsame.index, hcache]
    exact h.index
  · rw [hsame.super, hnext]
    exact h.next
  · rw [Store.value, hcache]
    exact hsame.data.objectAt h.fit.valid o

/-- What is stored of a payload: all of it, unless its size wrapped when it was rounded up. -/
def Payload.kept (p : Payload) : List UInt8 :=
  (Codec.fill (512 * (sectorsNeeded p.size).toNat) p.bytes).take p.size.toNat

lemma payload_store_data (hs : e.dataSectors = sectorsNeeded p.size) (hp : e.payloadSize = p.size) :
    e.payload (store d (dataWrite e p).addr (dataWrite e p).bytes) = p.kept := by
  have hlen : (dataWrite e p).bytes.length = 512 * e.dataSectors.toNat := Codec.length_fill _ _
  have hload : load (store d (dataWrite e p).addr (dataWrite e p).bytes)
      (512 * e.dataSector.toNat) (512 * e.dataSectors.toNat) = (dataWrite e p).bytes := by
    rw [← hlen]
    exact load_store_self
  rw [IndexEntry.payload, hload, Payload.kept, hp, dataWrite, hs]

variable {oid : Uuid} {objType : UInt32} {boundaryKey : UInt64}

lemma Memory.extend_next (m : Memory) (hroom : e.stop ≤ capacity.toNat) :
    (m.extend e).super.nextDataSector.toNat = e.stop := by
  exact Nat.mod_eq_of_lt (Nat.lt_of_le_of_lt hroom capacity.toNat_lt)

section Extend

variable (h : m.Fit capacity) (he : e = m.newEntry oid objType boundaryKey p)
  (hroom : e.stop ≤ capacity.toNat)
  (hlen : findIndexEntry m.indexCache e.oid = none → m.indexCache.length < indexMaxEntries)

include h he hroom hlen

lemma Memory.Fit.extend_valid :
    ValidIndex (m.extend e).super.nextDataSector.toNat (m.extend e).indexCache := by
  have hstart : e.dataSector = m.super.nextDataSector := by rw [he]; rfl
  have hoid : e.oid = oid := by rw [he]; rfl
  rw [hoid] at hlen
  have hactive : e.active := by
    rw [he]
    show ((0x1 : UInt32) &&& 0x1 != 0) = true
    decide
  have hrest : (erase IndexEntry.oid m.indexCache oid).length < indexMaxEntries := by
    cases hf : findIndexEntry m.indexCache oid with
    | none =>
      rw [erase_of_lookup_none hf]
      exact hlen hf
    | some old =>
      have hl := (perm_erase hf).length_eq
      have := h.valid.count
      rw [List.length_cons] at hl
      omega
  have hfresh : e.oid ∉ (erase IndexEntry.oid m.indexCache oid).map IndexEntry.oid := by
    rw [hoid]
    exact not_mem_erase h.valid.oids
  have hstart' : 513 ≤ m.super.nextDataSector.toNat := h.start
  rw [m.extend_next hroom]
  have hextent : e.dataSectors ≠ 0 := he ▸ sectorsNeeded_pos _
  have hcons :=
    (h.valid.erase oid).cons hrest hactive hfresh hextent hstart' (congrArg _ hstart) rfl
  have hp := (m.logged.place_perm e).symm
  rw [hoid] at hp
  exact hcons.subperm hp.symm.subperm

lemma Memory.Fit.extend : (m.extend e).committed.Fit capacity := by
  have hvalid := h.extend_valid he hroom hlen
  have hnext := m.extend_next hroom
  have hsuper := m.extend_super e
  refine ⟨⟨?_, ?_, ?_, nextHead_lt _, ?_, ?_, hvalid⟩, m.logged.place_count e h.count hvalid.count⟩
  · show (m.extend e).super.magic = _
    rw [hsuper]
    exact h.magic
  · show (m.extend e).super.version = _
    rw [hsuper]
    exact h.version
  · show (m.extend e).super.totalSectors = _
    rw [hsuper]
    exact h.total
  · show 513 ≤ (m.extend e).super.nextDataSector.toNat
    have hstart : e.dataSector.toNat = m.super.nextDataSector.toNat := by rw [he]; rfl
    have := h.start
    rw [hnext, IndexEntry.stop]
    omega
  · show (m.extend e).super.nextDataSector.toNat ≤ _
    rw [hnext]
    exact hroom

end Extend

/-- A write plans five block writes: in the journal, of the data, of the index, in the journal again
and of the superblock. -/
lemma writePlan_shape (hhead : m.super.journalHead.toNat < 2048) :
    ∃ intent commit : Write, intent.InJournal ∧ commit.InJournal ∧
      writePlan d m e p = [intent, dataWrite e p, indexWrite (m.extend e).indexCache, commit,
        superWrite (m.extend e).committed.super] := by
  have hhead' : (m.extend e).super.journalHead.toNat < 2048 := by
    rw [Memory.extend_journalHead]
    exact nextHead_lt _
  exact ⟨_, _, journalWrite_inJournal hhead, journalWrite_inJournal hhead', rfl⟩

/-- The disk before the index is flushed: the new data stands behind the objects, and no mount or
read sees it. -/
lemma disk_body (hstart : 513 ≤ m.super.nextDataSector.toNat)
    (he : e = m.newEntry oid objType boundaryKey p)
    (hw : w.InJournal) : SameStore m.super.nextDataSector.toNat d (applyAll d [w, dataWrite e p]) ∧
      e.payload (applyAll d [w, dataWrite e p]) = p.kept := by
  have hdata : e.dataSector = m.super.nextDataSector := by rw [he]; rfl
  refine ⟨hw.sameStore.trans (sameStore_data hstart ?_), payload_store_data ?_ ?_⟩
  · rw [← hdata]
    exact Nat.le_refl _
  · rw [he]
    rfl
  · rw [he]
    rfl

lemma data_finish (hw : w.InJournal) (cache : List IndexEntry) (sup : Super) :
    SameData n d (applyAll d [indexWrite cache, w, superWrite sup]) := by
  exact ((rest_indexWrite cache).2.trans hw.sameStore.data).trans (super_store_superWrite sup).2.2

lemma disk_finish (hw : w.InJournal) (hlen : cache.length ≤ indexMaxEntries)
    (hact : ∀ e ∈ cache, e.active) (sup : Super) :
    diskSuper (applyAll d [indexWrite cache, w, superWrite sup]) = sup ∧
      diskIndex (applyAll d [indexWrite cache, w, superWrite sup]) = cache := by
  simp only [applyAll_cons, applyAll_nil]
  refine ⟨(super_store_superWrite (n := 0) sup).1, ?_⟩
  rw [(super_store_superWrite (n := 0) sup).2.1, (hw.sameStore (n := 0)).index]
  exact diskIndex_indexWrite hlen hact

lemma payload_write (hhead : m.super.journalHead.toNat < 2048)
    (hstart : 513 ≤ m.super.nextDataSector.toNat) (he : e = m.newEntry oid objType boundaryKey p) :
    e.payload (applyAll d (writePlan d m e p)) = p.kept := by
  obtain ⟨intent, commit, hintent, hcommit, hplan⟩ := writePlan_shape hhead
  rw [← (disk_body hstart he hintent).2, hplan]
  have hdata := data_finish (d := applyAll d [intent, dataWrite e p]) (n := e.stop) hcommit
    (m.extend e).indexCache (m.extend e).committed.super
  have hstart' : 513 ≤ e.dataSector.toNat := by
    rw [he]
    exact hstart
  exact congrArg Object.payload (hdata.object hstart' (Nat.le_refl _))

lemma Sound.disk_write (h : Sound s) (he : e = s.mem.newEntry oid objType boundaryKey p)
    (hvalid : ValidIndex (s.mem.extend e).super.nextDataSector.toNat (s.mem.extend e).indexCache)
    (hd : d' = applyAll s.dev.disk (writePlan s.dev.disk s.mem e p)) :
    diskSuper d' = (s.mem.extend e).committed.super ∧ diskIndex d' = (s.mem.extend e).indexCache ∧
      SameData s.mem.super.nextDataSector.toNat s.dev.disk d' ∧ e.payload d' = p.kept := by
  have hpay := payload_write (d := s.dev.disk) h.fit.head h.fit.start he
  rw [← hd] at hpay
  obtain ⟨intent, commit, hintent, hcommit, hplan⟩ :=
    writePlan_shape h.fit.head
  have hbody := (disk_body (d := s.dev.disk) h.fit.start he hintent).1
  obtain ⟨hsuper, hindex⟩ := disk_finish (d := applyAll s.dev.disk [intent, dataWrite e p]) hcommit
    hvalid.count hvalid.active (s.mem.extend e).committed.super
  rw [hplan] at hd
  subst hd
  exact ⟨hsuper, hindex, hbody.data.trans (data_finish hcommit _ _), hpay⟩

lemma Memory.Fit.objectAt_extend (h : m.Fit capacity)
    (he : e = m.newEntry oid objType boundaryKey p)
    (hvalid : ValidIndex (m.extend e).super.nextDataSector.toNat (m.extend e).indexCache)
    (hdata : SameData m.super.nextDataSector.toNat d d') (hpay : e.payload d' = p.kept) (o : Uuid) :
    objectAt d' (m.extend e).indexCache o =
      if oid = o then some ⟨objType, boundaryKey, p.size, p.kept⟩ else
      objectAt d m.indexCache o := by
  have hoid : e.oid = oid := by rw [he]; rfl
  have hobj : e.object d' = ⟨objType, boundaryKey, p.size, p.kept⟩ := by
    rw [IndexEntry.object, hpay, he]
    rfl
  have hperm : (m.extend e).indexCache.Perm (e :: erase IndexEntry.oid m.indexCache oid) := by
    rw [← hoid]
    exact m.logged.place_perm e
  rw [Disk.objectAt, findIndexEntry, lookup_perm hvalid.oids hperm, lookup_cons, hoid]
  by_cases ho : oid = o
  · rw [if_pos ho, if_pos ho, Option.map_some, hobj]
  · rw [if_neg ho, if_neg ho, lookup_erase_of_ne ho]
    exact hdata.objectAt h.valid o

lemma Sound.write (h : Sound s) (hok : writeObjBk oid objType boundaryKey p s = .ok () s') :
    Sound s' ∧ ∀ o, s'.value o =
      if oid = o then some ⟨objType, boundaryKey, p.size, p.kept⟩ else s.value o := by
  generalize he : s.mem.newEntry oid objType boundaryKey p = e
  obtain ⟨⟨t, hdev⟩, hmem, hroom, hlen⟩ :=
    (writeObjBk_issues he.symm h.serves h.mounted h.fit.head).of_ok hok
  have hvalid := h.fit.extend_valid he.symm hroom hlen
  have hdisk : s'.dev.disk = applyAll s.dev.disk (writePlan s.dev.disk s.mem e p) := by
    rw [hdev, Device.after_disk]
  obtain ⟨hsuper, hindex, hdata, hpay⟩ := h.disk_write he.symm hvalid hdisk
  refine ⟨Sound.of_flushed (hdev ▸ h.serves.after _ _) ?_ ?_ ?_ ?_, fun o => ?_⟩
  · rw [hmem]
    show (s.mem.logged.place e).mounted = true
    rw [(s.mem.logged.place_rest e).2]
    exact h.mounted
  · rw [hmem, hdev]
    exact h.fit.extend he.symm hroom hlen
  · rw [hmem, hsuper]
  · rw [hmem, hindex]
    rfl
  · rw [Store.value, hmem]
    exact h.fit.objectAt_extend he.symm hvalid hdata hpay o

/-! ## Deleting -/

lemma Laid.remove (h : Laid m.super m.indexCache capacity) (oid : Uuid) :
    Laid (m.remove oid).super (m.remove oid).indexCache capacity :=
  ⟨h.magic, h.version, h.total, h.head, h.start, h.room, h.valid.erase oid⟩

lemma Memory.Fit.remove (h : m.Fit capacity) {old : IndexEntry}
    (hf : findIndexEntry m.indexCache oid = some old) : (m.remove oid).Fit capacity := by
  refine ⟨h.toLaid.remove oid, ?_⟩
  have hlen := (perm_erase hf).length_eq
  rw [List.length_cons] at hlen
  have hcount := h.count
  have hpos : 0 < m.super.objCount := by
    show 0 < m.super.objCount.toNat
    omega
  have hone : 1 ≤ m.super.objCount := by
    show 1 ≤ m.super.objCount.toNat
    omega
  show (if 0 < m.super.objCount then m.super.objCount - 1 else m.super.objCount).toNat =
    (erase IndexEntry.oid m.indexCache oid).length
  rw [if_pos hpos, UInt64.toNat_sub_of_le _ _ hone]
  show m.super.objCount.toNat - 1 = _
  omega

lemma disk_flush (hlen : cache.length ≤ indexMaxEntries) (hact : ∀ e ∈ cache, e.active)
    (sup : Super) : diskSuper (applyAll d [indexWrite cache, superWrite sup]) = sup ∧
      diskIndex (applyAll d [indexWrite cache, superWrite sup]) = cache ∧
      SameData n d (applyAll d [indexWrite cache, superWrite sup]) := by
  simp only [applyAll_cons, applyAll_nil]
  refine ⟨(super_store_superWrite (n := 0) sup).1, ?_,
    (rest_indexWrite cache).2.trans (super_store_superWrite sup).2.2⟩
  rw [(super_store_superWrite (n := 0) sup).2.1]
  exact diskIndex_indexWrite hlen hact

lemma objectAt_erase (hvalid : ValidIndex n cache) (hdata : SameData n d d') (oid o : Uuid) :
    objectAt d' (erase IndexEntry.oid cache oid) o = if oid = o then none else
    objectAt d cache o := by
  rw [objectAt, findIndexEntry]
  by_cases ho : oid = o
  · rw [if_pos ho, ← ho, lookup_erase_self hvalid.oids]
    rfl
  · rw [if_neg ho, lookup_erase_of_ne ho]
    exact hdata.objectAt hvalid o

lemma Sound.delete (h : Sound s) (hok : deleteObj oid s = .ok () s') :
    Sound s' ∧ ∀ o, s'.value o = if oid = o then none else s.value o := by
  obtain ⟨⟨t, hdev⟩, hmem, old, hold⟩ := (deleteObj_issues h.serves h.mounted).of_ok hok
  have hfit := h.fit.remove hold
  have hdisk : s'.dev.disk = applyAll s.dev.disk
      [indexWrite (s.mem.remove oid).indexCache, superWrite (s.mem.remove oid).super] := by
    rw [hdev, Device.after_disk]
  obtain ⟨hsuper, hindex, hdata⟩ := disk_flush
    hfit.valid.count hfit.valid.active (s.mem.remove oid).super
  rw [← hdisk] at hsuper hindex hdata
  refine ⟨.of_flushed (hdev ▸ h.serves.after _ _) ?_ ?_ ?_ ?_, ?_⟩
  · rw [hmem]
    exact h.mounted
  · rw [hmem, hdev]
    exact hfit
  · rw [hmem, hsuper]
  · rw [hmem, hindex]
  · intro o
    rw [Store.value, hmem]
    exact objectAt_erase h.fit.valid hdata oid o

/-! ## Mounting and formatting -/

lemma Laid.fit_mounted {sup : Super} (h : Laid sup cache capacity) (txn : UInt32) :
    (mountedMemory sup cache txn).Fit capacity := by
  have hsize : indexMaxEntries < UInt64.size := by decide
  have hcount : (UInt64.ofNat cache.length).toNat = cache.length :=
    UInt64.toNat_ofNat_of_lt' (Nat.lt_of_le_of_lt h.valid.count hsize)
  exact ⟨⟨h.magic, h.version, h.total, h.head, h.start, h.room, h.valid⟩, hcount⟩

lemma mountedMemory_rest (sup : Super) (cache : List IndexEntry) (txn : UInt32) :
    (mountedMemory sup cache txn).mounted = true ∧
    (mountedMemory sup cache txn).indexCache = cache ∧
      (mountedMemory sup cache txn).super.nextDataSector = sup.nextDataSector ∧
      (mountedMemory sup cache txn).super.journalHead = sup.journalHead ∧
      (mountedMemory sup cache txn).super.totalSectors = sup.totalSectors :=
  ⟨rfl, rfl, rfl, rfl, rfl⟩

lemma Persisted.mount (h : Persisted s.dev.disk s.dev.capacity) (hserves : s.dev.Serves)
    (hok : storeInit s = .ok () s') : Sound s' ∧
      s'.mem = mountedMemory (diskSuper s.dev.disk) (diskIndex s.dev.disk) s.mem.nextTxnId ∧
      (∀ n, SameData n s.dev.disk s'.dev.disk) ∧ s'.dev.capacity = s.dev.capacity := by
  obtain ⟨hmark, hmem, ws, t, hws, hdev⟩ := (storeInit_ends hserves).of_ok hok
  have hfit := Laid.fit_mounted h s.mem.nextTxnId
  have hcap : s'.dev.capacity = s.dev.capacity := by
    rw [hdev]
    rfl
  have hserves' : s'.dev.Serves := hdev ▸ hserves.after _ _
  have hfit' : s'.mem.Fit s'.dev.capacity := by rwa [hmem, hcap]
  obtain ⟨hmounted, hcache, hnext, -⟩ :=
    mountedMemory_rest (diskSuper s.dev.disk) (diskIndex s.dev.disk) s.mem.nextTxnId
  rw [← hmem] at hmounted hcache hnext
  rcases hws with rfl | rfl
  · -- nothing was written
    have hdisk : s'.dev.disk = s.dev.disk := by rw [hdev, Device.after_disk, applyAll_nil]
    refine ⟨⟨hserves', hmounted, hfit', ?_, ?_, ?_⟩, hmem, fun n i _ _ => ?_, hcap⟩
    · rw [hdisk, hcap]
      exact h
    · rw [hdisk, hcache]
    · rw [hdisk, hnext]
    · rw [hdisk]
  · -- the repaired superblock was written
    have hdisk : s'.dev.disk =
        store s.dev.disk (superWrite s'.mem.super).addr (superWrite s'.mem.super).bytes := by
      rw [hdev, Device.after_disk, applyAll_cons, applyAll_nil]
    have hwrite := fun n => super_store_superWrite (d := s.dev.disk) (n := n) s'.mem.super
    rw [← hdisk] at hwrite
    refine ⟨Sound.of_flushed hserves' hmounted hfit' (hwrite 0).1 ?_, hmem, fun n => (hwrite n).2.2,
      hcap⟩
    rw [(hwrite 0).2.1, hcache]

lemma Sound.remount (h : Sound s) (hok : storeInit ⟨s.dev, m⟩ = .ok () s') :
    Sound s' ∧ ∀ o, s'.value o = s.value o := by
  obtain ⟨hsound, hmem, hdata, -⟩ := Persisted.mount (s := ⟨s.dev, m⟩) h.persisted h.serves hok
  refine ⟨hsound, fun o => ?_⟩
  have hcache : s'.mem.indexCache = s.mem.indexCache := by
    rw [hmem, (mountedMemory_rest _ _ _).2.1, h.index]
  rw [Store.value, hcache]
  exact (hdata _).objectAt h.fit.valid o

lemma Sound.mount {afterPowerCycle : Bool} (h : Sound s)
    (hok : (DiskOp.mount afterPowerCycle).exec s = .ok () s') :
    Sound s' ∧ ∀ o, s'.value o = s.value o := by
  cases afterPowerCycle with
  | false => exact h.remount hok
  | true => exact h.remount hok

lemma format_sound (hok : formatForced s = .ok () s') : Sound s' ∧ ∀ o, s'.value o = none := by
  obtain ⟨⟨t, hdev⟩, hmem, hserves⟩ := formatForced_issues.of_ok hok
  have hdisk : s'.dev.disk = applyAll s.dev.disk
      (zeroPlan dataStart.toNat ++ [superWrite (emptySuper s.dev.capacity)]) := by
    rw [hdev, Device.after_disk]
  rw [applyAll_append, applyAll_cons, applyAll_nil] at hdisk
  obtain ⟨hsuper, hindex, -⟩ := super_store_superWrite (n := 0)
    (emptySuper s.dev.capacity)
  rw [← hdisk] at hsuper hindex
  have hempty : diskIndex (applyAll s.dev.disk (zeroPlan dataStart.toNat)) = [] := by
    apply diskIndex_zeros
    intro i _ hi
    exact applyAll_zeroPlan _ _ hi
  refine ⟨.of_flushed (hdev ▸ hserves.after _ _) ?_ ?_ ?_ ?_, fun o => ?_⟩
  · rw [hmem]
    rfl
  · rw [hmem, hdev, Device.after_capacity]
    refine ⟨⟨rfl, rfl, rfl, ?_, ?_, hserves.room, .nil⟩, rfl⟩
    · show (0 : UInt32).toNat < 2048
      decide
    · show 513 ≤ (513 : UInt64).toNat
      decide
  · rw [hmem, hsuper]
    rfl
  · rw [hmem, hindex, hempty]
    rfl
  · rw [Store.value, hmem]
    rfl

/-! ## Runs without faults -/

lemma format_calm (hs : s.dev.Serves) (hc : s.dev.Calm) : ∃ s', formatForced s = .ok () s' ∧
    s'.dev.Calm ∧ s'.mem = formattedMemory s.dev.capacity ∧ s'.dev.capacity = s.dev.capacity := by
  obtain ⟨_, s', hok⟩ := formatForced_issues.ok_of_calm hc (not_not.mpr hs)
  obtain ⟨⟨t, hdev⟩, hmem, -⟩ := formatForced_issues.of_ok hok
  refine ⟨s', hok, ?_, hmem, ?_⟩
  · rw [hdev]
    exact hc.after _ _
  · rw [hdev, Device.after_capacity]

lemma Sound.mount_calm {b : Bool} (h : Sound s) (hc : s.dev.Calm) :
    ∃ s', (DiskOp.mount b).exec s = .ok () s' ∧ s'.dev.Calm := by
  cases b with
  | false => exact storeInit_calm h.serves hc h.persisted.marked
  | true => exact storeInit_calm h.serves hc h.persisted.marked

end Sound

end Anunix.Disk
