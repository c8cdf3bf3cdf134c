import Anunix.Disk.Crash

/-!
# Failed writes of the disk store

An object write changes the cached index before the index and the commit entry are on the disk, and
a failure behind that point is not undone. So a failed write is not seen exactly if it stopped
before that point, for want of sectors, at one of its first four requests or because the index takes
in no further object, or if it was to store the object that is there (`failed_write_unseen`).
-/

namespace Anunix.Disk
open Fallible Region

/-- The next `n` requests to the device and the allocator are met. -/
def Device.Meets (v : Device) (n : Nat) : Prop :=
  ∀ i < n, v.faults (v.tick + i) = none

/-- A write stops before it changes the index: the device has no sectors for it, a request for the
intent or the data is refused, or the entry of a new object cannot be added. -/
def StopsEarly (oid : Uuid) (p : Payload) (s : Store) : Prop :=
  s.dev.capacity.toNat < s.mem.super.nextDataSector.toNat + (sectorsNeeded p.size).toNat ∨
    ¬ s.dev.Meets 4 ∨ findIndexEntry s.mem.indexCache oid = none ∧
      (indexMaxEntries ≤ s.mem.indexCache.length ∨ ¬ s.dev.Meets 5)

/-- Every object reads as before, in the running store and after every mount. -/
def Unseen (s s' : Store) : Prop :=
  (∀ o, SameReading s s' o) ∧ ∀ faults m s'',
    storeInit ⟨{ s'.dev with faults := faults }, m⟩ = .ok () s'' → ∀ o, SameReading s s'' o

section Failed

variable {s s' : Store} {oid : Uuid} {objType : UInt32} {boundaryKey : UInt64} {p : Payload}
  {e : IndexEntry} {m : Memory} {err : Err} {n k : Nat}

/-! ## Where a write fails -/

lemma blkWrite_bind_ends {β : Type} {Q : β → Store → Prop} {E : Err → Store → Prop} {lba : UInt64}
    {count : UInt32} {buf : List UInt8} {f : Unit → StoreM β} (hready : s.dev.ready)
    (hcount : count ≠ 0)
    (herr : ∀ e, s.dev.faults s.dev.tick ≠ none ∨ s.dev.capacity.toNat < lba.toNat + count.toNat →
      E e s.tock)
    (hok : s.dev.faults s.dev.tick = none → ∀ ws,
      Ends (f ()) ⟨s.dev.after ws (s.dev.tick + 1), s.mem⟩ Q E) :
    Ends (blkWrite lba count buf >>= f) s Q E := by
  apply Ends.bind
  refine .get_bind (.pass (by simp [hready]) ?_)
  rw [if_neg hcount]
  refine .bind (transfer_ends (fun e h => herr e (.inl (h ▸ Option.some_ne_none e)))
    (fun hlt => herr _ (.inr hlt)) fun h => ?_)
  exact hok h [⟨512 * lba.toNat, buf.take (512 * count.toNat)⟩]

lemma writeData_stops (h : Sound s) : Ends (writeData oid objType boundaryKey p) s
      (fun _ s' => s.dev.Meets 4 ∧ s'.dev.tick = s.dev.tick + 4 ∧ s'.dev.faults = s.dev.faults)
      fun _ s' => StopsEarly oid p s ∧ s'.mem.indexCache = s.mem.indexCache ∧ s'.mem.mounted := by
  have hfault {i : Nat} (hi : i < 4) (hf : s.dev.faults (s.dev.tick + i) ≠ none) :
      StopsEarly oid p s :=
    .inr (.inl fun hmeets => hf (hmeets i hi))
  refine .get_bind (.pass (by simp [h.mounted]) ?_)
  refine .get_bind (.get_bind (.failIf_bind (fun hfull => ⟨.inl ?_, rfl, h.mounted⟩) fun _ => ?_))
  · have hlt :
        s.mem.super.totalSectors < s.mem.super.nextDataSector + (sectorsNeeded p.size).toUInt64 :=
      of_decide_eq_true hfull
    rw [h.fit.total, UInt64.lt_iff_toNat_lt, UInt64.toNat_add] at hlt
    exact Nat.lt_of_lt_of_le hlt (Nat.mod_le _ _)
  -- the intent
  have hjournal := h.serves.fits_journal h.fit.head
  refine .bind (.get_bind (.get_bind ?_))
  refine blkRead_bind_ends h.serves.ready (by decide) hjournal
    (fun e he => ⟨hfault (i := 0) (by omega) (he ▸ Option.some_ne_none e), rfl, h.mounted⟩)
    fun hf0 => ?_
  refine blkWrite_bind_ends h.serves.ready (by decide)
    (fun e he => ⟨?_, rfl, h.mounted⟩) fun hf1 ws => ?_
  · exact he.elim (hfault (i := 1) (by omega)) fun hlt => absurd hjournal (Nat.not_le.mpr hlt)
  -- the data
  refine alloc_bind_ends (fun e he =>
    ⟨hfault (i := 2) (by omega) (he ▸ Option.some_ne_none e), rfl, h.mounted⟩) fun hf2 => ?_
  refine blkWrite_bind_ends h.serves.ready (sectorsNeeded_pos _)
    (fun e he => ⟨?_, rfl, h.mounted⟩) fun hf3 us => ?_
  · exact he.elim (hfault (i := 3) (by omega)) .inl
  · refine ⟨fun i hi => ?_, rfl, rfl⟩
    obtain rfl | rfl | rfl | rfl : i = 0 ∨ i = 1 ∨ i = 2 ∨ i = 3 := by omega
    exacts [hf0, hf1, hf2, hf3]

lemma updateIndex_stops : Ends (updateIndex e) s
      (fun _ _ => findIndexEntry s.mem.indexCache e.oid = none →
        s.mem.indexCache.length < indexMaxEntries ∧ s.dev.faults s.dev.tick = none)
      fun _ s' => s'.mem.mounted = s.mem.mounted ∧
        match findIndexEntry s.mem.indexCache e.oid with
        | none => (indexMaxEntries ≤ s.mem.indexCache.length ∨ s.dev.faults s.dev.tick ≠ none) ∧
          s'.mem.indexCache = s.mem.indexCache
        | some old => old.boundaryKey ≠ e.boundaryKey ∧
          s'.mem.indexCache = Keyed.erase IndexEntry.oid s.mem.indexCache e.oid := by
  refine .get_bind ?_
  cases findIndexEntry s.mem.indexCache e.oid with
  | none =>
    refine .bind (.get_bind
      (.failIf_bind (fun hfull => ⟨rfl, .inl (of_decide_eq_true hfull), rfl⟩) fun hroom => ?_))
    refine alloc_bind_ends (fun e' he => ⟨rfl, .inr (he ▸ Option.some_ne_none e'), rfl⟩)
      fun hf _ => ⟨?_, hf⟩
    exact Nat.lt_of_not_le (of_decide_eq_false hroom)
  | some old =>
    dsimp only
    split
    · exact fun hnone => absurd hnone (Option.some_ne_none old)
    · rename_i hkey
      refine .modify_bind (.get_bind (.failIf_bind (fun _ => ⟨rfl, hkey, rfl⟩) fun _ => ?_))
      exact alloc_bind_ends (fun _ _ => ⟨rfl, hkey, rfl⟩)
        fun _ hnone => absurd hnone (Option.some_ne_none old)

def KeepsIndex (s s' : Store) : Prop :=
  s'.mem.mounted = s.mem.mounted ∧ s'.mem.indexCache = s.mem.indexCache

instance : IsPreorder Store KeepsIndex where
  refl _ := ⟨rfl, rfl⟩
  trans _ _ _ h h' := ⟨h'.1.trans h.1, h'.2.trans h.2⟩

lemma keepsIndex_of_trace {α : Type} {x : StoreM α} (h : Within (Trace fun _ => True) x) :
    Within KeepsIndex x := by
  intro s
  obtain ⟨ws, t, -, hmem, -⟩ := h s
  exact ⟨congrArg Memory.mounted hmem, congrArg Memory.indexCache hmem⟩

lemma finishWrite_keepsIndex (e : IndexEntry) : Within KeepsIndex (finishWrite e) := by
  have hget : Within KeepsIndex getMem := .bind .get fun _ => .pure _
  have hwrite (lba : UInt64) (count : UInt32) (buf : List UInt8) :
      Within KeepsIndex (blkWrite lba count buf) :=
    keepsIndex_of_trace (blkWrite_trace trivial)
  have hentry (entry : JournalEntry) : Within KeepsIndex (writeJournalEntry entry) :=
    .bind hget fun _ => .bind (keepsIndex_of_trace blkRead_trace) fun _ =>
      .bind (hwrite _ _ _) fun _ => .modify fun _ => ⟨rfl, rfl⟩
  refine .bind (.modify fun _ => ⟨rfl, rfl⟩) fun _ => .bind ?_ fun _ => ?_
  · exact .bind (keepsIndex_of_trace alloc_trace) fun _ => .bind hget fun _ => hwrite _ _ _
  · exact .bind hget fun _ => .bind (hentry _) fun _ => .bind (.modify fun _ => ⟨rfl, rfl⟩) fun _ =>
      .bind (.modify fun _ => ⟨rfl, rfl⟩) fun _ => .bind hget fun _ => hwrite _ _ _

/-! ## What is seen of it -/

lemma Store.reads_of_valid (hready : s.dev.ready) (hmounted : s.mem.mounted)
    (hvalid : ValidIndex n s.mem.indexCache) (hn : n ≤ s.dev.capacity.toNat) (o : Uuid) :
    s.Reads o (s.value o) := by
  refine ⟨readObj_outcome (s := s.calm) hready hmounted fun e he => ?_,
    getBoundaryKey_outcome (s := s.calm) hmounted o⟩
  exact ⟨hvalid.extent e (Keyed.lookup_mem he), (hvalid.stop e (Keyed.lookup_mem he)).trans hn⟩

lemma Store.Reads.same {o : Uuid} {v : Option Object} (h : s.Reads o v) (h' : s'.Reads o v) :
    SameReading s s' o := by
  refine ⟨fun bufSize => ?_, ?_⟩
  · rw [h.1, h'.1]
    rfl
  · rw [h.2, h'.2]

lemma Store.value_length (s : Store) (o : Uuid) :
    ∀ x ∈ s.value o, x.payload.length ≤ 2 ^ 32 - 1 := by
  intro x hx
  obtain ⟨e, -, rfl⟩ := Option.map_eq_some_iff.mp hx
  show (e.payload s.dev.disk).length ≤ _
  rw [IndexEntry.payload]
  exact Nat.le_trans (List.length_take_le _ _) (Nat.le_pred_of_lt e.payloadSize.toNat_lt)

/-- A read that is given room for everything tells objects apart. -/
lemma Store.Reads.value_eq {o : Uuid} (h : s.Reads o (s.value o)) (h' : s'.Reads o (s'.value o))
    (hsame : SameReading s s' o) : s'.value o = s.value o := by
  have hlen := s.value_length o
  have hlen' := s'.value_length o
  obtain ⟨hread, hkey⟩ := hsame
  have hread := hread 0xffffffff
  rw [h.1, h'.1] at hread
  rw [h.2, h'.2] at hkey
  generalize s.value o = v at *
  generalize s'.value o = v' at *
  cases v with
  | none =>
    cases v' with
    | none => rfl
    | some x' => cases hkey
  | some x =>
    cases v' with
    | none => cases hkey
    | some x' =>
      have hreading : (⟨x'.payload.take (2 ^ 32 - 1), x'.size, x'.objType⟩ : Reading) =
          ⟨x.payload.take (2 ^ 32 - 1), x.size, x.objType⟩ := Except.ok.inj hread
      have hkey : x'.boundaryKey = x.boundaryKey := Except.ok.inj hkey
      obtain ⟨hpayload, hsize, htype⟩ := Reading.mk.inj hreading
      rw [List.take_of_length_le (hlen' x' rfl), List.take_of_length_le (hlen x rfl)] at hpayload
      cases x
      cases x'
      cases htype
      cases hkey
      cases hsize
      cases hpayload
      rfl

lemma remount_reads {c : Store} (hserves : c.dev.Serves)
    (hvalid : ValidIndex n (diskIndex c.dev.disk))
    (hn : n ≤ c.dev.capacity.toNat) (hok : storeInit c = .ok () s') (o : Uuid) :
    s'.Reads o (objectAt c.dev.disk (diskIndex c.dev.disk) o) := by
  obtain ⟨-, hmem, ws, t, hws, hdev⟩ := (storeInit_ends hserves).of_ok hok
  obtain ⟨hmounted, hcache, -⟩ :=
    mountedMemory_rest (diskSuper c.dev.disk) (diskIndex c.dev.disk) c.mem.nextTxnId
  rw [← hmem] at hmounted hcache
  have hdata : SameData n c.dev.disk s'.dev.disk := by
    rw [hdev]
    rcases hws with rfl | rfl
    · exact fun _ _ _ => rfl
    · exact (super_store_superWrite _).2.2
  rw [← hdata.objectAt hvalid o, ← hcache]
  exact s'.reads_of_valid (hdev ▸ (hserves.after _ _).ready) hmounted (hcache ▸ hvalid)
    (by rw [hdev]; exact hn) o

lemma Sound.unseen (h : Sound s) (hserves : s'.dev.Serves) (hrun : ∀ o, s'.Reads o (s.value o))
    (hvalid : ValidIndex n (diskIndex s'.dev.disk)) (hn : n ≤ s'.dev.capacity.toNat)
    (hdisk : ∀ o, objectAt s'.dev.disk (diskIndex s'.dev.disk) o = s.value o) : Unseen s s' := by
  refine ⟨fun o => (h.reads o).same (hrun o), fun faults m s'' hok o => (h.reads o).same ?_⟩
  rw [← hdisk o]
  exact remount_reads (c := ⟨{ s'.dev with faults := faults }, m⟩) ⟨hserves.ready,
    hserves.room⟩ hvalid hn hok o

section Cases

variable (h : Sound s) (he : e = s.mem.newEntry oid objType boundaryKey p) {t : Nat}
  (hdev : s'.dev = s.dev.after ((writePlan s.dev.disk s.mem e p).take k) t)
  (hmounted : s'.mem.mounted)
include h he hdev hmounted

lemma Sound.unseen_early (hk : k ≤ 2) (hcache : s'.mem.indexCache = s.mem.indexCache) :
    Unseen s s' := by
  have hsame : SameStore s.mem.super.nextDataSector.toNat s.dev.disk s'.dev.disk := by
    rw [hdev]
    exact h.sameStore_body he hk
  have hindex : diskIndex s'.dev.disk = s.mem.indexCache := hsame.index.trans h.index
  have hserves : s'.dev.Serves := hdev ▸ h.serves.after _ _
  have hroom : s.mem.super.nextDataSector.toNat ≤ s'.dev.capacity.toNat := by
    rw [hdev]
    exact h.fit.room
  refine h.unseen hserves (fun o => ?_) (hindex ▸ h.fit.valid) hroom fun o => ?_
  · rw [Store.value, ← hsame.data.objectAt h.fit.valid o, ← hcache]
    exact s'.reads_of_valid hserves.ready hmounted (hcache ▸ h.fit.valid) hroom o
  · rw [hindex]
    exact hsame.data.objectAt h.fit.valid o

lemma Sound.unseen_late (hroom : s.Room e) (hk : 2 ≤ k)
    (hcache : s'.mem.indexCache = (s.mem.extend e).indexCache) :
    Unseen s s' ↔ s.value oid = some ⟨objType, boundaryKey, p.size, p.kept⟩ := by
  obtain ⟨hdata, hpay, hindex⟩ : SameData s.mem.super.nextDataSector.toNat s.dev.disk s'.dev.disk ∧
      e.payload s'.dev.disk = p.kept ∧
      (diskIndex s'.dev.disk = s.mem.indexCache ∨
        diskIndex s'.dev.disk = (s.mem.extend e).indexCache) := by
    rw [hdev, Device.after_disk]
    rcases Nat.eq_or_lt_of_le hk with rfl | hk
    · obtain ⟨intent, commit, hintent, -, hplan⟩ := writePlan_shape h.fit.head
      obtain ⟨hbody, hpay⟩ := disk_body h.fit.start he hintent
      rw [hplan]
      exact ⟨hbody.data, hpay, .inl (hbody.index.trans h.index)⟩
    · obtain ⟨-, hindex, hdata, hpay⟩ := h.disk_exposed he hroom hk rfl
      exact ⟨hdata, hpay, .inr hindex⟩
  have hvalid := h.fit.extend_valid he hroom.1 hroom.2
  have hserves : s'.dev.Serves := hdev ▸ h.serves.after _ _
  have hcap : s'.dev.capacity = s.dev.capacity := by rw [hdev, Device.after_capacity]
  have hnext : (s.mem.extend e).super.nextDataSector.toNat ≤ s'.dev.capacity.toNat := by
    rw [s.mem.extend_next hroom.1, hcap]
    exact hroom.1
  have hnew := h.fit.objectAt_extend he hvalid hdata hpay
  have hvalue (o : Uuid) : s'.value o =
      if oid = o then some ⟨objType, boundaryKey, p.size, p.kept⟩ else s.value o := by
    rw [Store.value, hcache]
    exact hnew o
  have hreads := s'.reads_of_valid hserves.ready hmounted (hcache ▸ hvalid) hnext
  constructor
  · rintro ⟨hsame, -⟩
    rw [← (h.reads oid).value_eq (hreads oid) (hsame oid), hvalue, if_pos rfl]
  · intro hold
    have hall (o : Uuid) : (if oid = o then some ⟨objType, boundaryKey, p.size, p.kept⟩ else
        s.value o) = s.value o := by
      split
      · rename_i ho
        rw [← ho, hold]
      · rfl
    have hrun (o : Uuid) : s'.Reads o (s.value o) := by
      rw [← hall, ← hvalue]
      exact hreads o
    rcases hindex with hindex | hindex
    · refine h.unseen hserves hrun (hindex ▸ h.fit.valid) (hcap ▸ h.fit.room) fun o => ?_
      rw [hindex]
      exact hdata.objectAt h.fit.valid o
    · refine h.unseen hserves hrun (hindex ▸ hvalid) hnext fun o => ?_
      rw [hindex, hnew o]
      exact hall o

lemma Sound.seen_erased {old : IndexEntry} (hk : k ≤ 2)
    (hfind : findIndexEntry s.mem.indexCache oid = some old) (hkey : old.boundaryKey ≠ boundaryKey)
    (hcache : s'.mem.indexCache = Keyed.erase IndexEntry.oid s.mem.indexCache oid) :
    ¬ Unseen s s' ∧ s.value oid ≠ some ⟨objType, boundaryKey, p.size, p.kept⟩ := by
  have hvalue : s.value oid = some (old.object s.dev.disk) := by
    rw [Store.value, objectAt, hfind]
    rfl
  refine ⟨fun hunseen => ?_, fun hsame => ?_⟩
  · have hdata : SameData s.mem.super.nextDataSector.toNat s.dev.disk s'.dev.disk := by
      rw [hdev]
      exact (h.sameStore_body he hk).data
    have hgone : s'.value oid = none := by
      rw [Store.value, hcache, objectAt_erase h.fit.valid hdata, if_pos rfl]
    have hreads := s'.reads_of_valid (hdev ▸ (h.serves.after _ _).ready) hmounted
      (hcache ▸ h.fit.valid.erase oid) (by rw [hdev]; exact h.fit.room) oid
    have heq := (h.reads oid).value_eq hreads (hunseen.1 oid)
    rw [hgone, hvalue] at heq
    cases heq
  · rw [hvalue] at hsame
    exact hkey (congrArg Object.boundaryKey (Option.some.inj hsame))

end Cases

/-- How a write fails: before the index is changed, with its entry in the index, or with the entry
that it was to replace taken out. -/
inductive Stop (oid : Uuid) (p : Payload) (s : Store) (e : IndexEntry) (k : Nat)
    (cache : List IndexEntry) : Prop
  | early (hearly : StopsEarly oid p s) (hk : k ≤ 2) (hcache : cache = s.mem.indexCache)
  | late (hnot : ¬ StopsEarly oid p s) (hroom : s.Room e) (hk : 2 ≤ k)
      (hcache : cache = (s.mem.extend e).indexCache)
  | erased (hnot : ¬ StopsEarly oid p s) {old : IndexEntry}
      (hfind : findIndexEntry s.mem.indexCache oid = some old)
      (hkey : old.boundaryKey ≠ e.boundaryKey) (hk : k ≤ 2)
      (hcache : cache = Keyed.erase IndexEntry.oid s.mem.indexCache oid)

/-- What a write that failed leaves: the first `k` of its writes are done. -/
def Fails (oid : Uuid) (p : Payload) (s : Store) (e : IndexEntry) (s' : Store) : Prop :=
  ∃ k t, s'.dev = s.dev.after ((writePlan s.dev.disk s.mem e p).take k) t ∧ s'.mem.mounted ∧
    Stop oid p s e k s'.mem.indexCache

/-- A write whose intent and data are on the disk. -/
structure Filled (p : Payload) (s : Store) (e : IndexEntry) (s1 : Store) : Prop where
  dev : ∃ t, s1.dev = s.dev.after ((writePlan s.dev.disk s.mem e p).take 2) t
  mem : s1.mem = s.mem.logged
  stop : e.stop ≤ s.dev.capacity.toNat
  meets : s.dev.Meets 4
  tick : s1.dev.tick = s.dev.tick + 4
  faults : s1.dev.faults = s.dev.faults

section Stages

variable {s1 s2 : Store} (h : Sound s) (he : e = s.mem.newEntry oid objType boundaryKey p)
include h he

lemma writeData_fails (hx : writeData oid objType boundaryKey p s = .error err s') :
    Fails oid p s e s' := by
  obtain ⟨⟨n, t, hdev⟩, -⟩ :=
    (writeData_issues (R := True) he h.serves h.mounted h.fit.head fun _ => trivial).of_error hx
  obtain ⟨hearly, hcache, hmounted⟩ := (writeData_stops h).of_error hx
  rw [List.take_take] at hdev
  exact ⟨_, t, hdev, hmounted, .early hearly (Nat.min_le_right n 2) hcache⟩

lemma writeData_filled {e' : IndexEntry} (hx : writeData oid objType boundaryKey p s = .ok e' s1) :
    e' = e ∧ Filled p s e s1 := by
  obtain ⟨hdev, rfl, hmem, hstop⟩ :=
    (writeData_issues (R := True) he h.serves h.mounted h.fit.head fun _ => trivial).of_ok hx
  obtain ⟨hmeets, htick, hfaults⟩ := (writeData_stops h).of_ok hx
  exact ⟨rfl, hdev, hmem, hstop, hmeets, htick, hfaults⟩

omit h in
lemma Filled.not_stopsEarly (hf : Filled p s e s1)
    (hnew : findIndexEntry s.mem.indexCache oid = none →
      s.mem.indexCache.length < indexMaxEntries ∧ s.dev.faults (s.dev.tick + 4) = none) :
    ¬ StopsEarly oid p s := by
  have hstop : s.mem.super.nextDataSector.toNat + (sectorsNeeded p.size).toNat ≤
      s.dev.capacity.toNat := by
    have hstop := hf.stop
    rw [he] at hstop
    exact hstop
  rintro (hroom | hfault | ⟨hnone, hfull | hfault⟩)
  · omega
  · exact hfault hf.meets
  · exact Nat.not_le.mpr (hnew hnone).1 hfull
  · refine hfault fun i hi => ?_
    rcases Nat.lt_succ_iff_lt_or_eq.mp hi with hi | rfl
    · exact hf.meets i hi
    · exact (hnew hnone).2

lemma Filled.updateIndex_fails (hf : Filled p s e s1) (hy : updateIndex e s1 = .error err s') :
    Fails oid p s e s' := by
  obtain ⟨t, hdev1⟩ := hf.dev
  obtain ⟨⟨n, u, hdev⟩, -⟩ := (updateIndex_issues (R := True) fun _ => trivial).of_error hy
  obtain ⟨hmounted, hcase⟩ := updateIndex_stops.of_error hy
  rw [List.take_nil, hdev1, Device.after_after, List.append_nil] at hdev
  rw [hf.mem] at hmounted hcase
  refine ⟨2, u, hdev, hmounted.trans h.mounted, ?_⟩
  have hoid : e.oid = oid := by rw [he]; rfl
  rw [hoid, hf.faults, hf.tick] at hcase
  cases hfind : findIndexEntry s.mem.indexCache oid with
  | none =>
    rw [show findIndexEntry s.mem.logged.indexCache oid = none from hfind] at hcase
    refine .early (.inr (.inr ⟨hfind, ?_⟩)) (Nat.le_refl 2) hcase.2
    exact hcase.1.imp_right fun hfault hmeets => hfault (hmeets 4 (by omega))
  | some old =>
    rw [show findIndexEntry s.mem.logged.indexCache oid = some old from hfind] at hcase
    have hnot := hf.not_stopsEarly he fun hnone =>
      absurd (hfind.symm.trans hnone) (Option.some_ne_none old)
    exact .erased hnot hfind hcase.1 (Nat.le_refl 2) hcase.2

lemma Filled.finishWrite_fails (hf : Filled p s e s1) (hy : updateIndex e s1 = .ok () s2)
    (hz : finishWrite e s2 = .error err s') : Fails oid p s e s' := by
  obtain ⟨t, hdev1⟩ := hf.dev
  obtain ⟨⟨u, hdev2⟩, hmem2, -⟩ := (updateIndex_issues (R := True) fun _ => trivial).of_ok hy
  have hoid : e.oid = oid := by rw [he]; rfl
  have hnew := updateIndex_stops.of_ok hy
  rw [hf.mem, hoid, hf.faults, hf.tick] at hnew
  rw [hdev1, Device.after_after, List.append_nil] at hdev2
  rw [hf.mem] at hmem2
  have hfinish := finishWrite_issues (R := True) (hdev2 ▸ h.serves.after _ _) hmem2
  rw [hdev2] at hfinish
  obtain ⟨⟨n, v, hdev⟩, -⟩ := hfinish.of_error hz
  obtain ⟨hmounted, hcache⟩ : KeepsIndex s2 s' := by
    have hkeeps := finishWrite_keepsIndex e s2
    rwa [final, hz] at hkeeps
  rw [hmem2] at hmounted hcache
  rw [hdev2, Device.after_after] at hdev
  refine ⟨2 + n, v, ?_, ?_, .late (hf.not_stopsEarly he hnew)
    ⟨hf.stop, fun hnone => (hnew (hoid ▸ hnone)).1⟩ (by omega) hcache⟩
  · rw [hdev, List.take_add]
    rfl
  · rw [hmounted, (s.mem.logged.place_rest e).2]
    exact h.mounted

lemma writeObjBk_fails (hfail : writeObjBk oid objType boundaryKey p s = .error err s') :
    Fails oid p s e s' := by
  rw [writeObjBk_eq] at hfail
  cases hx : writeData oid objType boundaryKey p s with
  | error err' s1 =>
    simp only [bind, EStateM.bind, hx] at hfail
    cases hfail
    exact writeData_fails h he hx
  | ok e' s1 =>
    obtain ⟨rfl, hf⟩ := writeData_filled h he hx
    cases hy : updateIndex e' s1 with
    | error err' s2 =>
      simp only [bind, EStateM.bind, hx, hy] at hfail
      cases hfail
      exact hf.updateIndex_fails h he hy
    | ok _ s2 =>
      simp only [bind, EStateM.bind, hx, hy] at hfail
      exact hf.finishWrite_fails h he hy hfail

end Stages

end Failed

/-- **A failed write is not seen** exactly if it stopped early or was to store the object that is
there. -/
theorem failed_write_unseen {s s' : Store} {oid : Uuid} {objType : UInt32} {boundaryKey : UInt64}
    {p : Payload} {err : Err} (h : Sound s)
    (hfail : writeObjBk oid objType boundaryKey p s = .error err s') :
    Unseen s s' ↔ StopsEarly oid p s ∨
    s.value oid = some ⟨objType, boundaryKey, p.size, p.kept⟩ := by
  obtain ⟨k, t, hdev, hmounted, hstop⟩ := writeObjBk_fails h rfl hfail
  cases hstop with
  | early hearly hk hcache =>
    exact iff_of_true (h.unseen_early rfl hdev hmounted hk hcache) (.inl hearly)
  | late hnot hroom hk hcache =>
    rw [h.unseen_late rfl hdev hmounted hroom hk hcache, or_iff_right hnot]
  | erased hnot hfind hkey hk hcache =>
    obtain ⟨hseen, hvalue⟩ := h.seen_erased rfl hdev hmounted hk hfind hkey hcache
    exact iff_of_false hseen (not_or.mpr ⟨hnot, hvalue⟩)

def faultyStore (faults : Nat → Option Err) : Store where
  dev :=
    { ready := true, capacity := 1000, disk := store (fun _ => 0) 0 (superImage (emptySuper 1000)),
           faults := faults, tick := 0, log := [] }
  mem := formattedMemory 1000

lemma faultyStore_sound (faults : Nat → Option Err) : Sound (faultyStore faults) := by
  obtain ⟨hsuper, hindex, -⟩ := super_store_superWrite (n := 0) (emptySuper 1000)
  refine .of_flushed ⟨rfl, ?_⟩ rfl ⟨⟨rfl, rfl, rfl, ?_, ?_, ?_, .nil⟩, rfl⟩ hsuper ?_
  · show 513 ≤ (1000 : UInt64).toNat
    decide
  · show (0 : UInt32).toNat < 2048
    decide
  · show 513 ≤ (513 : UInt64).toNat
    decide
  · show (513 : UInt64).toNat ≤ (1000 : UInt64).toNat
    decide
  · exact hindex.trans (diskIndex_zeros fun _ _ _ => rfl)

/-- A write whose first request fails is not seen. -/
theorem failed_write_unseen_intent : ∃ s' err,
    writeObjBk ⟨1, 2⟩ 3 7 samplePayload (faultyStore fun _ => some .eio) = .error err s' ∧
      Unseen (faultyStore fun _ => some .eio) s' := by
  have hfail :
    writeObjBk ⟨1, 2⟩ 3 7 samplePayload (faultyStore fun _ => some .eio) = .error .eio _ := rfl
  refine ⟨_, .eio, hfail,
    (failed_write_unseen (faultyStore_sound _) hfail).mpr (.inl (.inr (.inl fun h => ?_)))⟩
  cases h 0 (by omega)

/-- The request for the buffer that the index is flushed from is refused: the write fails, and the
object is there. -/
theorem failed_write_seen : ∃ faults,
    outcome (writeObjBk ⟨1, 2⟩ 3 7 samplePayload) (faultyStore faults) = .error .enomem ∧
    outcome (readObj ⟨1, 2⟩ 2) (faultyStore faults).calm = .error .enoent ∧
    outcome (readObj ⟨1, 2⟩ 2)
    (final (writeObjBk ⟨1, 2⟩ 3 7 samplePayload) (faultyStore faults)).calm =
      .ok ⟨[10, 20], 2, 3⟩ := by
  refine ⟨fun n => if n = 5 then some .enomem else none, ?_, ?_, ?_⟩
  · rfl
  · rfl
  · decide +kernel

end Anunix.Disk
