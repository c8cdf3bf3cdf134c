import Anunix.Disk.Refinement
import Anunix.Disk.Ring
import Anunix.Lib.Run

/-!
# The ring and the object store on one device

The store takes every sector of the device for its own (`total_sectors` is the capacity), and the
ring sits in the last of them, so a store that fills up runs into the ring. As long as it does not
(`Clear`), the block writes of the ring stay behind the objects (`Trace`) and those of the store
before the ring (`Before`), and neither sees the other.
-/

namespace Anunix.Disk
open Fallible Region List

variable {m m₀ : Machine} {boundaryKey first seq : UInt64} {p : Payload} {P : Write → Prop}
  {start i n : Nat} {log : List UInt8} {s s' : Store} {oid : Uuid} {objType : UInt32}

/-! ## The writes of the ring -/

def Write.InRing (start : Nat) (w : Write) : Prop :=
  512 * start ≤ w.addr ∧ w.addr + w.bytes.length ≤ 512 * (start + 4160)

section Programs

variable {lba : UInt64} {buf : List UInt8}

lemma blkWrite_inRing (hl : start ≤ lba.toNat) (hr : lba.toNat < start + 4160) :
    Within (Trace (Write.InRing start)) (blkWrite lba 1 buf) := by
  have hlen := length_take_le (512 * (1 : UInt32).toNat) buf
  have hone : (1 : UInt32).toNat = 1 := rfl
  refine blkWrite_trace ⟨?_, ?_⟩
  · show 512 * start ≤ 512 * lba.toNat
    omega
  · show 512 * lba.toNat + (buf.take (512 * (1 : UInt32).toNat)).length ≤ _
    omega

lemma deviceIsOurs_trace : Within (Trace P) deviceIsOurs := by
  refine .bind blkRead_trace.attempt fun r => ?_
  cases r <;> exact .pure _

lemma slotLba_toNat (first slot : UInt64) (hslot : slot.toNat < 8)
    (hend : first.toNat + 4160 < 2 ^ 64) :
    (slotLba first slot).toNat = first.toNat + slot.toNat * 520 := by
  have hsec : blogSlotSectors.toNat = 520 := rfl
  rw [slotLba, UInt64.toNat_add, UInt64.toNat_mul, hsec]
  omega

lemma pruneFrom_trace (hend : first.toNat + 4160 < 2 ^ 64) (l : List Nat) (hl : ∀ i ∈ l, i < 8) :
    Within (Trace (Write.InRing first.toNat)) (pruneFrom first seq l) := by
  induction l with
  | nil => exact .throw _
  | cons i rest ih =>
    have hrest := ih fun j hj => hl j (mem_cons_of_mem i hj)
    refine .bind blkRead_trace.attempt fun r => ?_
    cases r with
    | error e => exact hrest
    | ok sector =>
      have hi := hl i mem_cons_self
      have hnat : (UInt64.ofNat i).toNat = i :=
        UInt64.toNat_ofNat_of_lt' (by simp only [UInt64.size]; omega)
      have hlba := slotLba_toNat first (UInt64.ofNat i) (by omega) hend
      show Within _ (if _ then _ else _)
      split
      · exact hrest
      · exact blkWrite_inRing (by omega) (by omega)

end Programs

/-! ## The ring's own variables -/

structure Ring.Fit (r : Ring) (capacity : UInt64) : Prop where
  ok : r.ok = true
  start : r.start.toNat + 4160 = capacity.toNat
  slot : r.slot.toNat < 8

section Calls

/-- Block writes of a kind, which leave the variables of the ring alone. -/
def RingTrace (P : Write → Prop) (m m' : Machine) : Prop :=
  m'.ring = m.ring ∧ Trace P m.store m'.store

instance (P : Write → Prop) : IsPreorder Machine (RingTrace P) where
  refl m := ⟨rfl, refl_of (Trace P) m.store⟩
  trans _ _ _ h h' := ⟨h'.1.trans h.1, trans_of (Trace P) h.2 h'.2⟩

lemma onDevice_trace {α : Type} {x : StoreM α} (hx : Within (Trace P) x) :
    Within (RingTrace P) (onDevice x) := by
  intro m
  exact Ends.final (Ends.zoom (Ends.of_within hx (fun _ _ _ h => ⟨rfl, h⟩) fun _ _ h => ⟨rfl, h⟩))

lemma ringFlush_trace (hfit : m.ring.Fit m.store.dev.capacity) :
    RingTrace (Write.InRing m.ring.start.toNat) m (final (ringFlush log) m) := by
  have hcap := m.store.dev.capacity.toNat_lt
  have hstart := hfit.start
  have hslot := hfit.slot
  have hlba := slotLba_toNat m.ring.start m.ring.slot hslot (by omega)
  have hnext : (slotLba m.ring.start m.ring.slot + 1).toNat =
      (slotLba m.ring.start m.ring.slot).toNat + 1 := by
    have hone : (1 : UInt64).toNat = 1 := rfl
    rw [UInt64.toNat_add]
    omega
  refine Ends.final (.get_bind (.of_final ?_))
  refine Within.bind (.failIf _ _) (fun _ => .bind (onDevice_trace (.forM _ fun i hi => ?_))
    fun _ => onDevice_trace (blkWrite_inRing (by omega) (by omega))) m
  -- A slot holds at most 519 sectors of text.
  have hlen := length_take_le (519 * 512) log
  have hi := mem_range.mp hi
  rw [slotText] at hi
  have hcount : (UInt64.ofNat i).toNat = i :=
    UInt64.toNat_ofNat_of_lt' (by simp only [UInt64.size]; omega)
  have hsum : (slotLba m.ring.start m.ring.slot + 1 + UInt64.ofNat i).toNat =
      (slotLba m.ring.start m.ring.slot + 1).toNat + i := by
    rw [UInt64.toNat_add]
    omega
  refine .bind (blkWrite_inRing (by omega) (by omega)).attempt fun r => ?_
  cases r with
  | ok u => exact .pure _
  | error e => exact .throw _

lemma ringPrune_trace (hfit : m.ring.Fit m.store.dev.capacity) :
    RingTrace (Write.InRing m.ring.start.toNat) m (final (ringPrune seq) m) := by
  have hcap := m.store.dev.capacity.toNat_lt
  have hstart := hfit.start
  refine Ends.final (.get_bind (.of_final ?_))
  refine Within.bind (.failIf _ _)
    (fun _ => onDevice_trace (pruneFrom_trace (by omega) _ fun i hi => ?_)) m
  exact mem_range.mp hi

lemma Trace.none (h : Trace (fun _ => False) s s') :
    s'.mem = s.mem ∧ ∃ t, s'.dev = s.dev.after [] t := by
  obtain ⟨ws, t, hdev, hmem, hws⟩ := h
  cases ws with
  | nil => exact ⟨hmem, t, hdev⟩
  | cons w ws => exact absurd (hws w mem_cons_self) not_false

/-- A slot that cannot be read is passed over. -/
lemma scan_ends {l : List Nat} {best : UInt64 × Nat} (h : best.2 < 8) :
    Succeeds (l.foldlM (scanSlot first) best) s fun best' s' => best'.2 < 8 ∧
    Trace (fun _ => False) s s' := by
  induction l generalizing best s with
  | nil => exact ⟨h, refl_of (Trace _) s⟩
  | cons i l ih =>
    refine .bind (.attempt_bind
      (.of_within (blkRead_trace (P := fun _ => False)) (fun _ _ _ ht => ?_) fun _ _ ht => ?_))
    · refine (ih ?_).post fun _ _ ⟨hlt, ht'⟩ => ⟨hlt, trans_of (Trace _) ht ht'⟩
      split
      · exact Nat.mod_lt _ (by decide)
      · exact h
    · exact (ih h).post fun _ _ ⟨hlt, ht'⟩ => ⟨hlt, trans_of (Trace _) ht ht'⟩

lemma ringInit_ends : Ends ringInit m
      (fun _ m' => m'.ring.Fit m.store.dev.capacity ∧ Trace (fun _ => False) m.store m'.store)
      fun _ _ => True := by
  refine .bind (.modify (.get_bind (.guard fun _ => .bind ?_)))
  refine .of_within (onDevice_trace (deviceIsOurs_trace (P := fun _ => False))) ?_
    fun _ _ _ => trivial
  rintro ours m1 - ⟨-, htrace⟩
  refine .guard fun _ => .guard fun hroom => ?_
  refine .bind (.modify (.bind (.zoom ?_)))
  refine (scan_ends (by decide)).mono (fun best s' ⟨hbest, htrace'⟩ => .modify ?_)
    fun _ _ _ => trivial
  have hslot : (UInt64.ofNat best.2).toNat = best.2 :=
    UInt64.toNat_ofNat_of_lt' (by simp only [UInt64.size]; omega)
  have hcap : m1.store.dev.capacity = m.store.dev.capacity := by
    obtain ⟨-, t, hdev⟩ := htrace.none
    rw [hdev]
    rfl
  have hsec : blogRingSectors.toNat = 4160 := rfl
  have hlow : 4160 ≤ m.store.dev.capacity.toNat := by
    have hsum : (blogRingSectors + dataStart).toNat = 4673 := rfl
    have hroom : ¬ m.store.dev.capacity ≤ blogRingSectors + dataStart := of_decide_eq_false hroom
    rw [UInt64.le_iff_toNat_le] at hroom
    omega
  refine ⟨⟨rfl, ?_, ?_⟩, trans_of (Trace fun _ => False) htrace htrace'⟩
  · rw [hcap, UInt64.toNat_sub_of_le _ _ (UInt64.le_iff_toNat_le.mpr (hsec ▸ hlow))]
    omega
  · show (UInt64.ofNat best.2).toNat < 8
    omega

end Calls

/-! ## What neither sees of the other -/

section Frames

variable {d : Nat → UInt8} {ws : List Write}

lemma sameStore_applyAll (hn : 513 ≤ start) (hws : ∀ w ∈ ws, w.InRing start) :
    SameStore start d (applyAll d ws) := by
  induction ws generalizing d with
  | nil => exact ⟨rfl, rfl, fun _ _ _ => rfl⟩
  | cons w ws ih =>
    have hw := (hws w mem_cons_self).1
    exact (sameStore_data hn hw).trans (ih fun w hw => hws w (mem_cons_of_mem _ hw))

lemma SameData.mono {d' : Nat → UInt8} (h : SameData start d d') (hn : n ≤ start) :
    SameData n d d' :=
  fun i hl hr => h i hl (by omega)

lemma Sound.trace (h : Sound s) (ht : Trace (Write.InRing start) s s')
    (hclear : s.mem.super.nextDataSector.toNat ≤ start) :
    Sound s' ∧ ∀ oid, s'.value oid = s.value oid := by
  obtain ⟨ws, t, hdev, hmem, hws⟩ := ht
  have hstart : 513 ≤ start := Nat.le_trans h.fit.start hclear
  have hsame := sameStore_applyAll (d := s.dev.disk) hstart hws
  refine h.of_sameStore (hdev ▸ h.serves.after _ _) ?_ (hmem ▸ h.mounted) (hmem ▸ h.fit) ?_ ?_
    ⟨?_, ?_, ?_⟩
  · rw [hdev, Device.after_capacity]
  · rw [hmem]
  · rw [hmem]
  · rw [hdev]
    exact hsame.super
  · rw [hdev]
    exact hsame.index
  · rw [hdev]
    exact hsame.data.mono hclear

lemma applyAll_behind {a : Nat} (hws : ∀ w ∈ ws, w.addr + w.bytes.length ≤ a) (hi : a ≤ i) :
    applyAll d ws i = d i := by
  induction ws generalizing d with
  | nil => rfl
  | cons w ws ih =>
    have hw := hws w mem_cons_self
    rw [applyAll_cons, ih fun w hw => hws w (mem_cons_of_mem _ hw)]
    exact store_of_disjoint (.inr (by omega))

/-- What an object write that ends before a sector does. -/
structure Before (start : Nat) (s s' : Store) : Prop where
  sound : Sound s'
  capacity : s'.dev.capacity = s.dev.capacity
  next : s'.mem.super.nextDataSector.toNat ≤ start
  /-- Nothing changes from that sector on. -/
  behind : ∀ i, 512 * start ≤ i → s'.dev.disk i = s.dev.disk i

variable {e : IndexEntry}

lemma Sound.before (h : Sound s) (hok : writeObjBk oid objType boundaryKey p s = .ok () s')
    (hstop : (s.mem.newEntry oid objType boundaryKey p).stop ≤ start) : Before start s s' := by
  generalize he : s.mem.newEntry oid objType boundaryKey p = e at hstop
  obtain ⟨⟨t, hdev⟩, hmem, hroom, hlen⟩ :=
    (writeObjBk_issues he.symm h.serves h.mounted h.fit.head).of_ok hok
  refine ⟨(h.write hok).1, ?_, ?_, fun i hi => ?_⟩
  · rw [hdev, Device.after_capacity]
  · rw [hmem]
    show (s.mem.extend e).super.nextDataSector.toNat ≤ start
    rw [s.mem.extend_next hroom]
    exact hstop
  · obtain ⟨intent, commit, hintent, hcommit, hplan⟩ :=
      writePlan_shape h.fit.head
    rw [hdev, hplan]
    have hdata : e.dataSector = s.mem.super.nextDataSector := by rw [← he]; rfl
    have hlow := h.fit.start
    have hstart : 513 ≤ start := by
      rw [IndexEntry.stop, hdata] at hstop
      omega
    refine applyAll_behind (fun w hw => ?_) hi
    simp only [mem_cons, not_mem_nil, or_false] at hw
    rcases hw with rfl | rfl | rfl | rfl | rfl
    · exact Nat.le_trans hintent.2 (by omega)
    · show 512 * e.dataSector.toNat + (Codec.fill (512 * e.dataSectors.toNat) p.bytes).length ≤ _
      rw [Codec.length_fill]
      rw [IndexEntry.stop] at hstop
      omega
    · show 512 * 257 + (indexImage _).length ≤ _
      rw [length_indexImage]
      omega
    · exact Nat.le_trans hcommit.2 (by omega)
    · show 0 + (superImage _).length ≤ _
      rw [length_superImage]
      omega

end Frames

/-! ## Runs -/

inductive RingOp where
  | write (oid : Uuid) (objType : UInt32) (boundaryKey : UInt64) (payload : Payload)
  | flush (log : List UInt8)
  | prune (seq : UInt64)

def RingOp.ofRing : RingOp → Bool
  | .write .. => false
  | .flush _ | .prune _ => true

def RingOp.exec : RingOp → RingM Unit
  | .write oid objType boundaryKey payload => onDevice (writeObjBk oid objType boundaryKey payload)
  | .flush log => ringFlush log
  | .prune seq => ringPrune seq

def Machine.step (m : Machine) (op : RingOp) : Machine :=
  final op.exec m

def machineAt (m : Machine) (run : List RingOp) (n : Nat) : Machine :=
  Run.after Machine.step m run n

def WritesSucceed (m : Machine) (run : List RingOp) : Prop :=
  ∀ n op, run[n]? = some op → op.ofRing = false → (outcome op.exec (machineAt m run n)).isOk = true

def writesOf (m : Machine) (run : List RingOp) (n : Nat) : List Write :=
  (machineAt m run (n + 1)).store.dev.log.drop (machineAt m run n).store.dev.log.length

def Machine.slotBytes (m : Machine) (i : Nat) : List UInt8 :=
  load m.store.dev.disk (512 * (m.ring.start.toNat + 520 * i)) (512 * 520)

structure RingApart (m : Machine) (run : List RingOp) : Prop where
  /-- What the ring writes, ever, is disjoint from the extents of all objects, ever. -/
  disjoint : ∀ n op w k e, run[n]? = some op → op.ofRing = true → w ∈ writesOf m run n →
    e ∈ (machineAt m run k).store.mem.indexCache →
    w.addr + w.bytes.length ≤ 512 * e.dataSector.toNat ∨ 512 * e.stop ≤ w.addr
  objects : ∀ n op, run[n]? = some op → op.ofRing = true → ∀ oid bufSize,
    outcome (readObj oid bufSize) (machineAt m run (n + 1)).store.calm =
      outcome (readObj oid bufSize) (machineAt m run n).store.calm
  slots : ∀ n op, run[n]? = some op → op.ofRing = false → ∀ i < 8,
    (machineAt m run (n + 1)).slotBytes i = (machineAt m run n).slotBytes i

/-- An object write whose extent ends before the ring. -/
def RingOp.Clear (m : Machine) : RingOp → Prop
  | .write oid objType boundaryKey payload =>
    (m.store.mem.newEntry oid objType boundaryKey payload).stop ≤ m.ring.start.toNat
  | .flush _ | .prune _ => True

/-- A machine on which store and ring work side by side. -/
structure Beside (m : Machine) : Prop where
  sound : Sound m.store
  ring : m.ring.Fit m.store.dev.capacity
  clear : m.store.mem.super.nextDataSector.toNat ≤ m.ring.start.toNat

section Runs

variable {run : List RingOp} {op : RingOp}

/-- What a call does to a machine on which the two are side by side. -/
structure Turn (m : Machine) (op : RingOp) (m' : Machine) : Prop where
  beside : Beside m'
  ring : m'.ring = m.ring
  ofRing : op.ofRing = true → Trace (Write.InRing m.ring.start.toNat) m.store m'.store
  ofStore : op.ofRing = false → ∀ i, 512 * m.ring.start.toNat ≤ i →
    m'.store.dev.disk i = m.store.dev.disk i

lemma Beside.trace {m' : Machine} (h : Beside m) (hop : op.ofRing = true)
    (ht : RingTrace (Write.InRing m.ring.start.toNat) m m') : Turn m op m' := by
  obtain ⟨hring, ht⟩ := ht
  obtain ⟨hsound, -⟩ := h.sound.trace ht h.clear
  have ht' := ht
  obtain ⟨ws, t, hdev, hmem, -⟩ := ht'
  refine ⟨⟨hsound, ?_, ?_⟩, hring, fun _ => ht, fun hno => absurd (hop.symm.trans hno) nofun⟩
  · rw [hring, hdev]
    exact h.ring
  · rw [hring, hmem]
    exact h.clear

lemma step_turn (h : Beside m) (hclear : op.Clear m)
    (hok : op.ofRing = false → (outcome op.exec m).isOk = true) : Turn m op (m.step op) := by
  cases op with
  | flush log => exact h.trace rfl (ringFlush_trace h.ring)
  | prune seq => exact h.trace rfl (ringPrune_trace h.ring)
  | write oid objType boundaryKey payload =>
    have hsucceeds := hok rfl
    obtain ⟨_, m', hrun⟩ := exists_ok_of_outcome hsucceeds
    have hstep : m.step (.write oid objType boundaryKey payload) = m' := final_of_ok hrun
    obtain ⟨s', hwrite, rfl⟩ :
      ∃ s', writeObjBk oid objType boundaryKey payload m.store = .ok () s' ∧
        m' = { m with store := s' } := by
      cases hw : writeObjBk oid objType boundaryKey payload m.store with
      | ok u s' =>
        simp only [RingOp.exec, onDevice, zoom, hw, EStateM.Result.ok.injEq] at hrun
        exact ⟨s', rfl, hrun.2.symm⟩
      | error err s' => simp [RingOp.exec, onDevice, zoom, hw] at hrun
    rw [hstep]
    have hb := h.sound.before hwrite hclear
    refine ⟨⟨hb.sound, ?_, hb.next⟩, rfl, fun h => (Bool.false_ne_true h).elim, fun _ => hb.behind⟩
    rw [hb.capacity]
    exact h.ring

lemma machineAt_succ (h : run[n]? = some op) :
    machineAt m run (n + 1) = (machineAt m run n).step op :=
  Run.after_succ Machine.step h

lemma beside_of_init (hsound : Sound m₀.store) (hinit : ringInit m₀ = .ok () m)
    (hroom : m.store.mem.super.nextDataSector.toNat ≤ m.ring.start.toNat) : Beside m := by
  obtain ⟨hfit, htrace⟩ := ringInit_ends.of_ok hinit
  obtain ⟨hmem, t, hdev⟩ := htrace.none
  have hcap : m.store.dev.capacity = m₀.store.dev.capacity := by
    rw [hdev]
    rfl
  have htrace' : Trace (Write.InRing m.ring.start.toNat) m₀.store m.store :=
    ⟨[], t, hdev, hmem, forall_mem_nil _⟩
  exact ⟨(hsound.trace htrace' (hmem ▸ hroom)).1, hcap ▸ hfit, hroom⟩

/-- The event ring and the objects keep apart while no object reaches into the ring. -/
theorem ring_apart (hsound : Sound m₀.store) (hinit : ringInit m₀ = .ok () m)
    (hroom : m.store.mem.super.nextDataSector.toNat ≤ m.ring.start.toNat)
    (hok : WritesSucceed m run)
    (hclear : ∀ n (op : RingOp), run[n]? = some op → op.Clear (machineAt m run n)) :
    RingApart m run := by
  have hbeside : ∀ n, Beside (machineAt m run n) ∧ (machineAt m run n).ring = m.ring := by
    intro n
    refine Run.after_kept Machine.step (I := fun m' => Beside m' ∧ m'.ring = m.ring)
      ⟨beside_of_init hsound hinit hroom, rfl⟩ (fun n op hop ih => ?_) n
    have ht := step_turn ih.1 (hclear n op hop) (hok n op hop)
    exact ⟨ht.beside, ht.ring.trans ih.2⟩
  have hturn :
      ∀ n op, run[n]? = some op → Turn (machineAt m run n) op (machineAt m run (n + 1)) := by
    intro n op hop
    rw [machineAt_succ hop]
    exact step_turn (hbeside n).1 (hclear n op hop) (hok n op hop)
  refine ⟨fun n op w k e hop hring hw he => ?_, fun n op hop hring oid bufSize => ?_,
    fun n op hop hring i hi => ?_⟩
  · obtain ⟨ws, t, hdev, -, hws⟩ := (hturn n op hop).ofRing hring
    have hlog :
        (machineAt m run (n + 1)).store.dev.log = (machineAt m run n).store.dev.log ++ ws := by
      rw [hdev]
      rfl
    rw [writesOf, hlog, drop_left] at hw
    have hin := (hws w hw).1
    have hstop := (hbeside k).1.sound.fit.valid.stop e he
    have hk := (hbeside k).1.clear
    rw [(hbeside k).2] at hk
    rw [(hbeside n).2] at hin
    exact .inr (by omega)
  · have hb := (hbeside n).1
    obtain ⟨hsound', hvalue⟩ := hb.sound.trace ((hturn n op hop).ofRing hring) hb.clear
    rw [hsound'.calm.read, hb.sound.calm.read]
    show readAnswer _ ((machineAt m run (n + 1)).store.value oid) bufSize =
      readAnswer _ ((machineAt m run n).store.value oid) bufSize
    rw [hvalue]
    -- without faults the two devices answer alike
    rfl
  · rw [Machine.slotBytes, (hturn n op hop).ring]
    apply load_congr
    intro j hl _
    exact (hturn n op hop).ofStore hring j (by omega)

end Runs

/-! ## A run before the ring, and one into it -/

section Calm

lemma ringInit_calm (hsound : Sound m.store) (hc : m.store.dev.Calm)
    (hroom : 4673 < m.store.dev.capacity.toNat) : ∃ m', ringInit m = .ok () m' := by
  have hends : Succeeds ringInit m fun _ _ => True := by
    refine .bind (.modify (.get_bind (.pass (by simp [hsound.serves.ready]) ?_)))
    refine .bind (Ends.zoom (Ends.attempt_bind ?_))
    have hfit : superSector.toNat + (1 : UInt32).toNat ≤ m.store.dev.capacity.toNat := by
      have h0 : superSector.toNat + (1 : UInt32).toNat = 1 := rfl
      omega
    have hread : Issues (blkRead superSector 1) m.store [] False _ :=
      blkRead_issues hsound.serves.ready (by decide) (.inl hfit)
    refine .mono hread ?_ fun _ _ h => absurd (h.2 hc) not_false
    rintro sector s1 ⟨⟨t, hdev⟩, hsector, -⟩
    have hmagic : ((Super.codec.decode sector).magic == diskMagic) = true := by
      have h := hsound.persisted.magic
      unfold diskSuper at h
      rw [hsector]
      exact beq_iff_eq.mpr h
    refine .pass (by rw [hmagic]; rfl) (Ends.failIf_bind (fun h => ?_) fun _ => ?_)
    · have hsum : (blogRingSectors + dataStart).toNat = 4673 := rfl
      have h := UInt64.le_iff_toNat_le.mp (of_decide_eq_true h)
      have hcap : m.store.dev.capacity.toNat ≤ 4673 := hsum ▸ h
      omega
    · refine .bind (.modify (.bind (Ends.zoom ?_)))
      exact (scan_ends (by decide)).post fun _ _ _ => trivial
  cases hr : ringInit m with
  | ok u m' => exact ⟨m', rfl⟩
  | error e m' => exact (hends.of_error hr).elim

lemma ringFlush_empty (hsound : Sound m.store) (hfit : m.ring.Fit m.store.dev.capacity)
    (hc : m.store.dev.Calm) :
    ∃ w s', w.addr = 512 * (slotLba m.ring.start m.ring.slot).toNat ∧ w.bytes.length = 512 ∧
      ringFlush [] m = .ok () { m with store := s' } ∧ s'.dev.log = m.store.dev.log ++ [w] := by
  have hcap := m.store.dev.capacity.toNat_lt
  have hstart := hfit.start
  have hslot := hfit.slot
  have hlba := slotLba_toNat m.ring.start m.ring.slot hslot (by omega)
  have hone : (1 : UInt32).toNat = 1 := rfl
  have hwrite : Issues (blkWrite (slotLba m.ring.start m.ring.slot) 1
      (Codec.fill 512 (SlotHdr.codec.encode (slotHdr m.ring.seq [])))) m.store _ False _ :=
    blkWrite_issues_of_length _ hsound.serves.ready (by decide)
      (Nat.le_of_eq (Codec.length_fill _ _)) (.inl (by omega))
  obtain ⟨_, s', hok⟩ := hwrite.ok_of_calm hc not_false
  obtain ⟨⟨t, hdev⟩, -⟩ := hwrite.of_ok hok
  refine ⟨_, s', rfl, Codec.length_fill _ _, ?_, by rw [hdev]; rfl⟩
  have hnil : ringFlush [] m = onDevice (blkWrite (slotLba m.ring.start m.ring.slot) 1
      (Codec.fill 512 (SlotHdr.codec.encode (slotHdr m.ring.seq [])))) m := by
    obtain ⟨s, ⟨ok, start, slot, seq⟩⟩ := m
    obtain rfl : ok = true := hfit.ok
    rfl
  rw [hnil, onDevice, zoom, hok]

end Calm

/-- A machine with a blank device that never fails, formatted and with the ring initialised. -/
structure Fresh (capacity : UInt64) (m₀ m : Machine) : Prop where
  store : Sound m₀.store
  init : ringInit m₀ = .ok () m
  sound : Sound m.store
  calm : m.store.dev.Calm
  ring : m.ring.Fit capacity
  size : m.store.dev.capacity = capacity
  mem : m.store.mem = formattedMemory capacity

lemma exists_fresh (capacity : UInt64) (hroom : 4673 < capacity.toNat) :
    ∃ m₀ m, Fresh capacity m₀ m := by
  have hserves : Device.Serves ⟨true, capacity, fun _ => 0, fun _ => none, 0, []⟩ := by
    refine ⟨rfl, ?_⟩
    show 513 ≤ capacity.toNat
    omega
  obtain ⟨s, hformat, hcalm, hmem, hcap⟩ := format_calm (s := ⟨_, Memory.boot⟩) hserves fun _ => rfl
  have hsound := (format_sound hformat).1
  have hcap : s.dev.capacity = capacity := hcap
  obtain ⟨m, hinit⟩ :=
    ringInit_calm (m := ⟨s, ⟨false, 0, 0, 0⟩⟩) hsound hcalm (by rw [hcap]; exact hroom)
  obtain ⟨hring, htrace⟩ := ringInit_ends.of_ok hinit
  obtain ⟨hmem', t, hdev⟩ := htrace.none
  rw [hcap] at hring
  have hstart := hring.start
  refine ⟨⟨s, ⟨false, 0, 0, 0⟩⟩, m, hsound, hinit, ?_, ?_, hring, ?_, hmem'.trans hmem⟩
  · refine (beside_of_init hsound hinit ?_).sound
    rw [hmem', hmem]
    show 513 ≤ m.ring.start.toNat
    omega
  · rw [hdev]
    exact hcalm
  · rw [hdev]
    exact hcap

lemma Fresh.succeeds {capacity : UInt64} (h : Fresh capacity m₀ m)
    (hroom : 513 + (sectorsNeeded p.size).toNat ≤ capacity.toNat) :
    ∃ s', writeObjBk oid objType boundaryKey p m.store = .ok () s' ∧ s'.dev.Calm := by
  refine writeObjBk_calm h.sound.serves h.sound.mounted h.sound.fit.head h.calm ?_
  have hsum :
      (513 + (sectorsNeeded p.size).toUInt64).toNat = 513 + (sectorsNeeded p.size).toNat := by
    have hcap := capacity.toNat_lt
    rw [UInt64.toNat_add, UInt32.toNat_toUInt64]
    exact Nat.mod_eq_of_lt (by show 513 + _ < _; omega)
  rw [Store.Full, h.mem, h.size]
  rintro (hfull | hfull | hfull)
  · have hfull : capacity.toNat < (513 + (sectorsNeeded p.size).toUInt64).toNat := hfull
    omega
  · have hfull : capacity.toNat < 513 + (sectorsNeeded p.size).toNat := hfull
    omega
  · have hfull : indexMaxEntries ≤ 0 := hfull
    exact absurd hfull (by decide)

lemma writesSucceed_single (h : writeObjBk oid objType boundaryKey p m.store = .ok () s') :
    WritesSucceed m [.write oid objType boundaryKey p, .flush log] := by
  intro n op hop hring
  rcases n with _ | _ | n
  · cases hop
    have hrun :
        (RingOp.write oid objType boundaryKey p).exec m = .ok () { m with store := s' } := by
      simp only [RingOp.exec, onDevice, zoom, h]
    show (outcome _ m).isOk = true
    rw [outcome, hrun]
    rfl
  · cases hop
    cases hring
  · cases hop

/-- A small object leaves the ring alone. -/
theorem ring_apart_small : ∃ m₀ m : Machine, Sound m₀.store ∧ ringInit m₀ = .ok () m ∧
    RingApart m [.write ⟨1, 2⟩ 3 7 samplePayload, .flush []] := by
  obtain ⟨m₀, m, h⟩ := exists_fresh 6000 (by decide)
  have hneeded : (sectorsNeeded samplePayload.size).toNat = 1 := by decide
  have hsix : (6000 : UInt64).toNat = 6000 := rfl
  have hstart := h.ring.start
  obtain ⟨s', hwrite, -⟩ := h.succeeds (p := samplePayload) (by omega)
  refine ⟨m₀, m, h.store, h.init, ring_apart h.store h.init ?_ (writesSucceed_single hwrite) ?_⟩
  · rw [h.mem]
    show 513 ≤ m.ring.start.toNat
    omega
  · intro n op hop
    rcases n with _ | _ | n
    · cases hop
      show (m.store.mem.newEntry _ _ _ samplePayload).stop ≤ m.ring.start.toNat
      rw [h.mem]
      show 513 + (sectorsNeeded samplePayload.size).toNat ≤ _
      omega
    · cases hop
      exact trivial
    · cases hop

/-- On a device of 4674 sectors an object of 4161 sectors fills the data region to the end, and the
    ring is flushed into it. -/
lemma Fresh.overwritten (h : Fresh 4674 m₀ m) (hneeded : (sectorsNeeded p.size).toNat = 4161) :
    WritesSucceed m [.write ⟨1, 2⟩ 3 7 p, .flush []] ∧
    ¬ RingApart m [.write ⟨1, 2⟩ 3 7 p, .flush []] := by
  have hcap : (4674 : UInt64).toNat = 4674 := rfl
  obtain ⟨s', hwrite, hcalm⟩ := h.succeeds (p := p) (by omega)
  refine ⟨writesSucceed_single hwrite, fun hapart => ?_⟩
  -- the extent of the object is everything behind the index
  obtain ⟨⟨t, hdev⟩, hmem, -⟩ :=
    (writeObjBk_issues rfl h.sound.serves h.sound.mounted h.sound.fit.head).of_ok hwrite
  generalize he : m.store.mem.newEntry ⟨1, 2⟩ 3 7 p = e at hdev hmem
  have hlisted : e ∈ s'.mem.indexCache := by
    rw [hmem]
    exact (m.store.mem.logged.place_perm e).mem_iff.mpr mem_cons_self
  have hfirst : e.dataSector.toNat = 513 := by
    rw [← he, h.mem]
    rfl
  have hstop : e.stop = 513 + 4161 := by
    rw [IndexEntry.stop, hfirst, ← he]
    show 513 + (sectorsNeeded p.size).toNat = _
    rw [hneeded]
  -- the flush writes the header of a slot
  have hstep : machineAt m [.write ⟨1, 2⟩ 3 7 p, .flush []] 1 = { m with store := s' } := by
    apply final_of_ok (a := ())
    simp only [RingOp.exec, onDevice, zoom, hwrite]
  have hring : m.ring.Fit s'.dev.capacity := by
    rw [hdev, Device.after_capacity, h.size]
    exact h.ring
  obtain ⟨w, s'', haddr, hlen, hflush, hlog⟩ :=
    ringFlush_empty (m := { m with store := s' }) (h.sound.write hwrite).1 hring hcalm
  have hwrites : w ∈ writesOf m [.write ⟨1, 2⟩ 3 7 p, .flush []] 1 := by
    have hnext : machineAt m [.write ⟨1, 2⟩ 3 7 p, .flush []] 2 = { m with store := s'' } := by
      have hop : ([.write ⟨1, 2⟩ 3 7 p, .flush []] : List RingOp)[1]? = some (.flush []) := rfl
      rw [machineAt_succ hop, hstep]
      exact final_of_ok hflush
    rw [writesOf, hnext, hstep, hlog, drop_left]
    exact mem_singleton_self w
  have hmem1 : e ∈ (machineAt m [.write ⟨1, 2⟩ 3 7 p, .flush []] 1).store.mem.indexCache := by
    rw [hstep]
    exact hlisted
  have hdisjoint := hapart.disjoint 1 (.flush []) w 1 e rfl rfl hwrites hmem1
  have hstart := h.ring.start
  have hslot := h.ring.slot
  have hlba := slotLba_toNat m.ring.start m.ring.slot hslot (by omega)
  have haddr : w.addr = 512 * (slotLba m.ring.start m.ring.slot).toNat := haddr
  omega

@[irreducible]
def tailPayload : Payload :=
  ⟨replicate (512 * 4161) 0, by rw [length_replicate]; decide⟩

/-- An object that takes the last sectors is overwritten by the ring. -/
theorem ring_overwrites_object : ∃ m₀ m : Machine, Sound m₀.store ∧ ringInit m₀ = .ok () m ∧
    WritesSucceed m [.write ⟨1, 2⟩ 3 7 tailPayload, .flush []] ∧
    ¬ RingApart m [.write ⟨1, 2⟩ 3 7 tailPayload, .flush []] := by
  obtain ⟨m₀, m, h⟩ := exists_fresh 4674 (by decide)
  have hsize : tailPayload.size = 2130432 := by
    rw [Payload.size, tailPayload, length_replicate]
    rfl
  have hneeded : (sectorsNeeded tailPayload.size).toNat = 4161 := by
    rw [hsize]
    decide
  exact ⟨m₀, m, h.store, h.init, h.overwritten hneeded⟩

end Anunix.Disk
