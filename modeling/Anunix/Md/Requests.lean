import Anunix.Md.Lifecycle

/-!
# What requests do

The layout of an array is the part of the machine that requests leave alone: everything but event
counters, cursors, member states and the sectors themselves. An array is `Laid` when its members are
distinct registered drives, and the data area of each lies within the drive and away from its
superblock.

For a laid array this file says exactly what a member request does (`memberRead_ends`,
`memberWrite_ends`), and what writing superblocks and marking a member faulty can do at most
(`Synced`).
-/

namespace Anunix.Md
open Fallible Region List

/-! ## Layout -/

def MdArray.still (arr : MdArray) : MdArray :=
  { arr with
    events := 0
    readCursor := 0
    resyncOffset := 0
    members := fun i => { arr.members i with state := .empty, events := 0 } }

def BlkDev.still (dev : BlkDev) : BlkDev :=
  { dev with data := fun _ => zeroSector }

structure Layout where
  array : MdArray
  devs : DevId → BlkDev

def Machine.layout (m : Machine) (a : ArrayId) : Layout where
  array := (m.arrays a).still
  devs := fun d => (m.devs d).still

def Access.Covers (acc : Access) (d : DevId) (k : Nat) : Prop :=
  acc.dev = d ∧ acc.lba.toNat ≤ k ∧ k < acc.lba.toNat + acc.count.toNat

variable {d : DevId}

namespace Layout

variable (L : Layout)

def size : Nat :=
  L.array.memberCount.toNat

def dev (i : Nat) : Option DevId :=
  (L.array.members i).dev

def offset : Nat :=
  (dataOffsetFor L.array.tailMeta).toNat

def sectors : Nat :=
  L.array.memberSectors.toNat

def capacity (d : DevId) : Nat :=
  (L.devs d).capacity.toNat

def IsSuper (acc : Access) : Prop :=
  acc.write ∧ acc.count = 1 ∧ ∃ i < L.size, L.dev i = some acc.dev ∧
    superSector (L.devs acc.dev) L.array.tailMeta = .ok acc.lba

structure Laid : Prop where
  used : L.array.used
  pos : 0 < L.size
  room : 0 < L.sectors
  member : ∀ i < L.size, ∀ d, L.dev i = some d →
    (L.devs d).used ∧ (L.devs d).isMember ∧
    (L.array.members i).dataOffset = dataOffsetFor L.array.tailMeta ∧
      L.offset + L.sectors + (if L.array.tailMeta then 8 else 0) ≤ L.capacity d
  distinct : ∀ i < L.size, ∀ j < L.size, ∀ d, L.dev i = some d → L.dev j = some d → i = j

variable {L}

lemma Laid.fits (h : L.Laid) {i : Nat} (hi : i < L.size) (hd : L.dev i = some d) :
    L.offset + L.sectors ≤ L.capacity d := by
  have := (h.member i hi d hd).2.2.2
  omega

lemma Laid.not_covers_data (h : L.Laid) {acc : Access} (hs : L.IsSuper acc) {k : Nat}
    (hk : k < L.sectors) : ¬ acc.Covers acc.dev (L.offset + k) := by
  obtain ⟨-, hcount, i, hi, hd, hsector⟩ := hs
  obtain ⟨hused, -, -, hroom⟩ := h.member i hi _ hd
  rintro ⟨-, hl, hr⟩
  have hone : acc.count.toNat = 1 := by rw [hcount]; rfl
  unfold superSector BlkDev.blkDevCapacity at hsector
  rw [if_pos hused] at hsector
  have hhead : headDataOffset.toNat = 2048 := rfl
  have hsb : sbSectorHead.toNat = 8 := rfl
  have hback : sbTailBack.toNat = 8 := rfl
  unfold offset dataOffsetFor capacity at *
  cases htail : L.array.tailMeta with
  | false =>
    simp only [htail, Bool.not_false, if_true, Bool.false_eq_true, if_false] at hsector hr
    split at hsector
    · cases hsector
    · injection hsector with hsector
      rw [← hsector] at hr
      omega
  | true =>
    simp only [htail, Bool.not_true, Bool.false_eq_true, if_false, if_true] at hsector hroom hl
    split at hsector
    · cases hsector
    · injection hsector with hsector
      have hle : sbTailBack ≤ (L.devs acc.dev).capacity := by
        rw [UInt64.le_iff_toNat_le]
        omega
      rw [← hsector, UInt64.toNat_sub_of_le _ _ hle] at hl
      omega

end Layout

/-! ## State access -/

variable {m : Machine} {a : ArrayId}

section Access

variable {β : Type} {Q : β → Machine → Prop} {E : Err → Machine → Prop} {k : Unit → MdM β}

lemma getArray_bind {k : MdArray → MdM β} (h : Ends (k (m.arrays a)) m Q E) :
    Ends (getArray a >>= k) m Q E :=
  h

lemma getArray_within {R : Machine → Machine → Prop} [IsPreorder Machine R] (a : ArrayId) :
    Within R (getArray a) :=
  .bind Within.get fun _ => .pure _

lemma getDev_bind {k : BlkDev → MdM β} (h : Ends (k (m.devs d)) m Q E) :
    Ends (getDev d >>= k) m Q E :=
  h

lemma modifyArray_bind {f : MdArray → MdArray}
    (h : Ends (k ()) (m.setArray a f) Q E) : Ends (modifyArray a f >>= k) m Q E :=
  h

lemma modifyDev_bind {f : BlkDev → BlkDev} (h : Ends (k ()) (m.setDev d f) Q E) :
    Ends (modifyDev d f >>= k) m Q E :=
  h

@[simp]
lemma devs_setDev_self (f : BlkDev → BlkDev) : (m.setDev d f).devs d = f (m.devs d) := by
  simp [Machine.setDev]

lemma devs_setDev_of_ne {d' : DevId} (f : BlkDev → BlkDev) (h : d' ≠ d) :
    (m.setDev d f).devs d' = m.devs d' := by
  simp [Machine.setDev, h]

@[simp]
lemma arrays_setArray_self (f : MdArray → MdArray) :
    (m.setArray a f).arrays a = f (m.arrays a) := by
  simp [Machine.setArray]

lemma arrays_setArray_of_ne {b : ArrayId} (f : MdArray → MdArray) (h : b ≠ a) :
    (m.setArray a f).arrays b = m.arrays b := by
  simp [Machine.setArray, h]

@[simp]
lemma arrays_setDev (f : BlkDev → BlkDev) : (m.setDev d f).arrays = m.arrays :=
  rfl

@[simp]
lemma devs_setArray (f : MdArray → MdArray) : (m.setArray a f).devs = m.devs :=
  rfl

@[simp]
lemma members_setMember_self (arr : MdArray) (i : Nat) (f : MdMember → MdMember) :
    (arr.setMember i f).members i = f (arr.members i) := by
  simp [MdArray.setMember]

lemma members_setMember_of_ne (arr : MdArray) {i j : Nat} (f : MdMember → MdMember) (h : j ≠ i) :
    (arr.setMember i f).members j = arr.members j := by
  simp [MdArray.setMember, h]

end Access

/-! ## What keeps the layout -/

section Layout

lemma layout_setArray {f : MdArray → MdArray} (hf : (f (m.arrays a)).still = (m.arrays a).still) :
    (m.setArray a f).layout a = m.layout a := by
  have harr : ((m.setArray a f).arrays a).still = (m.arrays a).still := by
    rw [arrays_setArray_self]
    exact hf
  exact congrArg (Layout.mk · _) harr

lemma still_setMember (arr : MdArray) (i : Nat) {f : MdMember → MdMember}
    (hdev : (f (arr.members i)).dev = (arr.members i).dev)
    (hoff : (f (arr.members i)).dataOffset = (arr.members i).dataOffset) :
    (arr.setMember i f).still = arr.still := by
  have hmem : ∀ j, { (arr.setMember i f).members j with state := MemberState.empty, events := 0 } =
      { arr.members j with state := MemberState.empty, events := 0 } := by
    intro j
    by_cases hj : j = i
    · subst hj
      simp only [members_setMember_self, hdev, hoff]
    · rw [members_setMember_of_ne arr f hj]
  unfold MdArray.still
  rw [funext hmem]
  rfl

end Layout

/-! ## Driver requests -/

/-- A request of no sectors does not reach the driver. -/
def Machine.asked (m : Machine) (acc : Access) : Machine :=
  if acc.count = 0 then m else m.noted acc

def Machine.written (m : Machine) (d : DevId) (lba : UInt64) (l : List Sector) : Machine :=
  m.setDev d fun dev => dev.write lba l

@[simp]
lemma layout_noted (m : Machine) (a : ArrayId) (acc : Access) :
    (m.noted acc).layout a = m.layout a :=
  rfl

@[simp]
lemma layout_asked (m : Machine) (a : ArrayId) (acc : Access) :
    (m.asked acc).layout a = m.layout a := by
  unfold Machine.asked
  split <;> rfl

@[simp]
lemma layout_written (m : Machine) (a : ArrayId) (d : DevId) (lba : UInt64) (l : List Sector) :
    (m.written d lba l).layout a = m.layout a := by
  have hdev : ∀ d', ((m.written d lba l).devs d').still = (m.devs d').still := by
    intro d'
    by_cases hd : d' = d
    · subst hd
      rw [Machine.written, devs_setDev_self]
      rfl
    · rw [Machine.written, devs_setDev_of_ne _ hd]
  unfold Machine.layout
  rw [funext hdev]
  rfl

variable {lba : UInt64} {count : UInt32} {buf : Buffer}

section Driver

lemma Machine.written_nil (m : Machine) (d : DevId) (lba : UInt64) : m.written d lba [] = m := by
  simp [written, setDev, BlkDev.write, Region.store_nil]

lemma blkDevRead_ends (hused : (m.devs d).used)
    (hfit : lba.toNat + count.toNat ≤ (m.devs d).capacity.toNat) :
    Ends (blkDevRead d lba count) m (fun buf m' => m' = m.asked ⟨d, lba, count, false⟩ ∧
        buf.sectors = load (m.devs d).data lba.toNat count.toNat ∧ (count ≠ 0 → m.io m.tick = none))
      fun _ m' => m' = m.noted ⟨d, lba, count, false⟩ ∧ (m.io m.tick).isSome := by
  refine getDev_bind (.pass (by simp [hused]) ?_)
  by_cases hzero : count = 0
  · subst hzero
    exact ⟨rfl, rfl, absurd rfl⟩
  rw [if_neg hzero]
  have hasked : m.asked ⟨d, lba, count, false⟩ = m.noted ⟨d, lba, count, false⟩ := if_neg hzero
  refine .bind (.get_bind (.get_bind (.bind (.modify (getDev_bind ?_)))))
  refine .pass (decide_eq_false (Nat.not_lt.mpr hfit)) ?_
  cases hio : m.io m.tick with
  | some fault => exact ⟨rfl, rfl⟩
  | none => exact ⟨hasked.symm, rfl, fun _ => rfl⟩

lemma blkDevWrite_ends (hused : (m.devs d).used)
    (hfit : lba.toNat + buf.sectors.length ≤ (m.devs d).capacity.toNat) :
    Ends (blkDevWrite d lba buf) m
      (fun _ m' => m' = (m.asked ⟨d, lba, buf.count, true⟩).written d lba buf.sectors ∧
        (buf.count ≠ 0 → m.io m.tick = none)) fun _ m' => (∃ l, l.length = buf.sectors.length ∧
        m' = (m.noted ⟨d, lba, buf.count, true⟩).written d lba l) ∧ (m.io m.tick).isSome := by
  rw [← buf.count_toNat] at hfit ⊢
  refine getDev_bind (.pass (by simp [hused]) ?_)
  by_cases hzero : buf.count = 0
  · have hnil : buf.sectors = [] := by
      have := buf.count_toNat
      rw [hzero] at this
      exact eq_nil_of_length_eq_zero this.symm
    rw [if_pos hzero]
    refine ⟨?_, absurd hzero⟩
    rw [hnil, Machine.written_nil, Machine.asked, if_pos hzero]
  rw [if_neg hzero]
  have hasked : m.asked ⟨d, lba, buf.count, true⟩ = m.noted ⟨d, lba, buf.count, true⟩ :=
    if_neg hzero
  refine .bind (.get_bind (.get_bind (.bind (.modify (getDev_bind ?_)))))
  refine .pass (decide_eq_false (Nat.not_lt.mpr hfit)) ?_
  cases hio : m.io m.tick with
  | some fault => exact ⟨⟨_, length_load, rfl⟩, rfl⟩
  | none => exact ⟨by rw [hasked]; rfl, fun _ => rfl⟩

lemma blkDevRead_leaves (m : Machine) (d : DevId) (lba : UInt64) (count : UInt32) :
    Leaves (blkDevRead d lba count) m fun m' => m' = m ∨ m' = m.noted ⟨d, lba, count, false⟩ := by
  refine getDev_bind (.guard fun _ => ?_)
  split
  · exact .inl rfl
  refine .bind (.get_bind (.get_bind (.bind (.modify (getDev_bind ?_)))))
  refine .failIf_bind (fun _ => .inr rfl) fun _ => ?_
  cases hio : m.io m.tick <;> exact .inr rfl

lemma blkDevWrite_leaves (m : Machine) (d : DevId) (lba : UInt64) (buf : Buffer) :
    Leaves (blkDevWrite d lba buf) m fun m' => m' = m ∨ ∃ l, l.length ≤ buf.count.toNat ∧
      m' = (m.noted ⟨d, lba, buf.count, true⟩).written d lba l := by
  refine getDev_bind (.guard fun _ => ?_)
  split
  · exact .inl rfl
  refine .bind (.get_bind (.get_bind (.bind (.modify (getDev_bind ?_)))))
  refine .failIf_bind (fun _ => ?_) fun _ => ?_
  · refine .inr ⟨[], Nat.zero_le _, ?_⟩
    rw [Machine.written_nil]
  cases hio : m.io m.tick with
  | some fault => exact .inr ⟨_, Nat.le_of_eq length_load, rfl⟩
  | none => exact .inr ⟨buf.sectors, Nat.le_of_eq buf.count_toNat.symm, rfl⟩

end Driver

/-! ## Member requests -/

section Member

variable {idx : Nat}

/-- The access a request for array sectors makes on a member. -/
def Layout.access (L : Layout) (d : DevId) (lba : UInt64) (count : UInt32) (write : Bool) :
    Access :=
  ⟨d, dataOffsetFor L.array.tailMeta + lba, count, write⟩

lemma Layout.Laid.sector_toNat {L : Layout} (h : L.Laid) {i : Nat} (hi : i < L.size)
    (hd : L.dev i = some d) (lba : UInt64) (hfit : lba.toNat ≤ L.sectors) :
    (dataOffsetFor L.array.tailMeta + lba).toNat = L.offset + lba.toNat := by
  have hcap : L.offset + lba.toNat ≤ L.capacity d :=
    Nat.le_trans (Nat.add_le_add_left hfit _) (h.fits hi hd)
  exact Nat.mod_eq_of_lt (Nat.lt_of_le_of_lt hcap (UInt64.toNat_lt _))

lemma readIndex_lt (hlaid : (m.layout a).Laid) (tried : Nat) :
    (m.arrays a).readIndex tried < (m.layout a).size := by
  exact Nat.mod_lt _ hlaid.pos

def Machine.Down (m : Machine) (a : ArrayId) (idx : Nat) : Prop :=
  (m.layout a).dev idx = none ∨ ((m.arrays a).members idx).state = .faulty

lemma memberTarget_error (hfail : m.Down a idx)
    {r : DevId × UInt64} : (m.arrays a).memberTarget idx lba count ≠ .ok r := by
  intro hok
  obtain ⟨_, -, hok⟩ := bind_eq_ok.mp hok
  obtain ⟨d, hd, hok⟩ := bind_eq_ok.mp hok
  obtain ⟨_, hstate, -⟩ := bind_eq_ok.mp hok
  rcases hfail with hnone | hfaulty
  · have hnone : ((m.arrays a).members idx).dev = none := hnone
    rw [hnone] at hd
    cases hd
  · rw [hfaulty] at hstate
    cases hstate

variable (h : (m.layout a).Laid) (hi : idx < (m.layout a).size)
include h hi

lemma memberTarget_bind {β : Type} {k : DevId × UInt64 → MdM β} {Q : β → Machine → Prop}
    {E : Err → Machine → Prop} (hfit : lba.toNat + count.toNat ≤ (m.layout a).sectors)
    (hbad : m.Down a idx → ∀ e, E e m)
    (hgood : ∀ d, (m.layout a).dev idx = some d → ((m.arrays a).members idx).state ≠ .faulty →
      Ends (k (d, dataOffsetFor (m.layout a).array.tailMeta + lba)) m Q E) :
    Ends (MonadExcept.ofExcept ((m.arrays a).memberTarget idx lba count) >>= k) m Q E := by
  by_cases hfail : m.Down a idx
  · exact .ofExcept_bind (fun e _ => hbad hfail e) fun r hr => absurd hr (memberTarget_error hfail)
  · obtain ⟨hdev, hstate⟩ := not_or.mp hfail
    obtain ⟨d, hd⟩ := Option.ne_none_iff_exists'.mp hdev
    have hoff : ((m.arrays a).members idx).dataOffset = dataOffsetFor (m.layout a).array.tailMeta :=
      (h.member idx hi d hd).2.2.1
    have hd' : ((m.arrays a).members idx).dev = some d := hd
    have hsum : ¬ lba + count.toUInt64 > (m.arrays a).memberSectors := by
      rw [gt_iff_lt, UInt64.lt_iff_toNat_lt, UInt64.toNat_add, UInt32.toNat_toUInt64]
      have hlt : lba.toNat + count.toNat < 2 ^ 64 := Nat.lt_of_le_of_lt hfit (UInt64.toNat_lt _)
      rw [Nat.mod_eq_of_lt hlt]
      exact Nat.not_lt.mpr hfit
    have hidx : ¬ (m.arrays a).memberCount.toNat ≤ idx := Nat.not_le.mpr hi
    have htarget : (m.arrays a).memberTarget idx lba count =
        .ok (d, dataOffsetFor (m.layout a).array.tailMeta + lba) := by
      simp only [MdArray.memberTarget, hd', hoff, decide_eq_false hidx, decide_eq_false hsum,
        beq_eq_false_iff_ne.mpr hstate]
      rfl
    refine .ofExcept_bind (fun e he => ?_) fun r hr => ?_
    · rw [htarget] at he
      cases he
    · rw [htarget] at hr
      cases hr
      exact hgood d hd hstate

lemma Layout.Laid.access_fits (hd : (m.layout a).dev idx = some d) {n : Nat}
    (hfit : lba.toNat + n ≤ (m.layout a).sectors) :
    (dataOffsetFor (m.layout a).array.tailMeta + lba).toNat + n ≤ (m.devs d).capacity.toNat := by
  have hsector := h.sector_toNat hi hd lba (by omega)
  have hfits : _ ≤ (m.devs d).capacity.toNat := h.fits hi hd
  omega

/-- A read of a member returns what is in its data area. It fails without a request when the slot is
empty or has failed, and otherwise only when the request is not met. -/
lemma memberRead_ends (hfit : lba.toNat + count.toNat ≤ (m.layout a).sectors) :
    Ends (memberRead a idx lba count) m
      (fun buf m' => ∃ d, (m.layout a).dev idx = some d ∧ ((m.arrays a).members idx).state ≠
        .faulty ∧ m' = m.asked ((m.layout a).access d lba count false) ∧
        buf.sectors = load (m.devs d).data ((m.layout a).offset + lba.toNat) count.toNat ∧
        (count ≠ 0 → m.io m.tick = none)) fun _ m' =>
        (m' = m ∧ m.Down a idx) ∨
        ∃ d, (m.layout a).dev idx = some d ∧ ((m.arrays a).members idx).state ≠ .faulty ∧
          m' = m.noted ((m.layout a).access d lba count false) ∧ (m.io m.tick).isSome := by
  refine getArray_bind
    (memberTarget_bind h hi hfit (fun hbad _ => .inl ⟨rfl, hbad⟩) fun d hd hstate => ?_)
  refine (blkDevRead_ends (h.member idx hi d hd).1 (h.access_fits hi hd hfit)).mono ?_ ?_
  · rintro buf m' ⟨hm', hbuf, hio⟩
    rw [h.sector_toNat hi hd lba (by omega)] at hbuf
    exact ⟨d, hd, hstate, hm', hbuf, hio⟩
  · rintro e m' ⟨hm', hio⟩
    exact .inr ⟨d, hd, hstate, hm', hio⟩

/-- A write to a member replaces sectors of its data area, by something else when the request is not
met. -/
lemma memberWrite_ends (hfit : lba.toNat + buf.sectors.length ≤ (m.layout a).sectors) :
    Ends (memberWrite a idx lba buf) m
      (fun _ m' => ∃ d, (m.layout a).dev idx = some d ∧ ((m.arrays a).members idx).state ≠ .faulty ∧
        m' = (m.asked ((m.layout a).access d lba buf.count true)).written d
          (dataOffsetFor (m.layout a).array.tailMeta + lba) buf.sectors ∧
        (buf.count ≠ 0 → m.io m.tick = none)) fun _ m' =>
        (m' = m ∧ m.Down a idx) ∨
        ∃ d l, (m.layout a).dev idx = some d ∧ ((m.arrays a).members idx).state ≠ .faulty ∧
          l.length = buf.sectors.length ∧
          m' = (m.noted ((m.layout a).access d lba buf.count true)).written d
            (dataOffsetFor (m.layout a).array.tailMeta + lba) l ∧ (m.io m.tick).isSome := by
  have hfit' := hfit
  rw [← buf.count_toNat] at hfit'
  refine getArray_bind
    (memberTarget_bind h hi hfit' (fun hbad _ => .inl ⟨rfl, hbad⟩) fun d hd hstate => ?_)
  refine (blkDevWrite_ends (h.member idx hi d hd).1 (h.access_fits hi hd hfit)).mono ?_ ?_
  · rintro - m' ⟨hm', hio⟩
    exact ⟨d, hd, hstate, hm', hio⟩
  · rintro e m' ⟨⟨l, hl, hm'⟩, hio⟩
    exact .inr ⟨d, l, hd, hstate, hl, hm', hio⟩

end Member

/-! ## Superblocks -/

/-- What writing superblocks can do: count events, make requests to the superblock sectors of the
members, and change these sectors. -/
structure Synced (a : ArrayId) (m m' : Machine) : Prop where
  io : m'.io = m.io
  active : m'.active = m.active
  others : ∀ b, b ≠ a → m'.arrays b = m.arrays b
  layout : m'.layout a = m.layout a
  cursor : (m'.arrays a).readCursor = (m.arrays a).readCursor
  resync : (m'.arrays a).resyncOffset = (m.arrays a).resyncOffset
  state : ∀ i, ((m'.arrays a).members i).state = ((m.arrays a).members i).state
  tick : m.tick ≤ m'.tick
  trace : ∃ accs, m'.trace = m.trace ++ accs ∧ (∀ acc ∈ accs, (m.layout a).IsSuper acc) ∧
    ∀ d k, (∀ acc ∈ accs, ¬ acc.Covers d k) → (m'.devs d).data k = (m.devs d).data k

section Synced

variable {m' m'' : Machine}

@[refl]
lemma Synced.refl (m : Machine) : Synced a m m :=
  ⟨rfl, rfl, fun _ _ => rfl, rfl, rfl, rfl, fun _ => rfl, Nat.le_refl _,
    [], (append_nil _).symm, forall_mem_nil _, fun _ _ _ => rfl⟩

lemma Synced.trans (h : Synced a m m') (h' : Synced a m' m'') : Synced a m m'' := by
  obtain ⟨accs, htrace, hsuper, hdata⟩ := h.trace
  obtain ⟨accs', htrace', hsuper', hdata'⟩ := h'.trace
  refine ⟨h'.io.trans h.io, h'.active.trans h.active,
    fun b hb => (h'.others b hb).trans (h.others b hb), h'.layout.trans h.layout,
    h'.cursor.trans h.cursor, h'.resync.trans h.resync, fun i => (h'.state i).trans (h.state i),
    Nat.le_trans h.tick h'.tick, accs ++ accs', ?_, ?_, ?_⟩
  · rw [htrace', htrace, append_assoc]
  · exact forall_mem_append.mpr ⟨hsuper, h.layout ▸ hsuper'⟩
  · intro d k hnot
    rw [hdata' d k fun acc hacc => hnot acc (mem_append_right _ hacc)]
    exact hdata d k fun acc hacc => hnot acc (mem_append_left _ hacc)

instance : IsPreorder Machine (Synced a) where
  refl := Synced.refl
  trans _ _ _ := Synced.trans

lemma Synced.data (h : Synced a m m') (hlaid : (m.layout a).Laid) (d : DevId) {k : Nat}
    (hk : k < (m.layout a).sectors) :
    (m'.devs d).data ((m.layout a).offset + k) = (m.devs d).data ((m.layout a).offset + k) := by
  obtain ⟨accs, -, hsuper, hdata⟩ := h.trace
  refine hdata d _ fun acc hacc hcovers => ?_
  have hdev : acc.dev = d := hcovers.1
  rw [← hdev] at hcovers
  exact hlaid.not_covers_data (hsuper acc hacc) hk hcovers

lemma Synced.of_setArray {f : MdArray → MdArray}
    (hstill : (f (m.arrays a)).still = (m.arrays a).still)
    (hcursor : (f (m.arrays a)).readCursor = (m.arrays a).readCursor)
    (hresync : (f (m.arrays a)).resyncOffset = (m.arrays a).resyncOffset)
    (hstate : ∀ i, ((f (m.arrays a)).members i).state = ((m.arrays a).members i).state) :
    Synced a m (m.setArray a f) := by
  refine ⟨rfl, rfl, fun b => arrays_setArray_of_ne f, layout_setArray hstill, ?_, ?_, ?_,
    Nat.le_refl _, [], (append_nil _).symm, forall_mem_nil _, fun _ _ _ => rfl⟩
  · rw [arrays_setArray_self, hcursor]
  · rw [arrays_setArray_self, hresync]
  · intro i
    rw [arrays_setArray_self, hstate]

lemma Synced.of_super {acc : Access} {l : List Sector} (hsuper : (m.layout a).IsSuper acc)
    (hl : l.length ≤ acc.count.toNat) : Synced a m ((m.noted acc).written acc.dev acc.lba l) := by
  refine ⟨rfl, rfl, fun _ _ => rfl, ?_, rfl, rfl, fun _ => rfl, Nat.le_succ _, [acc], rfl, ?_, ?_⟩
  · rw [layout_written, layout_noted]
  · intro acc' hacc
    rw [mem_singleton.mp hacc]
    exact hsuper
  · intro d k hnot
    by_cases hd : d = acc.dev
    · subst hd
      rw [Machine.written, devs_setDev_self]
      apply store_of_disjoint
      by_contra hin
      exact hnot acc (mem_singleton_self acc) ⟨rfl, by omega, by omega⟩
    · rw [Machine.written, devs_setDev_of_ne _ hd]
      rfl

lemma superWrite_synced (a : ArrayId) (i : Nat) : Within (Synced a) (superWrite a i) := by
  intro m
  apply Ends.final
  refine getArray_bind (.guard fun hi => ?_)
  refine .fetch fun d hd => ?_
  refine getDev_bind (.lift fun sector hsector => ?_)
  apply modifyArray_bind
  generalize hm1 :
    m.setArray a (fun arr => arr.setMember i fun mem => { mem with events := arr.events }) = m1
  have h1 : Synced a m m1 := by
    rw [← hm1]
    refine Synced.of_setArray (still_setMember _ _ rfl rfl) rfl rfl fun j => ?_
    by_cases hj : j = i
    · subst hj
      rw [members_setMember_self]
    · rw [members_setMember_of_ne _ _ hj]
  generalize ((m.arrays a).superOf i).toSector = s
  have hcount : (Buffer.single s).count = 1 := rfl
  have hsuper : (m1.layout a).IsSuper ⟨d, sector, (Buffer.single s).count, true⟩ := by
    rw [h1.layout]
    exact ⟨rfl, hcount, i, Nat.not_le.mp (of_decide_eq_false hi), hd, hsector⟩
  apply Ends.of_final
  refine h1.trans ?_
  rcases (blkDevWrite_leaves m1 d sector (Buffer.single s)).final with hfinal | ⟨l, hl, hfinal⟩
  · rw [hfinal]
  · rw [hfinal]
    exact Synced.of_super hsuper hl

lemma superSyncEach_synced (a : ArrayId) (is : List Nat) (last : Option Err) :
    Within (Synced a) (superSyncEach a is last) := by
  induction is generalizing last with
  | nil => exact .pure last
  | cons i is ih =>
    refine .bind (getArray_within a) fun arr => ?_
    split
    · exact ih last
    · refine .bind (superWrite_synced a i).attempt fun r => ?_
      cases r with
      | ok _ => exact ih last
      | error e => exact ih (some e)

lemma superSync_synced (a : ArrayId) : Within (Synced a) (superSync a) := by
  refine .bind (.modify fun m => .of_setArray rfl rfl rfl fun _ => rfl) fun _ => ?_
  refine .bind (getArray_within a) fun arr => ?_
  refine .bind (superSyncEach_synced a _ _) fun last => ?_
  cases last with
  | none => exact .pure _
  | some e => exact .refl

def Machine.faulted (m : Machine) (a : ArrayId) (idx : Nat) : Machine :=
  m.setArray a fun arr => arr.setMember idx fun mem => { mem with state := .faulty }

lemma layout_faulted (m : Machine) (a : ArrayId) (idx : Nat) :
    (m.faulted a idx).layout a = m.layout a :=
  layout_setArray (still_setMember _ _ rfl rfl)

lemma state_faulted_self (m : Machine) (a : ArrayId) (idx : Nat) :
    (((m.faulted a idx).arrays a).members idx).state = .faulty := by
  simp [Machine.faulted]

lemma state_faulted_of_ne (m : Machine) (a : ArrayId) {idx i : Nat} (h : i ≠ idx) :
    (((m.faulted a idx).arrays a).members i).state = ((m.arrays a).members i).state := by
  rw [Machine.faulted, arrays_setArray_self, members_setMember_of_ne _ _ h]

/-- Marking a member faulty does nothing to one that is faulty or missing; otherwise the superblocks
are written with the member marked. -/
lemma memberFault_ends (a : ArrayId) (idx : Nat) (m : Machine) :
    Succeeds (memberFault a idx) m fun _ m' =>
        (m' = m ∧ ¬ (idx < (m.layout a).size ∧ ((m.layout a).dev idx).isSome ∧
          ((m.arrays a).members idx).state ≠ .faulty)) ∨ Synced a (m.faulted a idx) m' := by
  apply getArray_bind
  split
  · exact .attempt_bind ((Ends.of_final (superSync_synced a _)).mono (fun _ _ => .inr)
      fun _ _ => .inr)
  · rename_i hskip
    exact .inl ⟨rfl, hskip⟩

end Synced

end Anunix.Md
