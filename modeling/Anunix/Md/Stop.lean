import Anunix.Md.Scan

/-!
# Stopping an array

A stop leaves every member with a superblock of the array as it was (`Stopped`). From these
superblocks an array with the same header is made up, with the same members less those that failed
(`Remembered`).
-/

namespace Anunix.Md
open Fallible Region List

/-! ## Superblocks of a stopped array -/

section Sync

variable {a : ArrayId} {m m' : Machine} {i : Nat} {d : DevId}

lemma Synced.calm (h : Synced a m m') (hm : m.Calm) : m'.Calm := by
  intro t ht
  rw [h.io]
  exact hm t (Nat.le_trans h.tick ht)

lemma Layout.Laid.superSector {L : Layout} (h : L.Laid) (hi : i < L.size) (hd : L.dev i = some d) :
    ∃ s, Md.superSector (L.devs d) L.array.tailMeta = .ok s := by
  obtain ⟨hused, -, -, hroom⟩ := h.member i hi d hd
  have hpos := h.room
  have hback : sbTailBack.toNat = 8 := rfl
  have hcap : (L.devs d).blkDevCapacity = (L.devs d).capacity := if_pos hused
  unfold Layout.capacity at hroom
  unfold Layout.offset dataOffsetFor at hroom
  rw [Md.superSector, hcap]
  cases htail : L.array.tailMeta with
  | false =>
    simp only [htail, Bool.false_eq_true, if_false] at hroom
    have hlt : ¬ (L.devs d).capacity ≤ headDataOffset := by
      rw [UInt64.le_iff_toNat_le]
      omega
    exact ⟨sbSectorHead, if_neg hlt⟩
  | true =>
    simp only [htail, if_true] at hroom
    have hlt : ¬ (L.devs d).capacity ≤ sbTailBack := by
      rw [UInt64.le_iff_toNat_le]
      omega
    exact ⟨_, if_neg hlt⟩

lemma superOf_setMember_events (arr : MdArray) (i j : Nat) (e : UInt64) :
    (arr.setMember i fun mem => { mem with events := e }).superOf j = arr.superOf j := by
  have hplain :
      (arr.setMember i fun mem => { mem with events := e }).plainSuper j = arr.plainSuper j := by
    by_cases hj : j = i
    · subst hj
      simp only [MdArray.plainSuper, members_setMember_self]
      rfl
    · simp only [MdArray.plainSuper, members_setMember_of_ne _ _ hj]
      rfl
  rw [MdArray.superOf, MdArray.superOf, hplain]

lemma superWrite_ends (hm : m.Calm) (hlaid : (m.layout a).Laid) (hi : i < (m.layout a).size)
    (hd : (m.layout a).dev i = some d) : Succeeds (superWrite a i) m
      fun _ m' => (m'.arrays a).superOf = (m.arrays a).superOf ∧
      (∀ d', d' ≠ d → m'.devs d' = m.devs d') ∧
        ∀ s, superSector (m.devs d) (m.layout a).array.tailMeta = .ok s →
          (m'.devs d).data s.toNat = ((m.arrays a).superOf i).toSector := by
  obtain ⟨s, hs⟩ := hlaid.superSector hi hd
  have hs : superSector (m.devs d) (m.arrays a).tailMeta = .ok s := hs
  obtain ⟨hused, hfit⟩ := superSector_lt hs
  refine getArray_bind (.pass (decide_eq_false (Nat.not_le.mpr hi)) ?_)
  refine .orThrow_bind (fun h => ?_) fun d' hd' => ?_
  · have hd : ((m.arrays a).members i).dev = some d := hd
    rw [hd] at h
    cases h
  have hdd : d' = d := Option.some.inj (hd'.symm.trans hd)
  subst hdd
  refine getDev_bind (Ends.ofExcept_bind (fun e he => ?_) fun s' hs' => modifyArray_bind ?_)
  · rw [hs] at he
    cases he
  cases hs.symm.trans hs'
  generalize hm1 : m.setArray a _ = m1
  have hdevs : m1.devs = m.devs := by
    rw [← hm1]
    rfl
  have hsuper : (m1.arrays a).superOf = (m.arrays a).superOf := by
    funext j
    rw [← hm1, arrays_setArray_self, superOf_setMember_events]
  have hio : m1.io m1.tick = none := by
    rw [← hm1]
    exact hm m.tick (Nat.le_refl _)
  rw [← hdevs] at hused hfit
  refine (blkDevWrite_ends hused hfit).mono ?_ ?_
  · rintro - m2 ⟨rfl, -⟩
    refine ⟨hsuper, fun d1 hd1 => ?_, fun s1 hs1 => ?_⟩
    · rw [← hdevs]
      exact devs_setDev_of_ne _ hd1
    · cases hs.symm.trans hs1
      rw [Machine.written, devs_setDev_self]
      show store _ s.toNat [((m.arrays a).superOf i).toSector] s.toNat = _
      simp [store]
  · rintro e m2 ⟨-, hfault⟩
    rw [hio] at hfault
    cases hfault

/-- Superblocks `S` on the drives of the listed members; the drives of no other slot are touched. -/
structure Recorded (a : ArrayId) (S : Nat → MdSuper) (is : List Nat) (m m' : Machine) : Prop where
  supers : ∀ i ∈ is, ∀ d, (m.layout a).dev i = some d → ∀ s,
    superSector (m.devs d) (m.layout a).array.tailMeta = .ok s →
    (m'.devs d).data s.toNat = (S i).toSector
  devs : ∀ d, (∀ i ∈ is, (m.layout a).dev i ≠ some d) → m'.devs d = m.devs d

lemma superSyncEach_ends (hm : m.Calm) (hlaid : (m.layout a).Laid) {is : List Nat}
    (hnodup : is.Nodup) (his : ∀ i ∈ is, i < (m.layout a).size) :
    Succeeds (superSyncEach a is none) m
      fun last m' => last = none ∧ Recorded a (m.arrays a).superOf is m m' := by
  induction is generalizing m with
  | nil => exact ⟨rfl, forall_mem_nil _, fun _ _ => rfl⟩
  | cons i is ih =>
    rw [nodup_cons] at hnodup
    have hi := his i mem_cons_self
    have his : ∀ j ∈ is, j < (m.layout a).size := fun j hj => his j (mem_cons_of_mem _ hj)
    apply getArray_bind
    split
    · rename_i hnone
      have hnone : (m.layout a).dev i = none := Option.isNone_iff_eq_none.mp hnone
      refine (ih hm hlaid hnodup.2 his).post ?_
      rintro last m' ⟨hlast, hrec⟩
      refine ⟨hlast, fun j hj d hd => ?_, fun d hd => ?_⟩
      · rcases mem_cons.mp hj with rfl | hj
        · rw [hnone] at hd
          cases hd
        · exact hrec.supers j hj d hd
      · exact hrec.devs d fun j hj => hd j (mem_cons_of_mem _ hj)
    · rename_i hsome
      obtain ⟨d, hd⟩ :=
        Option.ne_none_iff_exists'.mp fun hnone => hsome (Option.isNone_iff_eq_none.mpr hnone)
      refine .attempt_bind (((superWrite_ends hm hlaid hi hd).and_final
        (superWrite_synced a i m)).mono ?_ fun _ _ h => h.1.elim)
      rintro - m1 ⟨⟨hsuper, hother, hself⟩, hsynced⟩
      have hlayout := hsynced.layout
      rw [← hlayout] at hlaid
      refine (ih (hsynced.calm hm) hlaid hnodup.2 fun j hj => hlayout ▸ his j hj).post ?_
      rintro last m' ⟨hlast, hrec⟩
      -- the superblock just written is on a drive that the rest does not touch
      have hkeep : m'.devs d = m1.devs d := by
        refine hrec.devs d fun j hj hdj => ?_
        rw [hlayout] at hdj hlaid
        have hji := hlaid.distinct j (his j hj) i hi d hdj hd
        exact hnodup.1 (hji ▸ hj)
      have hsector : ∀ d', superSector (m1.devs d') = superSector (m.devs d') := fun d' =>
        congrArg (fun L : Layout => superSector (L.devs d')) hlayout
      refine ⟨hlast, fun j hj d' hd' s hs => ?_, fun d' hd' => ?_⟩
      · rcases mem_cons.mp hj with rfl | hj
        · cases hd.symm.trans hd'
          rw [hkeep]
          exact hself s hs
        · rw [← hsuper]
          refine hrec.supers j hj d' (hlayout ▸ hd') s ?_
          rw [hsector, hlayout]
          exact hs
      · rw [hrec.devs d' fun j hj => hlayout ▸ hd' j (mem_cons_of_mem _ hj)]
        refine hother d' fun hdd => ?_
        exact hd' i mem_cons_self (hdd ▸ hd)

def MdArray.counted (arr : MdArray) : MdArray :=
  { arr with events := arr.events + 1 }

lemma superSync_ends (hm : m.Calm) (hlaid : (m.layout a).Laid) : Succeeds (superSync a) m
      fun _ m' => Recorded a (m.arrays a).counted.superOf (range (m.layout a).size) m m' := by
  refine modifyArray_bind (getArray_bind ?_)
  generalize hm1 : m.setArray a _ = m1
  have hsynced : Synced a m m1 := by
    rw [← hm1]
    exact Synced.of_setArray rfl rfl rfl fun _ => rfl
  have hsuper : (m1.arrays a).superOf = (m.arrays a).counted.superOf := by
    rw [← hm1, arrays_setArray_self]
    rfl
  have hdevs : m1.devs = m.devs := by
    rw [← hm1]
    rfl
  have hlayout := hsynced.layout
  have hsize : (m1.arrays a).memberCount.toNat = (m.layout a).size := congrArg Layout.size hlayout
  rw [hsize]
  refine .next (superSyncEach_ends (hsynced.calm hm) (hlayout ▸ hlaid) nodup_range
    fun i hi => ?_) ?_
  · rw [hlayout]
    exact mem_range.mp hi
  · rintro last m' ⟨rfl, hrec⟩
    refine ⟨fun i hi d hd s hs => ?_, fun d hd => ?_⟩
    · rw [← hsuper]
      refine hrec.supers i hi d (hlayout ▸ hd) s ?_
      rw [hdevs, hlayout]
      exact hs
    · rw [← hdevs]
      exact hrec.devs d fun i hi => hlayout ▸ hd i hi

end Sync

/-! ## Stopping -/

structure Stopped (a : ArrayId) (b : DevId) (m m' : Machine) : Prop where
  io : m'.io = m.io
  tick : m.tick ≤ m'.tick
  supers : ∀ i < (m.layout a).size, ∀ d, (m.layout a).dev i = some d → ∀ s,
    superSector (m.devs d) (m.layout a).array.tailMeta = .ok s →
      (m'.devs d).data s.toNat = ((m.arrays a).counted.superOf i).toSector
  member :
    ∀ d, (m.layout a).Holds d → (m'.devs d).still = { (m.devs d).still with isMember := false }
  data : ∀ d, (m.layout a).Holds d → ∀ k,
    superSector (m.devs d) (m.layout a).array.tailMeta ≠ .ok (UInt64.ofNat k) → k < 2 ^ 64 →
      (m'.devs d).data k = (m.devs d).data k
  others : ∀ d, d ≠ b → ¬ (m.layout a).Holds d → m'.devs d = m.devs d
  bdev : (m'.devs b).used = false
  array : (m'.arrays a).used = false
  arrays : ∀ c, c ≠ a → m'.arrays c = m.arrays c

section Stop

variable {a : ArrayId} {b d : DevId} {m m' : Machine} {i : Nat}

lemma Synced.data_of_ne (h : Synced a m m') {k : Nat} (hk : k < 2 ^ 64)
    (hne : superSector (m.devs d) (m.layout a).array.tailMeta ≠ .ok (UInt64.ofNat k)) :
    (m'.devs d).data k = (m.devs d).data k := by
  obtain ⟨accs, -, hsuper, hdata⟩ := h.trace
  refine hdata d k fun acc hacc hcovers => hne ?_
  obtain ⟨hdev, hle, hlt⟩ := hcovers
  obtain ⟨-, hcount, i, -, -, hsector⟩ := hsuper acc hacc
  have hone : acc.count.toNat = 1 := by
    rw [hcount]
    rfl
  have hlba : acc.lba = UInt64.ofNat k := by
    apply UInt64.toNat_inj.mp
    rw [UInt64.toNat_ofNat_of_lt' hk]
    omega
  rw [← hlba, ← hdev]
  exact hsector

lemma stop_ends (hm : m.Calm) (hlaid : (m.layout a).Laid) (hbdev : (m.arrays a).bdev = some b)
    (hused : (m.devs b).used = true) (hb : ¬ (m.layout a).Holds b) :
    Ends (stop a) m (fun _ m' => Stopped a b m m') fun _ _ => True := by
  refine (stop_drops hbdev hused).mono ?_ fun _ _ _ => trivial
  intro _ m' h
  have hrec := ((superSync_ends hm hlaid).post fun _ _ h => h).final
  have hsynced := superSync_synced a m
  generalize final (superSync a) m = m1 at h hrec hsynced
  have hdevs : ∀ d, (m.layout a).Holds d → m'.devs d = { m1.devs d with isMember := false } := by
    intro d hd
    refine h.held d ?_ hd
    rintro rfl
    exact hb hd
  refine ⟨h.io.trans hsynced.io, ?_, fun i hi d hd s hs => ?_, fun d hd => ?_, fun d hd k hk hlt =>
    ?_, fun d hdb hd => ?_, h.bdev, ?_, fun c hc => (h.others c hc).trans (hsynced.others c hc)⟩
  · rw [h.tick]
    exact hsynced.tick
  · rw [hdevs d ⟨i, hi, hd⟩]
    exact hrec.supers i (mem_range.mpr hi) d hd s hs
  · have hstill : (m1.devs d).still = (m.devs d).still :=
      congrArg (fun L : Layout => L.devs d) hsynced.layout
    rw [hdevs d hd, ← hstill]
    rfl
  · rw [hdevs d hd]
    exact hsynced.data_of_ne hlt hk
  · rw [h.free d hdb hd]
    exact hrec.devs d fun i hi hdev => hd ⟨i, mem_range.mp hi, hdev⟩
  · rw [h.array]
    rfl

end Stop

/-! ## The array that is made up again -/

structure Remembered (arr : MdArray) (l : List Candidate) : Prop where
  mem : ∀ c, c ∈ l ↔ ∃ i < arr.memberCount.toNat, (arr.members i).dev = some c.dev ∧
    c.sb = arr.superOf i
  length : l.length ≤ maxMembers
  pos : 0 < arr.memberCount.toNat
  count : arr.memberCount.toNat ≤ maxMembers
  dev : ∀ i < arr.memberCount.toNat, ∃ d, (arr.members i).dev = some d
  state : ∀ i < arr.memberCount.toNat, (arr.members i).state = .active ∨
    (arr.members i).state = .faulty

section Remembered

variable {arr : MdArray} {l : List Candidate} {i : Nat} {d : DevId}

lemma superOf_index (h : i < arr.memberCount.toNat) : (arr.superOf i).memberIndex.toNat = i :=
  UInt32.toNat_ofNat_of_lt' (Nat.lt_trans h arr.memberCount.toNat_lt)

lemma Level.ofCode_code (level : Level) : Level.ofCode level.code = level := by
  cases level <;> rfl

variable (h : Remembered arr l)
include h

lemma Remembered.nonempty : l ≠ [] := by
  obtain ⟨d, hd⟩ := h.dev 0 h.pos
  exact ne_nil_of_mem ((h.mem ⟨d, arr.superOf 0⟩).mpr ⟨0, h.pos, hd, rfl⟩)

lemma Remembered.described : Described arr.level.code arr.memberCount arr.arraySectors l := by
  refine ⟨h.nonempty, fun c hc => ?_, fun c hc => ?_, fun c hc => ?_, fun c hc => ?_⟩
  all_goals
    obtain ⟨i, hi, -, hsb⟩ := (h.mem c).mp hc
    rw [hsb]
  · exact ⟨arr.tailMeta, MdArray.superOf_valid h.count hi⟩
  all_goals rfl

lemma Remembered.firstFor_active (hi : i < arr.memberCount.toNat)
    (hd : (arr.members i).dev = some d) (hstate : (arr.members i).state = .active) :
    firstFor (group l) i = some ⟨d, arr.superOf i⟩ := by
  rw [group, take_of_length_le h.length]
  have hmem : (⟨d, arr.superOf i⟩ : Candidate) ∈ l := (h.mem _).mpr ⟨i, hi, hd, rfl⟩
  have hcode : (arr.superOf i).memberState = MemberState.active.code := by
    rw [← hstate]
    rfl
  have hsound : Candidate.Sound ⟨d, arr.superOf i⟩ := by
    show (arr.superOf i).memberState ≠ _
    rw [hcode]
    decide
  cases hfirst : firstFor l i with
  | none =>
    have hno := find?_eq_none.mp hfirst _ hmem
    exact absurd (Candidate.fits_iff.mpr ⟨hsound, superOf_index hi⟩) hno
  | some c =>
    obtain ⟨hc, -, hindex⟩ := firstFor_eq_some hfirst
    obtain ⟨j, hj, hdev, hsb⟩ := (h.mem c).mp hc
    rw [hsb, superOf_index hj] at hindex
    subst hindex
    rw [hd] at hdev
    cases hdev
    cases c with
    | mk dev sb =>
      subst hsb
      rfl

lemma Remembered.firstFor_faulty (hstate : (arr.members i).state = .faulty) :
    firstFor (group l) i = none := by
  cases hfirst : firstFor (group l) i with
  | none => rfl
  | some c =>
    obtain ⟨hc, hsound, hindex⟩ := firstFor_eq_some hfirst
    obtain ⟨j, hj, -, hsb⟩ := (h.mem c).mp (mem_of_mem_take hc)
    rw [hsb, superOf_index hj] at hindex
    subst hindex
    refine absurd ?_ hsound
    rw [hsb]
    show (arr.members j).state.code = _
    rw [hstate]

lemma Remembered.events {p : MdArray} {ref : MdSuper}
    (hplaced : Placed ref (group l) p) (hi : i < arr.memberCount.toNat)
    (hstate : (arr.members i).state = .active) : p.events = arr.events := by
  obtain ⟨d, hd⟩ := h.dev i hi
  have hle : arr.events ≤ p.events := hplaced.le i _ (h.firstFor_active hi hd hstate)
  rcases hplaced.newest with ⟨hzero, -⟩ | ⟨j, c, hfirst, hevents, -⟩
  · rw [hzero] at hle ⊢
    exact UInt64.le_antisymm UInt64.zero_le hle
  · obtain ⟨hc, -, -⟩ := firstFor_eq_some hfirst
    obtain ⟨k, -, -, hsb⟩ := (h.mem c).mp (mem_of_mem_take hc)
    rw [← hevents, hsb]
    rfl

lemma Remembered.member (hi : i < arr.memberCount.toNat) :
    ((arr.members i).state = .active →
      (gathered l).members i = { arr.members i with events := arr.events }) ∧
      ((arr.members i).state = .faulty → ((gathered l).members i).dev = none) := by
  obtain ⟨ref, p, -, hplaced, hgathered⟩ := h.described.placed
  rw [hgathered]
  constructor
  · intro hstate
    obtain ⟨d, hd⟩ := h.dev i hi
    have hmem : p.members i = { arr.members i with events := arr.events } := by
      have hcode : MemberState.ofCode (arr.members i).state.code = (arr.members i).state := by
        rw [hstate]
        rfl
      rw [hplaced.members, h.firstFor_active hi hd hstate]
      show (⟨some d, (arr.members i).dataOffset, MemberState.ofCode (arr.members i).state.code,
        arr.events⟩ : MdMember) = _
      rw [hcode, ← hd]
    have hkeep : ¬ (i < p.memberCount.toNat ∧ (p.members i).dev.isSome ∧
        (p.members i).events ≠ p.events) := by
      rintro ⟨-, -, hne⟩
      rw [hmem, h.events hplaced hi hstate] at hne
      exact hne rfl
    show (if _ then _ else _) = _
    rw [if_neg hkeep, hmem]
  · intro hstate
    have hmem : p.members i = .blank := by
      rw [hplaced.members, h.firstFor_faulty hstate]
      rfl
    show (if _ then { p.members i with dev := none, state := .empty } else p.members i).dev = none
    rw [hmem]
    split <;> rfl

lemma Remembered.header :
    (gathered l).uuid = arr.uuid ∧ (gathered l).chunkSectors = arr.chunkSectors ∧
      (gathered l).memberSectors = arr.memberSectors ∧ (gathered l).tailMeta = arr.tailMeta ∧
      (gathered l).readCursor = 0 := by
  cases l with
  | nil => exact absurd rfl h.nonempty
  | cons c cs =>
    obtain ⟨i, hi, -, hsb⟩ := (h.mem c).mp mem_cons_self
    have hheader := gather_header c (cs.take (maxMembers - 1))
    rw [hsb] at hheader
    have hfield {β : Type} (f : MdArray → β) := congrArg f hheader
    exact ⟨hfield MdArray.uuid, hfield MdArray.chunkSectors, hfield MdArray.memberSectors,
      (hfield MdArray.tailMeta).trans (MdArray.superOf_valid h.count hi).placement,
      hfield MdArray.readCursor⟩

lemma Remembered.starts (hlive : ∃ i < arr.memberCount.toNat, (arr.members i).state = .active)
    (hstripe : arr.level = .raid0 → ∀ i < arr.memberCount.toNat, (arr.members i).state = .active) :
    ¬ (gathered l).refused := by
  have hslot : ∀ i < arr.memberCount.toNat, (arr.members i).state = .active →
      (gathered l).view.slot i ≠ none := by
    intro i hi hstate hnone
    obtain ⟨d, hd⟩ := h.dev i hi
    have hcount := h.described.geometry.1
    rw [← hcount] at hi
    have hdev : ((gathered l).members i).dev = none := by
      have hmap :
        (if i < (gathered l).memberCount.toNat then ((gathered l).members i).dev.map _ else none) =
        none := hnone
      rw [if_pos hi, Option.map_eq_none_iff] at hmap
      exact hmap
    rw [(h.member (hcount ▸ hi)).1 hstate] at hdev
    rw [hd] at hdev
    cases hdev
  rw [h.described.refused_iff, Level.ofCode_code]
  rintro (⟨hlevel, i, hi, hnone⟩ | hall)
  · exact hslot i hi (hstripe hlevel i hi) hnone
  · obtain ⟨i, hi, hstate⟩ := hlive
    exact hslot i hi hstate (hall i hi)

end Remembered

end Anunix.Md
