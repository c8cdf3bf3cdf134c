import Anunix.Md.RoundTrip

/-!
# Erasing the superblock of a drive

`anx_md_zero_super` erases one superblock, that of the first placement in which it finds one. A
drive with superblocks in both placements keeps the other, and the next assembly finds it
(`zeroSuper_leaves_tail`). A drive with one superblock, and no other, is free of them afterwards and
no assembly takes it for a member (`zeroSuper_removes`).
-/

namespace Anunix.Md
open Fallible Region

structure BlkDev.Unwritten (dev dev' : BlkDev) : Prop where
  data : dev'.data = dev.data
  capacity : dev'.capacity = dev.capacity

/-- A drive has been taken out of RAID: as long as nothing is written to it, no placement holds a
superblock that can be read, and assembly does not make it a member. Only superblock sectors have
changed. -/
structure Removed (d : DevId) (m m' : Machine) : Prop where
  kept : ∀ k, (∀ tail s, superSector (m.devs d) tail = .ok s → s.toNat ≠ k) →
    (m'.devs d).data k = (m.devs d).data k
  unread : ∀ m₁, (m'.devs d).Unwritten (m₁.devs d) → (outcome (superRead d) m₁).isOk = false ∧
    ∀ tail, (outcome (superReadAt d tail) m₁).isOk = false
  unused : ∀ m₁, (m'.devs d).Unwritten (m₁.devs d) → ∀ a i,
    (((final assemble m₁).arrays a).members i).dev = some d → ((m₁.arrays a).members i).dev = some d

/-! ## Assembly without a drive -/

def Unclaimed (d : DevId) (m m' : Machine) : Prop :=
  ∀ a i, ((m'.arrays a).members i).dev = some d → ((m.arrays a).members i).dev = some d

instance (d : DevId) : IsPreorder Machine (Unclaimed d) where
  refl _ _ _ h := h
  trans _ _ _ h h' a i hd := h a i (h' a i hd)

section Assembly

variable {d : DevId}

instance (e : DevId) (f : BlkDev → BlkDev) : Frames (Unclaimed d) (modifyDev e f) :=
  ⟨fun _ _ _ h => h⟩

instance (active : Machine → Option DevId) :
    Frames (Unclaimed d) (modify fun m => { m with active := active m } : MdM Unit) :=
  ⟨fun _ _ _ h => h⟩

lemma modifyArray_unclaimed (a : ArrayId) {f : MdArray → MdArray}
    (hf : ∀ arr i, ((f arr).members i).dev = some d → (arr.members i).dev = some d) :
    Frames (Unclaimed d) (modifyArray a f) := by
  refine ⟨fun m c i h => ?_⟩
  have h : (((m.setArray a f).arrays c).members i).dev = some d := h
  by_cases hc : c = a
  · subst hc
    rw [arrays_setArray_self] at h
    exact hf _ i h
  · rwa [arrays_setArray_of_ne _ hc] at h

instance (a : ArrayId) (bdev : MdArray → Option DevId) (name : MdArray → List UInt8) :
    Frames (Unclaimed d) (modifyArray a fun arr =>
      { arr with bdev := bdev arr, name := name arr }) :=
  modifyArray_unclaimed a fun _ _ h => h

instance : Frames (Unclaimed d) mdAllocArray := by
  constructor
  refine .bind Within.get fun m => ?_
  have hblank (a : ArrayId) :
      Frames (Unclaimed d) (modifyArray a fun _ => { MdArray.blank with used := true }) :=
    modifyArray_unclaimed a nofun
  split <;> exact Frames.within

instance (a : ArrayId) : Frames (Unclaimed d) (mdFreeArray a) :=
  modifyArray_unclaimed a nofun

instance (base : List UInt8) : Frames (Unclaimed d) (blkDevRegister base) := by
  constructor
  refine .bind Within.get fun m => ?_
  split <;> exact Frames.within

instance (e : DevId) : Frames (Unclaimed d) (blkDevClaim e) := by
  unfold blkDevClaim
  infer_instance

instance (arr : MdArray) (l : List Nat) : Frames (Unclaimed d) (arr.eachDev blkDevClaim l) := by
  induction l with
  | nil => exact inferInstanceAs (Frames _ (pure ()))
  | cons i l ih =>
    unfold MdArray.eachDev
    cases (arr.members i).dev <;> infer_instance

set_option synthInstance.maxSize 100000 in
instance (a : ArrayId) : Frames (Unclaimed d) (startArray a) := by
  unfold startArray getArray getDev
  infer_instance

set_option synthInstance.maxSize 100000 in
lemma assembleOne_unclaimed {ref : Candidate} {rest : List Candidate}
    (h : ∀ c ∈ ref :: rest, c.dev ≠ d) : Frames (Unclaimed d) (assembleOne ref rest) := by
  have hgather (a : ArrayId) : Frames (Unclaimed d) (modifyArray a fun _ => gather ref rest) := by
    refine modifyArray_unclaimed a fun arr i hd => ?_
    obtain ⟨c, hc, hcd⟩ := gather_dev hd
    exact absurd hcd (h c hc)
  unfold assembleOne getArray
  infer_instance

lemma assembleGroups_unclaimed (fuel : Nat) {cs : List Candidate} (h : ∀ c ∈ cs, c.dev ≠ d) :
    Within (Unclaimed d) (assembleGroups fuel cs) := by
  induction fuel generalizing cs with
  | zero => exact .pure _
  | succ fuel ih =>
    cases cs with
    | nil => exact .pure _
    | cons c cs =>
      have hone :
          Frames (Unclaimed d) (assembleOne c ((kin c.sb.uuid cs).take (maxMembers - 1))) := by
        refine assembleOne_unclaimed fun c' hc' => ?_
        rcases List.mem_cons.mp hc' with rfl | hc'
        · exact h _ List.mem_cons_self
        · exact h c' (List.mem_cons_of_mem _ (mem_kin.mp (List.mem_of_mem_take hc')).1)
      have hrest : Within (Unclaimed d) (assembleGroups fuel (strangers c.sb.uuid cs)) :=
        ih fun c' hc' => h c' (List.mem_cons_of_mem _ (mem_strangers.mp hc').1)
      refine .bind (.attempt hone.within) fun r => ?_
      cases r with
      | error e => exact hrest
      | ok a => exact .bind hrest fun _ => .pure _

lemma assemble_unclaimed {m : Machine} (h : ∀ tail, (m.devs d).superAt tail = none) :
    Unclaimed d m (final assemble m) := by
  apply Ends.final
  refine Succeeds.next (scan_ends m _) ?_
  rintro cs m1 ⟨hcs, -, hlooked⟩
  have hdev : ∀ c ∈ cs, c.dev ≠ d := by
    rintro c hc rfl
    obtain ⟨tail, hat⟩ := hcs c hc
    rw [h tail] at hat
    cases hat
  refine .of_final fun a i hi => ?_
  rw [← hlooked.arrays]
  exact assembleGroups_unclaimed _ hdev m1 a i hi

end Assembly

/-! ## The erased drive -/

section Erased

variable {dev dev' : BlkDev} {d : DevId} {m m' : Machine} {tail : Bool} {s : UInt64}

lemma BlkDev.Unwritten.superAt (h : dev.Unwritten dev') (hused : dev.used = true)
    (hnone : dev.superAt tail = none) : dev'.superAt tail = none := by
  cases hs : superSector dev' tail with
  | error e => rw [BlkDev.superAt, hs]
  | ok s =>
    have hsector : superSector dev tail = .ok s := by
      rw [← hs, superSector, superSector, blkDevCapacity, blkDevCapacity, hused,
        (superSector_lt hs).1, h.capacity]
    rw [BlkDev.superAt, hsector] at hnone
    rw [BlkDev.superAt, hs, h.data]
    exact hnone

/-- The other placement is out of reach of an erase. -/
lemma superAt_other (hs : superSector dev tail = .ok s) :
    (dev.write s [zeroSector]).superAt (!tail) = dev.superAt (!tail) := by
  unfold BlkDev.superAt
  rw [show superSector (dev.write s [zeroSector]) (!tail) = superSector dev (!tail) from rfl]
  cases hs' : superSector dev (!tail) with
  | error e => rfl
  | ok s' =>
    have hne : s'.toNat ≠ s.toNat := by
      cases tail with
      | false => exact (superSector_ne hs hs').symm
      | true => exact superSector_ne hs' hs
    have hsame : (dev.write s [zeroSector]).data s'.toNat = dev.data s'.toNat :=
      store_of_disjoint (by simp; omega)
    dsimp only
    rw [hsame]

lemma superAt_zeroed (hs : superSector dev tail = .ok s)
    (hother : dev.superAt (!tail) = none) (t : Bool) :
    (dev.write s [zeroSector]).superAt t = none := by
  have hdata : (dev.write s [zeroSector]).data s.toNat = zeroSector := by
    simp [BlkDev.write, Region.store]
  rcases Bool.eq_or_eq_not t tail with rfl | rfl
  · have hzero : (MdSuper.ofSector zeroSector).check t = .error .enoent := by
      cases t <;> decide +kernel
    rw [BlkDev.superAt, show superSector (dev.write s [zeroSector]) t = .ok s from hs]
    dsimp only
    rw [hdata, hzero]
  · rw [superAt_other hs, hother]

/-- A superblock of the device was found, and its sector zeroed. -/
def Zeroed (d : DevId) (m m' : Machine) : Prop :=
  ∃ tail s sb, (m.devs d).superAt tail = some sb ∧ superSector (m.devs d) tail = .ok s ∧
    m'.devs d = (m.devs d).write s [zeroSector]

lemma zeroSuper_ends (m : Machine) (d : DevId) :
    Ends (zeroSuper d) m (fun _ => Zeroed d m) fun _ _ => True := by
  have herase : ∀ tail m1 sb, (m.devs d).superAt tail = some sb → Looked m m1 →
      Ends (do
          let sector ← MonadExcept.ofExcept (superSector (← getDev d) tail)
          blkDevWrite d sector (Buffer.single zeroSector) : MdM Unit) m1
          (fun _ => Zeroed d m) fun _ _ => True := by
    intro tail m1 sb hsb h1
    refine getDev_bind (.lift fun s hs => ?_)
    obtain ⟨hused, hfit⟩ := superSector_lt hs
    refine (blkDevWrite_ends hused hfit).mono ?_ fun _ _ _ => trivial
    rintro _ m2 ⟨rfl, -⟩
    rw [h1.devs] at hs
    refine ⟨tail, s, sb, hsb, hs, ?_⟩
    rw [← h1.devs]
    exact Function.update_self ..
  refine getDev_bind (.guard fun _ => ?_)
  refine .attempt_bind
    ((superReadAt_ends m d false).mono (fun sb m1 h => herase false m1 sb h.1 h.2) ?_)
  rintro _ m1 ⟨-, h1⟩
  refine .attempt_bind ((superReadAt_ends m1 d true).mono (fun sb m2 h => ?_) fun _ _ _ => trivial)
  exact herase true m2 sb (h1.devs ▸ h.1) (h1.trans h.2)

/-- A drive from which a superblock was erased is out of RAID exactly if it had one superblock
only. -/
theorem zeroSuper_removes (h : zeroSuper d m = .ok () m') :
    Removed d m m' ↔ (m.devs d).superAt false = none ∨ (m.devs d).superAt true = none := by
  obtain ⟨tail, s, sb, hsb, hs, hdev⟩ := (zeroSuper_ends m d).of_ok h
  constructor
  · intro hremoved
    -- reads of the drive that are met find what is left
    have hunread := (hremoved.unread { m' with io := fun _ => none } ⟨rfl, rfl⟩).2 (!tail)
    obtain ⟨e, -, hnone, -⟩ := (superReadAt_ends _ d (!tail)).of_not_isOk hunread
    have hnone : (m'.devs d).superAt (!tail) = none := hnone fun _ _ => rfl
    rw [hdev, superAt_other hs] at hnone
    cases tail with
    | false => exact .inr hnone
    | true => exact .inl hnone
  intro hone
  have hother : (m.devs d).superAt (!tail) = none := by
    cases tail with
    | false => exact hone.resolve_left (by simp [hsb])
    | true => exact hone.resolve_right (by simp [hsb])
  have hused : (m'.devs d).used = true := by
    rw [hdev]
    exact (superSector_lt hs).1
  have hnone : ∀ m₁ : Machine, (m'.devs d).Unwritten (m₁.devs d) → ∀ t,
      (m₁.devs d).superAt t = none := by
    intro m₁ hsame t
    refine hsame.superAt hused ?_
    rw [hdev]
    exact superAt_zeroed hs hother t
  refine ⟨fun k hk => ?_, fun m₁ hsame => ⟨?_, fun t => ?_⟩,
    fun m₁ hsame => assemble_unclaimed (hnone m₁ hsame)⟩
  · rw [hdev]
    refine store_of_disjoint ?_
    have := hk tail s hs
    simp
    omega
  · by_contra hok
    obtain ⟨_, -, ⟨⟨t, ht⟩, -⟩⟩ := (superRead_ends m₁ d).of_isOk (Bool.not_eq_false _ ▸ hok)
    rw [hnone m₁ hsame t] at ht
    cases ht
  · by_contra hok
    obtain ⟨_, -, ht, -⟩ := (superReadAt_ends m₁ d t).of_isOk (Bool.not_eq_false _ ▸ hok)
    rw [hnone m₁ hsame t] at ht
    cases ht

end Erased

/-- A drive with a head superblock only is taken out of RAID. -/
theorem zeroSuper_removes_head :
    ∃ m', zeroSuper 0 usedDrives = .ok () m' ∧ Removed 0 usedDrives m' := by
  have hok : (outcome (zeroSuper 0) usedDrives).isOk = true := by decide +kernel
  obtain ⟨_, m', h⟩ := exists_ok_of_outcome hok
  exact ⟨m', h, (zeroSuper_removes h).mpr (.inr (by decide +kernel))⟩

def twiceUsed : Machine :=
  final (stop .first) tailMirror

/-- The tail superblock is left behind a head one, and assembly claims the drive. -/
theorem zeroSuper_leaves_tail : (outcome (zeroSuper 0) twiceUsed).isOk ∧
    ((final (zeroSuper 0) twiceUsed).devs 0).superAt true ≠ none ∧
    (((final assemble (final (zeroSuper 0) twiceUsed)).arrays .first).members 0).dev = some 0 ∧
    ((twiceUsed.arrays .first).members 0).dev = none := by
  refine ⟨by decide +kernel, by decide +kernel, by decide +kernel, by decide +kernel⟩

end Anunix.Md
