import Anunix.Md.Stale

/-!
# What a completed rebuild leaves

A rebuild of one spare that is not finished yet ends with the spare active, or fails
(`resync_leaves_no_spare`). All spares share one rebuild point, and it is at the end when the first
of them is active: with a second spare the rebuild ends there and reports success
(`resync_leaves_spare`).
-/

namespace Anunix.Md
open Fallible

/-- States of an array (C `ANX_MD_ARRAY_*`). -/
inductive ArrayState where
  | clean
  | degraded
  | rebuilding
  | failed
  deriving DecidableEq

def MdArray.countIn (arr : MdArray) (s : MemberState) : Nat :=
  (List.range arr.memberCount.toNat).countP fun i =>
    (arr.members i).dev.isSome && (arr.members i).state == s

/-- C `anx_md_state`. -/
def MdArray.mdState (arr : MdArray) : ArrayState :=
  if !arr.used then .failed
  else match arr.level with
    | .raid0 => if arr.countIn .active = arr.memberCount.toNat then .clean else .failed
    | .raid1 =>
      if arr.countIn .active = 0 then .failed
      else if 0 < arr.countIn .spare then .rebuilding
      else if arr.countIn .active < arr.memberCount.toNat then .degraded
      else .clean

def MdArray.unbuilt (arr : MdArray) : Nat :=
  arr.memberSectors.toNat - arr.resyncOffset.toNat

/-- At most one spare is left, and if there is one, part of it is not rebuilt. -/
structure Rebuilding (a : ArrayId) (m : Machine) : Prop where
  one : ∀ i j, m.IsSpare a i → m.IsSpare a j → i = j
  more : ∀ i, m.IsSpare a i → (m.arrays a).resyncOffset < (m.arrays a).memberSectors

section Rebuild

variable {a : ArrayId} {m m' m1 m2 : Machine} {i : Nat} {run : UInt32} {buf : Buffer}

lemma raid1Spare_eq_none (h : (m.arrays a).raid1Spare = none) (i : Nat) : ¬ m.IsSpare a i := by
  rintro ⟨hi, ⟨d, hd⟩, hstate⟩
  have hd : ((m.arrays a).members i).dev = some d := hd
  have hno := List.find?_eq_none.mp h i (List.mem_range.mpr hi)
  simp [hd, hstate] at hno

lemma resyncRun_ne_zero {arr : MdArray} (h : arr.resyncOffset < arr.memberSectors)
    (maxSectors : UInt32) : (arr.resyncRun maxSectors).toNat ≠ 0 := by
  rw [UInt64.lt_iff_toNat_lt] at h
  have hsub : (arr.memberSectors - arr.resyncOffset).toNat =
      arr.memberSectors.toNat - arr.resyncOffset.toNat :=
    UInt64.toNat_sub_of_le _ _ (UInt64.le_iff_toNat_le.mpr (Nat.le_of_lt h))
  have hrun : (if maxSectors ≠ 0 ∧ resyncChunk > maxSectors then maxSectors else
      resyncChunk).toNat ≠ 0 := by
    split
    · rename_i hmax
      exact fun hzero => hmax.1 (UInt32.toNat_inj.mp hzero)
    · decide
  unfold MdArray.resyncRun
  dsimp only
  generalize (if maxSectors ≠ 0 ∧ resyncChunk > maxSectors then maxSectors else resyncChunk) =
    run at hrun ⊢
  split
  · rename_i hlt
    have hbound := run.toNat_lt
    rw [gt_iff_lt, UInt64.lt_iff_toNat_lt, UInt32.toNat_toUInt64] at hlt
    rw [UInt64.toNat_toUInt32]
    omega
  · exact hrun

lemma Rebuilt.spare_before {j : Nat} (h : Rebuilt a i run buf m m1 m2 m')
    (hj : m2.InState a .spare j) : m.IsSpare a j :=
  (hj.congr h.copied.layout.symm (h.copied.state j).symm).of_quiet (by decide) h.read.quiet

lemma Rebuilt.progress (h : Rebuilt a i run buf m m1 m2 m') (hm : Rebuilding a m)
    (hspare : m.IsSpare a i)
    (hrun : run.toNat ≠ 0) : m'.layout a = m.layout a ∧ ((∀ j, ¬ m'.IsSpare a j) ∨
      Rebuilding a m' ∧ (m'.arrays a).unbuilt < (m.arrays a).unbuilt) := by
  have hlayout : m2.layout a = m.layout a := h.copied.layout.trans h.read.quiet.layout
  by_cases hdone : (m2.arrays a).resyncOffset ≥ (m2.arrays a).memberSectors
  · have hquiet := h.last hdone
    refine ⟨hquiet.layout.trans ((layout_promoted m2 a i).trans hlayout), .inl fun j hj => ?_⟩
    have hj := hj.of_quiet (by decide) hquiet
    have hne : j ≠ i := by
      rintro rfl
      cases hj.2.2.symm.trans (state_promoted_self m2 a j)
    have hj2 : m2.InState a .spare j :=
      hj.congr (layout_promoted m2 a i).symm (state_promoted_of_ne m2 a hne).symm
    exact hne (hm.one j i (h.spare_before hj2) hspare)
  · rw [h.others hdone]
    have hless := UInt64.not_le.mp hdone
    refine ⟨hlayout, .inr ⟨⟨fun j j' hj hj' => ?_, fun _ _ => hless⟩, ?_⟩⟩
    · exact hm.one j j' (h.spare_before hj) (h.spare_before hj')
    · have hsectors : (m2.arrays a).memberSectors = (m.arrays a).memberSectors :=
        congrArg (fun L => L.array.memberSectors) hlayout
      have hresync := h.copied.resync
      rw [h.read.quiet.resync, h.read.length] at hresync
      rw [UInt64.lt_iff_toNat_lt, hsectors] at hless
      unfold MdArray.unbuilt
      rw [hsectors]
      omega

/-- The loop has passes enough to finish the spare. -/
lemma resyncLoop_clears {fuel : Nat} (hlaid : (m.layout a).Laid) (hfuel : 0 < fuel)
    (hm : (∀ j, ¬ m.IsSpare a j) ∨ Rebuilding a m ∧ (m.arrays a).unbuilt < fuel) :
    Ends (resyncLoop a fuel) m (fun _ m' => ∀ j, ¬ m'.IsSpare a j) fun _ _ => True := by
  induction fuel generalizing m with
  | zero => cases hfuel
  | succ fuel ih =>
    apply getArray_bind
    split
    · rename_i hnone
      exact raid1Spare_eq_none (Option.isNone_iff_eq_none.mp hnone)
    refine .call (resyncStep_ends hlaid 0) ?_ fun _ _ _ => trivial
    rintro ret m1 ⟨i, hspare, hstep⟩
    rcases hm with hno | ⟨hm, hlt⟩
    · exact absurd hspare (hno i)
    have hmore := hm.more i hspare
    rcases hstep with ⟨hdone, -⟩ | ⟨hret, buf, m2, m3, hr⟩
    · exact absurd hmore hdone
    have hrun : ret.toNat ≠ 0 := by
      rw [hret]
      exact resyncRun_ne_zero hmore 0
    obtain ⟨hlayout, hnext⟩ := hr.progress hm hspare hrun
    rw [if_neg fun hzero => hrun (congrArg UInt32.toNat hzero)]
    rw [UInt64.lt_iff_toNat_lt] at hmore
    unfold MdArray.unbuilt at hlt hnext ih
    refine ih (by rw [hlayout]; exact hlaid) (by omega) (hnext.imp_right fun hnext => ⟨hnext.1, ?_⟩)
    omega

end Rebuild

/-- A rebuild that succeeds with one spare leaves none and ends the rebuilding state. -/
theorem resync_leaves_no_spare {a : ArrayId} {m m' : Machine} (h : Reached a m)
    (hm : Rebuilding a m) (hok : resync a m = .ok () m') :
    (∀ i, ¬ m'.IsSpare a i) ∧ (m'.arrays a).mdState ≠ .rebuilding := by
  have hends : Ends (resync a) m (fun _ m' => ∀ i, ¬ m'.IsSpare a i) fun _ _ => True := by
    refine getArray_bind (.guard fun _ => .guard fun _ => .fetch fun _ _ => ?_)
    by_cases hspare : ∃ i, m.IsSpare a i
    · obtain ⟨i, hi⟩ := hspare
      have hmore := UInt64.le_of_lt (hm.more i hi)
      refine resyncLoop_clears h.laid (Nat.succ_pos _) (.inr ⟨hm, ?_⟩)
      rw [UInt64.toNat_sub_of_le _ _ hmore, MdArray.unbuilt]
      omega
    · exact resyncLoop_clears h.laid (Nat.succ_pos _) (.inl (not_exists.mp hspare))
  have hno := hends.of_ok hok
  refine ⟨hno, fun hstate => ?_⟩
  have hzero : (m'.arrays a).countIn .spare = 0 := by
    refine List.countP_eq_zero.mpr fun i hi hspare => hno i ?_
    rw [Bool.and_eq_true, Option.isSome_iff_exists, beq_iff_eq] at hspare
    exact ⟨List.mem_range.mp hi, hspare⟩
  unfold MdArray.mdState at hstate
  rw [hzero] at hstate
  split at hstate
  · cases hstate
  split at hstate
  · split at hstate
    · cases hstate
    · cases hstate
  · split at hstate
    · cases hstate
    · rw [if_neg (Nat.lt_irrefl 0)] at hstate
      split at hstate
      · cases hstate
      · cases hstate

def oneReplaced : Machine :=
  threeWay.run .first [.fail 0, .add 3]

/-- The one replaced member is rebuilt. -/
theorem resync_leaves_no_spare_replaced :
    (∀ i, ¬ (final (resync .first) oneReplaced).IsSpare .first i) ∧
    ((final (resync .first) oneReplaced).arrays .first).mdState ≠ .rebuilding := by
  have hstate : ∀ i < 3, ((oneReplaced.arrays .first).members i).state = .spare → i = 0 := by
    decide +kernel
  have hsize : (oneReplaced.layout .first).size = 3 := by decide +kernel
  have hspare : ∀ i, oneReplaced.IsSpare .first i → i = 0 := fun i hi =>
    hstate i (Nat.lt_of_lt_of_eq hi.1 hsize) hi.2.2
  obtain ⟨_, m, hok⟩ :=
    exists_ok_of_outcome (x := resync .first) (s := oneReplaced) (by decide +kernel)
  rw [final_of_ok hok]
  refine resync_leaves_no_spare ⟨_, _, _, _, _, _, _, _, _, threeWay_created, rfl⟩
    ⟨fun i j hi hj => ?_, ?_⟩ hok
  · exact (hspare i hi).trans (hspare j hj).symm
  · exact fun _ _ => by decide +kernel

def twoReplaced : Machine :=
  threeWay.run .first [.fail 0, .fail 1, .add 3, .add 4]

/-- Of two replaced members the second one stays a spare. -/
theorem resync_leaves_spare :
    create Level.raid1.code 0 [0, 1, 2] true Uuid.nil 0 (Machine.fresh 5 10) = .ok .first threeWay ∧
    (outcome (resync .first) twoReplaced).isOk ∧
    ((final (resync .first) twoReplaced).arrays .first).mdState = .rebuilding ∧
    (((final (resync .first) twoReplaced).arrays .first).members 1).state = .spare :=
  ⟨threeWay_created, by decide +kernel, by decide +kernel, by decide +kernel⟩

end Anunix.Md
