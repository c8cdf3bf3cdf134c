import Anunix.Lib.Stripe
import Anunix.Md.Requests

/-!
# What serving a request can do

`Served a P m m'` bounds what a request to the array device does in any state of the machine,
whether it is met or not: the layout stays, no failed member recovers, and every driver request is
one that `P` allows or the write of a superblock, which happens only when a member is marked faulty.
-/

namespace Anunix.Md
open Fallible Region List

/-! ## Requests -/

inductive Request where
  | read (lba : UInt64) (count : UInt32)
  | write (lba : UInt64) (buf : Buffer)

namespace Request

def exec (a : ArrayId) : Request → MdM (List Sector)
  | .read lba count => mdBlkRead a lba count
  | .write lba buf => do mdBlkWrite a lba buf; return []

def lba : Request → UInt64
  | .read lba _ => lba
  | .write lba _ => lba

def count : Request → UInt32
  | .read _ count => count
  | .write _ buf => buf.count

def isWrite : Request → Bool
  | .read _ _ => false
  | .write _ _ => true

def InRange (n : Nat) (r : Request) : Prop :=
  r.lba.toNat + r.count.toNat ≤ n

def answer (flat : Nat → Sector) : Request → List Sector
  | .read lba count => load flat lba.toNat count.toNat
  | .write _ _ => []

def apply (flat : Nat → Sector) : Request → Nat → Sector
  | .read _ _ => flat
  | .write lba buf => store flat lba.toNat buf.sectors

end Request

/-! ## The striping map -/

namespace MdArray

variable {arr : MdArray}

lemma stripe_fst (lba : UInt64) : (arr.stripe lba).1 =
    Stripe.member arr.memberCount.toNat arr.chunkSectors.toNat lba.toNat := by
  rfl

lemma stripe_snd (lba : UInt64) : (arr.stripe lba).2.toNat =
    Stripe.row arr.memberCount.toNat arr.chunkSectors.toNat lba.toNat := by
  show (lba / arr.chunkSectors.toUInt64 / arr.memberCount.toUInt64 * arr.chunkSectors.toUInt64 +
    lba % arr.chunkSectors.toUInt64).toNat = _
  rw [UInt64.toNat_add, UInt64.toNat_mul, UInt64.toNat_mod, UInt64.toNat_div, UInt64.toNat_div,
    UInt32.toNat_toUInt64, UInt32.toNat_toUInt64, Stripe.row]
  have hle :=
    Stripe.row_le (n := arr.memberCount.toNat) (c := arr.chunkSectors.toNat) (i := lba.toNat)
  have hlt := lba.toNat_lt
  rw [Stripe.row] at hle
  rw [Nat.mod_eq_of_lt (by omega), Nat.mod_eq_of_lt (by omega)]

lemma stripeRun_toNat (lba : UInt64) (count : UInt32) (hc : arr.chunkSectors ≠ 0) :
    (arr.stripeRun lba count).toNat =
      min count.toNat (arr.chunkSectors.toNat - lba.toNat % arr.chunkSectors.toNat) := by
  have hpos : 0 < arr.chunkSectors.toNat := Nat.pos_of_ne_zero fun hz => hc (UInt32.toNat_inj.mp hz)
  have hmod : lba.toNat % arr.chunkSectors.toNat < arr.chunkSectors.toNat := Nat.mod_lt _ hpos
  have hoff : (lba % arr.chunkSectors.toUInt64).toUInt32.toNat =
      lba.toNat % arr.chunkSectors.toNat := by
    exact Nat.mod_eq_of_lt (Nat.lt_trans hmod arr.chunkSectors.toNat_lt)
  have hsub : (arr.chunkSectors - (lba % arr.chunkSectors.toUInt64).toUInt32).toNat =
      arr.chunkSectors.toNat - lba.toNat % arr.chunkSectors.toNat := by
    rw [UInt32.toNat_sub_of_le, hoff]
    rw [UInt32.le_iff_toNat_le, hoff]
    exact Nat.le_of_lt hmod
  unfold stripeRun
  dsimp only
  split
  · rename_i hgt
    rw [gt_iff_lt, UInt32.lt_iff_toNat_lt] at hgt
    omega
  · rename_i hle
    rw [gt_iff_lt, UInt32.lt_iff_toNat_lt] at hle
    omega

end MdArray

/-! ## Serving a request -/

def Marked (a : ArrayId) (m m' : Machine) : Prop :=
  ∃ i < (m.layout a).size, ((m.arrays a).members i).state ≠ .faulty ∧
    ((m'.arrays a).members i).state = .faulty

structure Served (a : ArrayId) (P : Access → Prop) (m m' : Machine) : Prop where
  layout : m'.layout a = m.layout a
  faulty : ∀ i, ((m.arrays a).members i).state = .faulty → ((m'.arrays a).members i).state = .faulty
  trace : ∃ accs, m'.trace = m.trace ++ accs ∧
    ∀ acc ∈ accs, P acc ∨ ((m.layout a).IsSuper acc ∧ Marked a m m')

def ServedFrom (L : Layout) (a : ArrayId) (P : Access → Prop) (m m' : Machine) : Prop :=
  m.layout a = L → Served a P m m'

section Served

variable {a : ArrayId} {L : Layout} {P : Access → Prop} {m m' m'' : Machine} {lba : UInt64}
  {count run : UInt32} {buf : Buffer} {write : Option Buffer} {idx : Nat}

@[refl]
lemma Served.refl (m : Machine) : Served a P m m :=
  ⟨rfl, fun _ h => h, [], (append_nil _).symm, forall_mem_nil _⟩

instance : Covered (Served a P m m) :=
  ⟨.refl m⟩

lemma Served.trans (h : Served a P m m') (h' : Served a P m' m'') : Served a P m m'' := by
  obtain ⟨accs, htrace, hall⟩ := h.trace
  obtain ⟨accs', htrace', hall'⟩ := h'.trace
  refine ⟨h'.layout.trans h.layout, fun i hi => h'.faulty i (h.faulty i hi), accs ++ accs', ?_, ?_⟩
  · rw [htrace', htrace, append_assoc]
  · intro acc hacc
    rcases mem_append.mp hacc with hacc | hacc
    · rcases hall acc hacc with hP | ⟨hsuper, i, hi, hbefore, hafter⟩
      · exact .inl hP
      · exact .inr ⟨hsuper, i, hi, hbefore, h'.faulty i hafter⟩
    · rcases hall' acc hacc with hP | ⟨hsuper, i, hi, hbefore, hafter⟩
      · exact .inl hP
      · rw [h.layout] at hsuper hi
        exact .inr ⟨hsuper, i, hi, fun hm => hbefore (h.faulty i hm), hafter⟩

instance : IsPreorder Machine (ServedFrom L a P) where
  refl m _ := Served.refl m
  trans _ _ _ h h' hL := (h hL).trans (h' ((h hL).layout.trans hL))

lemma Served.of_noted {acc : Access} (hP : P acc) : Served a P m (m.noted acc) := by
  refine ⟨rfl, fun _ h => h, [acc], rfl, fun acc' hacc => .inl ?_⟩
  rw [mem_singleton.mp hacc]
  exact hP

lemma Served.of_written (d : DevId) (lba : UInt64) (l : List Sector) :
    Served a P m (m.written d lba l) :=
  ⟨layout_written m a d lba l, fun _ h => h, [], (append_nil _).symm, forall_mem_nil _⟩

lemma Served.of_setArray {f : MdArray → MdArray}
    (hstill : (f (m.arrays a)).still = (m.arrays a).still)
    (hstate : ∀ i, ((f (m.arrays a)).members i).state = ((m.arrays a).members i).state) :
    Served a P m (m.setArray a f) := by
  refine ⟨layout_setArray hstill, fun i hi => ?_, [], (append_nil _).symm, forall_mem_nil _⟩
  rw [arrays_setArray_self, hstate]
  exact hi

lemma Served.of_faulted (hidx : idx < (m.layout a).size)
    (hstate : ((m.arrays a).members idx).state ≠ .faulty)
    (h : Synced a (m.faulted a idx) m') : Served a P m m' := by
  obtain ⟨accs, htrace, hsuper, -⟩ := h.trace
  rw [layout_faulted] at hsuper
  refine ⟨h.layout.trans (layout_faulted m a idx), fun i hi => ?_, accs, htrace,
    fun acc hacc => .inr ?_⟩
  · rw [h.state]
    by_cases hii : i = idx
    · rw [hii]
      exact state_faulted_self m a idx
    · rw [state_faulted_of_ne m a hii]
      exact hi
  · refine ⟨hsuper acc hacc, idx, hidx, hstate, ?_⟩
    rw [h.state]
    exact state_faulted_self m a idx

/-- `P` allows the driver requests that a request for sectors of a member can make. -/
def Layout.Allows (L : Layout) (P : Access → Prop) (lba : UInt64) (count : UInt32) : Prop :=
  ∀ i < L.size, ∀ d, L.dev i = some d → ¬ lba + count.toUInt64 > L.array.memberSectors →
    ∀ write, P ⟨d, (L.array.members i).dataOffset + lba, count, write⟩

/-- It allows those of a request that ends at `n`, for any part of it. -/
def Layout.AllowsTo (L : Layout) (P : Access → Prop) (n : Nat) : Prop :=
  ∀ (k : UInt64) (run : UInt32), (n < 2 ^ 64 → k.toNat + run.toNat < 2 ^ 64) → L.Allows P k run

lemma memberTarget_eq_ok {arr : MdArray} {r : DevId × UInt64}
    (h : arr.memberTarget idx lba count = .ok r) :
    idx < arr.memberCount.toNat ∧ (arr.members idx).dev = some r.1 ∧
      ¬ lba + count.toUInt64 > arr.memberSectors ∧ r.2 = (arr.members idx).dataOffset + lba := by
  obtain ⟨_, hidx, h⟩ := bind_eq_ok.mp h
  obtain ⟨d, hd, h⟩ := bind_eq_ok.mp h
  obtain ⟨_, -, h⟩ := bind_eq_ok.mp h
  obtain ⟨_, hfit, h⟩ := bind_eq_ok.mp h
  rw [failIf_eq_ok, decide_eq_false_iff_not] at hidx hfit
  rw [orThrow_eq_ok] at hd
  cases h
  exact ⟨Nat.not_le.mp hidx, hd, hfit, rfl⟩

lemma memberRead_served (idx : Nat) (hP : L.Allows P lba count) :
    Within (ServedFrom L a P) (memberRead a idx lba count) := by
  intro m hL
  apply Ends.final
  refine getArray_bind (.lift fun r hr => Ends.of_final ?_)
  obtain ⟨hidx, hd, hfit, hsector⟩ := memberTarget_eq_ok hr
  subst hL
  have hacc : P ⟨r.1, r.2, count, false⟩ := by
    rw [hsector]
    exact hP idx hidx r.1 hd hfit false
  rcases (blkDevRead_leaves m r.1 r.2 count).final with hfinal | hfinal
  · rw [hfinal]
  · rw [hfinal]
    exact Served.of_noted hacc

lemma memberWrite_served (idx : Nat) (hP : L.Allows P lba buf.count) :
    Within (ServedFrom L a P) (memberWrite a idx lba buf) := by
  intro m hL
  apply Ends.final
  refine getArray_bind (.lift fun r hr => Ends.of_final ?_)
  obtain ⟨hidx, hd, hfit, hsector⟩ := memberTarget_eq_ok hr
  subst hL
  have hacc : P ⟨r.1, r.2, buf.count, true⟩ := by
    rw [hsector]
    exact hP idx hidx r.1 hd hfit true
  rcases (blkDevWrite_leaves m r.1 r.2 buf).final with hfinal | ⟨l, -, hfinal⟩
  · rw [hfinal]
  · rw [hfinal]
    exact (Served.of_noted hacc).trans (Served.of_written _ _ _)

lemma memberFault_served (idx : Nat) : Within (ServedFrom L a P) (memberFault a idx) := by
  intro m _
  apply Ends.final
  apply getArray_bind
  split
  · rename_i hmark
    exact .attempt_bind ((Ends.of_final (superSync_synced a _)).mono
      (fun _ _ => .of_faulted hmark.1 hmark.2.2)
      fun _ _ => .of_faulted hmark.1 hmark.2.2)
  · exact .refl m

/-! ## RAID 1 -/

lemma raid1ReadEach_served (hP : L.Allows P lba count) (tries : List Nat) (last : Err) :
    Within (ServedFrom L a P) (raid1ReadEach a lba count tries last) := by
  induction tries generalizing last with
  | nil => exact fun m _ => Served.refl m
  | cons tried rest ih =>
    refine .bind (getArray_within a) fun arr => ?_
    dsimp only
    split
    · exact ih last
    refine .bind (memberRead_served _ hP).attempt fun r => ?_
    cases r with
    | ok buf =>
      refine .bind (.modify fun m _ => ?_) fun _ => .pure buf
      exact Served.of_setArray rfl fun _ => rfl
    | error e => exact .bind (memberFault_served _) fun _ => ih e

lemma raid1Read_served (hP : L.Allows P lba count) :
    Within (ServedFrom L a P) (raid1Read a lba count) :=
  .bind (getArray_within a) fun _ => .bind (.failIf _ _) fun _ =>
    raid1ReadEach_served hP _ _

lemma raid1WriteEach_within {R : Machine → Machine → Prop} [IsPreorder Machine R]
    (hwrite : ∀ i, Within R (memberWrite a i lba buf)) (hfault : ∀ i, Within R (memberFault a i))
    (is : List Nat) (ok : Nat) (last : Err) : Within R (raid1WriteEach a lba buf is ok last) := by
  induction is generalizing ok last with
  | nil =>
    unfold raid1WriteEach
    split
    · exact .pure _
    · exact refl_of R
  | cons i is ih =>
    refine .bind (getArray_within a) fun arr => ?_
    split
    · exact ih ok last
    refine .bind (hwrite i).attempt fun r => ?_
    cases r with
    | ok _ => exact ih _ last
    | error e => exact .bind (hfault i) fun _ => ih ok e

lemma raid1Write_served (hP : L.Allows P lba buf.count) :
    Within (ServedFrom L a P) (raid1Write a lba buf) :=
  .bind (getArray_within a) fun _ =>
    raid1WriteEach_within (fun i => memberWrite_served i hP) memberFault_served _ _ _

/-! ## RAID 0 -/

lemma raid0Part_served (idx : Nat) {k : UInt64} (hP : L.Allows P k run)
    (hbuf : ∀ buf ∈ write, run.toNat ≤ buf.sectors.length) :
    Within (ServedFrom L a P) (raid0Part a idx k run write) := by
  cases write with
  | none => exact .bind (memberRead_served idx hP) fun _ => .pure _
  | some buf =>
    have hcount : (buf.take run.toNat).count = run := by
      apply UInt32.toNat_inj.mp
      rw [Buffer.count_toNat]
      exact length_take_of_le (hbuf buf rfl)
    rw [← hcount] at hP
    exact .bind (memberWrite_served idx hP) fun _ => .pure _

lemma buffer_cut (hbuf : ∀ buf ∈ write, buf.sectors.length = count.toNat)
    (hle : run.toNat ≤ count.toNat) : (∀ buf ∈ write, run.toNat ≤ buf.sectors.length) ∧
      ∀ buf ∈ write.map fun buf => buf.drop run.toNat,
      buf.sectors.length = (count - run).toNat := by
  refine ⟨fun buf hmem => ?_, fun buf hmem => ?_⟩
  · rw [hbuf buf hmem]
    exact hle
  · obtain ⟨buf0, hmem0, rfl⟩ := Option.mem_map.mp hmem
    rw [UInt32.toNat_sub_of_le _ _ (UInt32.le_iff_toNat_le.mpr hle), ← hbuf buf0 hmem0]
    exact length_drop

lemma raid0Loop_served (hchunk : L.array.chunkSectors ≠ 0) {fuel : Nat}
    (hP : L.AllowsTo P (lba.toNat + count.toNat))
    (hbuf : ∀ buf ∈ write, buf.sectors.length = count.toNat) :
    Within (ServedFrom L a P) (raid0Loop a fuel lba count write) := by
  induction fuel generalizing lba count write with
  | zero => exact .pure _
  | succ fuel ih =>
    intro m hL
    unfold raid0Loop
    by_cases hzero : count = 0
    · rw [if_pos hzero]
      exact .refl m
    rw [if_neg hzero]
    subst hL
    have hrun : ((m.arrays a).stripeRun lba count).toNat = _ :=
      MdArray.stripeRun_toNat lba count hchunk
    have hrow : ((m.arrays a).stripe lba).2.toNat = _ := MdArray.stripe_snd lba
    have hle :=
      Stripe.row_le (n := (m.arrays a).memberCount.toNat) (c := (m.arrays a).chunkSectors.toNat)
      (i := lba.toNat)
    apply Ends.final
    apply getArray_bind
    dsimp only
    generalize (m.arrays a).stripeRun lba count = run at hrun
    generalize ((m.arrays a).stripe lba).2 = k at hrow
    have hrunle : run.toNat ≤ count.toNat := by omega
    have hpart : (m.layout a).Allows P k run := hP k run fun hlt => by omega
    have hrest : (m.layout a).AllowsTo P ((lba + run.toUInt64).toNat + (count - run).toNat) := by
      intro k' run' hk'
      refine hP k' run' fun hlt => hk' ?_
      rw [UInt64.toNat_add, UInt32.toNat_toUInt64,
        UInt32.toNat_sub_of_le _ _ (UInt32.le_iff_toNat_le.mpr hrunle)]
      omega
    obtain ⟨henough, hbuf'⟩ := buffer_cut hbuf hrunle
    refine .of_final ?_
    refine Within.bind (raid0Part_served _ hpart henough).attempt
      (fun r => ?_) m rfl
    cases r with
    | error e => exact .bind (memberFault_served _) fun _ m' _ => .refl m'
    | ok part => exact .bind (ih hrest hbuf') fun _ => .pure _

lemma raid0Io_served (hP : L.AllowsTo P (lba.toNat + count.toNat))
    (hbuf : ∀ buf ∈ write, buf.sectors.length = count.toNat) :
    Within (ServedFrom L a P) (raid0Io a lba count write) := by
  intro m hL
  apply Ends.final
  refine getArray_bind (.guard fun hguard => Ends.of_final ?_)
  have hchunk : L.array.chunkSectors ≠ 0 := by
    rw [← hL]
    exact beq_eq_false_iff_ne.mp (Bool.or_eq_false_iff.mp hguard).1
  exact raid0Loop_served hchunk hP hbuf m hL

/-! ## The array device -/

lemma Request.exec_served (r : Request) (hP : L.AllowsTo P (r.lba.toNat + r.count.toNat)) :
    Within (ServedFrom L a P) (r.exec a) := by
  have hself : L.Allows P r.lba r.count := hP _ _ fun hlt => hlt
  cases r with
  | read lba count =>
    refine .bind (getArray_within a) fun arr => .bind (.failIf _ _) fun _ =>
      Within.bind (.failIf _ _) fun _ => ?_
    cases arr.level with
    | raid0 => exact raid0Io_served hP fun _ hmem => nomatch hmem
    | raid1 => exact .bind (raid1Read_served hself) fun _ => .pure _
  | write lba buf =>
    refine .bind (.bind (getArray_within a) fun arr => .bind (.failIf _ _) fun _ =>
      Within.bind (.failIf _ _) fun _ => ?_) fun _ => .pure _
    cases arr.level with
    | raid0 =>
      refine .bind (raid0Io_served hP ?_) fun _ => .pure _
      rintro _ ⟨⟩
      exact buf.count_toNat.symm
    | raid1 => exact raid1Write_served hself

/-- A request past the end of the array, as far as a 64-bit sum shows, is refused with nothing
done. -/
lemma Request.exec_refused {r : Request}
    (hr : r.lba + r.count.toUInt64 > (m.arrays a).arraySectors) :
    Atomic (r.exec a) m (fun _ _ => False) := by
  cases r with
  | read lba count =>
    refine getArray_bind (.guard fun _ => .guard fun hno => ?_)
    exact absurd hr (of_decide_eq_false hno)
  | write lba buf =>
    refine .bind (getArray_bind (.guard fun _ =>
      .guard fun hno => ?_))
    exact absurd hr (of_decide_eq_false hno)

end Served

end Anunix.Md
