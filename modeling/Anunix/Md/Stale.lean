import Anunix.Md.Mirror

/-!
# A mirror does not serve stale data

The rebuild point is shared by all spares but only the first of them is rebuilt, so a rebuild pass
with several spares lets it run ahead of the others. In every run in which the passes that copy are
made with one spare, and requests have an end that can be counted in 64 bits, every read that
succeeds returns the contents (`raid1_not_stale`). With two spares one can be promoted that was
never written (`raid1_promotes_stale_spare`).
-/

namespace Anunix.Md
open Fallible

/-- What an operation has to meet in the state before it. -/
def Op.Safe (a : ArrayId) (m : Machine) : Op → Prop
  | .io r => r.lba.toNat + r.count.toNat < 2 ^ 64
  | .resyncStep _ => m.OneSpare a
  | .resync => m.OneSpare a
  | .fail _ => True
  | .add _ => True

def SafeRun (a : ArrayId) : Machine → List Op → Prop
  | _, [] => True
  | m, op :: ops => op.Safe a m ∧ SafeRun a (final (op.exec a) m) ops

/-- A mirror serves the contents: active members hold them, spares do below the rebuild point while
there is an active member, and a read that succeeds returns them. -/
structure Faithful (a : ArrayId) (v : Contents) (m : Machine) : Prop where
  active : ∀ i < (m.layout a).size, ∀ d, (m.layout a).dev i = some d →
    ((m.arrays a).members i).state = .active →
    ∀ k < (m.layout a).sectors, (m.devs d).data ((m.layout a).offset + k) ∈ v k
  spare : (∃ i, m.Live a i) → ∀ i < (m.layout a).size, ∀ d, (m.layout a).dev i = some d →
    ((m.arrays a).members i).state = .spare →
    ∀ k < (m.layout a).sectors, k < (m.arrays a).resyncOffset.toNat →
      (m.devs d).data ((m.layout a).offset + k) ∈ v k
  reads : ∀ (lba : UInt64) (count : UInt32) (l : List Sector), lba.toNat + count.toNat < 2 ^ 64 →
    outcome (mdBlkRead a lba count) m = .ok l →
    l.length = count.toNat ∧ ∀ t s, l[t]? = some s → s ∈ v (lba.toNat + t)

section Run

variable {a : ArrayId} {v : Contents} {touched : Nat → Prop} {m : Machine} {lba : UInt64}
  {count : UInt32}

section

variable (h : Mirror a v touched m)
include h

lemma Mirror.fits (hwrap : lba.toNat + count.toNat < 2 ^ 64)
    (hend : ¬ lba + count.toUInt64 > (m.arrays a).arraySectors) :
    lba.toNat + count.toNat ≤ (m.layout a).sectors := by
  have hsized : (m.arrays a).arraySectors = (m.arrays a).memberSectors := h.laid.sized
  rw [hsized, gt_iff_lt, UInt64.lt_iff_toNat_lt, UInt64.toNat_add, UInt32.toNat_toUInt64,
    Nat.mod_eq_of_lt hwrap] at hend
  exact Nat.not_lt.mp hend

lemma Mirror.blkRead (hwrap : lba.toNat + count.toNat < 2 ^ 64) :
    Ends (mdBlkRead a lba count) m (fun l m' => Mirror a v touched m' ∧ l.length = count.toNat ∧
        ∀ t s, l[t]? = some s → s ∈ v (lba.toNat + t)) fun _ m' => Mirror a v touched m' := by
  have hlevel : (m.arrays a).level = .raid1 := h.laid.level
  have := Covered.mk h
  refine getArray_bind (.guard fun _ => .guard fun hend => ?_)
  rw [hlevel]
  have hfit := h.fits hwrap (of_decide_eq_false hend)
  refine .bind ((raid1Read_ends h.laid.toLaid hfit).mono (fun buf m' hread => ?_)
    fun _ _ => h.quiet)
  exact ⟨h.quiet hread.quiet, hread.length, fun _ _ => hread.mem h hfit⟩

lemma Mirror.blkWrite {buf : Buffer} (hwrap : lba.toNat + buf.count.toNat < 2 ^ 64) :
    Ends (mdBlkWrite a lba buf) m (fun _ m' => Mirror a (v.write lba.toNat buf.sectors) touched m')
      fun _ m' => ∃ touched', Mirror a v touched' m' := by
  have hlevel : (m.arrays a).level = .raid1 := h.laid.level
  refine getArray_bind (Ends.failIf_bind (fun _ => ⟨_, h⟩) fun _ =>
    Ends.failIf_bind (fun _ => ⟨_, h⟩) fun hend => ?_)
  rw [hlevel]
  have hfit := h.fits hwrap (of_decide_eq_false hend)
  rw [buf.count_toNat] at hfit
  exact h.write hfit

lemma Mirror.step {op : Op} (hsafe : op.Safe a m) :
    ∃ touched', Mirror a (op.record v (outcome (op.exec a) m)) touched' (final (op.exec a) m) := by
  apply Ends.both (P := fun out m' => ∃ touched', Mirror a (op.record v out) touched' m')
  cases op with
  | io r =>
    cases r with
    | read lba count =>
      exact (h.blkRead hsafe).mono (fun _ _ hm => ⟨_, hm.1⟩) fun _ _ hm => ⟨_, hm⟩
    | write lba buf =>
      exact .bind ((h.blkWrite hsafe).mono (fun _ _ hm => ⟨_, hm⟩) fun _ _ hm => hm)
  | fail i => exact .bind ((h.fail i).mono (fun _ _ hm => ⟨_, hm⟩) fun _ _ hm => ⟨_, hm⟩)
  | add d => exact .bind ((h.add d).mono (fun _ _ hm => ⟨_, hm⟩) fun _ _ hm => ⟨_, hm⟩)
  | resyncStep n =>
    exact .bind ((h.resyncStep hsafe n).mono (fun _ _ hm => ⟨_, hm.1⟩) fun _ _ hm => ⟨_, hm⟩)
  | resync => exact .bind ((h.resync hsafe).mono (fun _ _ hm => ⟨_, hm⟩) fun _ _ hm => ⟨_, hm⟩)

lemma Mirror.run {ops : List Op} (hsafe : SafeRun a m ops) :
    ∃ touched', Mirror a (contents a m v ops) touched' (m.run a ops) := by
  induction ops generalizing m v touched with
  | nil => exact ⟨touched, h⟩
  | cons op ops ih =>
    obtain ⟨touched1, h1⟩ := h.step hsafe.1
    exact ih h1 hsafe.2

lemma Mirror.faithful : Faithful a v m := by
  refine ⟨fun i hi => (h.holds i hi).active, fun hlive i hi d hd hspare k hk hlt => ?_,
    fun lba count l hwrap hread => ?_⟩
  · exact (h.holds i hi).spare d hd hspare k hk hlt (h.live hlive k hk)
  · have hboth := Ends.both (P := fun out _ => ∀ l, out = .ok l → l.length = count.toNat ∧
      ∀ t s, l[t]? = some s → s ∈ v (lba.toNat + t)) ((h.blkRead hwrap).mono
        (fun l _ hm l' heq => by cases heq; exact hm.2) fun _ _ _ _ heq => nomatch heq)
    exact hboth l hread

end

lemma Created.mirror {chunk : UInt32} {members : List DevId} {tailMeta : Bool} {uuid : Uuid}
    {now smallest : UInt64} {b : DevId} {m0 m1 : Machine}
    (h : Created .raid1 chunk members tailMeta uuid now smallest a b m0 m1 m) :
    Mirror a (m.memberContents a) (fun _ => False) m := by
  refine ⟨⟨h.laid, ?_, ?_⟩,
    fun i hi => ⟨fun d hd _ k _ => ⟨i, hi, d, hd, rfl⟩, fun d _ hspare => ?_⟩, fun _ _ _ hno => hno⟩
  · rw [h.layout_array]
    rfl
  · rw [h.layout_array]
    rfl
  · rw [h.state hi] at hspare
    cases hspare

end Run

/-- A mirror is faithful in every run that copies to one spare at a time. -/
theorem raid1_not_stale {chunkSectors : UInt32} {members : List DevId} {tailMeta : Bool}
    {uuid : Uuid} {now : UInt64} {m m₁ : Machine} {a : ArrayId}
    (hcreate : create Level.raid1.code chunkSectors members tailMeta uuid now m = .ok a m₁)
    (ops : List Op) (hsafe : SafeRun a m₁ ops) :
    Faithful a (contents a m₁ (m₁.memberContents a) ops) (m₁.run a ops) := by
  obtain ⟨chunk, smallest, b, m₂, -, hcreated⟩ := create_ok hcreate
  obtain ⟨touched, hmirror⟩ := hcreated.mirror.run hsafe
  exact hmirror.faithful

def onesSector : Sector :=
  ⟨List.replicate 512 1, List.length_replicate⟩

def threeWay : Machine :=
  final (create Level.raid1.code 0 [0, 1, 2] true Uuid.nil 0) (Machine.fresh 5 10)

lemma threeWay_created :
    create Level.raid1.code 0 [0, 1, 2] true Uuid.nil 0 (Machine.fresh 5 10) =
    .ok .first threeWay := by
  obtain ⟨a, m, hok⟩ := exists_ok_of_outcome
    (x := create Level.raid1.code 0 [0, 1, 2] true Uuid.nil 0) (s := Machine.fresh 5 10)
    (by decide +kernel)
  have hfirst : (outcome (create Level.raid1.code 0 [0, 1, 2] true Uuid.nil 0)
      (Machine.fresh 5 10)).toOption = some .first := by decide +kernel
  have hm : threeWay = m := final_of_ok hok
  rw [outcome, hok] at hfirst
  cases hfirst
  rw [hok, hm]

/-- A replaced member is rebuilt from what was written. -/
theorem raid1_not_stale_rebuilt :
    Faithful .first (contents .first threeWay (threeWay.memberContents .first)
        [.io (.write 0 (.single onesSector)), .fail 0, .add 3, .resync])
      (threeWay.run .first [.io (.write 0 (.single onesSector)), .fail 0, .add 3, .resync]) := by
  have hsize : ((threeWay.run .first [.io (.write 0 (.single onesSector)), .fail 0, .add 3]).layout
      .first).size = 3 := by decide +kernel
  have hstate : ∀ i < 3, (((threeWay.run .first
      [.io (.write 0 (.single onesSector)), .fail 0, .add 3]).arrays .first).members i).state =
      .spare → i = 0 := by decide +kernel
  apply raid1_not_stale threeWay_created
  refine ⟨show 0 + 1 < 2 ^ 64 by decide, trivial, trivial, fun _ i j hi hj => ?_, trivial⟩
  have hi₀ := hstate i (Nat.lt_of_lt_of_eq hi.1 hsize) hi.2.2
  have hj₀ := hstate j (Nat.lt_of_lt_of_eq hj.1 hsize) hj.2.2
  exact hi₀.trans hj₀.symm

def staleRun : List Op :=
  [.io (.write 0 (.single onesSector)), .fail 0, .fail 1, .add 3, .add 4, .resyncStep 1, .fail 0,
    .resyncStep 1]

/-- With two spares, one that was never written is promoted and read. -/
theorem raid1_promotes_stale_spare :
    create Level.raid1.code 0 [0, 1, 2] true Uuid.nil 0 (Machine.fresh 5 10) = .ok .first threeWay ∧
    (outcome ((Op.io (.write 0 (.single onesSector))).exec .first) threeWay).isOk ∧
    (outcome (mdBlkRead .first 0 1) (threeWay.run .first staleRun)).toOption.map
      (List.map fun s => s.val.head?) = some [some 0] ∧
    ¬ Faithful .first (contents .first threeWay (threeWay.memberContents .first) staleRun)
      (threeWay.run .first staleRun) := by
  have hwrite : (outcome ((Op.io (.write 0 (.single onesSector))).exec .first) threeWay).isOk := by
    decide +kernel
  have hread : (outcome (mdBlkRead .first 0 1) (threeWay.run .first staleRun)).toOption.map
      (List.map fun s => s.val.head?) = some [some 0] := by decide +kernel
  refine ⟨threeWay_created, hwrite, hread, fun hfaithful => ?_⟩
  -- the write succeeded, so the first sector holds ones
  have hcontents : contents .first threeWay (threeWay.memberContents .first) staleRun =
      Op.record (threeWay.memberContents .first) (.io (.write 0 (.single onesSector)))
        (outcome ((Op.io (.write 0 (.single onesSector))).exec .first) threeWay) := by
    simp only [staleRun, contents, Op.record]
  rw [hcontents] at hfaithful
  cases hout : outcome ((Op.io (.write 0 (.single onesSector))).exec .first) threeWay with
  | error e =>
    rw [hout] at hwrite
    cases hwrite
  | ok _ =>
    rw [hout] at hfaithful
    cases hl : outcome (mdBlkRead .first 0 1) (threeWay.run .first staleRun) with
    | error e =>
      rw [hl] at hread
      cases hread
    | ok l =>
      rw [hl] at hread
      obtain ⟨hlen, hmem⟩ := hfaithful.reads 0 1 l (by decide) hl
      match l, hlen with
      | [s], _ =>
        have hs : s = onesSector := hmem 0 s rfl
        rw [hs] at hread
        exact absurd hread (by decide)

end Anunix.Md
