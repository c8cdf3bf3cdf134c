import Anunix.Md.Served
import Anunix.Md.Start

/-!
# Runs of an array

The operations on an array that was created: requests to the array device, failing and replacing
members, and rebuilding. All but the replacement keep the layout; a replacement puts a free drive
that is large enough into a slot that is empty or has failed (`add_ends`). An array stays laid out
on its members in every run (`Reached.laid`).
-/

namespace Anunix.Md
open Fallible

/-! ## Programs that keep the layout -/

def KeepsLayout (a : ArrayId) (m m' : Machine) : Prop :=
  m'.layout a = m.layout a

instance (a : ArrayId) : IsPreorder Machine (KeepsLayout a) where
  refl _ := rfl
  trans _ _ _ h h' := h'.trans h

section KeepsLayout

variable {a : ArrayId}

lemma KeepsLayout.of_served {β : Type} {x : MdM β}
    (h : ∀ L, Within (ServedFrom L a fun _ => True) x) : Within (KeepsLayout a) x :=
  fun m => (h (m.layout a) m rfl).layout

lemma memberFault_keepsLayout (idx : Nat) : Within (KeepsLayout a) (memberFault a idx) :=
  KeepsLayout.of_served fun _ => memberFault_served idx

lemma Request.exec_keepsLayout (r : Request) : Within (KeepsLayout a) (r.exec a) :=
  KeepsLayout.of_served fun _ => r.exec_served fun _ _ _ _ _ _ _ _ _ => trivial

lemma fail_keepsLayout (i : Nat) : Within (KeepsLayout a) (fail a i) :=
  .bind (getArray_within a) fun _ => .bind (.failIf _ _) fun _ =>
    Within.bind (.failIf _ _) fun _ => memberFault_keepsLayout i

lemma resyncStep_keepsLayout (maxSectors : UInt32) :
    Within (KeepsLayout a) (resyncStep a maxSectors) := by
  refine .bind (getArray_within a) fun arr => .bind (.failIf _ _) fun _ =>
    Within.bind (.failIf _ _) fun _ => .bind (.orThrow _ _) fun spare => ?_
  split
  · exact .pure _
  refine .bind (KeepsLayout.of_served fun _ => raid1Read_served
    fun _ _ _ _ _ _ => trivial) fun buf => ?_
  refine .bind (KeepsLayout.of_served fun _ => memberWrite_served spare fun _ _ _ _ _ _ =>
    trivial).attempt fun r => ?_
  cases r with
  | error e => exact .bind (memberFault_keepsLayout spare) fun _ m => rfl
  | ok _ =>
    refine .bind (.modify fun m => layout_setArray rfl) fun _ => ?_
    refine .bind (getArray_within a) fun arr => ?_
    split
    · refine .bind (.modify fun m => layout_setArray (still_setMember _ _ rfl rfl)) fun _ => ?_
      have hsync : Within (KeepsLayout a) (superSync a) := fun m => (superSync_synced a m).layout
      exact .bind hsync.attempt fun _ => .pure _
    · exact .pure _

lemma resyncLoop_keepsLayout (fuel : Nat) : Within (KeepsLayout a) (resyncLoop a fuel) := by
  induction fuel with
  | zero => exact .pure _
  | succ fuel ih =>
    refine .bind (getArray_within a) fun arr => ?_
    split
    · exact .pure _
    refine .bind (resyncStep_keepsLayout 0) fun ret => ?_
    split
    · exact .pure _
    · exact ih

lemma resync_keepsLayout : Within (KeepsLayout a) (resync a) :=
  .bind (getArray_within a) fun _ => .bind (.failIf _ _) fun _ =>
    Within.bind (.failIf _ _) fun _ => .bind (.orThrow _ _) fun _ =>
      resyncLoop_keepsLayout _

end KeepsLayout

/-! ## Replacing a member -/

/-- A slot given to a drive, as a spare that is not rebuilt yet. -/
structure Replaced (a : ArrayId) (slot : Nat) (d : DevId) (m m' : Machine) : Prop where
  array : m'.arrays a =
    { (m.arrays a).setMember slot fun mem =>
        { mem with
          dev := some d, dataOffset := dataOffsetFor (m.arrays a).tailMeta, state := .spare } with
      resyncOffset := 0 }
  self : m'.devs d = { m.devs d with isMember := true }
  old : ∀ d', d' ≠ d → ((m.arrays a).members slot).dev = some d' →
    m'.devs d' = { m.devs d' with isMember := false }
  devs : ∀ d', d' ≠ d → ((m.arrays a).members slot).dev ≠ some d' → m'.devs d' = m.devs d'

/-- What a replacement requires of the array and the drive. -/
structure Replaceable (a : ArrayId) (slot : Nat) (d : DevId) (m : Machine) : Prop where
  used : (m.arrays a).used = true
  level : (m.arrays a).level = .raid1
  free : (m.devs d).isMember = false ∧ (m.devs d).isArray = false
  slot_lt : slot < (m.layout a).size
  vacant : (m.layout a).dev slot = none ∨ ((m.arrays a).members slot).state = .faulty
  room : (m.arrays a).memberSectors ≤ usableSectors (m.devs d) (m.arrays a).tailMeta

section Add

variable {a : ArrayId} {slot : Nat} {d : DevId} {m m' : Machine}

lemma replaced_release : Replaced a slot d m
    (((match ((m.arrays a).members slot).dev with
      | some old => m.setDev old fun dev => { dev with isMember := false }
      | none => m).setArray a fun arr =>
        { arr.setMember slot fun mem =>
            { mem with
              dev := some d, dataOffset := dataOffsetFor arr.tailMeta, state := .spare } with
          resyncOffset := 0 }).setDev d fun dev => { dev with isMember := true }) := by
  cases hold : ((m.arrays a).members slot).dev with
  | none =>
    refine ⟨?_, ?_, fun d' hd' hsome => ?_, fun d' hd' _ => ?_⟩
    · rw [arrays_setDev, arrays_setArray_self]
    · rw [devs_setDev_self, devs_setArray]
    · rw [hold] at hsome
      cases hsome
    · rw [devs_setDev_of_ne _ hd', devs_setArray]
  | some old =>
    refine ⟨?_, ?_, fun d' hd' hsome => ?_, fun d' hd' hne => ?_⟩
    · rw [arrays_setDev, arrays_setArray_self, arrays_setDev]
    · rw [devs_setDev_self, devs_setArray]
      by_cases hd : d = old
      · subst hd
        rw [devs_setDev_self]
      · rw [devs_setDev_of_ne _ hd]
    · rw [hold] at hsome
      cases hsome
      rw [devs_setDev_of_ne _ hd', devs_setArray, devs_setDev_self]
    · rw [hold] at hne
      rw [devs_setDev_of_ne _ hd', devs_setArray, devs_setDev_of_ne]
      exact fun heq => hne (congrArg some heq.symm)

lemma add_ends (a : ArrayId) (d : DevId) (m : Machine) : Atomic (add a d) m
      (fun _ m' => ∃ slot m1, Replaceable a slot d m ∧ Replaced a slot d m m1 ∧
        Synced a m1 m') := by
  refine getArray_bind (.guard fun hused => .guard fun hlevel => ?_)
  refine getDev_bind (.guard fun hfree => ?_)
  refine .fetch fun slot hslot => .guard fun hroom => ?_
  have hable : Replaceable a slot d m := by
    have hmem := List.mem_of_find?_eq_some hslot
    have hvacant := List.find?_some hslot
    simp only [Bool.or_eq_true, Option.isNone_iff_eq_none, beq_iff_eq] at hvacant
    refine ⟨?_, ?_, Bool.or_eq_false_iff.mp hfree, List.mem_range.mp hmem, hvacant, ?_⟩
    · simpa using hused
    · simpa using hlevel
    · have := of_decide_eq_false hroom
      exact Nat.not_lt.mp this
  have hreplaced : Replaced a slot d m _ := replaced_release
  have hsync {m1 : Machine} h1 : Ends (do let _ ← attempt (superSync a)) m1
      (fun _ m' => ∃ slot m1, Replaceable a slot d m ∧ Replaced a slot d m m1 ∧ Synced a m1 m')
      fun _ m' => m' = m :=
    .attempt_bind ((Ends.of_final (superSync_synced a m1)).mono
      (fun _ _ h => ⟨slot, m1, hable, h1, h⟩) fun _ _ h => ⟨slot, m1, hable, h1, h⟩)
  cases hold : ((m.arrays a).members slot).dev with
  | none =>
    rw [hold] at hreplaced
    exact modifyArray_bind (modifyDev_bind (hsync hreplaced))
  | some old =>
    rw [hold] at hreplaced
    exact modifyDev_bind (modifyArray_bind (modifyDev_bind (hsync hreplaced)))

section Replaced

variable (h : Replaced a slot d m m')

include h

lemma Replaced.layout_array : (m'.layout a).array =
    ({ (m.arrays a).setMember slot fun mem =>
        { mem with
          dev := some d, dataOffset := dataOffsetFor (m.arrays a).tailMeta, state := .spare } with
      resyncOffset := 0 } : MdArray).still :=
  congrArg MdArray.still h.array

lemma Replaced.geometry : (m'.layout a).size = (m.layout a).size ∧
    (m'.layout a).sectors = (m.layout a).sectors ∧ (m'.layout a).offset = (m.layout a).offset ∧
    (m'.layout a).array.tailMeta = (m.layout a).array.tailMeta ∧
    (m'.layout a).array.used = (m.layout a).array.used ∧
    (m'.layout a).array.level = (m.layout a).array.level ∧
    (m'.layout a).array.arraySectors = (m.layout a).array.arraySectors := by
  unfold Layout.size Layout.sectors Layout.offset
  rw [h.layout_array]
  exact ⟨rfl, rfl, rfl, rfl, rfl, rfl, rfl⟩

lemma Replaced.member_self : (m'.arrays a).members slot = { (m.arrays a).members slot with
      dev := some d, dataOffset := dataOffsetFor (m.arrays a).tailMeta, state := .spare } := by
  simp only [h.array, members_setMember_self]

lemma Replaced.member_of_ne {i : Nat} (hi : i ≠ slot) :
    (m'.arrays a).members i = (m.arrays a).members i := by
  simp only [h.array, members_setMember_of_ne _ _ hi]

lemma Replaced.dev_self : (m'.layout a).dev slot = some d :=
  congrArg MdMember.dev h.member_self

lemma Replaced.dev_of_ne {i : Nat} (hi : i ≠ slot) : (m'.layout a).dev i = (m.layout a).dev i := by
  show ((m'.arrays a).members i).dev = ((m.arrays a).members i).dev
  rw [h.member_of_ne hi]

end Replaced

lemma Replaceable.fits (h : Replaceable a slot d m) (hpos : 0 < (m.layout a).sectors) :
    (m.devs d).used ∧ (m.layout a).offset + (m.layout a).sectors +
      (if (m.layout a).array.tailMeta then 8 else 0) ≤ (m.devs d).capacity.toNat := by
  have hroom := h.room
  rw [UInt64.le_iff_toNat_le, usableSectors] at hroom
  split at hroom
  · rename_i hcap
    rw [gt_iff_lt, UInt64.lt_iff_toNat_lt] at hcap
    rw [UInt64.toNat_sub_of_le _ _ (UInt64.le_iff_toNat_le.mpr (Nat.le_of_lt hcap))] at hroom
    unfold BlkDev.blkDevCapacity at hcap hroom
    split at hroom
    · rename_i hused
      rw [if_pos hused] at hcap
      refine ⟨hused, ?_⟩
      show (dataOffsetFor (m.arrays a).tailMeta).toNat + (m.arrays a).memberSectors.toNat +
        (if (m.arrays a).tailMeta then 8 else 0) ≤ _
      unfold dataOffsetFor
      unfold metaSectors at hcap hroom
      have hback : sbTailBack.toNat = 8 := rfl
      have hzero : (0 : UInt64).toNat = 0 := rfl
      cases htail : (m.arrays a).tailMeta with
      | true =>
        simp only [htail, if_true] at hcap hroom ⊢
        omega
      | false =>
        simp only [htail, Bool.false_eq_true, if_false] at hcap hroom ⊢
        omega
    · rename_i hunused
      rw [if_neg hunused] at hcap
      exact absurd hcap (Nat.not_lt_zero _)
  · exact absurd hroom (Nat.not_le.mpr hpos)

section

variable (h : Replaced a slot d m m') (hable : Replaceable a slot d m) (hlaid : (m.layout a).Laid)
include h hable hlaid

lemma Replaced.other {i : Nat} (hi : i < (m.layout a).size) (hne : i ≠ slot) {d' : DevId}
    (hd' : (m.layout a).dev i = some d') : d' ≠ d ∧ m'.devs d' = m.devs d' := by
  have hdd : d' ≠ d := by
    rintro rfl
    have hmember : (m.devs d').isMember = true := (hlaid.member i hi d' hd').2.1
    rw [hable.free.1] at hmember
    cases hmember
  refine ⟨hdd, h.devs d' hdd fun hold => hne ?_⟩
  exact hlaid.distinct i hi slot hable.slot_lt d' hd' hold

lemma Replaced.laid : (m'.layout a).Laid := by
  obtain ⟨hsize, hsectors, hoffset, htail, hused, -⟩ := h.geometry
  refine ⟨?_, ?_, ?_, fun i hi d' hd' => ?_, fun i hi j hj d' hdi hdj => ?_⟩
  · rw [hused]
    exact hlaid.used
  · rw [hsize]
    exact hlaid.pos
  · rw [hsectors]
    exact hlaid.room
  · rw [hsize] at hi
    rw [hsectors, hoffset, htail]
    by_cases his : i = slot
    · subst his
      rw [h.dev_self] at hd'
      cases hd'
      obtain ⟨hdused, hfits⟩ := hable.fits hlaid.room
      have hdev : (m'.layout a).devs d = ({ m.devs d with isMember := true } : BlkDev).still :=
        congrArg BlkDev.still h.self
      rw [Layout.capacity, hdev]
      refine ⟨hdused, rfl, ?_, hfits⟩
      exact congrArg MdMember.dataOffset h.member_self
    · rw [h.dev_of_ne his] at hd'
      obtain ⟨-, hsame⟩ := h.other hable hlaid hi his hd'
      have hdev : (m'.layout a).devs d' = (m.layout a).devs d' := congrArg BlkDev.still hsame
      have hoff : ((m'.layout a).array.members i).dataOffset =
          ((m.layout a).array.members i).dataOffset := by
        show ((m'.arrays a).members i).dataOffset = ((m.arrays a).members i).dataOffset
        rw [h.member_of_ne his]
      rw [Layout.capacity, hdev, hoff]
      exact hlaid.member i hi d' hd'
  · rw [hsize] at hi hj
    by_cases his : i = slot
    · by_cases hjs : j = slot
      · rw [his, hjs]
      · subst his
        rw [h.dev_self] at hdi
        rw [h.dev_of_ne hjs] at hdj
        cases hdi
        exact absurd rfl (h.other hable hlaid hj hjs hdj).1
    · rw [h.dev_of_ne his] at hdi
      by_cases hjs : j = slot
      · subst hjs
        rw [h.dev_self] at hdj
        cases hdj
        exact absurd rfl (h.other hable hlaid hi his hdi).1
      · rw [h.dev_of_ne hjs] at hdj
        exact hlaid.distinct i hi j hj d' hdi hdj

end

end Add

/-! ## Runs -/

inductive Op where
  | io (r : Request)
  | fail (i : Nat)
  | add (d : DevId)
  | resyncStep (maxSectors : UInt32)
  | resync

def Op.exec (a : ArrayId) : Op → MdM (List Sector)
  | .io r => r.exec a
  | .fail i => do Md.fail a i; return []
  | .add d => do Md.add a d; return []
  | .resyncStep maxSectors => do let _ ← Md.resyncStep a maxSectors; return []
  | .resync => do Md.resync a; return []

def Machine.run (m : Machine) (a : ArrayId) (ops : List Op) : Machine :=
  ops.foldl (fun m op => final (op.exec a) m) m

/-- The machine is behind some operations on an array that was created. -/
def Reached (a : ArrayId) (m : Machine) : Prop :=
  ∃ (level chunkSectors : UInt32) (members : List DevId) (tailMeta : Bool) (uuid : Uuid)
    (now : UInt64) (m₀ m₁ : Machine) (ops : List Op),
    create level chunkSectors members tailMeta uuid now m₀ = .ok a m₁ ∧ m = m₁.run a ops

section Run

variable {a : ArrayId} {m : Machine}

lemma Op.laid (op : Op) (h : (m.layout a).Laid) : ((final (op.exec a) m).layout a).Laid := by
  have hkeep {β : Type} {x : MdM β} (hx : Within (KeepsLayout a) x) {f : β → List Sector} :
      ((final (do let b ← x; return f b) m).layout a).Laid := by
    have hlayout : KeepsLayout a m _ := Within.bind hx (fun b => .pure (f b)) m
    rw [hlayout]
    exact h
  cases op with
  | io r =>
    have hlayout : (final (r.exec a) m).layout a = m.layout a := r.exec_keepsLayout m
    show ((final (r.exec a) m).layout a).Laid
    rw [hlayout]
    exact h
  | fail i => exact hkeep (fail_keepsLayout i)
  | resyncStep maxSectors => exact hkeep (resyncStep_keepsLayout maxSectors)
  | resync => exact hkeep resync_keepsLayout
  | add d =>
    apply Ends.final (P := fun m' : Machine => (m'.layout a).Laid)
    refine .call (add_ends a d m) ?_ ?_
    · rintro - m' ⟨slot, m1, hable, hreplaced, hsynced⟩
      show (m'.layout a).Laid
      rw [hsynced.layout]
      exact hreplaced.laid hable h
    · rintro - m' rfl
      exact h

lemma Machine.run_laid (h : (m.layout a).Laid) (ops : List Op) : ((m.run a ops).layout a).Laid := by
  induction ops generalizing m with
  | nil => exact h
  | cons op ops ih => exact ih (op.laid h)

lemma Reached.laid (h : Reached a m) : (m.layout a).Laid := by
  obtain ⟨_, _, _, _, _, _, _, m1, ops, hcreate, rfl⟩ := h
  obtain ⟨_, _, _, _, _, hcreated⟩ := create_ok hcreate
  exact Machine.run_laid hcreated.laid ops

end Run

end Anunix.Md
