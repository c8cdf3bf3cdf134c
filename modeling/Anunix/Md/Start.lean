import Anunix.Md.Requests

/-!
# Starting and creating arrays

What a registration and the start of an array do to the registry (`Started`), and what an array that
was just created looks like (`create_ok`): it is laid out over the devices it was given, all members
are active, and the sectors of the data areas are as they were.
-/

namespace Anunix.Md
open Fallible Region List

/-! ## Registration -/

structure Registered (b : DevId) (m m' : Machine) : Prop where
  fresh : (m.devs b).used = false
  used : (m'.devs b).used = true
  flags : (m'.devs b).isArray = false ∧ (m'.devs b).isMember = false
  devs : ∀ d, d ≠ b → m'.devs d = m.devs d
  data : (m'.devs b).data = (m.devs b).data
  active : m'.active = m.active.or (some b)
  arrays : m'.arrays = m.arrays
  io : m'.io = m.io
  tick : m'.tick = m.tick
  trace : m'.trace = m.trace

lemma freeSlot_eq_some {devs : DevId → BlkDev} {b : DevId} (h : freeSlot devs = some b) :
    (devs b).used = false := by
  simpa using find?_some h

lemma blkDevRegister_ends (m : Machine) (base : List UInt8) : Succeeds (blkDevRegister base) m
      fun r m' => (freeSlot m.devs = none ∧ r = none ∧ m' = m) ∨
        ∃ b, freeSlot m.devs = some b ∧ r = some b ∧ Registered b m m' := by
  apply Ends.get_bind
  cases hslot : freeSlot m.devs with
  | none => exact .inl ⟨rfl, rfl, rfl⟩
  | some b =>
    have hfresh := freeSlot_eq_some hslot
    refine modifyDev_bind (Ends.get_bind (modifyDev_bind (Ends.get_bind ?_)))
    generalize hm2 : Machine.setDev (Machine.setDev m b _) b _ = m2
    have hdev :
      (m2.devs b).used = true ∧ ((m2.devs b).isArray = false ∧ (m2.devs b).isMember = false) ∧
        (m2.devs b).data = (m.devs b).data := by
      rw [← hm2]
      simp
    have hdevs : ∀ d, d ≠ b → m2.devs d = m.devs d := by
      intro d hd
      rw [← hm2, devs_setDev_of_ne _ hd, devs_setDev_of_ne _ hd]
    have hrest : m2.active = m.active ∧ m2.arrays = m.arrays ∧ m2.io = m.io ∧ m2.tick = m.tick ∧
        m2.trace = m.trace := by
      rw [← hm2]
      exact ⟨rfl, rfl, rfl, rfl, rfl⟩
    obtain ⟨hactive, harrays, hio, htick, htrace⟩ := hrest
    cases hnone : m2.active
    all_goals
      refine .inr ⟨b, rfl, rfl, hfresh, hdev.1, hdev.2.1, hdevs, hdev.2.2, ?_, harrays, hio,
        htick, htrace⟩
      rw [← hactive, hnone]
      rfl

/-! ## Claims -/

def MdArray.holdsDev (arr : MdArray) (slots : List Nat) (d : DevId) : Bool :=
  slots.any fun i => (arr.members i).dev == some d

def Machine.marked (m : Machine) (arr : MdArray) (slots : List Nat) (claim : Bool) : Machine :=
  { m with
    devs := fun d =>
      if arr.holdsDev slots d then { m.devs d with isMember := claim } else m.devs d }

lemma MdArray.holdsDev_iff {arr : MdArray} {slots : List Nat} {d : DevId} :
    arr.holdsDev slots d ↔ ∃ i ∈ slots, (arr.members i).dev = some d := by
  simp [holdsDev]

lemma eachDev_ends {arr : MdArray} (slots : List Nat) (claim : Bool) (m : Machine) :
    Succeeds (arr.eachDev (fun d => modifyDev d fun dev => { dev with isMember := claim }) slots) m
      fun _ m' => m' = m.marked arr slots claim := by
  induction slots generalizing m with
  | nil => exact rfl
  | cons i is ih =>
    cases hdev : (arr.members i).dev with
    | none =>
      have hmarked : m.marked arr (i :: is) claim = m.marked arr is claim := by
        have hholds : ∀ d, arr.holdsDev (i :: is) d = arr.holdsDev is d := by
          simp [MdArray.holdsDev, hdev]
        unfold Machine.marked
        simp only [hholds]
      rw [MdArray.eachDev, hdev, hmarked]
      exact ih m
    | some d =>
      have hmarked : m.marked arr (i :: is) claim =
          (m.setDev d fun dev => { dev with isMember := claim }).marked arr is claim := by
        unfold Machine.marked
        congr 1
        funext d'
        have hholds : arr.holdsDev (i :: is) d' = (d == d' || arr.holdsDev is d') := by
          simp [MdArray.holdsDev, hdev]
        rw [hholds]
        by_cases hd : d' = d
        · subst hd
          simp
        · rw [devs_setDev_of_ne _ hd]
          simp [Ne.symm hd]
      rw [MdArray.eachDev, hdev, hmarked]
      exact modifyDev_bind (ih _)

/-! ## Starting -/

structure Started (a : ArrayId) (b : DevId) (m m' : Machine) : Prop where
  fresh : (m.devs b).used = false
  array : m'.arrays a = { m.arrays a with bdev := some b, name := (m'.devs b).name }
  others : ∀ c, c ≠ a → m'.arrays c = m.arrays c
  bdev : (m'.devs b).used = true ∧ (m'.devs b).isArray = true
  devs : ∀ d, d ≠ b → m'.devs d =
    if (m.arrays a).holdsDev (m.arrays a).slots d then { m.devs d with isMember := true } else
    m.devs d
  active : m'.active =
    if (m.arrays a).takesOver m.active || m.active.isNone then some b else m.active
  io : m'.io = m.io
  tick : m'.tick = m.tick
  trace : m'.trace = m.trace

structure Kept (a : ArrayId) (m m' : Machine) : Prop where
  devs : m'.devs = m.devs
  others : ∀ c, c ≠ a → m'.arrays c = m.arrays c
  io : m'.io = m.io
  tick : m'.tick = m.tick

lemma Kept.refl (a : ArrayId) (m : Machine) : Kept a m m :=
  ⟨rfl, fun _ _ => rfl, rfl, rfl⟩

variable {a : ArrayId} {m : Machine} {m' : Machine}

lemma Kept.trans {m'' : Machine} (h : Kept a m m') (h' : Kept a m' m'') : Kept a m m'' :=
  ⟨h'.devs.trans h.devs, fun c hc => (h'.others c hc).trans (h.others c hc), h'.io.trans h.io,
    h'.tick.trans h.tick⟩

lemma Kept.of_setArray (a : ArrayId) (m : Machine) (f : MdArray → MdArray) :
    Kept a m (m.setArray a f) :=
  ⟨rfl, fun _ => arrays_setArray_of_ne f, rfl, rfl⟩

lemma startArray_ends (a : ArrayId) (m : Machine) : Ends (startArray a) m
      (fun _ m' => ∃ b, freeSlot m.devs = some b ∧ (m.arrays a).arraySectors ≠ 0 ∧ Started a b m m')
      fun e m' => Kept a m m' ∧ m'.active = m.active ∧ ((m.arrays a).used = true →
        ((m.arrays a).arraySectors = 0 ∧ e = .einval) ∨
        ((m.arrays a).arraySectors ≠ 0 ∧ freeSlot m.devs = none ∧ e = .efull)) := by
  refine .get_bind
    (getArray_bind (Ends.failIf_bind (fun h => ⟨Kept.refl a m, rfl, fun hused => ?_⟩) fun _ => ?_))
  · simp [hused] at h
  refine .failIf_bind (fun h => ⟨Kept.refl a m, rfl, fun _ => ?_⟩) fun hpos => ?_
  · exact .inl ⟨beq_iff_eq.mp h, rfl⟩
  have hpos : (m.arrays a).arraySectors ≠ 0 := beq_eq_false_iff_ne.mp hpos
  refine Succeeds.next (blkDevRegister_ends m mdBase) ?_
  rintro r m₁ (⟨hfull, rfl, rfl⟩ | ⟨b, hslot, rfl, hreg⟩)
  · exact ⟨Kept.of_setArray a m₁ _, rfl, fun _ => .inr ⟨hpos, hfull, rfl⟩⟩
  refine modifyArray_bind (Ends.orThrow_bind (fun h => nomatch h) fun b' hb' => ?_)
  cases hb'
  refine modifyDev_bind (getDev_bind (modifyArray_bind ?_))
  generalize hm2 : Machine.setArray (Machine.setDev (Machine.setArray m₁ a _) b _) a _ = m2
  have harr : m2.arrays a = { m.arrays a with bdev := some b, name := (m2.devs b).name } := by
    rw [← hm2]
    simp only [arrays_setArray_self, arrays_setDev, devs_setArray, hreg.arrays]
  have hothers : ∀ c, c ≠ a → m2.arrays c = m.arrays c := by
    intro c hc
    rw [← hm2, arrays_setArray_of_ne _ hc, arrays_setDev, arrays_setArray_of_ne _ hc, hreg.arrays]
  have hbdev : (m2.devs b).used = true ∧ (m2.devs b).isArray = true := by
    rw [← hm2, devs_setArray, devs_setDev_self]
    exact ⟨hreg.used, rfl⟩
  have hdevs : ∀ d, d ≠ b → m2.devs d = m.devs d := by
    intro d hd
    rw [← hm2, devs_setArray, devs_setDev_of_ne _ hd]
    exact hreg.devs d hd
  have hrest : m2.active = m.active.or (some b) ∧ m2.io = m.io ∧ m2.tick = m.tick ∧
      m2.trace = m.trace := by
    rw [← hm2]
    exact ⟨hreg.active, hreg.io, hreg.tick, hreg.trace⟩
  obtain ⟨hactive, hio, htick, htrace⟩ := hrest
  refine Succeeds.next (eachDev_ends (m.arrays a).slots true m2) ?_
  rintro - m3 rfl
  obtain ⟨c, hmark⟩ : ∃ c, (m2.marked (m.arrays a) (m.arrays a).slots true).devs b =
      { m2.devs b with isMember := c } := by
    unfold Machine.marked
    dsimp only
    split
    · exact ⟨true, rfl⟩
    · exact ⟨_, rfl⟩
  have harr3 : m2.arrays a = { m.arrays a with
      bdev := some b, name := ((m2.marked (m.arrays a) (m.arrays a).slots true).devs b).name } := by
    rw [hmark]
    exact harr
  have hbdev3 : ((m2.marked (m.arrays a) (m.arrays a).slots true).devs b).used = true ∧
      ((m2.marked (m.arrays a) (m.arrays a).slots true).devs b).isArray = true := by
    rw [hmark]
    exact hbdev
  have hdevs3 : ∀ d, d ≠ b → (m2.marked (m.arrays a) (m.arrays a).slots true).devs d =
      if (m.arrays a).holdsDev (m.arrays a).slots d then { m.devs d with isMember := true } else
      m.devs d := by
    intro d hd
    rw [← hdevs d hd]
    rfl
  cases htake : (m.arrays a).takesOver m.active || m.active.isNone
  all_goals
    refine ⟨b, hslot, hpos, hreg.fresh, harr3, hothers, hbdev3, hdevs3, ?_, hio, htick, htrace⟩
    rw [htake]
  · show m2.active = m.active
    rw [hactive]
    cases hact : m.active with
    | none => simp [hact] at htake
    | some d => rfl
  · rfl

/-! ## Stopping -/

def Layout.Holds (L : Layout) (d : DevId) : Prop :=
  ∃ i < L.size, L.dev i = some d

lemma holdsDev_slots_iff (m : Machine) (a : ArrayId) (d : DevId) :
    (m.arrays a).holdsDev (m.arrays a).slots d = true ↔ (m.layout a).Holds d := by
  rw [MdArray.holdsDev_iff]
  simp only [MdArray.slots, mem_range]
  rfl

/-- An array that was taken off the registry after its superblocks had been written, which left
`m₁`. -/
structure Dropped (a : ArrayId) (b : DevId) (m m₁ m' : Machine) : Prop where
  io : m'.io = m₁.io
  tick : m'.tick = m₁.tick
  active : m'.active = m₁.active
  held : ∀ d, d ≠ b → (m.layout a).Holds d → m'.devs d = { m₁.devs d with isMember := false }
  free : ∀ d, d ≠ b → ¬ (m.layout a).Holds d → m'.devs d = m₁.devs d
  bdev : (m'.devs b).used = false
  array : m'.arrays a = .blank
  others : ∀ c, c ≠ a → m'.arrays c = m₁.arrays c

/-- A stop is refused only while the array is the active device. -/
lemma stop_drops {b : DevId} (hbdev : (m.arrays a).bdev = some b) (hused : (m.devs b).used = true) :
    Ends (stop a) m (fun _ => Dropped a b m (final (superSync a) m))
      fun _ m' => m' = m ∧ ((m.arrays a).used = true → m.active = some b) := by
  refine getArray_bind (Ends.failIf_bind (fun h => ⟨rfl, fun hu => ?_⟩) fun _ => ?_)
  · simp [hu] at h
  rw [hbdev]
  refine .get_bind (.failIf_bind (fun h => ⟨rfl, fun _ => by simpa using h⟩) fun hidle => ?_)
  refine .attempt_bind (Ends.of_final ?_)
  have hsynced := superSync_synced a m
  generalize final (superSync a) m = m₁ at hsynced ⊢
  refine Succeeds.next (eachDev_ends (m.arrays a).slots false m₁) ?_
  rintro - m2 rfl
  generalize hm2 : m₁.marked (m.arrays a) (m.arrays a).slots false = m2
  have hrest : m2.active = m.active ∧ (m2.devs b).used = (m₁.devs b).used := by
    rw [← hm2]
    refine ⟨hsynced.active, ?_⟩
    unfold Machine.marked
    dsimp only
    split <;> rfl
  have hbused : (m2.devs b).used = true :=
    (hrest.2.trans (congrArg (fun L : Layout => (L.devs b).used) hsynced.layout)).trans hused
  have hactive : ¬ (m2.active == some b) = true := by
    rw [hrest.1]
    simpa using hidle
  refine .bind (getDev_bind ?_)
  rw [if_pos hbused]
  apply Ends.get_bind
  rw [if_neg hactive]
  subst hm2
  refine ⟨rfl, rfl, rfl, fun d hd hholds => ?_, fun d hd hfree => ?_, ?_, ?_, fun c hc => ?_⟩
  · rw [devs_setArray, devs_setDev_of_ne _ hd]
    exact if_pos ((holdsDev_slots_iff m a d).mpr hholds)
  · rw [devs_setArray, devs_setDev_of_ne _ hd]
    exact if_neg fun h => hfree ((holdsDev_slots_iff m a d).mp h)
  · rw [devs_setArray, devs_setDev_self]
  · rw [arrays_setArray_self]
  · exact arrays_setArray_of_ne _ hc

/-! ## Creation -/

variable {tailMeta : Bool} {members : List DevId}

section Create

variable {devs : DevId → BlkDev}

lemma checkFree_ok (h : checkFree devs members = .ok ()) :
    members.Nodup ∧ ∀ d ∈ members, (devs d).isMember = false ∧ (devs d).isArray = false := by
  induction members with
  | nil => exact ⟨nodup_nil, forall_mem_nil _⟩
  | cons d ds ih =>
    obtain ⟨_, hmember, h⟩ := bind_eq_ok.mp h
    obtain ⟨_, harray, h⟩ := bind_eq_ok.mp h
    obtain ⟨_, hdup, h⟩ := bind_eq_ok.mp h
    obtain ⟨hnodup, hfree⟩ := ih h
    rw [failIf_eq_ok] at hmember harray hdup
    refine ⟨nodup_cons.mpr ⟨?_, hnodup⟩, forall_mem_cons.mpr ⟨⟨hmember, harray⟩, hfree⟩⟩
    simpa using hdup

lemma smallestUsable_ok {s0 s : UInt64} (h : smallestUsable devs tailMeta members s0 = .ok s) :
    (s0 ≠ 0 → s.toNat ≤ s0.toNat) ∧ ∀ d ∈ members, (devs d).used ∧
      (metaSectors tailMeta).toNat + s.toNat ≤ (devs d).capacity.toNat := by
  induction members generalizing s0 with
  | nil =>
    cases h
    exact ⟨fun _ => Nat.le_refl _, forall_mem_nil _⟩
  | cons d ds ih =>
    obtain ⟨_, hcap, h⟩ := bind_eq_ok.mp h
    rw [failIf_eq_ok, decide_eq_false_iff_not, UInt64.le_iff_toNat_le, Nat.not_le] at hcap
    obtain ⟨hle, hrest⟩ := ih h
    have hsub : ((devs d).blkDevCapacity - metaSectors tailMeta).toNat =
        (devs d).blkDevCapacity.toNat - (metaSectors tailMeta).toNat :=
      UInt64.toNat_sub_of_le _ _ (UInt64.le_iff_toNat_le.mpr (Nat.le_of_lt hcap))
    have hused : (devs d).used := by
      by_contra hno
      have hzero : (devs d).blkDevCapacity = 0 := if_neg hno
      rw [hzero] at hcap
      exact absurd hcap (Nat.not_lt_zero _)
    have hcapacity : (devs d).blkDevCapacity = (devs d).capacity := if_pos hused
    rw [hcapacity] at hcap hsub hle
    generalize husable : (devs d).capacity - metaSectors tailMeta = usable at hsub hle
    have hpos : usable ≠ 0 := by
      intro hz
      rw [hz] at hsub
      have : (0 : UInt64).toNat = 0 := rfl
      omega
    -- the running minimum is below the new capacity and, if there was one, the old minimum
    have hmin : s.toNat ≤ usable.toNat ∧ (s0 ≠ 0 → s.toNat ≤ s0.toNat) := by
      split at hle
      · rename_i hnew
        have hs := hle hpos
        refine ⟨hs, fun hs0 => ?_⟩
        rcases hnew with hz | hlt
        · exact absurd hz hs0
        · rw [UInt64.lt_iff_toNat_lt] at hlt
          omega
      · rename_i hold
        obtain ⟨hs0, hge⟩ := not_or.mp hold
        have hs := hle hs0
        rw [UInt64.lt_iff_toNat_lt] at hge
        exact ⟨by omega, fun _ => hs⟩
    refine ⟨hmin.2, fun d' hd' => ?_⟩
    rcases mem_cons.mp hd' with rfl | hd'
    · exact ⟨hused, by omega⟩
    · exact hrest d' hd'

lemma mdRoundChunks_toNat (s : UInt64) (c : UInt32) :
    (mdRoundChunks s c).toNat ≤ s.toNat ∧ (c ≠ 0 → c.toNat ∣ (mdRoundChunks s c).toNat) := by
  unfold mdRoundChunks
  split
  · rename_i hz
    exact ⟨Nat.le_refl _, absurd hz⟩
  · have hle : s.toNat / c.toNat * c.toNat ≤ s.toNat := Nat.div_mul_le_self _ _
    have hmul : (s / c.toUInt64 * c.toUInt64).toNat = s.toNat / c.toNat * c.toNat := by
      exact Nat.mod_eq_of_lt (Nat.lt_of_le_of_lt hle s.toNat_lt)
    rw [hmul]
    exact ⟨hle, fun _ => Nat.dvd_mul_left _ _⟩

end Create

lemma freeArray_eq_some {arrays : ArrayId → MdArray} (h : freeArray arrays = some a) :
    (arrays a).used = false := by
  simpa using find?_some h

lemma createSupers_ends (a : ArrayId) (is : List Nat) (m : Machine) :
    Ends (createSupers a is) m (fun _ m' => Synced a m m')
      fun _ m' => ∃ m₁, Synced a m m₁ ∧ m' = final (stop a) m₁ := by
  induction is generalizing m with
  | nil => exact .refl m
  | cons i is ih =>
    refine .attempt_bind ((Ends.of_final (superWrite_synced a i m)).mono ?_ ?_)
    · rintro - m₁ h1
      refine (ih m₁).mono (fun _ _ => h1.trans) ?_
      rintro e m' ⟨m2, h2, hm'⟩
      exact ⟨m2, h1.trans h2, hm'⟩
    · rintro e m₁ h1
      refine .attempt_bind (.of_final ?_)
      exact ⟨m₁, h1, rfl⟩

variable {chunk : UInt32} {uuid : Uuid} {smallest now : UInt64} {m₁ : Machine} {i : Nat}
  {chunkSectors : UInt32}

section Undo

variable {level : Level} {a : ArrayId} {b d : DevId} {m m2 m' : Machine} {arr : MdArray}

lemma createdArray_member (h : members[i]? = some d) :
    (createdArray level chunk members tailMeta smallest uuid now).members i =
      ⟨some d, dataOffsetFor tailMeta, .active, 1⟩ := by
  simp only [createdArray, h]

lemma createdArray_dev (i : Nat) :
    ((createdArray level chunk members tailMeta smallest uuid now).members i).dev =
    members[i]? := by
  cases h : members[i]? with
  | none => simp only [createdArray, h, MdMember.blank]
  | some d => rw [createdArray_member h]

/-- The registry, the table of arrays and the active device are as they were. A slot that was free
is free, and one of the table may have been zeroed. -/
structure AsBefore (m m' : Machine) : Prop where
  arrays : ∀ a, m'.arrays a = m.arrays a ∨ (m.arrays a).used = false ∧ m'.arrays a = .blank
  devs : ∀ d, (m'.devs d).still = (m.devs d).still ∨ (m.devs d).used = false ∧
    (m'.devs d).used = false
  active : m'.active = m.active

lemma AsBefore.refl (m : Machine) : AsBefore m m :=
  ⟨fun _ => .inl rfl, fun _ => .inl rfl, rfl⟩

lemma Kept.asBefore (h : Kept a (m.setArray a fun _ => arr) m') (hactive : m'.active = m.active)
    (hfree : (m.arrays a).used = false) : AsBefore m (m'.setArray a fun _ => .blank) := by
  refine ⟨fun c => ?_, fun d => .inl ?_, hactive⟩
  · by_cases hc : c = a
    · subst hc
      exact .inr ⟨hfree, arrays_setArray_self ..⟩
    · rw [arrays_setArray_of_ne _ hc, h.others c hc, arrays_setArray_of_ne _ hc]
      exact .inl rfl
  · rw [devs_setArray, h.devs]
    rfl

lemma Started.active_eq (h : Started a b (m.setArray a fun _ => arr) m₁)
    (hactive : m.active = some d) (hmember : ∀ i, (arr.members i).dev ≠ some d) :
    m₁.active = m.active := by
  have htake : arr.takesOver m.active = false := by
    rw [MdArray.takesOver, any_eq_false, hactive]
    intro i _ htrue
    simp only [Bool.and_eq_true, beq_iff_eq] at htrue
    exact hmember i htrue.2
  have hsame : m₁.active = if arr.takesOver m.active || m.active.isNone then some b else
      m.active := by
    rw [h.active, arrays_setArray_self]
    rfl
  rw [hsame, htake, hactive]
  rfl

/-- A device is active that a creation does not touch: no member, and not the slot of the new
array. -/
def Spared (members : List DevId) (m : Machine) : Prop :=
  ∃ d, m.active = some d ∧ d ∉ members ∧ freeSlot m.devs ≠ some d

lemma Started.active_new (h : Started a b
      (m.setArray a fun _ => createdArray level chunk members tailMeta smallest uuid now) m₁)
    (hcount : members.length ≤ maxMembers) (hslot : freeSlot m.devs = some b)
      (hno : ¬ Spared members m) :
    m₁.active = some b := by
  rw [h.active, arrays_setArray_self]
  show (if _ || m.active.isNone then some b else m.active) = some b
  cases hactive : m.active with
  | none => simp
  | some d =>
    by_cases hd : d ∈ members
    · obtain ⟨i, hi⟩ := mem_iff_getElem?.mp hd
      have hlt := (List.getElem?_eq_some_iff.mp hi).1
      have htake : (createdArray level chunk members tailMeta smallest uuid now).takesOver
          m.active = true := by
        refine any_eq_true.mpr ⟨i, mem_range.mpr ?_, ?_⟩
        · exact hlt.trans_eq (UInt32.toNat_ofNat_of_lt' (hcount.trans_lt (by decide))).symm
        · rw [createdArray_dev, hi, hactive]
          simp
      rw [← hactive]
      exact if_pos (by simp [show (m.setArray a _).active = m.active from rfl, htake])
    · have hb : freeSlot m.devs = some d := by
        by_contra hne
        exact hno ⟨d, hactive, hd, hne⟩
      cases hslot.symm.trans hb
      exact ite_self _

lemma stop_active (hused : (m.arrays a).used = true) (hbdev : (m.arrays a).bdev = some b)
    (hactive : m.active = some b) : final (stop a) m = m := by
  refine Ends.final (P := (· = m)) (getArray_bind (.pass (by simp [hused]) (.get_bind ?_)))
  exact .failIf_bind (fun _ => rfl) fun h => by simp [hbdev, hactive] at h

/-- Stopping an array takes back what starting it did, unless it has become the active device. -/
lemma Started.undone (h : Started a b (m.setArray a fun _ => arr) m₁) (hs : Synced a m₁ m2)
    (hfree : (m.arrays a).used = false) (hactive : m₁.active = m.active) (hidle : m.active ≠ some b)
    (harr : arr.used = true)
    (hmember : ∀ i d, (arr.members i).dev = some d → (m.devs d).isMember = false) :
    AsBefore m (final (stop a) m2) := by
  have harray :
      (m₁.layout a).array = { arr with bdev := some b, name := (m₁.devs b).name }.still := by
    show (m₁.arrays a).still = _
    rw [h.array, arrays_setArray_self]
  have hbdev : (m2.layout a).array.bdev = some b := by
    rw [hs.layout, harray]
    rfl
  have hused : (m2.layout a).array.used = true := by
    rw [hs.layout, harray]
    exact harr
  have hbused : ((m2.layout a).devs b).used = true := by
    rw [hs.layout]
    exact h.bdev.1
  apply Ends.final
  refine (stop_drops hbdev hbused).mono ?_ ?_
  · intro _ m' hd
    have hsync := hs.trans (superSync_synced a m2)
    refine ⟨fun c => ?_, fun d => ?_, hd.active.trans (hsync.active.trans hactive)⟩
    · by_cases hc : c = a
      · subst hc
        exact .inr ⟨hfree, hd.array⟩
      · rw [hd.others c hc, hsync.others c hc, h.others c hc, arrays_setArray_of_ne _ hc]
        exact .inl rfl
    · by_cases hdb : d = b
      · subst hdb
        exact .inr ⟨h.fresh, hd.bdev⟩
      have hstill : ((final (superSync a) m2).devs d).still = (m₁.devs d).still :=
        congrArg (fun L : Layout => L.devs d) hsync.layout
      have hdev : m₁.devs d =
          if arr.holdsDev arr.slots d then { m.devs d with isMember := true } else m.devs d := by
        rw [h.devs d hdb, arrays_setArray_self]
        rfl
      have hheld : (m2.layout a).Holds d ↔ arr.holdsDev arr.slots d = true := by
        rw [MdArray.holdsDev_iff, hs.layout]
        unfold Layout.Holds Layout.size Layout.dev
        rw [harray]
        simp only [MdArray.slots, mem_range]
        rfl
      left
      by_cases hin : arr.holdsDev arr.slots d = true
      · rw [hd.held d hdb (hheld.mpr hin)]
        show { ((final (superSync a) m2).devs d).still with isMember := false } = _
        obtain ⟨i, -, hi⟩ := MdArray.holdsDev_iff.mp hin
        rw [hstill, hdev, if_pos hin, ← hmember i d hi]
        rfl
      · rw [hd.free d hdb fun hno => hin (hheld.mp hno), hstill, hdev, if_neg hin]
  · rintro - m' ⟨-, hbusy⟩
    exact absurd (hactive.symm.trans (hs.active.symm.trans (hbusy hused))) hidle

/-- A creation that fails at the superblocks is taken back exactly if a device is active that it
does not touch. -/
lemma Started.undone_iff (h : Started a b
      (m.setArray a fun _ => createdArray level chunk members tailMeta smallest uuid now) m₁)
    (hs : Synced a m₁ m2) (hfree : (m.arrays a).used = false)
    (hcount : members.length ≤ maxMembers) (hslot : freeSlot m.devs = some b)
    (hmember : ∀ d ∈ members, (m.devs d).isMember = false) :
    AsBefore m (final (stop a) m2) ↔ Spared members m := by
  constructor
  · intro hsame
    by_contra hno
    have hstarted : (m₁.arrays a).used = true ∧ (m₁.arrays a).bdev = some b := by
      rw [h.array, arrays_setArray_self]
      exact ⟨rfl, rfl⟩
    have hused : (m2.arrays a).used = true :=
      (congrArg (fun L : Layout => L.array.used) hs.layout).trans hstarted.1
    have hbdev : (m2.arrays a).bdev = some b :=
      (congrArg (fun L : Layout => L.array.bdev) hs.layout).trans hstarted.2
    rw [stop_active hused hbdev (hs.active.trans (h.active_new hcount hslot hno))] at hsame
    rcases hsame.arrays a with he | ⟨-, he⟩
    · exact absurd ((congrArg MdArray.used he).symm.trans hused) (by simp [hfree])
    · exact absurd ((congrArg MdArray.used he).symm.trans hused) nofun
  · rintro ⟨d, hactive, hd, hne⟩
    refine h.undone hs hfree (h.active_eq hactive fun i hi => ?_) ?_ rfl fun i d hi => ?_
    · rw [createdArray_dev] at hi
      exact hd (mem_of_getElem? hi)
    · rw [hactive, ← hslot]
      exact hne.symm
    · rw [createdArray_dev] at hi
      exact hmember d (mem_of_getElem? hi)

end Undo

/-- An array that was created: what the arguments and the devices had to be, and how the machine
came about. -/
structure Created (level : Level) (chunk : UInt32) (members : List DevId) (tailMeta : Bool)
    (uuid : Uuid) (now smallest : UInt64) (a : ArrayId) (b : DevId) (m m₁ m' : Machine) : Prop where
  count : 2 ≤ members.length ∧ members.length ≤ 8
  nodup : members.Nodup
  free : ∀ d ∈ members, (m.devs d).isMember = false ∧ (m.devs d).isArray = false
  striped : level = .raid0 → chunk ≠ 0 ∧ chunk.toNat ∣ smallest.toNat
  room : ∀ d ∈ members, (m.devs d).used ∧
    (metaSectors tailMeta).toNat + smallest.toNat ≤ (m.devs d).capacity.toNat
  pos : smallest ≠ 0
  fresh : (m.arrays a).used = false
  sized : (createdArray level chunk members tailMeta smallest uuid now).arraySectors ≠ 0
  started : Started a b
    (m.setArray a fun _ => createdArray level chunk members tailMeta smallest uuid now) m₁
  synced : Synced a m₁ m'

/-- A machine with `n` zeroed drives of one capacity and no array, on which every request is met. -/
def Machine.fresh (n : Nat) (capacity : UInt64) : Machine where
  devs := fun d => ⟨decide (d.val < n), [], false, false, capacity, fun _ => zeroSector⟩
  active := none
  arrays := fun _ => .blank
  io := fun _ => none
  tick := 0
  trace := []

def ArrayId.first : ArrayId :=
  ⟨0, by decide⟩

/-- Sectors a creation takes from each member, as the arguments and the devices give it. -/
def memberSectorsFor (devs : DevId → BlkDev) (level : Level) (chunkSectors : UInt32)
    (members : List DevId) (tailMeta : Bool) : Except Err UInt64 := do
  let chunk ← chunkFor level chunkSectors
  return mdRoundChunks (← smallestUsable devs tailMeta members 0) chunk

lemma chunkFor_ok {level : Level} (h : chunkFor level chunkSectors = .ok chunk)
    (hlevel : level = .raid0) : chunk ≠ 0 := by
  subst hlevel
  obtain ⟨_, -, h⟩ := bind_eq_ok.mp h
  cases h
  split
  · decide
  · assumption

lemma setArray_setArray (m : Machine) (a : ArrayId) (f g : MdArray → MdArray) :
    (m.setArray a f).setArray a g = m.setArray a fun arr => g (f arr) := by
  simp [Machine.setArray]

/-- What the arguments and the registry have to be for a creation to get to its superblocks. -/
structure Accepts (level chunkSectors : UInt32) (members : List DevId) (tailMeta : Bool)
    (m : Machine) : Prop where
  count : 2 ≤ members.length ∧ members.length ≤ maxMembers
  known : level = Level.raid0.code ∨ level = Level.raid1.code
  free : checkFree m.devs members = .ok ()
  sectors : ∃ smallest,
    memberSectorsFor m.devs (Level.ofCode level) chunkSectors members tailMeta = .ok smallest ∧
    smallest ≠ 0 ∧
      (Level.ofCode level = .raid0 → smallest * UInt64.ofNat members.length ≠ 0)
  array : freeArray m.arrays ≠ none
  device : freeSlot m.devs ≠ none

lemma create_ends (level chunkSectors : UInt32) (members : List DevId) (tailMeta : Bool)
    (uuid : Uuid) (now : UInt64) (m : Machine) :
    Ends (create level chunkSectors members tailMeta uuid now) m
      (fun a m' => ∃ chunk smallest b m₁,
        memberSectorsFor m.devs (Level.ofCode level) chunkSectors members tailMeta = .ok smallest ∧
        Created (Level.ofCode level) chunk members tailMeta uuid now smallest a b m m₁ m')
      fun _ m' => AsBefore m m' ↔ Spared members m ∨
          ¬ Accepts level chunkSectors members tailMeta m := by
  have refused {m' : Machine} (h : ¬ Accepts level chunkSectors members tailMeta m)
    (hm : AsBefore m m') :
      AsBefore m m' ↔ Spared members m ∨ ¬ Accepts level chunkSectors members tailMeta m :=
    ⟨fun _ => .inr h, fun _ => hm⟩
  refine .failIf_bind (fun hc => refused (fun h => ?_) (.refl m)) fun hcount => ?_
  · have := h.count
    simp only [Bool.or_eq_true, decide_eq_true_eq] at hc
    omega
  simp only [Bool.or_eq_false_iff, decide_eq_false_iff_not, Nat.not_lt] at hcount
  refine .failIf_bind (fun hc => refused (fun h => ?_) (.refl m)) fun hlevel => ?_
  · simp only [Bool.and_eq_true, bne_iff_ne] at hc
    exact h.known.elim hc.1 hc.2
  have hlevel : level = Level.raid0.code ∨ level = Level.raid1.code := by
    simpa [imp_iff_not_or] using hlevel
  refine .ofExcept_bind (fun e he => refused (fun h => ?_) (.refl m))
    fun chunk hchunk => .get_bind ?_
  · obtain ⟨_, hs, -⟩ := h.sectors
    obtain ⟨_, hchunk, -⟩ := bind_eq_ok.mp hs
    cases he.symm.trans hchunk
  refine .ofExcept_bind (fun e he => refused (fun h => ?_) (.refl m)) fun _ hfree => ?_
  · cases he.symm.trans h.free
  refine .ofExcept_bind (fun e he => refused (fun h => ?_) (.refl m)) fun s hs => ?_
  · obtain ⟨_, hs, -⟩ := h.sectors
    obtain ⟨_, -, hs⟩ := bind_eq_ok.mp hs
    obtain ⟨_, hs, -⟩ := bind_eq_ok.mp hs
    cases he.symm.trans hs
  generalize hsmallest : mdRoundChunks s chunk = smallest
  have hmembers :
      memberSectorsFor m.devs (Level.ofCode level) chunkSectors members tailMeta = .ok smallest :=
    bind_eq_ok.mpr ⟨chunk, hchunk, bind_eq_ok.mpr ⟨s, hs, congrArg _ hsmallest⟩⟩
  refine .failIf_bind (fun hc => refused (fun h => ?_) (.refl m)) fun hpos => .bind (.get_bind ?_)
  · obtain ⟨_, hs, hne, -⟩ := h.sectors
    cases hmembers.symm.trans hs
    exact hne (beq_iff_eq.mp hc)
  have hpos : smallest ≠ 0 := by simpa using hpos
  cases hslot : freeArray m.arrays with
  | none => exact refused (fun h => h.array hslot) (.refl m)
  | some a =>
    have hslot' := freeArray_eq_some hslot
    obtain ⟨hnodup, hspoken⟩ := checkFree_ok hfree
    refine modifyArray_bind (Ends.orThrow_bind (fun h => nomatch h) fun a' ha' => ?_)
    cases ha'
    apply modifyArray_bind
    rw [setArray_setArray]
    refine .attempt_bind ((startArray_ends a _).mono ?_ ?_)
    swap
    · rintro e m' ⟨hkept, hactive, hwhy⟩
      refine refused (fun h => ?_) (hkept.asBefore hactive hslot')
      rcases hwhy (by rw [arrays_setArray_self]; rfl) with ⟨hzero, -⟩ | ⟨-, hfull, -⟩
      · obtain ⟨_, hs, hne, hstripe⟩ := h.sectors
        cases hmembers.symm.trans hs
        rw [arrays_setArray_self] at hzero
        cases hl : Level.ofCode level with
        | raid0 => exact hstripe hl (by simpa [createdArray, hl] using hzero)
        | raid1 => exact hne (by simpa [createdArray, hl] using hzero)
      · exact h.device hfull
    rintro - m₁ ⟨b, hbslot, hsized, hstarted⟩
    rw [arrays_setArray_self] at hsized
    refine .call (createSupers_ends a _ m₁) ?_ ?_
    swap
    · rintro e m' ⟨m2, hsynced, rfl⟩
      have haccepts : Accepts level chunkSectors members tailMeta m := by
        refine ⟨hcount, hlevel, hfree, ⟨smallest, hmembers, hpos, fun hl hzero => hsized ?_⟩, by
          simp [hslot], ?_⟩
        · simpa [createdArray, hl] using hzero
        · rw [show freeSlot m.devs = some b from hbslot]
          exact Option.some_ne_none b
      rw [hstarted.undone_iff hsynced hslot' hcount.2 hbslot fun d hd => (hspoken d hd).1]
      exact (or_iff_left (not_not_intro haccepts)).symm
    rintro - m' hsynced
    obtain ⟨hround, hdvd⟩ := mdRoundChunks_toNat s chunk
    rw [hsmallest] at hround hdvd
    refine ⟨chunk, smallest, b, m₁, hmembers, hcount, hnodup, hspoken, fun hl => ?_, fun d hd => ?_,
      hpos, hslot', hsized, hstarted, hsynced⟩
    · have hne := chunkFor_ok hchunk hl
      exact ⟨hne, hdvd hne⟩
    · obtain ⟨hused, hroom⟩ := (smallestUsable_ok hs).2 d hd
      exact ⟨hused, by omega⟩

lemma create_ok {level : UInt32}
    (h : create level chunkSectors members tailMeta uuid now m = .ok a m') : ∃ chunk smallest b m₁,
      memberSectorsFor m.devs (Level.ofCode level) chunkSectors members tailMeta = .ok smallest ∧
      Created (Level.ofCode level) chunk members tailMeta uuid now smallest a b m m₁ m' := by
  exact (create_ends level chunkSectors members tailMeta uuid now m).of_ok h

/-- A creation that fails leaves everything as it was exactly if it did not get to the superblocks,
or a device is active that it does not touch. -/
theorem create_undone {level chunkSectors : UInt32} {members : List DevId} {tailMeta : Bool}
    {uuid : Uuid} {now : UInt64} {m : Machine}
    (hfail : (outcome (create level chunkSectors members tailMeta uuid now) m).isOk = false) :
    AsBefore m (final (create level chunkSectors members tailMeta uuid now) m) ↔
      Spared members m ∨ ¬ Accepts level chunkSectors members tailMeta m :=
  (create_ends level chunkSectors members tailMeta uuid now m).of_fails hfail

def failingDrives (active : Option DevId) : Machine :=
  { Machine.fresh 3 3000 with
    active := active
    io := fun t => if t = 0 then some ⟨.eio, fun _ => zeroSector⟩ else none }

def createPair : MdM ArrayId :=
  create Level.raid1.code 0 [0, 1] false Uuid.nil 0

/-- With a third drive active, a creation whose first write fails is undone. -/
theorem create_undone_third :
    AsBefore (failingDrives (some 2)) (final createPair (failingDrives (some 2))) :=
  (create_undone (by decide +kernel)).mpr (.inl ⟨2, rfl, by decide, by decide⟩)

/-- With no device active, or a member, the array becomes the active device, and the stop is
refused. -/
theorem create_leaves_array :
    Forall (fun active => (outcome createPair (failingDrives active)).isOk = false ∧
    ¬ AsBefore (failingDrives active) (final createPair (failingDrives active)))
    [none, some 0] := by
  rw [forall_iff_forall_mem]
  have hleft : ∀ active ∈ [none, some 0], (outcome createPair (failingDrives active)).isOk = false ∧
      ((final createPair (failingDrives active)).arrays .first).used = true := by decide +kernel
  intro active hmem
  obtain ⟨hfail, hused⟩ := hleft active hmem
  refine ⟨hfail, fun hsame => ?_⟩
  rcases hsame.arrays .first with he | ⟨-, he⟩
  all_goals exact absurd ((congrArg MdArray.used he).symm.trans hused) nofun

/-! ## An array that was just created -/

section Created

variable {level : Level} {a : ArrayId} {b : DevId} {m m' : Machine} {d : DevId}

variable (h : Created level chunk members tailMeta uuid now smallest a b m m₁ m')

include h

lemma Created.io : m'.io = m.io :=
  h.synced.io.trans h.started.io

lemma Created.array :
    m₁.arrays a = { createdArray level chunk members tailMeta smallest uuid now with
      bdev := some b, name := (m₁.devs b).name } := by
  have harr := h.started.array
  rwa [arrays_setArray_self] at harr

lemma Created.layout_array : (m'.layout a).array =
    { createdArray level chunk members tailMeta smallest uuid now with
      bdev := some b, name := (m₁.devs b).name }.still := by
  rw [h.synced.layout]
  exact congrArg MdArray.still h.array

lemma Created.size : (m'.layout a).size = members.length := by
  rw [Layout.size, h.layout_array]
  exact UInt32.toNat_ofNat_of_lt' (Nat.lt_of_le_of_lt h.count.2 (by decide))

lemma Created.dev (i : Nat) : (m'.layout a).dev i = members[i]? := by
  rw [Layout.dev, h.layout_array]
  show ((createdArray level chunk members tailMeta smallest uuid now).members i).dev = _
  rw [createdArray_dev]

lemma Created.sectors : (m'.layout a).sectors = smallest.toNat := by
  rw [Layout.sectors, h.layout_array]
  rfl

lemma Created.tail : (m'.layout a).array.tailMeta = tailMeta := by
  rw [h.layout_array]
  rfl

lemma Created.state (hi : i < (m'.layout a).size) : ((m'.arrays a).members i).state = .active := by
  rw [h.size] at hi
  rw [h.synced.state, h.array]
  rw [createdArray_member (getElem?_eq_getElem hi)]

lemma Created.member_ne (hd : d ∈ members) : d ≠ b := by
  rintro rfl
  have hused := (h.room d hd).1
  have hfresh : (m.devs d).used = false := h.started.fresh
  rw [hfresh] at hused
  cases hused

lemma Created.member_dev (hd : d ∈ members) : m₁.devs d = { m.devs d with isMember := true } := by
  rw [h.started.devs d (h.member_ne hd), if_pos]
  · rfl
  · rw [MdArray.holdsDev_iff, arrays_setArray_self]
    obtain ⟨i, hi, hget⟩ := mem_iff_getElem.mp hd
    refine ⟨i, ?_, ?_⟩
    · have hcount :
        (createdArray level chunk members tailMeta smallest uuid now).memberCount.toNat =
          members.length := UInt32.toNat_ofNat_of_lt' (Nat.lt_of_le_of_lt h.count.2 (by decide))
      rw [MdArray.slots, mem_range, hcount]
      exact hi
    · rw [createdArray_dev, getElem?_eq_getElem hi, hget]

lemma Created.laid : (m'.layout a).Laid := by
  refine ⟨?_, ?_, ?_, fun i hi d hd => ?_, fun i hi j hj d hdi hdj => ?_⟩
  · rw [h.layout_array]
    rfl
  · rw [h.size]
    have := h.count.1
    omega
  · rw [h.sectors]
    exact Nat.pos_of_ne_zero fun hz => h.pos (UInt64.toNat_inj.mp hz)
  · rw [h.dev] at hd
    have hmem : d ∈ members := mem_of_getElem? hd
    have hdev : (m'.layout a).devs d = { m.devs d with isMember := true }.still := by
      rw [h.synced.layout]
      exact congrArg BlkDev.still (h.member_dev hmem)
    obtain ⟨hused, hroom⟩ := h.room d hmem
    refine ⟨?_, ?_, ?_, ?_⟩
    · rw [hdev]
      exact hused
    · rw [hdev]
      rfl
    · rw [h.layout_array]
      show ((createdArray level chunk members tailMeta smallest uuid now).members i).dataOffset = _
      rw [createdArray_member hd]
      rfl
    · rw [Layout.offset, h.sectors, h.tail, Layout.capacity, hdev]
      show (dataOffsetFor tailMeta).toNat + smallest.toNat + _ ≤ (m.devs d).capacity.toNat
      unfold dataOffsetFor
      unfold metaSectors at hroom
      have hback : sbTailBack.toNat = 8 := rfl
      have hzero : (0 : UInt64).toNat = 0 := rfl
      cases tailMeta with
      | true =>
        simp only [if_true] at hroom ⊢
        omega
      | false =>
        simp only [Bool.false_eq_true, if_false] at hroom ⊢
        omega
  · rw [h.dev] at hdi hdj
    rw [h.size] at hi
    exact (getElem?_inj hi h.nodup).mp (hdi.trans hdj.symm)

end Created

end Anunix.Md
