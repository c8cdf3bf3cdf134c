import Anunix.Md.Assembly

/-!
# Scanning and starting arrays

What `anx_md_assemble` does when every request is met. A scan collects the superblocks of the
unclaimed drives, each from the first placement that holds a valid one (`scan_ends`). The groups of
one UUID are then started one after the other; as long as there are enough slots, the groups before
and after one do not get in its way (`assemble_starts`).
-/

namespace Anunix.Md
open Fallible Region List

variable {dev : BlkDev} {s : UInt64} {tail : Bool}

/-! ## Superblocks on a drive -/

namespace BlkDev

/-- The valid superblock a drive holds in a placement. -/
def superAt (dev : BlkDev) (tail : Bool) : Option MdSuper :=
  match superSector dev tail with
  | .error _ => none
  | .ok sector =>
    match (MdSuper.ofSector (dev.data sector.toNat)).check tail with
    | .error _ => none
    | .ok _ => some (MdSuper.ofSector (dev.data sector.toNat))

def found (dev : BlkDev) : Option MdSuper :=
  (dev.superAt false).or (dev.superAt true)

end BlkDev

lemma superSector_toNat (h : superSector dev tail = .ok s) : dev.used = true ∧
    match tail with
    | false => 2048 < dev.capacity.toNat ∧ s.toNat = 8
    | true => 8 < dev.capacity.toNat ∧ s.toNat = dev.capacity.toNat - 8 := by
  unfold superSector BlkDev.blkDevCapacity at h
  cases hused : dev.used with
  | false =>
    rw [hused] at h
    cases tail <;> cases h
  | true =>
    rw [hused] at h
    cases tail with
    | false =>
      simp only [Bool.not_false, if_true] at h
      split at h
      · cases h
      · rename_i hcap
        cases h
        exact ⟨rfl, Nat.lt_of_not_le hcap, rfl⟩
    | true =>
      simp only [Bool.not_true, Bool.false_eq_true, if_false, if_true, UInt64.le_iff_toNat_le] at h
      split at h
      · cases h
      · rename_i hcap
        cases h
        exact ⟨rfl, Nat.lt_of_not_le hcap,
          UInt64.toNat_sub_of_le _ _ (UInt64.le_iff_toNat_le.mpr (by omega))⟩

lemma superSector_lt (h : superSector dev tail = .ok s) :
    dev.used = true ∧ s.toNat + 1 ≤ dev.capacity.toNat := by
  obtain ⟨hused, hs⟩ := superSector_toNat h
  refine ⟨hused, ?_⟩
  cases tail <;> omega

lemma superSector_ne {s' : UInt64} (h : superSector dev false = .ok s)
    (h' : superSector dev true = .ok s') : s.toNat ≠ s'.toNat := by
  obtain ⟨-, hcap, hs⟩ := superSector_toNat h
  obtain ⟨-, -, hs'⟩ := superSector_toNat h'
  omega

/-! ## Reads that are met -/

def Machine.Calm (m : Machine) : Prop :=
  ∀ t, m.tick ≤ t → m.io t = none

/-- Drives were read and nothing else happened. -/
structure Looked (m m' : Machine) : Prop where
  devs : m'.devs = m.devs
  arrays : m'.arrays = m.arrays
  active : m'.active = m.active
  io : m'.io = m.io
  tick : m.tick ≤ m'.tick

section Scan

variable {m m' m'' : Machine}

lemma Looked.refl (m : Machine) : Looked m m :=
  ⟨rfl, rfl, rfl, rfl, Nat.le_refl _⟩

lemma Looked.trans (h : Looked m m') (h' : Looked m' m'') : Looked m m'' :=
  ⟨h'.devs.trans h.devs, h'.arrays.trans h.arrays, h'.active.trans h.active, h'.io.trans h.io,
    Nat.le_trans h.tick h'.tick⟩

lemma Looked.of_asked (m : Machine) (acc : Access) : Looked m (m.asked acc) := by
  unfold Machine.asked
  split
  · exact Looked.refl m
  · exact ⟨rfl, rfl, rfl, rfl, Nat.le_succ _⟩

lemma Looked.calm (h : Looked m m') (hm : m.Calm) : m'.Calm := by
  intro t ht
  rw [h.io]
  exact hm t (Nat.le_trans h.tick ht)

lemma superReadAt_ends (m : Machine) (d : DevId) (tail : Bool) : Ends (superReadAt d tail) m
      (fun sb m' => (m.devs d).superAt tail = some sb ∧ Looked m m')
      fun _ m' => (m.Calm → (m.devs d).superAt tail = none) ∧ Looked m m' := by
  refine getDev_bind (Ends.ofExcept_bind (fun e he => ?_) fun s hs => ?_)
  · rw [BlkDev.superAt, he]
    exact ⟨fun _ => rfl, Looked.refl m⟩
  obtain ⟨hused, hfit⟩ := superSector_lt hs
  refine .call (blkDevRead_ends hused hfit) ?_ ?_
  · rintro buf m1 ⟨rfl, hbuf, -⟩
    have hsector : buf.sectors.headD zeroSector = (m.devs d).data s.toNat := by
      rw [hbuf]
      rfl
    rw [hsector]
    refine .ofExcept_bind (fun e he => ?_) fun _ hok => ?_
    · rw [BlkDev.superAt, hs]
      dsimp only
      rw [he]
      exact ⟨fun _ => rfl, Looked.of_asked m _⟩
    · rw [BlkDev.superAt, hs]
      dsimp only
      rw [hok]
      exact ⟨rfl, Looked.of_asked m _⟩
  · rintro e m1 ⟨rfl, hfault⟩
    refine ⟨fun hm => ?_, rfl, rfl, rfl, rfl, Nat.le_succ _⟩
    rw [hm m.tick (Nat.le_refl _)] at hfault
    cases hfault

lemma superRead_ends (m : Machine) (d : DevId) : Ends (superRead d) m
      (fun sb m' => (∃ tail, (m.devs d).superAt tail = some sb) ∧
        (m.Calm → (m.devs d).found = some sb) ∧ Looked m m')
      fun _ m' => (m.Calm → (m.devs d).found = none) ∧ Looked m m' := by
  refine .attempt_bind ((superReadAt_ends m d false).mono ?_ ?_)
  · rintro sb m1 ⟨hsb, h1⟩
    refine ⟨⟨false, hsb⟩, fun _ => ?_, h1⟩
    rw [BlkDev.found, hsb]
    rfl
  · rintro e m1 ⟨hnone, h1⟩
    have hfound (hm : m.Calm) : (m.devs d).found = (m1.devs d).superAt true := by
      rw [BlkDev.found, hnone hm, h1.devs]
      rfl
    refine (superReadAt_ends m1 d true).mono (fun sb m2 h => ?_) fun e m2 h => ?_
    · exact ⟨⟨true, h1.devs ▸ h.1⟩, fun hm => (hfound hm).trans h.1, h1.trans h.2⟩
    · exact ⟨fun hm => (hfound hm).trans (h.1 (h1.calm hm)), h1.trans h.2⟩

def Machine.candidate (m : Machine) (d : DevId) : Option Candidate :=
  if !(m.devs d).used || (m.devs d).isMember || (m.devs d).isArray then none
  else (m.devs d).found.map (Candidate.mk d)

lemma Looked.candidate (h : Looked m m') : m'.candidate = m.candidate := by
  funext d
  rw [Machine.candidate, Machine.candidate, h.devs]

lemma scan_ends (m : Machine) (ds : List DevId) : Succeeds (scan ds) m
      fun l m' => (∀ c ∈ l, ∃ tail, (m.devs c.dev).superAt tail = some c.sb) ∧
        (m.Calm → l = ds.filterMap m.candidate) ∧ Looked m m' := by
  induction ds generalizing m with
  | nil => exact ⟨nofun, fun _ => rfl, Looked.refl m⟩
  | cons d ds ih =>
    apply getDev_bind
    split
    · rename_i hskip
      have hnone : m.candidate d = none := if_pos hskip
      rw [filterMap_cons_none hnone]
      exact ih m
    · rename_i hprobe
      have hcand : m.candidate d = (m.devs d).found.map (Candidate.mk d) := if_neg hprobe
      refine .attempt_bind ((superRead_ends m d).mono ?_ ?_)
      · rintro sb m1 ⟨hat, hsb, h1⟩
        refine .next (ih m1) ?_
        rintro l m2 ⟨hl, hcalm, h2⟩
        refine ⟨fun c hc => ?_, fun hm => ?_, h1.trans h2⟩
        · rcases mem_cons.mp hc with rfl | hc
          · exact hat
          · exact h1.devs ▸ hl c hc
        · rw [hsb hm] at hcand
          rw [filterMap_cons_some hcand, ← h1.candidate, hcalm (h1.calm hm)]
      · rintro e m1 ⟨hnone, h1⟩
        refine (ih m1).post fun l m2 h => ⟨h1.devs ▸ h.1, fun hm => ?_, h1.trans h.2.2⟩
        rw [hnone hm] at hcand
        rw [filterMap_cons_none hcand, ← h1.candidate]
        exact h.2.1 (h1.calm hm)

end Scan

/-! ## Starting the groups -/

def freeArrays (arrays : ArrayId → MdArray) : Nat :=
  (Finset.univ.filter fun a => (arrays a).used = false).card

def freeSlots (devs : DevId → BlkDev) : Nat :=
  (Finset.univ.filter fun d => (devs d).used = false).card

lemma find?_ne_none {n : Nat} (used : Fin n → Bool)
    (h : 0 < (Finset.univ.filter fun i => used i = false).card) :
    ((finRange n).find? fun i => !used i) ≠ none := by
  obtain ⟨i, hi⟩ := Finset.card_pos.mp h
  intro hnone
  have hused := find?_eq_none.mp hnone i (mem_finRange i)
  simp [(Finset.mem_filter.mp hi).2] at hused

lemma card_filter_le_succ {ι : Type} [Fintype ι] [DecidableEq ι] {p q : ι → Prop} [DecidablePred p]
    [DecidablePred q] {x : ι} (h : ∀ i, i ≠ x → p i → q i) :
    (Finset.univ.filter p).card ≤ (Finset.univ.filter q).card + 1 := by
  refine Nat.le_trans (Finset.card_le_card fun i hi => ?_) (Finset.card_insert_le x _)
  by_cases hx : i = x
  · subst hx
    exact Finset.mem_insert_self i _
  · exact Finset.mem_insert_of_mem (Finset.mem_filter.mpr
      ⟨Finset.mem_univ i, h i hx (Finset.mem_filter.mp hi).2⟩)

/-- Up to `n` arrays were started on devices that satisfy `P`. -/
structure Grown (P : DevId → Prop) (n : Nat) (m m' : Machine) : Prop where
  io : m'.io = m.io
  tick : m'.tick = m.tick
  devs : ∀ d, (m.devs d).used = true → ¬ P d → m'.devs d = m.devs d
  used : ∀ d, (m.devs d).used = true → (m'.devs d).used = true
  arrays : ∀ c, (m.arrays c).used = true → m'.arrays c = m.arrays c
  table : freeArrays m.arrays ≤ freeArrays m'.arrays + n
  registry : freeSlots m.devs ≤ freeSlots m'.devs + n

section Groups

variable {P P' : DevId → Prop} {n n' i fuel : Nat} {m m' m'' : Machine} {c : Candidate} {u : Uuid}
  {cs : List Candidate} {a : ArrayId} {arr : MdArray} {d : DevId}

lemma Grown.refl (P : DevId → Prop) (m : Machine) : Grown P 0 m m :=
  ⟨rfl, rfl, fun _ _ _ => rfl, fun _ h => h, fun _ _ => rfl, Nat.le_refl _, Nat.le_refl _⟩

lemma Grown.trans (h : Grown P n m m') (h' : Grown P n' m' m'') : Grown P (n + n') m m'' where
  io := h'.io.trans h.io
  tick := h'.tick.trans h.tick
  devs := fun d hd hP => (h'.devs d (h.used d hd) hP).trans (h.devs d hd hP)
  used := fun d hd => h'.used d (h.used d hd)
  arrays := by
    intro c hc
    have hsame := h.arrays c hc
    rw [← hsame] at hc
    exact (h'.arrays c hc).trans hsame
  table := by
    have := h.table
    have := h'.table
    omega
  registry := by
    have := h.registry
    have := h'.registry
    omega

lemma Grown.mono (h : Grown P n m m') (hP : ∀ d, P d → P' d) (hn : n ≤ n') : Grown P' n' m m' where
  io := h.io
  tick := h.tick
  devs := fun d hd hno => h.devs d hd fun hPd => hno (hP d hPd)
  used := h.used
  arrays := h.arrays
  table := Nat.le_trans h.table (Nat.add_le_add_left hn _)
  registry := Nat.le_trans h.registry (Nat.add_le_add_left hn _)

lemma Grown.of_kept (h : Kept a m m') (hfree : (m.arrays a).used = false)
    (hfree' : (m'.arrays a).used = false) : Grown P 0 m m' where
  io := h.io
  tick := h.tick
  devs := fun d _ _ => congrFun h.devs d
  used := fun d hd => h.devs ▸ hd
  arrays := by
    intro c hc
    refine h.others c fun hca => ?_
    rw [hca, hfree] at hc
    cases hc
  table := by
    refine Finset.card_le_card fun c hc => Finset.mem_filter.mpr ⟨Finset.mem_univ c, ?_⟩
    by_cases hca : c = a
    · exact hca ▸ hfree'
    · rw [h.others c hca]
      exact (Finset.mem_filter.mp hc).2
  registry := by
    rw [h.devs]
    exact Nat.le_refl _

lemma Grown.of_started {b : DevId} (hfree : (m.arrays a).used = false)
    (h : Started a b (m.setArray a fun _ => arr) m')
    (hdevs : ∀ i d, (arr.members i).dev = some d → P d) : Grown P 1 m m' := by
  have hfresh : (m.devs b).used = false := h.fresh
  have hne : ∀ d, (m.devs d).used = true → d ≠ b := by
    rintro d hd rfl
    rw [hfresh] at hd
    cases hd
  have hdev : ∀ d, d ≠ b → m'.devs d =
      if arr.holdsDev arr.slots d then { m.devs d with isMember := true } else m.devs d := by
    intro d hd
    have := h.devs d hd
    rwa [arrays_setArray_self] at this
  have hused : ∀ d, d ≠ b → (m'.devs d).used = (m.devs d).used := by
    intro d hd
    rw [hdev d hd]
    split <;> rfl
  refine ⟨h.io, h.tick, fun d hd hP => ?_, fun d hd => ?_, fun c hc => ?_, ?_, ?_⟩
  · rw [hdev d (hne d hd), if_neg]
    intro hholds
    obtain ⟨i, -, hi⟩ := MdArray.holdsDev_iff.mp hholds
    exact hP (hdevs i d hi)
  · rw [hused d (hne d hd)]
    exact hd
  · have hca : c ≠ a := by
      rintro rfl
      rw [hfree] at hc
      cases hc
    rw [h.others c hca, arrays_setArray_of_ne _ hca]
  · refine card_filter_le_succ (x := a) fun c hca hc => ?_
    rw [h.others c hca, arrays_setArray_of_ne _ hca]
    exact hc
  · refine card_filter_le_succ (x := b) fun d hd hu => ?_
    rw [hused d hd]
    exact hu

lemma place_dev (h : ((arr.place c).members i).dev = some d) :
    (arr.members i).dev = some d ∨ c.dev = d := by
  unfold MdArray.place at h
  dsimp only at h
  split at h
  · exact .inl h
  split at h
  · exact .inl h
  split at h
  · exact .inl h
  have hmem :
      ((arr.setMember c.sb.memberIndex.toNat fun _ => c.toMember).members i).dev = some d := by
    split at h
    · exact h
    · exact h
  by_cases hi : i = c.sb.memberIndex.toNat
  · rw [hi, members_setMember_self] at hmem
    injection hmem with hmem
    exact .inr hmem
  · rw [members_setMember_of_ne _ _ hi] at hmem
    exact .inl hmem

lemma gather_dev {ref : Candidate} {rest : List Candidate}
    (h : ((gather ref rest).members i).dev = some d) : ∃ c ∈ ref :: rest, c.dev = d := by
  have hfold : ∀ (l : List Candidate) arr,
      ((l.foldl MdArray.place arr).members i).dev = some d →
      (arr.members i).dev = some d ∨ ∃ c ∈ l, c.dev = d := by
    intro l
    induction l with
    | nil => exact fun arr => .inl
    | cons c l ih =>
      intro arr h
      rcases ih _ h with hplaced | ⟨c', hc', hd⟩
      · rcases place_dev hplaced with hold | hself
        · exact .inl hold
        · exact .inr ⟨c, mem_cons_self, hself⟩
      · exact .inr ⟨c', mem_cons_of_mem _ hc', hd⟩
  have hplaced : (((ref :: rest).foldl MdArray.place (arrayOf ref.sb)).members i).dev = some d := by
    unfold gather MdArray.dropStale at h
    dsimp only at h
    split at h
    · cases h
    · exact h
  rcases hfold _ _ hplaced with hblank | hmem
  · cases hblank
  · exact hmem

lemma assembleOne_grown (m : Machine) (ref : Candidate) (rest : List Candidate) :
    Leaves (assembleOne ref rest) m (Grown (fun d => ∃ c ∈ ref :: rest, c.dev = d) 1 m) := by
  refine (assembleOne_ends m ref rest).mono ?_ ?_
  · rintro a m' ⟨hfree, -, -, b, -, hstarted⟩
    exact .of_started (freeArray_eq_some hfree) hstarted fun i d => gather_dev
  · rintro e m' (⟨-, rfl, -⟩ | ⟨a, hfree, hkept, hfree', -⟩)
    · exact (Grown.refl _ m').mono (fun _ h => h) (Nat.zero_le 1)
    · exact (Grown.of_kept hkept (freeArray_eq_some hfree) hfree').mono (fun _ h => h)
        (Nat.zero_le 1)

def strangers (u : Uuid) (cs : List Candidate) : List Candidate :=
  cs.filter fun c => c.sb.uuid != u

def kin (u : Uuid) (cs : List Candidate) : List Candidate :=
  cs.filter fun c => c.sb.uuid == u

/-- The identifiers of the arrays that candidates claim to belong to. -/
def groups (cs : List Candidate) : Finset Uuid :=
  (cs.map fun c => c.sb.uuid).toFinset

lemma mem_groups : u ∈ groups cs ↔ ∃ c ∈ cs, c.sb.uuid = u := by
  simp [groups]

lemma length_strangers_le (u : Uuid) (cs : List Candidate) : (strangers u cs).length ≤ cs.length :=
  length_filter_le _ cs

lemma mem_strangers : c ∈ strangers u cs ↔ c ∈ cs ∧ c.sb.uuid ≠ u := by
  simp [strangers]

lemma mem_kin : c ∈ kin u cs ↔ c ∈ cs ∧ c.sb.uuid = u := by
  simp [kin]

lemma assembleGroups_cons {Q : List ArrayId → Machine → Prop} {E : Err → Machine → Prop}
    (h : Ends (assembleOne c ((kin c.sb.uuid cs).take (maxMembers - 1))) m
      (fun a m' => Ends (assembleGroups fuel (strangers c.sb.uuid cs)) m' (fun l => Q (a :: l)) E)
      fun _ m' => Ends (assembleGroups fuel (strangers c.sb.uuid cs)) m' Q E) :
    Ends (assembleGroups (fuel + 1) (c :: cs)) m Q E :=
  Ends.attempt_bind (h.post fun _ _ h => Ends.bind h)

lemma assembleGroups_grown (fuel : Nat) (cs : List Candidate) (m : Machine) :
    Succeeds (assembleGroups fuel cs) m fun _ m' =>
    Grown (fun d => ∃ c ∈ cs, c.dev = d) cs.length m m' := by
  induction fuel generalizing cs m with
  | zero => exact (Grown.refl _ m).mono (fun _ h => h) (Nat.zero_le _)
  | succ fuel ih =>
    cases cs with
    | nil => exact .refl _ m
    | cons c cs =>
      have hrest : ∀ m1,
        Grown (fun d => ∃ c' ∈ c :: (kin c.sb.uuid cs).take (maxMembers - 1), c'.dev = d) 1 m m1 →
          Succeeds (assembleGroups fuel (strangers c.sb.uuid cs)) m1
            fun _ m' => Grown (fun d => ∃ c' ∈ c :: cs, c'.dev = d) (c :: cs).length m m' := by
        intro m1 h1
        refine (ih _ m1).post fun _ m2 h2 => ?_
        have hfirst : Grown (fun d => ∃ c' ∈ c :: cs, c'.dev = d) 1 m m1 := by
          refine h1.mono ?_ (Nat.le_refl 1)
          rintro d ⟨c', hc', hd⟩
          rcases mem_cons.mp hc' with rfl | hc'
          · exact ⟨c', mem_cons_self, hd⟩
          · exact ⟨c', mem_cons_of_mem _ (mem_kin.mp (mem_of_mem_take hc')).1, hd⟩
        have hlater : Grown (fun d => ∃ c' ∈ c :: cs, c'.dev = d) cs.length m1 m2 := by
          refine h2.mono ?_ (length_strangers_le c.sb.uuid cs)
          rintro d ⟨c', hc', hd⟩
          exact ⟨c', mem_cons_of_mem _ (mem_strangers.mp hc').1, hd⟩
        rw [length_cons, Nat.add_comm]
        exact hfirst.trans hlater
      exact assembleGroups_cons ((assembleOne_grown m c _).mono (fun _ => hrest)
        fun _ => hrest)

/-- How the array of a UUID comes about: others may be started before and after it. -/
structure Begun (u : Uuid) (cs : List Candidate) (a : ArrayId) (m m' : Machine) : Prop where
  steps : ∃ b n n' m₁ m₂, Grown (fun d => ∃ c ∈ strangers u cs, c.dev = d) n m m₁ ∧
    (m₁.arrays a).used = false ∧ Started a b (m₁.setArray a fun _ => gathered (kin u cs)) m₂ ∧
    Grown (fun d => ∃ c ∈ strangers u cs, c.dev = d) n' m₂ m'

/-- A group that can run is started if there is a slot for each group of the strangers and one
more. -/
lemma kin_of_other (cs : List Candidate) (hc : c.sb.uuid ≠ u) :
    kin u (strangers c.sb.uuid cs) = kin u (c :: cs) := by
  rw [kin, kin, filter_cons_of_neg (by simp [hc]), strangers, filter_filter]
  apply filter_congr
  intro c' _
  by_cases hc' : c'.sb.uuid = u
  · simp [hc', Ne.symm hc]
  · simp [hc']

lemma strangers_subset : strangers u (strangers c.sb.uuid cs) ⊆ strangers u (c :: cs) := by
  intro c' hc'
  obtain ⟨hmem, hne⟩ := mem_strangers.mp hc'
  exact mem_strangers.mpr ⟨mem_cons_of_mem _ (mem_strangers.mp hmem).1, hne⟩

lemma card_groups_lt (cs : List Candidate) (hc : c.sb.uuid ≠ u) :
    (groups (strangers u (strangers c.sb.uuid cs))).card <
      (groups (strangers u (c :: cs))).card := by
  refine Finset.card_lt_card ((Finset.ssubset_iff_of_subset fun v hv => ?_).mpr
    ⟨c.sb.uuid, ?_, fun hv => ?_⟩)
  · obtain ⟨c', hc', rfl⟩ := mem_groups.mp hv
    exact mem_groups.mpr ⟨c', strangers_subset hc', rfl⟩
  · exact mem_groups.mpr ⟨c, mem_strangers.mpr ⟨mem_cons_self, hc⟩, rfl⟩
  · obtain ⟨c', hc', huuid⟩ := mem_groups.mp hv
    exact (mem_strangers.mp (mem_strangers.mp hc').1).2 huuid

lemma assembleGroups_starts (hfuel : cs.length ≤ fuel) (hkin : kin u cs ≠ [])
    (hgo : ¬ (gathered (kin u cs)).refused) (hpos : (gathered (kin u cs)).arraySectors ≠ 0)
    (htable : (groups (strangers u cs)).card < freeArrays m.arrays)
    (hregistry : (groups (strangers u cs)).card < freeSlots m.devs) :
    Succeeds (assembleGroups fuel cs) m fun l m' => ∃ a ∈ l, Begun u cs a m m' := by
  induction fuel generalizing cs m with
  | zero =>
    rw [length_eq_zero_iff.mp (Nat.le_zero.mp hfuel)] at hkin
    exact absurd rfl hkin
  | succ fuel ih =>
    cases cs with
    | nil => exact absurd rfl hkin
    | cons c cs =>
      apply assembleGroups_cons
      by_cases hc : c.sb.uuid = u
      · -- the group itself
        have hkin_eq : kin u (c :: cs) = c :: kin u cs := filter_cons_of_pos (by simp [hc])
        have hstrangers_eq : strangers u (c :: cs) = strangers u cs :=
          filter_cons_of_neg (by simp [hc])
        have hgather :
            gather c ((kin u cs).take (maxMembers - 1)) = gathered (kin u (c :: cs)) := by
          rw [hkin_eq]
          rfl
        rw [hc]
        refine (assembleOne_ends m c _).mono ?_ ?_
        · rintro a m2 ⟨hfree, -, -, b, -, hstarted⟩
          refine (assembleGroups_grown fuel _ m2).post fun l m' hgrown => ?_
          rw [hgather] at hstarted
          rw [← hstrangers_eq] at hgrown
          exact ⟨a, mem_cons_self, b, 0, _, m, m2, .refl _ m, freeArray_eq_some hfree, hstarted,
            hgrown⟩
        · rw [hgather]
          rintro e m2
            (⟨hnone, -, -⟩ | ⟨a, -, -, -, ⟨hrefused, -⟩ | ⟨-, ⟨hzero, -⟩ | ⟨-, hnone, -⟩⟩⟩)
          · exact absurd hnone
              (find?_ne_none (fun a => (m.arrays a).used) (Nat.zero_lt_of_lt htable))
          · exact absurd hrefused hgo
          · exact absurd hzero hpos
          · exact absurd hnone
              (find?_ne_none (fun d => (m.devs d).used) (Nat.zero_lt_of_lt hregistry))
      · -- another group takes a slot at most
        have hkin_eq := kin_of_other cs hc
        have hlen := card_groups_lt cs hc
        have hgroup : ∀ d, (∃ c' ∈ c :: (kin c.sb.uuid cs).take (maxMembers - 1), c'.dev = d) →
            ∃ c' ∈ strangers u (c :: cs), c'.dev = d := by
          rintro d ⟨c', hc', hd⟩
          refine ⟨c', ?_, hd⟩
          rcases mem_cons.mp hc' with rfl | hc'
          · exact mem_strangers.mpr ⟨mem_cons_self, hc⟩
          · obtain ⟨hmem, huuid⟩ := mem_kin.mp (mem_of_mem_take hc')
            exact mem_strangers.mpr ⟨mem_cons_of_mem _ hmem, huuid ▸ hc⟩
        have hnext :
          ∀ m1, Grown (fun d => ∃ c' ∈ c :: (kin c.sb.uuid cs).take (maxMembers - 1), c'.dev = d) 1
            m m1 → Succeeds (assembleGroups fuel (strangers c.sb.uuid cs)) m1
              fun l m' => ∃ a ∈ l, Begun u (c :: cs) a m m' := by
          intro m1 h1
          have hfirst := h1.mono hgroup (Nat.le_refl 1)
          have hshort : (strangers c.sb.uuid cs).length ≤ fuel :=
            Nat.le_trans (length_strangers_le _ cs) (Nat.le_of_succ_le_succ hfuel)
          have htable1 := hfirst.table
          have hregistry1 := hfirst.registry
          refine (ih hshort (hkin_eq ▸ hkin) (hkin_eq ▸ hgo) (hkin_eq ▸ hpos) (by omega)
            (by omega)).mono ?_ fun _ _ h => h
          rintro l m' ⟨a, ha, b, n, n', m2, m3, h2, hfree, hstarted, h3⟩
          have hwide : ∀ d, (∃ c' ∈ strangers u (strangers c.sb.uuid cs), c'.dev = d) →
              ∃ c' ∈ strangers u (c :: cs), c'.dev = d :=
            fun d ⟨c', hc', hd⟩ => ⟨c', strangers_subset hc', hd⟩
          rw [hkin_eq] at hstarted
          exact ⟨a, ha, b, _, n', m2, m3, hfirst.trans (h2.mono hwide (Nat.le_refl n)), hfree,
            hstarted, h3.mono hwide (Nat.le_refl n')⟩
        refine (assembleOne_grown m c _).mono (fun a m1 h1 => ?_) fun _ => hnext
        refine (hnext m1 h1).post ?_
        rintro l m' ⟨a', ha', hbegun⟩
        exact ⟨a', mem_cons_of_mem _ ha', hbegun⟩

def Machine.candidates (m : Machine) : List Candidate :=
  (finRange 32).filterMap m.candidate

lemma assemble_starts (hm : m.Calm) (hkin : kin u m.candidates ≠ [])
    (hgo : ¬ (gathered (kin u m.candidates)).refused)
    (hpos : (gathered (kin u m.candidates)).arraySectors ≠ 0)
    (htable : (groups (strangers u m.candidates)).card < freeArrays m.arrays)
    (hregistry : (groups (strangers u m.candidates)).card < freeSlots m.devs) :
    Succeeds assemble m fun l m' => ∃ a ∈ l, ∃ m0, Looked m m0 ∧ Begun u m.candidates a m0 m' := by
  refine .next (scan_ends m _) ?_
  rintro cs m0 ⟨-, hcs, h0⟩
  obtain rfl := hcs hm
  rw [← h0.arrays] at htable
  rw [← h0.devs] at hregistry
  refine (assembleGroups_starts (Nat.le_refl _) hkin hgo hpos htable hregistry).post ?_
  rintro l m' ⟨a, ha, hbegun⟩
  exact ⟨a, ha, m0, h0, hbegun⟩

end Groups

end Anunix.Md
