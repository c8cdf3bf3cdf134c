import Anunix.Md.Raid0
import Anunix.Md.Runs
import Anunix.Md.Stop

/-!
# Stopping an array and assembling it again

After a stop, a scan finds the superblock of every member, unless the superblocks are at the tail
and something that passes for a head superblock is in the way. The array that is started then reads
as the one that was stopped.
-/

namespace Anunix.Md
open Fallible Region List

/-! ## What a scan finds after a stop -/

/-- An array that can be found again after a stop: it is on drives only and registered as `b`, no
member has something in sector 8 that is taken for a head superblock when the array's are at the
tail, and no other drive claims to be part of the array. -/
structure Findable (a : ArrayId) (b : DevId) (m : Machine) : Prop where
  laid : (m.layout a).Laid
  short : (m.layout a).size ≤ maxMembers
  full : ∀ i < (m.layout a).size, ∃ d, (m.layout a).dev i = some d
  state : ∀ i < (m.layout a).size, ((m.arrays a).members i).state = .active ∨
    ((m.arrays a).members i).state = .faulty
  drives : ∀ d, (m.layout a).Holds d → (m.devs d).isArray = false
  registered : (m.arrays a).bdev = some b ∧ (m.devs b).used = true ∧ (m.devs b).isArray = true
  head : (m.arrays a).tailMeta = true → ∀ d, (m.layout a).Holds d → (m.devs d).superAt false = none
  alien : ∀ c ∈ m.candidates, c.sb.uuid ≠ (m.arrays a).uuid

variable {a : ArrayId} {b : DevId} {m m' : Machine} {i : Nat}

section Found

variable {d : DevId}

lemma candidate_dev {c : Candidate} (h : m.candidate d = some c) : c.dev = d := by
  unfold Machine.candidate at h
  split at h
  · cases h
  · obtain ⟨sb, -, rfl⟩ := Option.map_eq_some_iff.mp h
    rfl

lemma Findable.not_holds (h : Findable a b m) : ¬ (m.layout a).Holds b := by
  intro hholds
  have := h.drives b hholds
  rw [h.registered.2.2] at this
  cases this

section

variable (h : Stopped a b m m')
include h

lemma Stopped.sector (hd : (m.layout a).Holds d) (tail : Bool) :
    superSector (m'.devs d) tail = superSector (m.devs d) tail := by
  have hsector : superSector (m'.devs d).still tail = superSector (m.devs d).still tail := by
    rw [h.member d hd]
    rfl
  exact hsector

lemma Stopped.superAt (hf : Findable a b m) (hi : i < (m.layout a).size)
    (hd : (m.layout a).dev i = some d) :
    (m'.devs d).superAt (m.arrays a).tailMeta = some ((m.arrays a).counted.superOf i) := by
  obtain ⟨s, hs⟩ := hf.laid.superSector hi hd
  have hvalid : ((m.arrays a).counted.superOf i).Valid (m.arrays a).counted.tailMeta :=
    MdArray.superOf_valid hf.short hi
  have hsector : superSector (m'.devs d) (m.arrays a).tailMeta = .ok s :=
    (h.sector ⟨i, hi, hd⟩ _).trans hs
  have hcheck : MdSuper.check (m.arrays a).tailMeta _ = _ := MdSuper.check_eq_ok.mpr hvalid
  rw [BlkDev.superAt, hsector]
  dsimp only
  rw [h.supers i hi d hd s hs, MdSuper.ofSector_toSector, hcheck]

/-- A tail superblock is too far back to be in the way of a head one. -/
lemma Stopped.superAt_head (hd : (m.layout a).Holds d) (htail : (m.arrays a).tailMeta = true) :
    (m'.devs d).superAt false = (m.devs d).superAt false := by
  unfold BlkDev.superAt
  rw [h.sector hd]
  cases hs : superSector (m.devs d) false with
  | error e => rfl
  | ok s =>
    have hdata : (m'.devs d).data s.toNat = (m.devs d).data s.toNat := by
      refine h.data d hd _ (fun hback => ?_) s.toNat_lt
      have hback : superSector (m.devs d) (m.arrays a).tailMeta = .ok (UInt64.ofNat s.toNat) :=
        hback
      rw [htail, UInt64.ofNat_toNat] at hback
      exact superSector_ne hs hback rfl
    dsimp only
    rw [hdata]

lemma Stopped.candidate_member (hf : Findable a b m) (hi : i < (m.layout a).size)
    (hd : (m.layout a).dev i = some d) :
    m'.candidate d = some ⟨d, (m.arrays a).counted.superOf i⟩ := by
  have hholds : (m.layout a).Holds d := ⟨i, hi, hd⟩
  have hstill := h.member d hholds
  have hused : (m'.devs d).used = true :=
    (congrArg BlkDev.used hstill).trans (hf.laid.member i hi d hd).1
  have hfree : (m'.devs d).isMember = false := congrArg BlkDev.isMember hstill
  have hdrive : (m'.devs d).isArray = false :=
    (congrArg BlkDev.isArray hstill).trans (hf.drives d hholds)
  have hfound : (m'.devs d).found = some ((m.arrays a).counted.superOf i) := by
    have hat := h.superAt hf hi hd
    cases htail : (m.arrays a).tailMeta with
    | false =>
      rw [htail] at hat
      rw [BlkDev.found, hat]
      rfl
    | true =>
      rw [htail] at hat
      rw [BlkDev.found, h.superAt_head hholds htail, hf.head htail d hholds, hat]
      rfl
  rw [Machine.candidate, hused, hfree, hdrive, hfound]
  rfl

lemma Stopped.candidate_other (hf : Findable a b m) (hd : ¬ (m.layout a).Holds d) :
    m'.candidate d = m.candidate d := by
  by_cases hb : d = b
  · subst hb
    rw [Machine.candidate, Machine.candidate, h.bdev, hf.registered.2.2]
    simp
  · rw [Machine.candidate, Machine.candidate, h.others d hb hd]

end

lemma Findable.candidate_member (hf : Findable a b m) (hd : (m.layout a).Holds d) :
    m.candidate d = none := by
  obtain ⟨i, hi, hdev⟩ := hd
  have hmember : (m.devs d).isMember = true := (hf.laid.member i hi d hdev).2.1
  rw [Machine.candidate, hmember]
  simp

lemma Stopped.kin_strangers (h : Stopped a b m m') (hf : Findable a b m) :
    (∀ c, c ∈ kin (m.arrays a).uuid m'.candidates ↔ ∃ i < (m.layout a).size,
      (m.layout a).dev i = some c.dev ∧ c.sb = (m.arrays a).counted.superOf i) ∧
    strangers (m.arrays a).uuid m'.candidates = m.candidates := by
  have hmem : ∀ {x : Machine} {c : Candidate}, c ∈ x.candidates ↔ ∃ d, x.candidate d = some c := by
    simp [Machine.candidates]
  constructor
  · intro c
    rw [mem_kin, hmem]
    constructor
    · rintro ⟨⟨d, hd⟩, huuid⟩
      by_cases hholds : (m.layout a).Holds d
      · obtain ⟨i, hi, hdev⟩ := hholds
        rw [h.candidate_member hf hi hdev] at hd
        cases hd
        exact ⟨i, hi, hdev, rfl⟩
      · rw [h.candidate_other hf hholds] at hd
        exact absurd huuid (hf.alien c (hmem.mpr ⟨d, hd⟩))
    · rintro ⟨i, hi, hdev, hsb⟩
      refine ⟨⟨c.dev, ?_⟩, ?_⟩
      · rw [h.candidate_member hf hi hdev, ← hsb]
      · rw [hsb]
        rfl
  · rw [strangers, Machine.candidates, filter_filterMap]
    apply filterMap_congr
    intro d _
    by_cases hholds : (m.layout a).Holds d
    · rw [hf.candidate_member hholds]
      obtain ⟨i, hi, hdev⟩ := hholds
      rw [h.candidate_member hf hi hdev]
      have huuid : ((m.arrays a).counted.superOf i).uuid = (m.arrays a).uuid := rfl
      exact if_neg (by simp [huuid])
    · rw [h.candidate_other hf hholds]
      cases hc : m.candidate d with
      | none => rfl
      | some c => exact Option.filter_some_pos (by simpa using hf.alien c (hmem.mpr ⟨d, hc⟩))

lemma Stopped.remembered (h : Stopped a b m m') (hf : Findable a b m) :
    Remembered (m.arrays a).counted (kin (m.arrays a).uuid m'.candidates) := by
  have hmem := (h.kin_strangers hf).1
  refine ⟨hmem, ?_, hf.laid.pos, hf.short, hf.full, hf.state⟩
  -- every candidate is the one of its slot
  have hnodup : m'.candidates.Nodup := by
    refine List.Nodup.filterMap (fun d d' c hd hd' => ?_) (nodup_finRange 32)
    exact (candidate_dev hd).symm.trans (candidate_dev hd')
  have hsub : kin (m.arrays a).uuid m'.candidates ⊆ (range (m.layout a).size).filterMap fun i =>
      ((m.layout a).dev i).map fun d => ⟨d, (m.arrays a).counted.superOf i⟩ := by
    intro c hc
    obtain ⟨i, hi, hdev, hsb⟩ := (hmem c).mp hc
    refine mem_filterMap.mpr ⟨i, mem_range.mpr hi, ?_⟩
    rw [hdev, Option.map_some, ← hsb]
  have hlen := (subperm_of_subset (hnodup.filter _) hsub).length_le
  have hrange := length_filterMap_le (fun i => ((m.layout a).dev i).map fun d =>
    (⟨d, (m.arrays a).counted.superOf i⟩ : Candidate)) (range (m.layout a).size)
  rw [length_range] at hrange
  exact Nat.le_trans hlen (Nat.le_trans hrange hf.short)

lemma card_filter_succ_le {ι : Type} [Fintype ι] [DecidableEq ι] {p q : ι → Prop} [DecidablePred p]
    [DecidablePred q] {x : ι} (hp : ¬ p x) (hq : q x) (h : ∀ i, i ≠ x → p i → q i) :
    (Finset.univ.filter p).card + 1 ≤ (Finset.univ.filter q).card := by
  have hsub : Finset.univ.filter p ⊆ Finset.univ.filter q :=
    Finset.monotone_filter_right _ fun i _ hi => h i (fun hx => hp (hx ▸ hi)) hi
  exact Finset.card_lt_card
    ((Finset.ssubset_iff_of_subset hsub).mpr ⟨x, by simp [hq], by simp [hp]⟩)

section

variable (h : Stopped a b m m') (hf : Findable a b m)
include h hf

lemma Stopped.table : freeArrays m.arrays + 1 ≤ freeArrays m'.arrays := by
  have hused : (m.arrays a).used = true := hf.laid.used
  refine card_filter_succ_le (by simp [hused]) h.array fun c hc hfree => ?_
  rw [h.arrays c hc]
  exact hfree

lemma Stopped.registry : freeSlots m.devs + 1 ≤ freeSlots m'.devs := by
  refine card_filter_succ_le (by simp [hf.registered.2.1]) h.bdev fun d hd hfree => ?_
  have hno : ¬ (m.layout a).Holds d := by
    rintro ⟨i, hi, hdev⟩
    have hused : (m.devs d).used = true := (hf.laid.member i hi d hdev).1
    rw [hfree] at hused
    cases hused
  rw [h.others d hd hno]
  exact hfree

lemma Stopped.data_area (hi : i < (m.layout a).size)
    (hd : (m.layout a).dev i = some d) {k : Nat} (hk : k < (m.layout a).sectors) :
    (m'.devs d).data ((m.layout a).offset + k) = (m.devs d).data ((m.layout a).offset + k) := by
  have hcap := hf.laid.fits hi hd
  have hlt : (m.layout a).offset + k < 2 ^ 64 :=
    Nat.lt_of_lt_of_le (Nat.add_lt_add_left hk _)
      (Nat.le_trans hcap (Nat.le_of_lt (UInt64.toNat_lt _)))
  refine h.data d ⟨i, hi, hd⟩ _ (fun hsuper => ?_) hlt
  have hacc : (m.layout a).IsSuper ⟨d, UInt64.ofNat ((m.layout a).offset + k), 1, true⟩ :=
    ⟨rfl, rfl, i, hi, hd, hsuper⟩
  refine hf.laid.not_covers_data hacc hk ⟨rfl, ?_, ?_⟩
  · rw [UInt64.toNat_ofNat_of_lt' hlt]
  · rw [UInt64.toNat_ofNat_of_lt' hlt]
    exact Nat.lt_succ_self _

end

end Found

/-! ## The array that is started -/

/-- The header and the members of an array are those of another one, less the members that
failed. -/
structure SameArray (a a' : ArrayId) (m m' : Machine) : Prop where
  uuid : (m'.arrays a').uuid = (m.arrays a).uuid
  level : (m'.arrays a').level = (m.arrays a).level
  chunk : (m'.arrays a').chunkSectors = (m.arrays a).chunkSectors
  count : (m'.arrays a').memberCount = (m.arrays a).memberCount
  memberSectors : (m'.arrays a').memberSectors = (m.arrays a).memberSectors
  arraySectors : (m'.arrays a').arraySectors = (m.arrays a).arraySectors
  tailMeta : (m'.arrays a').tailMeta = (m.arrays a).tailMeta
  active : ∀ i < (m.layout a).size, ((m.arrays a).members i).state = .active →
    ((m'.arrays a').members i).dev = ((m.arrays a).members i).dev ∧
    ((m'.arrays a').members i).dataOffset = ((m.arrays a).members i).dataOffset ∧
    ((m'.arrays a').members i).state = .active
  faulty : ∀ i < (m.layout a).size, ((m.arrays a).members i).state = .faulty →
    ((m'.arrays a').members i).dev = none

/-- An array started from the superblocks of another one, which was stopped. -/
structure Reborn (a a' : ArrayId) (m m' : Machine) : Prop extends SameArray a a' m m' where
  calm : m'.Calm
  used : (m'.arrays a').used = true
  cursor : (m'.arrays a').readCursor = 0
  devs : ∀ i < (m.layout a).size, ((m.arrays a).members i).state = .active → ∀ d,
    (m.layout a).dev i = some d → (m'.devs d).still = (m.devs d).still ∧
      ∀ k < (m.layout a).sectors,
        (m'.devs d).data ((m.layout a).offset + k) = (m.devs d).data ((m.layout a).offset + k)

section Reborn

variable {a' : ArrayId} {m'' : Machine}

/-- There are slots for the arrays that the unclaimed drives belong to. -/
structure Roomy (m : Machine) : Prop where
  table : (groups m.candidates).card ≤ freeArrays m.arrays
  registry : (groups m.candidates).card ≤ freeSlots m.devs

lemma Stopped.reborn (h : Stopped a b m m') (hf : Findable a b m) (hm : m.Calm)
    (hsized : (m.arrays a).arraySectors ≠ 0)
    (hlive : ∃ i < (m.layout a).size, ((m.arrays a).members i).state = .active)
    (hstripe : (m.arrays a).level = .raid0 →
      ∀ i < (m.layout a).size, ((m.arrays a).members i).state = .active) (hroom : Roomy m) :
    Succeeds assemble m' fun l m'' => ∃ a' ∈ l, Reborn a a' m m'' := by
  have hcalm : m'.Calm := by
    intro t ht
    rw [h.io]
    exact hm t (Nat.le_trans h.tick ht)
  have hrem := h.remembered hf
  have hstrangers := (h.kin_strangers hf).2
  obtain ⟨hcount, hlevel, hsectors⟩ := hrem.described.geometry
  obtain ⟨huuid, hchunk, hmember, htail, hcursor⟩ := hrem.header
  have htable := h.table hf
  have hregistry := h.registry hf
  have hlen := hroom.table
  have hlen' := hroom.registry
  refine (assemble_starts hcalm hrem.nonempty (hrem.starts hlive hstripe) ?_ ?_ ?_).post ?_
  · rw [hsectors]
    exact hsized
  · rw [hstrangers]
    omega
  · rw [hstrangers]
    omega
  rintro l m4 ⟨a', ha', m0, hlooked, b', n, n', m₁, m₂, hbefore, hfree, hstarted, hafter⟩
  rw [hstrangers] at hbefore hafter
  have hused : (gathered (kin (m.arrays a).uuid m'.candidates)).used = true := by
    cases hkin : kin (m.arrays a).uuid m'.candidates with
    | nil => exact absurd hkin hrem.nonempty
    | cons c cs => exact gather_used c _
  have harr : m4.arrays a' = { gathered (kin (m.arrays a).uuid m'.candidates) with
      bdev := some b', name := (m₂.devs b').name } := by
    have harr2 := hstarted.array
    rw [arrays_setArray_self] at harr2
    rw [← harr2]
    apply hafter.arrays
    rw [harr2]
    exact hused
  have hsame : SameArray a a' m m4 := by
    constructor
    all_goals rw [harr]
    case active =>
      intro i hi hactive
      rw [(hrem.member hi).1 hactive]
      exact ⟨rfl, rfl, hactive⟩
    exacts [huuid, hlevel.trans (Level.ofCode_code _), hchunk, hcount, hmember, hsectors, htail,
      fun i hi => (hrem.member hi).2]
  refine ⟨a', ha', hsame, fun t ht => ?_, harr ▸ hused, harr ▸ hcursor, fun i hi hactive d hd => ?_⟩
  · have hio : m4.io = m'.io := hafter.io.trans (hstarted.io.trans (hbefore.io.trans hlooked.io))
    have htick : m'.tick ≤ m4.tick := by
      rw [hafter.tick, hstarted.tick]
      show _ ≤ m₁.tick
      rw [hbefore.tick]
      exact hlooked.tick
    rw [hio]
    exact hcalm t (Nat.le_trans htick ht)
  · -- no other group has the drive, and the array claims it
    have hno : ¬ ∃ c ∈ m.candidates, c.dev = d := by
      rintro ⟨c, hc, hcd⟩
      obtain ⟨d', -, hd'⟩ := mem_filterMap.mp hc
      have hdd : d' = d := (candidate_dev hd').symm.trans hcd
      rw [hdd, hf.candidate_member ⟨i, hi, hd⟩] at hd'
      cases hd'
    have hstill := h.member d ⟨i, hi, hd⟩
    have hused' : (m'.devs d).used = true :=
      (congrArg BlkDev.used hstill).trans (hf.laid.member i hi d hd).1
    have hdev1 : m₁.devs d = m'.devs d := by
      have hsame := hbefore.devs d (by rw [hlooked.devs]; exact hused') hno
      rw [hsame, hlooked.devs]
    have hne : d ≠ b' := by
      rintro rfl
      have hfresh : (m₁.devs d).used = false := hstarted.fresh
      rw [hdev1, hused'] at hfresh
      cases hfresh
    have hdev2 : m₂.devs d = { m'.devs d with isMember := true } := by
      rw [hstarted.devs d hne, arrays_setArray_self, if_pos]
      · rw [← hdev1]
        rfl
      · rw [MdArray.holdsDev_iff]
        refine ⟨i, ?_, ?_⟩
        · rw [MdArray.slots, mem_range, hcount]
          exact hi
        · rw [(hrem.member hi).1 hactive]
          exact hd
    have hdev4 : m4.devs d = { m'.devs d with isMember := true } := by
      rw [← hdev2]
      refine hafter.devs d ?_ hno
      rw [hdev2]
      exact hused'
    rw [hdev4]
    refine ⟨?_, fun k => h.data_area hf hi hd⟩
    have hclaimed : (m.devs d).isMember = true := (hf.laid.member i hi d hd).2.1
    show { (m'.devs d).still with isMember := true } = _
    rw [hstill, ← hclaimed]
    rfl

section

variable (h : Reborn a a' m m')
include h

lemma Reborn.size : (m'.layout a').size = (m.layout a).size :=
  congrArg UInt32.toNat h.count

lemma Reborn.sectors : (m'.layout a').sectors = (m.layout a).sectors :=
  congrArg UInt64.toNat h.memberSectors

lemma Reborn.offset : (m'.layout a').offset = (m.layout a).offset :=
  congrArg (fun tail => (dataOffsetFor tail).toNat) h.tailMeta

lemma Reborn.of_dev (hf : Findable a b m) {d : DevId} (hi : i < (m.layout a).size)
    (hd : (m'.layout a').dev i = some d) :
    ((m.arrays a).members i).state = .active ∧ (m.layout a).dev i = some d := by
  rcases hf.state i hi with hactive | hfaulty
  · refine ⟨hactive, ?_⟩
    exact (h.active i hi hactive).1.symm.trans hd
  · have hnone : (m'.layout a').dev i = none := h.faulty i hi hfaulty
    rw [hnone] at hd
    cases hd

lemma Reborn.laid (hf : Findable a b m) : (m'.layout a').Laid := by
  refine ⟨h.used, ?_, ?_, fun i hi d hd => ?_, fun i hi j hj d hdi hdj => ?_⟩
  · rw [h.size]
    exact hf.laid.pos
  · rw [h.sectors]
    exact hf.laid.room
  · rw [h.size] at hi
    obtain ⟨hactive, hd⟩ := h.of_dev hf hi hd
    obtain ⟨hused, hmember, hoff, hroom⟩ := hf.laid.member i hi d hd
    have hstill : (m'.layout a').devs d = (m.layout a).devs d := (h.devs i hi hactive d hd).1
    have htail : (m'.layout a').array.tailMeta = (m.layout a).array.tailMeta := h.tailMeta
    rw [Layout.capacity, hstill, h.offset, h.sectors, htail]
    exact ⟨hused, hmember, (h.active i hi hactive).2.1.trans hoff, hroom⟩
  · rw [h.size] at hi hj
    exact hf.laid.distinct i hi j hj d (h.of_dev hf hi hdi).2 (h.of_dev hf hj hdj).2

end

end Reborn

/-! ## Reads of a mirror -/

def MdArray.pick (arr : MdArray) (tries : List Nat) : Option Nat :=
  (tries.map arr.readIndex).find? arr.raid1Readable

def Machine.turned (m : Machine) (a : ArrayId) (i : Nat) (acc : Access) : Machine :=
  (m.asked acc).setArray a fun arr =>
    { arr with readCursor := (UInt32.ofNat i + 1) % arr.memberCount }

section Mirror

variable {a' : ArrayId} {lba : UInt64} {count : UInt32}

lemma raid1ReadEach_calm (hm : m.Calm) (hlaid : (m.layout a).Laid)
    (hfit : lba.toNat + count.toNat ≤ (m.layout a).sectors) (tries : List Nat) (last : Err) :
    Ends (raid1ReadEach a lba count tries last) m
      (fun buf m' => ∃ i d, (m.arrays a).pick tries = some i ∧ (m.layout a).dev i = some d ∧
        buf.sectors = load (m.devs d).data ((m.layout a).offset + lba.toNat) count.toNat ∧
        m' = m.turned a i ((m.layout a).access d lba count false))
      fun e m' => (m.arrays a).pick tries = none ∧ e = last ∧ m' = m := by
  induction tries with
  | nil => exact ⟨rfl, rfl, rfl⟩
  | cons tried rest ih =>
    apply getArray_bind
    dsimp only
    have hidx := readIndex_lt hlaid tried
    have hcons : (m.arrays a).pick (tried :: rest) =
        if (m.arrays a).raid1Readable ((m.arrays a).readIndex tried) then
          some ((m.arrays a).readIndex tried) else (m.arrays a).pick rest := by
      rw [MdArray.pick, map_cons, find?_cons]
      split
      · rename_i hread
        rw [if_pos hread]
      · rename_i hread
        rw [hread]
        rfl
    rw [hcons]
    generalize (m.arrays a).readIndex tried = idx at hidx ⊢
    cases hread : (m.arrays a).raid1Readable idx with
    | false => exact ih
    | true =>
      have hactive : ((m.arrays a).members idx).dev.isSome = true ∧
          ((m.arrays a).members idx).state = .active := by
        simpa [MdArray.raid1Readable] using hread
      refine .attempt_bind ((memberRead_ends hlaid hidx hfit).mono ?_ ?_)
      · rintro buf m₁ ⟨d, hd, -, rfl, hbuf, -⟩
        exact ⟨idx, d, rfl, hd, hbuf, rfl⟩
      · rintro e m₁ (⟨-, hnone | hfaulty⟩ | ⟨d, -, -, -, hfault⟩)
        · have hnone : ((m.arrays a).members idx).dev = none := hnone
          rw [hnone] at hactive
          cases hactive.1
        · rw [hactive.2] at hfaulty
          cases hfaulty
        · rw [hm m.tick (Nat.le_refl _)] at hfault
          cases hfault

structure Alike (a a' : ArrayId) (m m' : Machine) : Prop where
  calm : m.Calm ∧ m'.Calm
  laid : (m.layout a).Laid ∧ (m'.layout a').Laid
  level : (m.arrays a).level = .raid1 ∧ (m'.arrays a').level = .raid1
  whole : (m.arrays a).arraySectors = (m.arrays a).memberSectors
  count : (m'.arrays a').memberCount = (m.arrays a).memberCount
  memberSectors : (m'.arrays a').memberSectors = (m.arrays a).memberSectors
  arraySectors : (m'.arrays a').arraySectors = (m.arrays a).arraySectors
  cursor : (m'.arrays a').readCursor = (m.arrays a).readCursor
  readable : ∀ i < (m.layout a).size, (m'.arrays a').raid1Readable i = (m.arrays a).raid1Readable i
  data : ∀ i < (m.layout a).size, (m.arrays a).raid1Readable i = true → ∀ d d',
    (m.layout a).dev i = some d → (m'.layout a').dev i = some d' → ∀ k < (m.layout a).sectors,
      (m'.devs d').data ((m'.layout a').offset + k) = (m.devs d).data ((m.layout a).offset + k)

lemma Alike.pick (h : Alike a a' m m') (tries : List Nat) :
    (m'.arrays a').pick tries = (m.arrays a).pick tries := by
  have hindex : (m'.arrays a').readIndex = (m.arrays a).readIndex := by
    funext tried
    rw [MdArray.readIndex, MdArray.readIndex, h.cursor, h.count]
  rw [MdArray.pick, MdArray.pick, hindex]
  induction tries with
  | nil => rfl
  | cons tried rest ih =>
    rw [map_cons, find?_cons, find?_cons, h.readable _ (readIndex_lt h.laid.1 tried), ih]

lemma turned_calm {acc : Access} (hm : m.Calm) : (m.turned a i acc).Calm := by
  intro t ht
  have hlooked := Looked.of_asked m acc
  exact hlooked.calm hm t ht

section

variable (m a i) (acc : Access)

lemma turned_layout : (m.turned a i acc).layout a = m.layout a := by
  rw [Machine.turned, layout_setArray rfl, layout_asked]

lemma turned_array : (m.turned a i acc).arrays a =
      { m.arrays a with readCursor := (UInt32.ofNat i + 1) % (m.arrays a).memberCount } := by
  rw [Machine.turned, arrays_setArray_self, (Looked.of_asked m acc).arrays]

lemma turned_devs : (m.turned a i acc).devs = m.devs := by
  rw [Machine.turned, devs_setArray, (Looked.of_asked m acc).devs]

end

lemma Alike.turned (h : Alike a a' m m') (i : Nat) (acc acc' : Access) :
    Alike a a' (m.turned a i acc) (m'.turned a' i acc') := by
  refine ⟨⟨turned_calm h.calm.1, turned_calm h.calm.2⟩, ?_, ?_, ?_, ?_, ?_, ?_, ?_, ?_, ?_⟩
  all_goals simp only [turned_layout, turned_array, turned_devs]
  exacts [h.laid, h.level, h.whole, h.count, h.memberSectors, h.arraySectors, by rw [h.count],
    h.readable, h.data]

def ReadFrom (a : ArrayId) (lba : UInt64) (count : UInt32) (m : Machine)
    (r : Except Err (List Sector)) (m' : Machine) : Prop :=
  (∃ i d, (m.arrays a).pick (range (m.layout a).size) = some i ∧ (m.layout a).dev i = some d ∧
    r = .ok (load (m.devs d).data ((m.layout a).offset + lba.toNat) count.toNat) ∧
    m' = m.turned a i ((m.layout a).access d lba count false)) ∨
  ((m.arrays a).pick (range (m.layout a).size) = none ∧ r = .error .enodev ∧ m' = m)

lemma mdBlkRead_calm (hm : m.Calm) (hlaid : (m.layout a).Laid)
    (hlevel : (m.arrays a).level = .raid1)
    (hwhole : (m.arrays a).arraySectors = (m.arrays a).memberSectors)
    (hr : lba.toNat + count.toNat ≤ (m.arrays a).arraySectors.toNat) :
    ReadFrom a lba count m (outcome (mdBlkRead a lba count) m)
    (final (mdBlkRead a lba count) m) := by
  have hused : (m.arrays a).used = true := hlaid.used
  have hfit : lba.toNat + count.toNat ≤ (m.layout a).sectors := by
    rw [hwhole] at hr
    exact hr
  apply Ends.both
  refine getArray_bind (.pass (by rw [hused]; rfl) (.pass (decide_eq_false (not_past_end hr)) ?_))
  rw [hlevel]
  refine .bind (getArray_bind (Ends.failIf_bind (fun h => ?_) fun _ => ?_))
  · have hzero : (m.arrays a).memberCount = 0 := beq_iff_eq.mp h
    have hpos : 0 < (m.arrays a).memberCount.toNat := hlaid.pos
    rw [hzero] at hpos
    cases hpos
  refine (raid1ReadEach_calm hm hlaid hfit _ _).mono ?_ ?_
  · rintro buf m' ⟨i, d, hpick, hd, hbuf, hm'⟩
    exact .inl ⟨i, d, hpick, hd, congrArg _ hbuf, hm'⟩
  · rintro e m' ⟨hpick, rfl, rfl⟩
    exact .inr ⟨hpick, rfl, rfl⟩

lemma Alike.read (h : Alike a a' m m')
    (hr : lba.toNat + count.toNat ≤ (m.arrays a).arraySectors.toNat) :
    outcome (mdBlkRead a' lba count) m' = outcome (mdBlkRead a lba count) m ∧
      Alike a a' (final (mdBlkRead a lba count) m) (final (mdBlkRead a' lba count) m') := by
  have hwhole' : (m'.arrays a').arraySectors = (m'.arrays a').memberSectors := by
    rw [h.arraySectors, h.whole, h.memberSectors]
  have hr' : lba.toNat + count.toNat ≤ (m'.arrays a').arraySectors.toNat := by
    rw [h.arraySectors]
    exact hr
  have hsize : (m'.layout a').size = (m.layout a).size := congrArg UInt32.toNat h.count
  have hfit : lba.toNat + count.toNat ≤ (m.layout a).sectors := by
    rw [h.whole] at hr
    exact hr
  have hnew := mdBlkRead_calm h.calm.2 h.laid.2 h.level.2 hwhole' hr'
  unfold ReadFrom at hnew
  rw [hsize, h.pick] at hnew
  rcases mdBlkRead_calm h.calm.1 h.laid.1 h.level.1 h.whole hr with
    ⟨i, d, hpick, hd, hout, hfinal⟩ | ⟨hpick, hout, hfinal⟩
  · rw [hpick] at hnew
    rcases hnew with ⟨i', d', hpick', hd', hout', hfinal'⟩ | ⟨hno, -⟩
    · cases hpick'
      have hi : i < (m.layout a).size := by
        obtain ⟨tried, -, rfl⟩ := mem_map.mp (mem_of_find?_eq_some hpick)
        exact readIndex_lt h.laid.1 tried
      rw [hout, hout', hfinal, hfinal']
      refine ⟨congrArg _ (load_eq_load fun k hk => ?_), h.turned i _ _⟩
      rw [Nat.add_assoc, Nat.add_assoc]
      exact h.data i hi (find?_some hpick) d d' hd hd' _ (by omega)
    · cases hno
  · rw [hpick] at hnew
    rcases hnew with ⟨i', d', hno, -⟩ | ⟨-, hout', hfinal'⟩
    · cases hno
    · rw [hout, hout', hfinal, hfinal']
      exact ⟨rfl, h⟩

end Mirror

/-! ## Writes -/

/-- A write keeps the layout and the read cursor, and members can only fail. -/
structure Wrote (a : ArrayId) (m m' : Machine) : Prop where
  layout : m'.layout a = m.layout a
  cursor : (m'.arrays a).readCursor = (m.arrays a).readCursor
  state : ∀ i, ((m'.arrays a).members i).state = ((m.arrays a).members i).state ∨
    ((m'.arrays a).members i).state = .faulty

section Wrote

variable {m'' : Machine}

@[refl]
lemma Wrote.refl (m : Machine) : Wrote a m m :=
  ⟨rfl, rfl, fun _ => .inl rfl⟩

lemma Wrote.trans (h : Wrote a m m') (h' : Wrote a m' m'') : Wrote a m m'' := by
  refine ⟨h'.layout.trans h.layout, h'.cursor.trans h.cursor, fun i => ?_⟩
  rcases h'.state i with hsame | hfaulty
  · rw [hsame]
    exact h.state i
  · exact .inr hfaulty

instance : IsPreorder Machine (Wrote a) where
  refl _ := Wrote.refl _
  trans _ _ _ := Wrote.trans

lemma memberWrite_wrote (idx : Nat) (lba : UInt64) (buf : Buffer) :
    Within (Wrote a) (memberWrite a idx lba buf) := by
  intro m
  apply Ends.final
  refine getArray_bind (.lift fun r _ => Ends.of_final ?_)
  rcases (blkDevWrite_leaves m r.1 r.2 buf).final with hfinal | ⟨l, -, hfinal⟩
  · rw [hfinal]
  · rw [hfinal]
    exact ⟨by rw [layout_written, layout_noted], rfl, fun _ => .inl rfl⟩

lemma memberFault_wrote (idx : Nat) : Within (Wrote a) (memberFault a idx) := by
  intro m
  apply Ends.final
  refine (memberFault_ends a idx m).post ?_
  rintro - m' (⟨rfl, -⟩ | hsynced)
  · exact Wrote.refl m'
  · refine ⟨hsynced.layout.trans (layout_faulted m a idx), ?_, fun i => ?_⟩
    · rw [hsynced.cursor, Machine.faulted, arrays_setArray_self]
      rfl
    · rw [hsynced.state]
      by_cases hi : i = idx
      · rw [hi]
        exact .inr (state_faulted_self m a idx)
      · exact .inl (state_faulted_of_ne m a hi)

lemma raid0Loop_wrote (fuel : Nat) (lba : UInt64) (count : UInt32) (buf : Buffer) :
    Within (Wrote a) (raid0Loop a fuel lba count (some buf)) := by
  induction fuel generalizing lba count buf with
  | zero => exact .pure _
  | succ fuel ih =>
    unfold raid0Loop
    split
    · exact .pure _
    refine .bind (getArray_within a) fun arr => ?_
    refine .bind (Within.bind (memberWrite_wrote _ _ _) fun _ => .pure _).attempt fun r => ?_
    cases r with
    | error e => exact .bind (memberFault_wrote _) fun _ => .refl
    | ok part => exact .bind (ih _ _ _) fun _ => .pure _

lemma Request.exec_wrote {r : Request} (hr : r.isWrite = true) : Within (Wrote a) (r.exec a) := by
  cases r with
  | read lba count => cases hr
  | write lba buf =>
    refine .bind ?_ fun _ => .pure _
    refine .bind (getArray_within a) fun arr => .bind (.failIf _ _) fun _ =>
      Within.bind (.failIf _ _) fun _ => ?_
    split
    · refine .bind ?_ fun _ => .pure _
      exact .bind (getArray_within a) fun _ => .bind (.failIf _ _) fun _ =>
        raid0Loop_wrote _ _ _ _
    · exact .bind (getArray_within a) fun _ =>
        raid1WriteEach_within (fun i => memberWrite_wrote i lba buf) memberFault_wrote _ _ _

lemma Machine.after_wrote {ws : List Request} (hws : ∀ w ∈ ws, w.isWrite = true) (m : Machine) :
    Wrote a m (m.after a ws) := by
  induction ws generalizing m with
  | nil => exact Wrote.refl m
  | cons w ws ih =>
    have hstep : Wrote a m (final (w.exec a) m) := Request.exec_wrote (hws w mem_cons_self) m
    exact hstep.trans (ih (fun w' hw' => hws w' (mem_cons_of_mem _ hw')) _)

end Wrote

/-! ## The round trip -/

/-- What it takes for an array to be found again: all requests are met from here on, a member has
not failed and none of a stripe has, nothing passes for a head superblock on the members of an array
whose superblocks are at the tail, no other unclaimed drive has a superblock of the array, and there
are slots for the arrays of the others. -/
structure Recoverable (a : ArrayId) (m : Machine) : Prop where
  calm : m.Calm
  live : ∃ i < (m.layout a).size, ((m.arrays a).members i).state = .active
  stripe : (m.arrays a).level = .raid0 →
    ∀ i < (m.layout a).size, ((m.arrays a).members i).state = .active
  head : (m.arrays a).tailMeta = true → ∀ d, (m.layout a).Holds d → (m.devs d).superAt false = none
  alien : ∀ c ∈ m.candidates, c.sb.uuid ≠ (m.arrays a).uuid
  room : Roomy m

/-- An array that is another one started again: reads return the same as well. -/
structure Restored (a a' : ArrayId) (m m' : Machine) : Prop extends SameArray a a' m m' where
  reads : ∀ (rs : List Request) (r : Request),
    (∀ r' ∈ r :: rs, r'.isWrite = false ∧ r'.InRange (m.arrays a).arraySectors.toNat) →
    outcome (r.exec a') (m'.after a' rs) = outcome (r.exec a) (m.after a rs)

section RoundTrip

variable {a' : ArrayId} {m₁ m₂ : Machine} {level : Level} {chunk : UInt32} {members : List DevId}
  {tailMeta : Bool} {uuid : Uuid} {now smallest : UInt64}

lemma Created.findable (h : Created level chunk members tailMeta uuid now smallest a b m m₁ m')
    (hw : Wrote a m' m₂) (hr : Recoverable a m₂) : Findable a b m₂ := by
  have hlayout := hw.layout
  have hmember : ∀ d, (m₂.layout a).Holds d → d ∈ members := by
    rintro d ⟨i, -, hd⟩
    rw [hlayout, h.dev] at hd
    exact mem_of_getElem? hd
  have hsame : m₂.layout a = m₁.layout a := hlayout.trans h.synced.layout
  have harray : ∀ d, (m₂.devs d).isArray = (m₁.devs d).isArray := fun d =>
    congrArg (fun L : Layout => (L.devs d).isArray) hsame
  have hused : (m₂.devs b).used = (m₁.devs b).used :=
    congrArg (fun L : Layout => (L.devs b).used) hsame
  have hbdev : (m₂.arrays a).bdev = (m₁.arrays a).bdev :=
    congrArg (fun L : Layout => L.array.bdev) hsame
  refine ⟨?_, ?_, fun i hi => ?_, fun i hi => ?_, fun d hd => ?_, ⟨?_, ?_, ?_⟩, hr.head, hr.alien⟩
  · rw [hlayout]
    exact h.laid
  · rw [hlayout, h.size]
    exact h.count.2
  · rw [hlayout, h.size] at hi
    rw [hlayout, h.dev]
    exact ⟨_, getElem?_eq_getElem hi⟩
  · rw [hlayout] at hi
    rcases hw.state i with hsame | hfaulty
    · rw [hsame]
      exact .inl (h.state hi)
    · exact .inr hfaulty
  · have hd := hmember d hd
    rw [harray, h.member_dev hd]
    exact (h.free d hd).2
  · rw [hbdev, h.array]
  · rw [hused]
    exact h.started.bdev.1
  · rw [harray]
    exact h.started.bdev.2

lemma Reborn.reads_raid0 (h : Reborn a a' m m') (hf : Findable a b m) (hm : m.Calm)
    (hstriped : (m.layout a).Striped)
    (hactive : ∀ i < (m.layout a).size, ((m.arrays a).members i).state = .active)
    (rs : List Request) (r : Request)
    (hrs : ∀ r' ∈ r :: rs, r'.isWrite = false ∧ r'.InRange (m.arrays a).arraySectors.toNat) :
    outcome (r.exec a') (m'.after a' rs) = outcome (r.exec a) (m.after a rs) := by
  have hchunk : (m'.layout a').chunk = (m.layout a).chunk := congrArg UInt32.toNat h.chunk
  have hdev : ∀ i < (m.layout a).size, (m'.layout a').dev i = (m.layout a).dev i := fun i hi =>
    (h.active i hi (hactive i hi)).1
  have hstriped' : (m'.layout a').Striped := by
    refine ⟨h.laid hf, h.level.trans hstriped.level, ?_, ?_, fun i hi => ?_, ?_⟩
    · rw [hchunk]
      exact hstriped.chunk_pos
    · rw [hchunk, h.sectors]
      exact hstriped.whole
    · rw [h.size] at hi
      rw [hdev i hi]
      exact hstriped.full i hi
    · rw [h.sectors, h.size]
      exact Nat.le_trans (Nat.le_of_eq (congrArg UInt64.toNat h.arraySectors)) hstriped.bound
  have hhealthy : m.Healthy a := healthy_of_active hm hactive
  have hhealthy' : m'.Healthy a' := by
    refine healthy_of_active h.calm fun i hi => ?_
    rw [h.size] at hi
    exact (h.active i hi (hactive i hi)).2.2
  -- the sectors of both are the same
  have hflat : ∀ k < (m.arrays a).arraySectors.toNat, m'.flat a' k = m.flat a k := by
    intro k hk
    have hmem : Stripe.member (m.layout a).size (m.layout a).chunk k < (m.layout a).size :=
      Stripe.member_lt hstriped.pos
    have hrow : Stripe.row (m.layout a).size (m.layout a).chunk k < (m.layout a).sectors :=
      Stripe.row_lt hstriped.chunk_pos hstriped.whole (Nat.lt_of_lt_of_le hk hstriped.bound)
    obtain ⟨d, hd⟩ := hstriped.full _ hmem
    rw [Machine.flat, Machine.flat, Layout.locate, Layout.locate, h.size, hchunk, h.offset,
      hdev _ hmem, hd]
    exact (h.devs _ hmem (hactive _ hmem) d hd).2 _ hrow
  have hfold : ∀ f, rs.foldl Request.apply f = f := by
    intro f
    refine foldlRecOn (motive := (· = f)) rs _ rfl fun g hg x hx => ?_
    have hread := (hrs x (mem_cons_of_mem _ hx)).1
    cases x with
    | read lba count => exact hg
    | write lba buf => cases hread
  have hrange : ∀ r' ∈ r :: rs, r'.InRange (m'.arrays a').arraySectors.toNat := by
    intro r' hr'
    rw [h.arraySectors]
    exact (hrs r' hr').2
  rw [(runs_flat hstriped hhealthy rs r fun r' hr' => (hrs r' hr').2).1,
    (runs_flat hstriped' hhealthy' rs r hrange).1, hfold, hfold]
  obtain ⟨hread, hin⟩ := hrs r mem_cons_self
  cases r with
  | write lba buf => cases hread
  | read lba count =>
    exact congrArg _ (load_congr fun k _ hk => hflat k (Nat.lt_of_lt_of_le hk hin))

lemma Alike.reads (h : Alike a a' m m') (rs : List Request) (r : Request)
    (hrs : ∀ r' ∈ r :: rs, r'.isWrite = false ∧ r'.InRange (m.arrays a).arraySectors.toNat) :
    outcome (r.exec a') (m'.after a' rs) = outcome (r.exec a) (m.after a rs) := by
  induction rs generalizing m m' with
  | nil =>
    obtain ⟨hread, hin⟩ := hrs r mem_cons_self
    cases r with
    | write lba buf => cases hread
    | read lba count => exact (h.read hin).1
  | cons x rs ih =>
    obtain ⟨hr, hrs⟩ := forall_mem_cons.mp hrs
    obtain ⟨⟨hread, hin⟩, hrest⟩ := forall_mem_cons.mp hrs
    cases x with
    | write lba buf => cases hread
    | read lba count =>
      obtain ⟨-, hnext⟩ := h.read hin
      have hsame :
          ((final (mdBlkRead a lba count) m).arrays a).arraySectors = (m.arrays a).arraySectors :=
        congrArg (fun L : Layout => L.array.arraySectors)
          (Request.exec_keepsLayout (.read lba count) m : KeepsLayout a m _)
      rw [← hsame] at hr hrest
      exact ih hnext (forall_mem_cons.mpr ⟨hr, hrest⟩)

lemma Reborn.alike (h : Reborn a a' m m') (hf : Findable a b m) (hm : m.Calm)
    (hlevel : (m.arrays a).level = .raid1)
    (hwhole : (m.arrays a).arraySectors = (m.arrays a).memberSectors)
    (hcursor : (m.arrays a).readCursor = 0) : Alike a a' m m' := by
  refine ⟨⟨hm, h.calm⟩, ⟨hf.laid, h.laid hf⟩, ⟨hlevel, h.level.trans hlevel⟩, hwhole, h.count,
    h.memberSectors, h.arraySectors, h.cursor.trans hcursor.symm, fun i hi => ?_,
    fun i hi hread d d' hd hd' k hk => ?_⟩
  · rcases hf.state i hi with hactive | hfaulty
    · obtain ⟨hdev, -, hstate⟩ := h.active i hi hactive
      rw [MdArray.raid1Readable, MdArray.raid1Readable, hdev, hstate, hactive]
    · rw [MdArray.raid1Readable, MdArray.raid1Readable, h.faulty i hi hfaulty, hfaulty]
      simp
  · obtain ⟨hactive, hdev⟩ := h.of_dev hf hi hd'
    cases hd.symm.trans hdev
    rw [h.offset]
    exact (h.devs i hi hactive d hd).2 k hk

/-- A recoverable array is assembled again as it was, less the members that failed. -/
theorem assemble_roundTrip {level chunkSectors : UInt32} {m₀ m₁ m₂ : Machine} {ws : List Request}
    (hcreate : create level chunkSectors members tailMeta uuid now m₀ = .ok a m₁)
    (hws : ∀ w ∈ ws, w.isWrite = true) (hr : Recoverable a (m₁.after a ws))
    (hstop : stop a (m₁.after a ws) = .ok () m₂) :
    ∃ l m₃, assemble m₂ = .ok l m₃ ∧ ∃ a' ∈ l, Restored a a' (m₁.after a ws) m₃ := by
  obtain ⟨chunk, smallest, b, mₛ, -, hcreated⟩ := create_ok hcreate
  have hwrote : Wrote a m₁ (m₁.after a ws) := Machine.after_wrote hws m₁
  generalize m₁.after a ws = m at *
  have hf := hcreated.findable hwrote hr
  have harr : (m.layout a).array =
    { createdArray (Level.ofCode level) chunk members tailMeta smallest uuid now with
      bdev := some b, name := (mₛ.devs b).name }.still := by
    rw [hwrote.layout]
    exact hcreated.layout_array
  have hsized : (m.arrays a).arraySectors ≠ 0 := by
    have hsame := congrArg MdArray.arraySectors harr
    exact fun hzero => hcreated.sized (hsame.symm.trans hzero)
  have hstopped : Stopped a b m m₂ :=
    (stop_ends hr.calm hf.laid hf.registered.1 hf.registered.2.1 hf.not_holds).of_ok hstop
  have hends := hstopped.reborn hf hr.calm hsized hr.live hr.stripe hr.room
  cases hrun : assemble m₂ with
  | error e m₃ => exact (hends.of_error hrun).elim
  | ok l m₃ =>
    obtain ⟨a', ha', hreborn⟩ := hends.of_ok hrun
    refine ⟨l, m₃, rfl, a', ha', hreborn.toSameArray, ?_⟩
    have hlevel : (m.layout a).array.level = Level.ofCode level := by
      rw [harr]
      rfl
    cases hl : Level.ofCode level with
    | raid0 =>
      rw [hl] at hcreated hlevel
      have hstriped : (m.layout a).Striped := by
        rw [hwrote.layout]
        exact hcreated.striped_layout
      exact hreborn.reads_raid0 hf hr.calm hstriped (hr.stripe hlevel)
    | raid1 =>
      rw [hl] at hcreated hlevel harr
      have hwhole : (m.layout a).array.arraySectors = (m.layout a).array.memberSectors := by
        rw [harr]
        rfl
      have hcursor : (m.arrays a).readCursor = 0 := by
        rw [hwrote.cursor, hcreated.synced.cursor, hcreated.array]
        rfl
      exact (hreborn.alike hf hr.calm hlevel hwhole hcursor).reads

end RoundTrip

def threeDrives : Machine :=
  { Machine.fresh 3 3000 with active := some 2 }

def tailStripe : Machine :=
  final (create Level.raid0.code 128 [0, 1] true Uuid.nil 0) threeDrives

lemma tailStripe_created :
    create Level.raid0.code 128 [0, 1] true Uuid.nil 0 threeDrives = .ok .first tailStripe := by
  obtain ⟨a, m, hok⟩ := exists_ok_of_outcome
    (x := create Level.raid0.code 128 [0, 1] true Uuid.nil 0) (s := threeDrives) (by decide +kernel)
  have hfirst :
    (outcome (create Level.raid0.code 128 [0, 1] true Uuid.nil 0) threeDrives).toOption =
      some .first := by decide +kernel
  have hm : tailStripe = m := final_of_ok hok
  rw [outcome, hok] at hfirst
  cases hfirst
  rw [hok, hm]

def stripeWritten : Machine :=
  tailStripe.after .first [.write 5 (.single zeroSector)]

/-- A stripe with tail superblocks comes back after a write and a stop. -/
theorem assemble_roundTrip_stripe :
    create Level.raid0.code 128 [0, 1] true Uuid.nil 0 threeDrives = .ok .first tailStripe ∧
    ∃ m₂ l m₃, stop .first (tailStripe.after .first [.write 5 (.single zeroSector)]) = .ok () m₂ ∧
      assemble m₂ = .ok l m₃ ∧
      ∃ a' ∈ l,
      Restored .first a' (tailStripe.after .first [.write 5 (.single zeroSector)]) m₃ := by
  have hstop : (outcome (stop .first) stripeWritten).isOk = true := by decide +kernel
  obtain ⟨u, m₂, hstop⟩ := exists_ok_of_outcome hstop
  obtain ⟨chunk, smallest, b, mₛ, -, hcreated⟩ := create_ok tailStripe_created
  have hcalm : ∀ t, tailStripe.io t = none := by
    exact fun _ => rfl
  have hhealthy : tailStripe.Healthy .first :=
    healthy_of_active (fun t _ => hcalm t) fun i => hcreated.state
  have hsectors : 6 ≤ (tailStripe.layout .first).array.arraySectors.toNat := by decide +kernel
  have hrange : ∀ r ∈ [Request.write 5 (.single zeroSector)],
      r.InRange (tailStripe.layout .first).array.arraySectors.toNat := by
    intro r hr
    rw [mem_singleton.mp hr]
    exact hsectors
  obtain ⟨-, hafter, -⟩ := Machine.after_flat hcreated.striped_layout hhealthy hrange
  have hsize : (stripeWritten.layout .first).size = 2 := by decide +kernel
  have hstate : ∀ i < 2, ((stripeWritten.arrays .first).members i).state = .active := by
    decide +kernel
  have hhead : ∀ d, (stripeWritten.devs d).superAt false = none := by decide +kernel
  have hrec : Recoverable .first stripeWritten := by
    refine ⟨hafter.calm, ⟨0, ?_, hstate 0 (by decide)⟩, fun _ i hi => hstate i (hsize ▸ hi),
      fun _ d _ => hhead d, fun c hc => ?_, ?_, ?_⟩
    · decide
    · cases hc
    all_goals
      exact Nat.zero_le _
  obtain ⟨l, m₃, hassemble, hrestored⟩ :=
    assemble_roundTrip tailStripe_created (by simp [Request.isWrite]) hrec hstop
  exact ⟨tailStripe_created, m₂, l, m₃, hstop, hassemble, hrestored⟩

def usedDrives : Machine :=
  final (do stop (← create Level.raid1.code 0 [0, 1] false ⟨1, 0⟩ 0)) threeDrives

def tailMirror : Machine :=
  final (create Level.raid1.code 0 [0, 1] true ⟨2, 0⟩ 0) usedDrives

/-- The old superblocks are found before the new ones: the old mirror is assembled, over the data of
the new one. -/
theorem assemble_finds_old_head :
    (outcome (create Level.raid1.code 0 [0, 1] true ⟨2, 0⟩ 0) usedDrives).toOption = some .first ∧
    (outcome (stop .first) tailMirror).isOk ∧
    (outcome assemble (final (stop .first) tailMirror)).toOption.map (map fun a' =>
      ((final assemble (final (stop .first) tailMirror)).arrays a').uuid) = some [⟨1, 0⟩] ∧
    (tailMirror.arrays .first).uuid = ⟨2, 0⟩ := by
  refine ⟨by decide +kernel, by decide +kernel, by decide +kernel, by decide +kernel⟩

end Anunix.Md
