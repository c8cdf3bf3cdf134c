import Anunix.Md.Start

/-!
# Assembly and the order of devices

The candidates of an array are visited in the order of the registry. The first one that has not
failed takes the slot it names (`gather_members`), and then slots whose event counter lags behind
the highest of those placed are emptied. So a candidate with the highest counter of all can be kept
out by an older one that comes first.
-/

namespace Anunix.Md
open Fallible List

/-! ## Placement -/

namespace Candidate

/-- The superblock does not say that the member failed. -/
def Sound (c : Candidate) : Prop :=
  c.sb.memberState ≠ MemberState.faulty.code

instance (c : Candidate) : Decidable c.Sound :=
  inferInstanceAs (Decidable (_ ≠ _))

def fits (i : Nat) (c : Candidate) : Bool :=
  decide c.Sound && c.sb.memberIndex.toNat == i

def toMember (c : Candidate) : MdMember :=
  ⟨some c.dev, c.sb.dataOffset, MemberState.ofCode c.sb.memberState, c.sb.events⟩

lemma fits_iff {i : Nat} {c : Candidate} :
    c.fits i = true ↔ c.Sound ∧ c.sb.memberIndex.toNat = i := by
  simp [fits]

end Candidate

def firstFor (l : List Candidate) (i : Nat) : Option Candidate :=
  l.find? (Candidate.fits i)

lemma firstFor_eq_some {l : List Candidate} {i : Nat} {c : Candidate} (h : firstFor l i = some c) :
    c ∈ l ∧ c.Sound ∧ c.sb.memberIndex.toNat = i :=
  ⟨mem_of_find?_eq_some h, Candidate.fits_iff.mp (find?_some h)⟩

structure Placed (ref : MdSuper) (p : List Candidate) (arr : MdArray) : Prop where
  used : arr.used = true
  level : arr.level = Level.ofCode ref.level
  count : arr.memberCount = ref.memberCount
  sectors : arr.arraySectors = ref.arraySectors
  members : ∀ i, arr.members i = ((firstFor p i).map Candidate.toMember).getD .blank
  le : ∀ i c, firstFor p i = some c → c.sb.events ≤ arr.events
  newest : (arr.events = 0 ∧ arr.resyncOffset = ref.resyncOffset) ∨
    ∃ i c, firstFor p i = some c ∧ c.sb.events = arr.events ∧ c.sb.resyncOffset = arr.resyncOffset

section Placed

variable {ref : MdSuper} {p l : List Candidate} {arr : MdArray} {c : Candidate}

lemma placed_nil (ref : MdSuper) : Placed ref [] (arrayOf ref) :=
  ⟨rfl, rfl, rfl, rfl, fun _ => rfl, (fun _ _ h => nomatch h), .inl ⟨rfl, rfl⟩⟩

lemma firstFor_append (p : List Candidate) (c : Candidate) (i : Nat) :
    firstFor (p ++ [c]) i = (firstFor p i).or (if c.fits i then some c else none) := by
  rw [firstFor, find?_append, find?_singleton]
  rfl

lemma firstFor_passed {i : Nat} (h : ¬ (c.Sound ∧ c.sb.memberIndex.toNat = i)) :
    firstFor (p ++ [c]) i = firstFor p i := by
  rw [firstFor_append, if_neg (mt Candidate.fits_iff.mp h), Option.or_none]

lemma Placed.place_new (h : Placed ref p arr) (hin : ¬ arr.memberCount ≤ c.sb.memberIndex)
    (hsound : c.Sound) (hfree : firstFor p c.sb.memberIndex.toNat = none) :
    Placed ref (p ++ [c]) (arr.place c) := by
  have hdev : ¬ (arr.members c.sb.memberIndex.toNat).dev.isSome = true := by
    rw [h.members, hfree]
    exact Bool.false_ne_true
  have hself : firstFor (p ++ [c]) c.sb.memberIndex.toNat = some c := by
    rw [firstFor_append, hfree, if_pos (Candidate.fits_iff.mpr ⟨hsound, rfl⟩)]
    rfl
  have hother : ∀ i, i ≠ c.sb.memberIndex.toNat → firstFor (p ++ [c]) i = firstFor p i :=
    fun i hi => firstFor_passed fun hfits => hi hfits.2.symm
  have hmembers : ∀ i, (arr.setMember c.sb.memberIndex.toNat fun _ => c.toMember).members i =
      ((firstFor (p ++ [c]) i).map Candidate.toMember).getD .blank := by
    intro i
    by_cases hi : i = c.sb.memberIndex.toNat
    · subst hi
      rw [members_setMember_self, hself]
      rfl
    · rw [members_setMember_of_ne _ _ hi, hother i hi]
      exact h.members i
  have hcases : ∀ {i c'}, firstFor (p ++ [c]) i = some c' → c' = c ∨ firstFor p i = some c' := by
    intro i c' hc'
    by_cases hi : i = c.sb.memberIndex.toNat
    · rw [hi, hself, Option.some.injEq] at hc'
      exact .inl hc'.symm
    · rw [hother i hi] at hc'
      exact .inr hc'
  have hstate : ¬ c.sb.memberState = MemberState.faulty.code := hsound
  rw [MdArray.place, if_neg hin, if_neg hdev, if_neg hstate]
  dsimp only
  split
  · -- the new candidate has the highest counter so far
    rename_i hgt
    refine ⟨h.used, h.level, h.count, h.sectors, hmembers, fun i c' hc' => ?_,
      .inr ⟨_, c, hself, rfl, rfl⟩⟩
    rcases hcases hc' with rfl | hold
    · exact UInt64.le_refl _
    · exact UInt64.le_trans (h.le i c' hold) (UInt64.le_of_lt hgt)
  · rename_i hle
    refine ⟨h.used, h.level, h.count, h.sectors, hmembers, fun i c' hc' => ?_, ?_⟩
    · rcases hcases hc' with rfl | hold
      · exact UInt64.not_lt.mp hle
      · exact h.le i c' hold
    · rcases h.newest with hzero | ⟨i, c', hold, hevents, hresync⟩
      · exact .inl hzero
      · refine .inr ⟨i, c', ?_, hevents, hresync⟩
        rw [hother i, hold]
        rintro rfl
        rw [hfree] at hold
        cases hold

lemma Placed.place (h : Placed ref p arr) (hc : c.sb.memberIndex.toNat < ref.memberCount.toNat) :
    Placed ref (p ++ [c]) (arr.place c) := by
  have hin : ¬ arr.memberCount ≤ c.sb.memberIndex := by
    rw [h.count]
    exact Nat.not_le.mpr hc
  -- a candidate that is passed over changes nothing
  have hskip : (∀ i, firstFor (p ++ [c]) i = firstFor p i) → arr.place c = arr →
      Placed ref (p ++ [c]) (arr.place c) := by
    intro hfirst hsame
    rw [hsame]
    refine ⟨h.used, h.level, h.count, h.sectors, ?_, ?_, ?_⟩
    · simpa only [hfirst] using h.members
    · simpa only [hfirst] using h.le
    · simpa only [hfirst] using h.newest
  by_cases hsound : c.Sound
  · cases hold : firstFor p c.sb.memberIndex.toNat with
    | some c0 =>
      apply hskip
      · intro i
        by_cases hi : c.sb.memberIndex.toNat = i
        · rw [firstFor_append, ← hi, hold]
          rfl
        · exact firstFor_passed fun hfits => hi hfits.2
      · have hdev : (arr.members c.sb.memberIndex.toNat).dev.isSome = true := by
          rw [h.members, hold]
          rfl
        rw [MdArray.place, if_neg hin, if_pos hdev]
    | none => exact h.place_new hin hsound hold
  · apply hskip
    · exact fun i => firstFor_passed fun hfits => hsound hfits.1
    · rw [MdArray.place, if_neg hin, if_pos (Decidable.not_not.mp hsound)]
      split <;> rfl

lemma Placed.foldl (h : Placed ref p arr)
    (hl : ∀ c ∈ l, c.sb.memberIndex.toNat < ref.memberCount.toNat) :
    Placed ref (p ++ l) (l.foldl MdArray.place arr) := by
  induction l generalizing p arr with
  | nil =>
    rw [append_nil]
    exact h
  | cons c l ih =>
    have hnext := ih (h.place (hl c mem_cons_self)) fun c' hc' => hl c' (mem_cons_of_mem _ hc')
    rwa [append_assoc] at hnext

end Placed

/-! ## What an assembly results in -/

/-- What assembly decides: the device in each slot with its state and event counter, and the event
counter and the rebuild point of the array. -/
structure View where
  slot : Nat → Option (DevId × MemberState × UInt64)
  events : UInt64
  resyncOffset : UInt64

def MdArray.view (arr : MdArray) : View where
  slot := fun i =>
    if i < arr.memberCount.toNat then
      (arr.members i).dev.map fun d => (d, (arr.members i).state, (arr.members i).events)
    else none
  events := arr.events
  resyncOffset := arr.resyncOffset

/-- The assembly of the candidates of one UUID, in the order of the registry: as many as an array
has members are looked at. -/
def assemblyOf (m : Machine) : List Candidate → Except Err View
  | [] => .error .enodev
  | c :: cs =>
    match assembleOne c (cs.take (maxMembers - 1)) m with
    | .ok a m' => .ok (m'.arrays a).view
    | .error e _ => .error e

def group (l : List Candidate) : List Candidate :=
  l.take maxMembers

def gathered : List Candidate → MdArray
  | [] => .blank
  | c :: cs => gather c (cs.take (maxMembers - 1))

def MdArray.refused (arr : MdArray) : Prop :=
  (arr.level = .raid0 ∧ arr.present ≠ arr.memberCount.toNat) ∨ arr.present = 0

instance (arr : MdArray) : Decidable arr.refused :=
  inferInstanceAs (Decidable (_ ∨ _))

def MdArray.header (arr : MdArray) : MdArray :=
  { arr with events := 0, resyncOffset := 0, members := fun _ => .blank }

lemma place_header (arr : MdArray) (c : Candidate) : (arr.place c).header = arr.header := by
  unfold MdArray.place
  dsimp only
  split
  · rfl
  split
  · rfl
  split
  · rfl
  split <;> rfl

lemma gather_header (ref : Candidate) (rest : List Candidate) :
    (gather ref rest).header = (arrayOf ref.sb).header := by
  have hfold : ∀ (l : List Candidate) (arr : MdArray),
      (l.foldl MdArray.place arr).header = arr.header := by
    intro l
    induction l with
    | nil => exact fun _ => rfl
    | cons c l ih => exact fun arr => (ih _).trans (place_header arr c)
  exact hfold (ref :: rest) (arrayOf ref.sb)

lemma gather_used (ref : Candidate) (rest : List Candidate) : (gather ref rest).used = true :=
  congrArg MdArray.used (gather_header ref rest)

/-- What starting one group of candidates ends in. A start that fails leaves the table slot free. -/
lemma assembleOne_ends (m : Machine) (ref : Candidate) (rest : List Candidate) :
    Ends (assembleOne ref rest) m
      (fun a m' => freeArray m.arrays = some a ∧ ¬ (gather ref rest).refused ∧
        (gather ref rest).arraySectors ≠ 0 ∧ ∃ b, freeSlot m.devs = some b ∧
        Started a b (m.setArray a fun _ => gather ref rest) m')
      fun e m' => (freeArray m.arrays = none ∧ m' = m ∧ e = .efull) ∨
        ∃ a, freeArray m.arrays = some a ∧ Kept a m m' ∧ (m'.arrays a).used = false ∧
          (((gather ref rest).refused ∧ e = .enodev) ∨
          (¬ (gather ref rest).refused ∧ (((gather ref rest).arraySectors = 0 ∧ e = .einval) ∨
          ((gather ref rest).arraySectors ≠ 0 ∧ freeSlot m.devs = none ∧ e = .efull)))) := by
  refine .bind (.get_bind ?_)
  cases hfree : freeArray m.arrays with
  | none => exact .inl ⟨rfl, rfl, rfl⟩
  | some a =>
    refine modifyArray_bind (Ends.orThrow_bind (fun h => nomatch h) fun a' ha' => ?_)
    cases ha'
    refine modifyArray_bind (getArray_bind ?_)
    rw [setArray_setArray]
    generalize hm1 : m.setArray a _ = m1
    have harr : m1.arrays a = gather ref rest := by
      rw [← hm1, arrays_setArray_self]
    have hkept : Kept a m m1 := by
      rw [← hm1]
      exact Kept.of_setArray a m _
    have hblank : ∀ m2 : Machine, ((m2.setArray a fun _ => .blank).arrays a).used = false := by
      intro m2
      rw [arrays_setArray_self]
      rfl
    rw [harr]
    split
    · rename_i hrefused
      exact .inr ⟨a, rfl, hkept.trans (Kept.of_setArray a m1 _), hblank m1, .inl ⟨hrefused, rfl⟩⟩
    · rename_i hgo
      refine .attempt_bind ((startArray_ends a m1).mono ?_ ?_)
      · rintro - m2 ⟨b, hslot, hpos, hstarted⟩
        rw [harr] at hpos
        rw [hkept.devs] at hslot
        rw [← hm1] at hstarted
        exact ⟨rfl, hgo, hpos, b, hslot, hstarted⟩
      · rintro e m2 ⟨hkept2, -, herr⟩
        rw [harr, hkept.devs] at herr
        exact .inr ⟨a, rfl, (hkept.trans hkept2).trans (Kept.of_setArray a m2 _), hblank m2,
          .inr ⟨hgo, herr (gather_used ref rest)⟩⟩

lemma assemblyOf_eq (m : Machine) {l : List Candidate} (hl : l ≠ []) : assemblyOf m l =
    if freeArray m.arrays = none then .error .efull
    else if (gathered l).refused then .error .enodev
    else if (gathered l).arraySectors = 0 then .error .einval
    else if freeSlot m.devs = none then .error .efull
    else .ok (gathered l).view := by
  cases l with
  | nil => exact absurd rfl hl
  | cons c cs =>
    have hends := assembleOne_ends m c (cs.take (maxMembers - 1))
    unfold Ends at hends
    unfold assemblyOf gathered
    dsimp only
    cases hrun : assembleOne c (cs.take (maxMembers - 1)) m with
    | ok a m' =>
      rw [hrun] at hends
      obtain ⟨hfree, hgo, hpos, b, hslot, hstarted⟩ := hends
      have hview : (m'.arrays a).view = (gather c (cs.take (maxMembers - 1))).view := by
        rw [hstarted.array, arrays_setArray_self]
        rfl
      have hfree : freeArray m.arrays ≠ none := by
        rw [hfree]
        exact Option.some_ne_none a
      have hslot : freeSlot m.devs ≠ none := by
        rw [hslot]
        exact Option.some_ne_none b
      rw [if_neg hfree, if_neg hgo, if_neg hpos, if_neg hslot, ← hview]
    | error e m' =>
      rw [hrun] at hends
      rcases hends with ⟨hfull, -, rfl⟩ | ⟨a, hfree, -, -, hends⟩
      · rw [if_pos hfull]
      have hfree : freeArray m.arrays ≠ none := by
        rw [hfree]
        exact Option.some_ne_none a
      rcases hends with ⟨hrefused, rfl⟩ | ⟨hgo, ⟨hzero, rfl⟩ | ⟨hpos, hslot, rfl⟩⟩
      · rw [if_neg hfree, if_pos hrefused]
      · rw [if_neg hfree, if_neg hgo, if_pos hzero]
      · rw [if_neg hfree, if_neg hgo, if_neg hpos, if_pos hslot]

/-! ## Candidates that describe one array -/

/-- The superblocks are valid and agree on what the array is. -/
structure Described (level count : UInt32) (sectors : UInt64) (l : List Candidate) : Prop where
  nonempty : l ≠ []
  valid : ∀ c ∈ l, ∃ tail, c.sb.Valid tail
  level : ∀ c ∈ l, c.sb.level = level
  count : ∀ c ∈ l, c.sb.memberCount = count
  sectors : ∀ c ∈ l, c.sb.arraySectors = sectors

section Described

variable {level count : UInt32} {sectors : UInt64} {l l' : List Candidate} {i : Nat} {c : Candidate}
  (h : Described level count sectors l)

include h

lemma Described.perm (hp : l'.Perm l) : Described level count sectors l' := by
  refine ⟨fun hnil => h.nonempty ?_, fun c hc => h.valid c (hp.mem_iff.mp hc),
    fun c hc => h.level c (hp.mem_iff.mp hc), fun c hc => h.count c (hp.mem_iff.mp hc),
    fun c hc => h.sectors c (hp.mem_iff.mp hc)⟩
  rw [hnil] at hp
  exact hp.nil_eq.symm

lemma Described.index_lt (hc : c ∈ l) : c.sb.memberIndex.toNat < count.toNat := by
  obtain ⟨tail, hvalid⟩ := h.valid c hc
  rw [← h.count c hc]
  exact hvalid.index

lemma Described.placed :
    ∃ ref arr, l.head? = some ref ∧ Placed ref.sb (group l) arr ∧ gathered l = arr.dropStale := by
  cases l with
  | nil => exact absurd rfl h.nonempty
  | cons ref cs =>
    refine ⟨ref, _, rfl, (placed_nil ref.sb).foldl fun c hc => ?_, rfl⟩
    have hmem : c ∈ ref :: cs := mem_of_mem_take (i := maxMembers) hc
    rw [h.count ref mem_cons_self]
    exact h.index_lt hmem

/-- What is in a slot: the first candidate for it, if its event counter is the array's. -/
lemma Described.slot_eq_some {x : DevId × MemberState × UInt64} :
    (gathered l).view.slot i = some x ↔
      ∃ c, firstFor (group l) i = some c ∧ c.sb.events = (gathered l).events ∧
        x = (c.dev, MemberState.ofCode c.sb.memberState, c.sb.events) := by
  obtain ⟨ref, arr, hhead, hplaced, hgathered⟩ := h.placed
  have hcount : arr.memberCount = count := by
    rw [hplaced.count]
    exact h.count ref (mem_of_mem_head? hhead)
  rw [hgathered]
  show (if i < arr.memberCount.toNat then
      (arr.dropStale.members i).dev.map fun d =>
        (d, (arr.dropStale.members i).state, (arr.dropStale.members i).events) else none) = some x ↔
    ∃ c : Candidate, _ ∧ c.sb.events = arr.events ∧ _
  have hmember := hplaced.members i
  unfold MdArray.dropStale
  dsimp only
  cases hfirst : firstFor (group l) i with
  | none =>
    rw [hfirst] at hmember
    have hdev : (arr.members i).dev = none := by
      rw [hmember]
      rfl
    simp [hdev]
  | some c =>
    rw [hfirst] at hmember
    obtain ⟨hmem, -, hindex⟩ := firstFor_eq_some hfirst
    have hi : i < arr.memberCount.toNat := by
      rw [hcount, ← hindex]
      exact h.index_lt (mem_of_mem_take hmem)
    rw [if_pos hi, hmember]
    by_cases hevents : c.sb.events = arr.events
    · simp [Candidate.toMember, hevents, eq_comm]
    · simp [Candidate.toMember, hevents, hi]

lemma Described.geometry :
    (gathered l).memberCount = count ∧ (gathered l).level = Level.ofCode level ∧
      (gathered l).arraySectors = sectors := by
  obtain ⟨ref, arr, hhead, hplaced, hgathered⟩ := h.placed
  have href : ref ∈ l := mem_of_mem_head? hhead
  rw [hgathered]
  refine ⟨?_, ?_, ?_⟩
  · show arr.memberCount = count
    rw [hplaced.count, h.count ref href]
  · show arr.level = _
    rw [hplaced.level, h.level ref href]
  · show arr.arraySectors = sectors
    rw [hplaced.sectors, h.sectors ref href]

lemma Described.refused_iff : (gathered l).refused ↔
      (Level.ofCode level = .raid0 ∧ ∃ i < count.toNat, (gathered l).view.slot i = none) ∨
      ∀ i < count.toNat, (gathered l).view.slot i = none := by
  obtain ⟨hcount, hlevel, -⟩ := h.geometry
  have hslot : ∀ i < count.toNat, (gathered l).view.slot i = none ↔
      ((gathered l).members i).dev = none := by
    intro i hi
    rw [← hcount] at hi
    show (if i < (gathered l).memberCount.toNat then _ else none) = none ↔ _
    rw [if_pos hi, Option.map_eq_none_iff]
  have hpresent : (gathered l).present = count.toNat ↔
      ∀ i < count.toNat, ((gathered l).members i).dev ≠ none := by
    have hlen : (range count.toNat).length = count.toNat := length_range
    unfold MdArray.present
    rw [hcount]
    conv_lhs => rhs; rw [← hlen]
    rw [countP_eq_length]
    simp only [mem_range, Option.isSome_iff_ne_none]
  have habsent : (gathered l).present = 0 ↔
      ∀ i < count.toNat, ((gathered l).members i).dev = none := by
    unfold MdArray.present
    rw [hcount, countP_eq_zero]
    simp only [mem_range, Option.not_isSome_iff_eq_none]
  unfold MdArray.refused
  rw [hlevel, hcount, habsent, ne_eq, hpresent]
  refine or_congr (and_congr_right fun _ => ?_) (forall₂_congr fun i hi => (hslot i hi).symm)
  constructor
  · intro hnot
    by_contra hall
    refine hnot fun i hi hnone => hall ⟨i, hi, (hslot i hi).mpr hnone⟩
  · rintro ⟨i, hi, hnone⟩ hall
    exact hall i hi ((hslot i hi).mp hnone)

end Described

end Anunix.Md
