import Anunix.Md.Runs

/-!
# A mirror does not serve stale data

What a sector of a mirror may hold is what the last successful write put there, or, before the
first, what one of the members held when the array was created. Every active member holds such a
value in every sector, and a spare does below the rebuild point, as long as there is an active
member to rebuild from (`Mirror`).

Reads and failures leave the members alone (`Quiet`), a write is followed member by member
(`Writing`), and a rebuild pass keeps the invariant if it is made with one spare.
-/

namespace Anunix.Md
open Fallible Region List

/-! ## Contents -/

abbrev Contents := Nat → Set Sector

def Contents.write (v : Contents) (lba : Nat) (l : List Sector) : Contents := fun k =>
  if lba ≤ k then
    match l[k - lba]? with
    | some s => {s}
    | none => v k
  else v k

def Request.record (v : Contents) : Request → Except Err (List Sector) → Contents
  | .write lba buf, .ok _ => v.write lba.toNat buf.sectors
  | _, _ => v

def Op.record (v : Contents) : Op → Except Err (List Sector) → Contents
  | .io r, out => r.record v out
  | _, _ => v

def contents (a : ArrayId) : Machine → Contents → List Op → Contents
  | _, v, [] => v
  | m, v, op :: ops => contents a (final (op.exec a) m) (op.record v (outcome (op.exec a) m)) ops

def Machine.memberContents (m : Machine) (a : ArrayId) : Contents := fun k =>
  { s | ∃ i < (m.layout a).size, ∃ d, (m.layout a).dev i = some d ∧
    s = (m.devs d).data ((m.layout a).offset + k) }

variable {v : Contents} {l : List Sector}

section Contents

variable {lba k : Nat}

lemma Contents.write_of_out (h : k < lba ∨ lba + l.length ≤ k) : v.write lba l k = v k := by
  rw [write]
  split
  · have hnone : l[k - lba]? = none := getElem?_eq_none (by omega)
    rw [hnone]
  · rfl

lemma Contents.store_mem {data : Nat → Sector} {off : Nat}
    (h : k < lba ∨ lba + l.length ≤ k → data (off + k) ∈ v k) :
    store data (off + lba) l (off + k) ∈ v.write lba l k := by
  by_cases hin : lba ≤ k ∧ k < lba + l.length
  · obtain ⟨t, rfl⟩ := Nat.exists_eq_add_of_le hin.1
    have ht : t < l.length := by omega
    rw [← Nat.add_assoc, store_of_mem ht, write, if_pos hin.1, Nat.add_sub_cancel_left,
      getElem?_eq_getElem ht]
    exact rfl
  · have hout : k < lba ∨ lba + l.length ≤ k := by omega
    rw [store_of_disjoint (by omega), write_of_out hout]
    exact h hout

end Contents

/-! ## The invariant -/

/-- The slot `i` has a drive and is in the state `s`. -/
def Machine.InState (m : Machine) (a : ArrayId) (s : MemberState) (i : Nat) : Prop :=
  i < (m.layout a).size ∧ (∃ d, (m.layout a).dev i = some d) ∧ ((m.arrays a).members i).state = s

abbrev Machine.Live (m : Machine) (a : ArrayId) (i : Nat) : Prop :=
  m.InState a .active i

abbrev Machine.IsSpare (m : Machine) (a : ArrayId) (i : Nat) : Prop :=
  m.InState a .spare i

/-- A member holds what it has to: an active one everywhere, a spare below the rebuild point where
no write failed. -/
structure Holds (a : ArrayId) (v : Contents) (touched : Nat → Prop) (m : Machine) (i : Nat) :
    Prop where
  active : ∀ d, (m.layout a).dev i = some d → ((m.arrays a).members i).state = .active →
    ∀ k < (m.layout a).sectors, (m.devs d).data ((m.layout a).offset + k) ∈ v k
  spare : ∀ d, (m.layout a).dev i = some d → ((m.arrays a).members i).state = .spare →
    ∀ k < (m.layout a).sectors, k < (m.arrays a).resyncOffset.toNat → ¬ touched k →
      (m.devs d).data ((m.layout a).offset + k) ∈ v k

structure Layout.Mirrored (L : Layout) : Prop extends L.Laid where
  level : L.array.level = .raid1
  sized : L.array.arraySectors = L.array.memberSectors

/-- The members of a mirror hold its contents; `touched` are the sectors of writes that failed, of
which there are none while a member is active. -/
structure Mirror (a : ArrayId) (v : Contents) (touched : Nat → Prop) (m : Machine) : Prop where
  laid : (m.layout a).Mirrored
  holds : ∀ i < (m.layout a).size, Holds a v touched m i
  live : (∃ i, m.Live a i) → ∀ k < (m.layout a).sectors, ¬ touched k

/-! ## What leaves the members alone -/

structure Quiet (a : ArrayId) (m m' : Machine) : Prop where
  layout : m'.layout a = m.layout a
  resync : (m'.arrays a).resyncOffset = (m.arrays a).resyncOffset
  state : ∀ i, ((m'.arrays a).members i).state = ((m.arrays a).members i).state ∨
    ((m'.arrays a).members i).state = .faulty
  data : ∀ d, ∀ k < (m.layout a).sectors,
    (m'.devs d).data ((m.layout a).offset + k) = (m.devs d).data ((m.layout a).offset + k)

variable {a : ArrayId} {touched : Nat → Prop} {m m' m'' : Machine} {i : Nat}

section Quiet

@[refl]
lemma Quiet.refl (m : Machine) : Quiet a m m :=
  ⟨rfl, rfl, fun _ => .inl rfl, fun _ _ _ => rfl⟩

instance : Covered (Quiet a m m) :=
  ⟨.refl m⟩

lemma Quiet.trans (h : Quiet a m m') (h' : Quiet a m' m'') : Quiet a m m'' := by
  refine ⟨h'.layout.trans h.layout, h'.resync.trans h.resync, fun i => ?_, fun d k hk => ?_⟩
  · rcases h'.state i with heq | hfaulty
    · rw [heq]
      exact h.state i
    · exact .inr hfaulty
  · have hdata := h'.data d k
    rw [h.layout] at hdata
    rw [hdata hk, h.data d k hk]

lemma Quiet.laid (h : Quiet a m m') (hlaid : (m.layout a).Laid) : (m'.layout a).Laid := by
  rw [h.layout]
  exact hlaid

lemma Quiet.of_synced (h : Synced a m m') (hlaid : (m.layout a).Laid) : Quiet a m m' :=
  ⟨h.layout, h.resync, fun i => .inl (h.state i), fun d _ => h.data hlaid d⟩

lemma Quiet.of_faulted (m : Machine) (a : ArrayId) (idx : Nat) : Quiet a m (m.faulted a idx) := by
  refine ⟨layout_faulted m a idx, ?_, fun i => ?_, fun _ _ _ => rfl⟩
  · rw [Machine.faulted, arrays_setArray_self]
    rfl
  · by_cases hi : i = idx
    · subst hi
      exact .inr (state_faulted_self m a i)
    · exact .inl (state_faulted_of_ne m a hi)

lemma Quiet.of_setArray {f : MdArray → MdArray}
    (hstill : (f (m.arrays a)).still = (m.arrays a).still)
    (hresync : (f (m.arrays a)).resyncOffset = (m.arrays a).resyncOffset)
    (hstate : ∀ i, ((f (m.arrays a)).members i).state = ((m.arrays a).members i).state) :
    Quiet a m (m.setArray a f) := by
  refine ⟨layout_setArray hstill, ?_, fun i => .inl ?_, fun _ _ _ => rfl⟩
  · rw [arrays_setArray_self, hresync]
  · rw [arrays_setArray_self, hstate]

@[simp]
lemma arrays_asked (m : Machine) (acc : Access) : (m.asked acc).arrays = m.arrays := by
  unfold Machine.asked
  split <;> rfl

@[simp]
lemma devs_asked (m : Machine) (acc : Access) : (m.asked acc).devs = m.devs := by
  unfold Machine.asked
  split <;> rfl

lemma Quiet.of_asked (m : Machine) (acc : Access) : Quiet a m (m.asked acc) := by
  refine ⟨layout_asked m a acc, ?_, fun i => .inl ?_, fun d k _ => ?_⟩
  · rw [arrays_asked]
  · rw [arrays_asked]
  · rw [devs_asked]

lemma Holds.of_faulty (h : ((m.arrays a).members i).state = .faulty) : Holds a v touched m i := by
  refine ⟨fun d _ hactive => ?_, fun d _ hspare => ?_⟩
  · rw [h] at hactive
    cases hactive
  · rw [h] at hspare
    cases hspare

lemma Holds.transport (h : Holds a v touched m i) (hlayout : m'.layout a = m.layout a)
    (hstate : ((m'.arrays a).members i).state = ((m.arrays a).members i).state)
    (hresync : ∀ d, (m.layout a).dev i = some d → ((m.arrays a).members i).state = .spare →
      (m'.arrays a).resyncOffset = (m.arrays a).resyncOffset)
    (hdata : ∀ d, (m.layout a).dev i = some d → ∀ k < (m.layout a).sectors,
      (m'.devs d).data ((m.layout a).offset + k) = (m.devs d).data ((m.layout a).offset + k)) :
    Holds a v touched m' i := by
  refine ⟨fun d hd hactive k hk => ?_, fun d hd hspare k hk hlt hnot => ?_⟩
  · rw [hlayout] at hd hk ⊢
    rw [hdata d hd k hk]
    exact h.active d hd (hstate.symm.trans hactive) k hk
  · rw [hlayout] at hd hk ⊢
    rw [hstate] at hspare
    rw [hresync d hd hspare] at hlt
    rw [hdata d hd k hk]
    exact h.spare d hd hspare k hk hlt hnot

lemma Holds.quiet (h : Holds a v touched m i) (hq : Quiet a m m') : Holds a v touched m' i := by
  rcases hq.state i with heq | hfaulty
  · exact h.transport hq.layout heq (fun _ _ _ => hq.resync) fun d _ => hq.data d
  · exact Holds.of_faulty hfaulty

lemma Machine.InState.congr {s : MemberState} (h : m.InState a s i)
    (hlayout : m'.layout a = m.layout a)
    (hstate : ((m'.arrays a).members i).state = ((m.arrays a).members i).state) :
    m'.InState a s i := by
  rw [InState, hlayout, hstate]
  exact h

lemma Machine.InState.of_quiet {s : MemberState} (h : m'.InState a s i) (hs : s ≠ .faulty)
    (hq : Quiet a m m') : m.InState a s i := by
  rcases hq.state i with heq | hfaulty
  · exact h.congr hq.layout.symm heq.symm
  · exact absurd (h.2.2.symm.trans hfaulty) hs

lemma Mirror.transport (h : Mirror a v touched m) (hlayout : m'.layout a = m.layout a)
    (hlive : ∀ j, m'.Live a j → ∃ k, m.Live a k)
    (hholds : ∀ j < (m.layout a).size, Holds a v touched m' j) : Mirror a v touched m' := by
  refine ⟨?_, fun j hj => ?_, ?_⟩
  · rw [hlayout]
    exact h.laid
  · rw [hlayout] at hj
    exact hholds j hj
  · rintro ⟨j, hj⟩
    rw [hlayout]
    exact h.live (hlive j hj)

lemma Mirror.quiet (h : Mirror a v touched m) (hq : Quiet a m m') : Mirror a v touched m' :=
  h.transport hq.layout (fun j hj => ⟨j, hj.of_quiet (by decide) hq⟩)
    fun j hj => (h.holds j hj).quiet hq

lemma memberFault_quiet (hlaid : (m.layout a).Laid) (idx : Nat) : Succeeds (memberFault a idx) m
      fun _ m' => Quiet a m m' ∧
        (∀ i, i ≠ idx → ((m'.arrays a).members i).state = ((m.arrays a).members i).state) ∧
        (idx < (m.layout a).size → ∀ d, (m.layout a).dev idx = some d →
          ((m'.arrays a).members idx).state = .faulty) := by
  refine (memberFault_ends a idx m).post ?_
  rintro - m' (⟨rfl, hskip⟩ | hsynced)
  · refine ⟨Quiet.refl m', fun _ _ => rfl, fun hidx d hd => ?_⟩
    by_contra hstate
    exact hskip ⟨hidx, Option.isSome_of_eq_some hd, hstate⟩
  · have hfaulted := Quiet.of_faulted m a idx
    have hquiet : Quiet a (m.faulted a idx) m' := Quiet.of_synced hsynced (hfaulted.laid hlaid)
    refine ⟨hfaulted.trans hquiet, fun i hi => ?_, fun _ _ _ => ?_⟩
    · rw [hsynced.state, state_faulted_of_ne m a hi]
    · rw [hsynced.state, state_faulted_self]

end Quiet

/-! ## Reads -/

/-- A read left the members alone, but that active ones may have failed, and returned what an active
one holds. -/
structure ReadBack (a : ArrayId) (lba : UInt64) (count : UInt32) (buf : Buffer) (m m' : Machine) :
    Prop where
  quiet : Quiet a m m'
  states : ∀ i, ((m.arrays a).members i).state ≠ .active →
    ((m'.arrays a).members i).state = ((m.arrays a).members i).state
  source : ∃ i d, m'.Live a i ∧ (m'.layout a).dev i = some d ∧
    buf.sectors = load (m.devs d).data ((m.layout a).offset + lba.toNat) count.toNat

section Read

variable {lba : UInt64} {count : UInt32} {buf : Buffer}

lemma ReadBack.length (h : ReadBack a lba count buf m m') : buf.sectors.length = count.toNat := by
  obtain ⟨i, d, -, -, hbuf⟩ := h.source
  rw [hbuf, length_load]

lemma ReadBack.inState {s : MemberState} (h : ReadBack a lba count buf m m') (hi : m.InState a s i)
    (hs : s ≠ .active) : m'.InState a s i := by
  refine hi.congr h.quiet.layout (h.states i ?_)
  rw [hi.2.2]
  exact hs

lemma ReadBack.after (h : ReadBack a lba count buf m' m'') (hq : Quiet a m m')
    (hstates : ∀ i, ((m.arrays a).members i).state ≠ .active →
      ((m'.arrays a).members i).state = ((m.arrays a).members i).state)
    (hfit : lba.toNat + count.toNat ≤ (m.layout a).sectors) : ReadBack a lba count buf m m'' := by
  refine ⟨hq.trans h.quiet, fun i hi => ?_, ?_⟩
  · have hsame := hstates i hi
    rw [h.states i (hsame ▸ hi), hsame]
  · obtain ⟨i, d, hlive, hd, hbuf⟩ := h.source
    refine ⟨i, d, hlive, hd, ?_⟩
    rw [hbuf, hq.layout]
    refine load_congr fun k hl hr => ?_
    obtain ⟨t, rfl⟩ := Nat.exists_eq_add_of_le (show (m.layout a).offset ≤ k by omega)
    exact hq.data d t (by omega)

section

variable (hlaid : (m.layout a).Laid) (hfit : lba.toNat + count.toNat ≤ (m.layout a).sectors)
include hlaid hfit

lemma raid1ReadEach_ends (tries : List Nat) (last : Err) :
    Ends (raid1ReadEach a lba count tries last) m (fun buf m' => ReadBack a lba count buf m m')
      fun _ m' => Quiet a m m' := by
  induction tries generalizing m last with
  | nil => exact Quiet.refl m
  | cons tried rest ih =>
    apply getArray_bind
    dsimp only
    have hidx := readIndex_lt hlaid tried
    generalize (m.arrays a).readIndex tried = idx at hidx ⊢
    split
    · exact ih hlaid hfit last
    rename_i hreadable
    have hactive : ((m.arrays a).members idx).state = .active := by
      simp only [MdArray.raid1Readable, Bool.not_eq_true', Bool.not_eq_false, Bool.and_eq_true,
        beq_iff_eq] at hreadable
      exact hreadable.2
    refine .attempt_bind ((memberRead_ends hlaid hidx hfit).mono ?_ ?_)
    · rintro buf m1 ⟨d, hd, -, rfl, hbuf, -⟩
      apply modifyArray_bind
      generalize hm2 : Machine.setArray (m.asked _) a _ = m2
      have hquiet : Quiet a (m.asked ((m.layout a).access d lba count false)) m2 := by
        rw [← hm2]
        exact Quiet.of_setArray rfl rfl fun _ => rfl
      have hstate : ∀ i, ((m2.arrays a).members i).state = ((m.arrays a).members i).state := by
        intro i
        rw [← hm2, arrays_setArray_self, arrays_asked]
      have hboth := (Quiet.of_asked m _).trans hquiet
      have hlive : m.InState a .active idx := ⟨hidx, ⟨d, hd⟩, hactive⟩
      refine ⟨hboth, fun i _ => hstate i, idx, d, hlive.congr hboth.layout (hstate idx), ?_, hbuf⟩
      rw [hboth.layout]
      exact hd
    · intro e m1 herr
      have hquiet : Quiet a m m1 ∧ m1.arrays = m.arrays := by
        rcases herr with ⟨rfl, -⟩ | ⟨d, -, -, rfl, -⟩
        · exact ⟨Quiet.refl m1, rfl⟩
        · exact ⟨⟨rfl, rfl, fun _ => .inl rfl, fun _ _ _ => rfl⟩, rfl⟩
      obtain ⟨hquiet, harrays⟩ := hquiet
      refine Succeeds.next (memberFault_quiet (hquiet.laid hlaid) idx) ?_
      rintro - m2 ⟨hquiet2, hothers, -⟩
      rw [harrays] at hothers
      have hboth := hquiet.trans hquiet2
      refine (ih (hboth.laid hlaid) (by rw [hboth.layout]; exact hfit) e).mono ?_
        fun _ _ => hboth.trans
      refine fun buf m3 hread => hread.after hboth (fun j hj => hothers j ?_) hfit
      rintro rfl
      exact hj hactive

lemma raid1Read_ends :
    Ends (raid1Read a lba count) m (fun buf m' => ReadBack a lba count buf m m')
    fun _ m' => Quiet a m m' :=
  getArray_bind (.guard fun _ =>
    raid1ReadEach_ends hlaid hfit _ _)

end

lemma ReadBack.mem (h : ReadBack a lba count buf m m') (hm : Mirror a v touched m)
    (hfit : lba.toNat + count.toNat ≤ (m.layout a).sectors) {t : Nat} {s : Sector}
    (hs : buf.sectors[t]? = some s) : s ∈ v (lba.toNat + t) := by
  have ht : t < count.toNat := h.length ▸ (List.getElem?_eq_some_iff.mp hs).1
  obtain ⟨i, d, hlive, hd, hbuf⟩ := h.source
  have hold := hlive.of_quiet (by decide) h.quiet
  rw [h.quiet.layout] at hd
  rw [hbuf, getElem?_load ht, Option.some.injEq] at hs
  rw [← hs, Nat.add_assoc]
  exact (hm.holds i hold.1).active d hd hold.2.2 _ (by omega)

end Read

/-! ## Writes -/

structure Writing (a : ArrayId) (v : Contents) (touched : Nat → Prop) (lba : Nat) (l : List Sector)
    (is : List Nat) (m : Machine) : Prop where
  laid : (m.layout a).Mirrored
  pending : ∀ i ∈ is, i < (m.layout a).size → Holds a v touched m i
  done : ∀ i < (m.layout a).size, i ∉ is → Holds a (v.write lba l) touched m i
  live : (∃ i, m.Live a i) → ∀ k < (m.layout a).sectors, ¬ touched k

section Write

variable {is : List Nat} {lba : UInt64} {buf : Buffer} {d : DevId} {k : UInt64} {n : Nat}

lemma Holds.written_of_ne (h : Holds a v touched m i) (hne : (m.layout a).dev i ≠ some d)
    (k : UInt64) (l : List Sector) : Holds a v touched (m.written d k l) i := by
  refine h.transport (layout_written m a d k l) rfl (fun _ _ _ => rfl) fun d' hd' _ _ => ?_
  rw [Machine.written, devs_setDev_of_ne]
  rintro rfl
  exact hne hd'

lemma Holds.written_self (h : Holds a v touched m i) (hd : (m.layout a).dev i = some d)
    (hk : k.toNat = (m.layout a).offset + n) (l : List Sector) :
    Holds a (v.write n l) touched (m.written d k l) i := by
  have hdata :
      ((m.written d k l).devs d).data = store (m.devs d).data ((m.layout a).offset + n) l := by
    rw [Machine.written, devs_setDev_self, ← hk]
    rfl
  refine ⟨fun d' hd' hactive j hj => ?_, fun d' hd' hspare j hj hlt hnot => ?_⟩
  · cases hd.symm.trans hd'
    rw [hdata]
    exact Contents.store_mem fun _ => h.active d hd hactive j hj
  · cases hd.symm.trans hd'
    rw [hdata]
    exact Contents.store_mem fun _ => h.spare d hd hspare j hj hlt hnot

lemma Machine.Live.not_skipped (h : m.Live a i) : (m.arrays a).raid1Skips i lba = false := by
  obtain ⟨-, ⟨d, hd⟩, hactive⟩ := h
  have hd : ((m.arrays a).members i).dev = some d := hd
  simp [MdArray.raid1Skips, hd, hactive]

lemma Holds.skipped (h : Holds a v touched m i) (hskip : (m.arrays a).raid1Skips i lba = true)
    (l : List Sector) : Holds a (v.write lba.toNat l) touched m i := by
  simp only [MdArray.raid1Skips, Bool.or_eq_true, Bool.and_eq_true, Option.isNone_iff_eq_none,
    beq_iff_eq, decide_eq_true_eq] at hskip
  refine ⟨fun d hd hactive => ?_, fun d hd hspare j hj hlt hnot => ?_⟩
  · have hd : ((m.arrays a).members i).dev = some d := hd
    rcases hskip with (hnone | hfaulty) | ⟨hspare, -⟩
    · rw [hnone] at hd
      cases hd
    · rw [hfaulty] at hactive
      cases hactive
    · rw [hspare] at hactive
      cases hactive
  · have hd' : ((m.arrays a).members i).dev = some d := hd
    rcases hskip with (hnone | hfaulty) | ⟨-, habove⟩
    · rw [hnone] at hd'
      cases hd'
    · rw [hfaulty] at hspare
      cases hspare
    · -- the write starts at or above the rebuild point
      have habove := UInt64.le_iff_toNat_le.mp habove
      rw [Contents.write_of_out (by omega)]
      exact h.spare d hd hspare j hj hlt hnot

lemma Writing.next (h : Writing a v touched n l (i :: is) m) (hnodup : i ∉ is)
    (hlayout : m'.layout a = m.layout a) (hlive : ∀ j, m'.Live a j → m.Live a j)
    (hself : Holds a (v.write n l) touched m' i)
    (hother : ∀ j < (m.layout a).size, j ≠ i → ∀ w, Holds a w touched m j →
      Holds a w touched m' j) :
    Writing a v touched n l is m' := by
  refine ⟨?_, fun j hj hlt => ?_, fun j hlt hj => ?_, ?_⟩
  · rw [hlayout]
    exact h.laid
  · rw [hlayout] at hlt
    exact hother j hlt (ne_of_mem_of_not_mem hj hnodup) v (h.pending j (mem_cons_of_mem _ hj) hlt)
  · rw [hlayout] at hlt
    by_cases hji : j = i
    · rw [hji]
      exact hself
    · exact hother j hlt hji _ (h.done j hlt fun hmem => hj (mem_of_ne_of_mem hji hmem))
  · rintro ⟨j, hj⟩
    rw [hlayout]
    exact h.live ⟨j, hlive j hj⟩

lemma Layout.Laid.dev_ne {L : Layout} (h : L.Laid) {j : Nat} (hi : i < L.size) (hj : j < L.size)
    (hne : j ≠ i) (hd : L.dev i = some d) : L.dev j ≠ some d :=
  fun hdj => hne (h.distinct j hj i hi d hdj hd)

lemma Writing.taken (h : Writing a v touched n l (i :: is) m) (hnodup : i ∉ is)
    (hi : i < (m.layout a).size) (hd : (m.layout a).dev i = some d) (acc : Access)
    (hk : k.toNat = (m.layout a).offset + n) :
    Writing a v touched n l is ((m.asked acc).written d k l) := by
  have hquiet : Quiet a m (m.asked acc) := .of_asked m acc
  have hlayout : ((m.asked acc).written d k l).layout a = m.layout a := by
    rw [layout_written, layout_asked]
  refine h.next hnodup hlayout (fun j hj => ?_) ?_ fun j hj hne w hw => ?_
  · refine hj.congr hlayout.symm ?_
    exact congrArg (fun arrays => ((arrays a).members j).state) (arrays_asked m acc).symm
  · refine ((h.pending i mem_cons_self hi).quiet hquiet).written_self ?_ ?_ l
    · rw [hquiet.layout]
      exact hd
    · rw [hquiet.layout]
      exact hk
  · refine (hw.quiet hquiet).written_of_ne ?_ k l
    rw [hquiet.layout]
    exact h.laid.toLaid.dev_ne hi hj hne hd

/-- A member was marked faulty after a write to its drive; the others are as they were. -/
structure Lost (a : ArrayId) (i : Nat) (m m' : Machine) : Prop where
  layout : m'.layout a = m.layout a
  faulty : ((m'.arrays a).members i).state = .faulty
  live : ∀ j, m'.Live a j → m.Live a j
  others : ∀ j < (m.layout a).size, j ≠ i → ∀ w touched, Holds a w touched m j →
    Holds a w touched m' j

lemma memberWrite_bind {β : Type} {k : Except Err Unit → MdM β} {k' : Err → MdM β}
    {Q : β → Machine → Prop} {E : Err → Machine → Prop} (hlaid : (m.layout a).Laid)
    (hi : i < (m.layout a).size) {d : DevId} (hd : (m.layout a).dev i = some d)
    (hstate : ((m.arrays a).members i).state ≠ .faulty)
    (hfit : lba.toNat + buf.sectors.length ≤ (m.layout a).sectors)
    (hk : ∀ e, k (.error e) = memberFault a i >>= fun _ => k' e)
    (hok : Ends (k (.ok ())) ((m.asked ((m.layout a).access d lba buf.count true)).written d
      (dataOffsetFor (m.layout a).array.tailMeta + lba) buf.sectors) Q E)
    (herr : ∀ e m', Lost a i m m' → Ends (k' e) m' Q E) :
    Ends (attempt (memberWrite a i lba buf) >>= k) m Q E := by
  refine .attempt_bind ((memberWrite_ends hlaid hi hfit).mono ?_ ?_)
  · rintro - m1 ⟨d', hd', -, rfl, -⟩
    cases hd.symm.trans hd'
    exact hok
  · rintro e m1 (⟨-, hnone | hfaulty⟩ | ⟨d', l, hd', -, -, rfl, -⟩)
    · cases hd.symm.trans hnone
    · exact absurd hfaulty hstate
    cases hd.symm.trans hd'
    rw [hk]
    generalize hm1 : (m.noted _).written d _ l = m1
    have hlayout : m1.layout a = m.layout a := by
      rw [← hm1, layout_written, layout_noted]
    have harrays : m1.arrays = m.arrays := by
      rw [← hm1]
      rfl
    have hlaid1 : (m1.layout a).Laid := by
      rw [hlayout]
      exact hlaid
    refine Succeeds.next (memberFault_quiet hlaid1 i) ?_
    rintro - m2 ⟨hquiet, -, hfaulty⟩
    rw [hlayout] at hfaulty
    refine herr e m2 ⟨hquiet.layout.trans hlayout, hfaulty hi d hd, fun j hj => ?_,
      fun j hj hne w touched hw => ?_⟩
    · refine (hj.of_quiet (by decide) hquiet).congr hlayout.symm ?_
      rw [harrays]
    · rw [← hm1] at hquiet
      have hnoted : Holds a w touched (m.noted ((m.layout a).access d lba buf.count true)) j :=
        ⟨hw.active, hw.spare⟩
      exact (hnoted.written_of_ne (hlaid.dev_ne hi hj hne hd) _ l).quiet hquiet

/-- A write that fails leaves no member active, and what it touched is not promised any more. -/
lemma Writing.mirror_failed (h : Writing a v touched n l [] m) (hdead : ∀ i, ¬ m.Live a i) :
    Mirror a v (fun k => touched k ∨ (n ≤ k ∧ k < n + l.length)) m := by
  refine ⟨h.laid, fun i hi => ⟨fun d hd hactive => ?_, fun d hd hspare k hk hlt hnot => ?_⟩, ?_⟩
  · exact absurd ⟨hi, ⟨d, hd⟩, hactive⟩ (hdead i)
  · obtain ⟨htouched, hout⟩ := not_or.mp hnot
    have hnew := (h.done i hi not_mem_nil).spare d hd hspare k hk hlt htouched
    rwa [Contents.write_of_out (by omega)] at hnew
  · rintro ⟨i, hi⟩
    exact absurd hi (hdead i)

/-- The write loop. It succeeds if an active member took the write; the members that did not are
faulty. -/
lemma raid1WriteEach_ends (h : Writing a v touched lba.toNat buf.sectors is m) (hnodup : is.Nodup)
    (his : ∀ i ∈ is, i < (m.layout a).size)
    (hfit : lba.toNat + buf.sectors.length ≤ (m.layout a).sectors) {ok : Nat}
    (hok : ok = 0 → ∀ i, m.Live a i → i ∈ is) (last : Err) :
    Ends (raid1WriteEach a lba buf is ok last) m
      (fun _ m' => Mirror a (v.write lba.toNat buf.sectors) touched m') fun _ m' => Mirror a v
        (fun k => touched k ∨ (lba.toNat ≤ k ∧ k < lba.toNat + buf.sectors.length)) m' := by
  induction is generalizing m ok last with
  | nil =>
    unfold raid1WriteEach
    split
    · exact ⟨h.laid, fun i hi => h.done i hi not_mem_nil, h.live⟩
    · rename_i hzero
      exact h.mirror_failed fun i hi => absurd (hok (Nat.eq_zero_of_not_pos hzero) i hi) not_mem_nil
  | cons i is ih =>
    obtain ⟨hi, hnodup⟩ := nodup_cons.mp hnodup
    have hsize : i < (m.layout a).size := his i mem_cons_self
    have hrest : ∀ j ∈ is, j < (m.layout a).size := fun j hj => his j (mem_cons_of_mem _ hj)
    apply getArray_bind
    split
    · rename_i hskip
      have hnext : Writing a v touched lba.toNat buf.sectors is m :=
        h.next hi rfl (fun _ hj => hj) ((h.pending i mem_cons_self hsize).skipped hskip _)
          fun _ _ _ _ hw => hw
      refine ih hnext hnodup hrest hfit (fun hzero j hj => ?_) last
      refine mem_of_ne_of_mem ?_ (hok hzero j hj)
      rintro rfl
      rw [hj.not_skipped] at hskip
      cases hskip
    · rename_i htake
      have hlaid := h.laid.toLaid
      simp only [MdArray.raid1Skips, Bool.or_eq_true, not_or, Option.isNone_iff_eq_none,
        beq_iff_eq] at htake
      obtain ⟨⟨hdev, hstate⟩, -⟩ := htake
      obtain ⟨d, hd⟩ := Option.ne_none_iff_exists'.mp hdev
      refine memberWrite_bind hlaid hsize hd hstate hfit (fun _ => rfl) ?_ fun e m1 hlost => ?_
      · have hk := hlaid.sector_toNat hsize hd lba (by omega)
        have hnext := h.taken hi hsize hd ((m.layout a).access d lba buf.count true) hk
        generalize hm1 :
          (m.asked ((m.layout a).access d lba buf.count true)).written d _ _ = m1 at hnext
        have hlayout : m1.layout a = m.layout a := by
          rw [← hm1, layout_written, layout_asked]
        have harrays : m1.arrays = m.arrays := by
          rw [← hm1]
          exact arrays_asked m _
        refine ih hnext hnodup (by rw [hlayout]; exact hrest) (by rw [hlayout]; exact hfit)
          (fun hzero j hj => ?_) last
        have hj : m.InState a .active j := hj.congr hlayout.symm (by rw [harrays])
        split at hzero
        · exact absurd hzero (Nat.succ_ne_zero ok)
        · rename_i hinactive
          refine mem_of_ne_of_mem ?_ (hok hzero j hj)
          rintro rfl
          exact hinactive hj.2.2
      · have hnext := h.next hi hlost.layout hlost.live (.of_faulty hlost.faulty)
          fun j hj hne w => hlost.others j hj hne w touched
        refine ih hnext hnodup (by rw [hlost.layout]; exact hrest)
          (by rw [hlost.layout]; exact hfit) (fun hzero j hj => ?_) e
        refine mem_of_ne_of_mem ?_ (hok hzero j (hlost.live j hj))
        rintro rfl
        cases hj.2.2.symm.trans hlost.faulty

lemma Mirror.write (h : Mirror a v touched m)
    (hfit : lba.toNat + buf.sectors.length ≤ (m.layout a).sectors) :
    Ends (raid1Write a lba buf) m (fun _ m' => Mirror a (v.write lba.toNat buf.sectors) touched m')
      fun _ m' => ∃ touched', Mirror a v touched' m' := by
  have hstart : Writing a v touched lba.toNat buf.sectors (range (m.layout a).size) m := by
    refine ⟨h.laid, fun i _ => h.holds i, fun i hi hnot => ?_, h.live⟩
    exact absurd (mem_range.mpr hi) hnot
  refine getArray_bind ((raid1WriteEach_ends hstart nodup_range (fun i => mem_range.mp)
    hfit (fun _ i hi => mem_range.mpr hi.1) _).mono (fun _ _ hm => hm) fun _ _ hm => ⟨_, hm⟩)

end Write

/-! ## Rebuilding -/

def Machine.OneSpare (m : Machine) (a : ArrayId) : Prop :=
  (m.arrays a).resyncOffset < (m.arrays a).memberSectors →
    ∀ i j, m.IsSpare a i → m.IsSpare a j → i = j

section Rebuild

lemma Machine.OneSpare.quiet (h : m.OneSpare a) (hq : Quiet a m m') : m'.OneSpare a := by
  intro hlt i j hi hj
  have hsectors : (m'.arrays a).memberSectors = (m.arrays a).memberSectors :=
    congrArg (fun L => L.array.memberSectors) hq.layout
  rw [hq.resync, hsectors] at hlt
  exact h hlt i j (hi.of_quiet (by decide) hq) (hj.of_quiet (by decide) hq)

lemma raid1Spare_eq_some (h : (m.arrays a).raid1Spare = some i) : m.IsSpare a i := by
  have hmem := mem_of_find?_eq_some h
  have hspare := find?_some h
  simp only [Bool.and_eq_true, beq_iff_eq, Option.isSome_iff_exists] at hspare
  exact ⟨mem_range.mp hmem, hspare.1, hspare.2⟩

lemma resyncRun_fits {arr : MdArray} (h : ¬ arr.resyncOffset ≥ arr.memberSectors)
    (maxSectors : UInt32) :
    arr.resyncOffset.toNat + (arr.resyncRun maxSectors).toNat ≤ arr.memberSectors.toNat := by
  have hlt : arr.resyncOffset.toNat < arr.memberSectors.toNat :=
    Nat.not_le.mp fun hle => h (UInt64.le_iff_toNat_le.mpr hle)
  have hsub : (arr.memberSectors - arr.resyncOffset).toNat =
      arr.memberSectors.toNat - arr.resyncOffset.toNat :=
    UInt64.toNat_sub_of_le _ _ (UInt64.le_iff_toNat_le.mpr (Nat.le_of_lt hlt))
  unfold MdArray.resyncRun
  dsimp only
  generalize (if maxSectors ≠ 0 ∧ resyncChunk > maxSectors then maxSectors else resyncChunk) = run
  split
  · have hle : (arr.memberSectors - arr.resyncOffset).toUInt32.toNat ≤
        (arr.memberSectors - arr.resyncOffset).toNat := by
      exact Nat.mod_le _ _
    omega
  · rename_i hle
    rw [gt_iff_lt, UInt64.lt_iff_toNat_lt, UInt32.toNat_toUInt64] at hle
    omega

/-- A pass copied sectors to the drive of the spare `i`. -/
structure Copied (a : ArrayId) (i : Nat) (l : List Sector) (m m' : Machine) : Prop where
  layout : m'.layout a = m.layout a
  state : ∀ j, ((m'.arrays a).members j).state = ((m.arrays a).members j).state
  resync : (m'.arrays a).resyncOffset.toNat = (m.arrays a).resyncOffset.toNat + l.length
  self : ∀ d, (m.layout a).dev i = some d → (m'.devs d).data =
    store (m.devs d).data ((m.layout a).offset + (m.arrays a).resyncOffset.toNat) l
  other : ∀ d, (m.layout a).dev i ≠ some d → m'.devs d = m.devs d

lemma Copied.of_written {d : DevId} (hd : (m.layout a).dev i = some d) (acc : Access) {k : UInt64}
    (hk : k.toNat = (m.layout a).offset + (m.arrays a).resyncOffset.toNat) {run : UInt32}
    (hlen : l.length = run.toNat)
    (hrun : (m.arrays a).resyncOffset.toNat + l.length ≤ (m.layout a).sectors) :
    Copied a i l m (((m.asked acc).written d k l).setArray a
      fun arr => { arr with resyncOffset := arr.resyncOffset + run.toUInt64 }) := by
  refine ⟨?_, fun j => ?_, ?_, fun d' hd' => ?_, fun d' hd' => ?_⟩
  · rw [layout_setArray rfl, layout_written, layout_asked]
  · rw [arrays_setArray_self, Machine.written, arrays_setDev, arrays_asked]
  · rw [arrays_setArray_self, Machine.written, arrays_setDev, arrays_asked, UInt64.toNat_add,
      UInt32.toNat_toUInt64, ← hlen]
    exact Nat.mod_eq_of_lt (Nat.lt_of_le_of_lt hrun (UInt64.toNat_lt _))
  · cases hd.symm.trans hd'
    rw [devs_setArray, Machine.written, devs_setDev_self, devs_asked, ← hk]
    rfl
  · have hne : d' ≠ d := by
      rintro rfl
      exact hd' hd
    rw [devs_setArray, Machine.written, devs_setDev_of_ne _ hne, devs_asked]

def Machine.promoted (m : Machine) (a : ArrayId) (i : Nat) : Machine :=
  m.setArray a fun arr => arr.setMember i fun mem => { mem with state := .active }

lemma layout_promoted (m : Machine) (a : ArrayId) (i : Nat) :
    (m.promoted a i).layout a = m.layout a :=
  layout_setArray (still_setMember _ _ rfl rfl)

lemma state_promoted_self (m : Machine) (a : ArrayId) (i : Nat) :
    (((m.promoted a i).arrays a).members i).state = .active := by
  rw [Machine.promoted, arrays_setArray_self, members_setMember_self]

lemma state_promoted_of_ne (m : Machine) (a : ArrayId) {j : Nat} (h : j ≠ i) :
    (((m.promoted a i).arrays a).members j).state = ((m.arrays a).members j).state := by
  rw [Machine.promoted, arrays_setArray_self, members_setMember_of_ne _ _ h]

lemma resync_promoted (m : Machine) (a : ArrayId) (i : Nat) :
    ((m.promoted a i).arrays a).resyncOffset = (m.arrays a).resyncOffset := by
  rw [Machine.promoted, arrays_setArray_self]
  rfl

/-- A pass that copied something to the spare `i`, which is made active with the last sector. -/
structure Rebuilt (a : ArrayId) (i : Nat) (run : UInt32) (buf : Buffer) (m m₁ m₂ m' : Machine) :
    Prop where
  more : (m.arrays a).resyncOffset < (m.arrays a).memberSectors
  fits : (m.arrays a).resyncOffset.toNat + run.toNat ≤ (m.layout a).sectors
  read : ReadBack a (m.arrays a).resyncOffset run buf m m₁
  copied : Copied a i buf.sectors m₁ m₂
  last : (m₂.arrays a).resyncOffset ≥ (m₂.arrays a).memberSectors → Quiet a (m₂.promoted a i) m'
  others : ¬ (m₂.arrays a).resyncOffset ≥ (m₂.arrays a).memberSectors → m' = m₂

/-- A rebuild pass: nothing is left to copy, or the first spare gets the next sectors; it fails when
no member can be read, or when the spare cannot be written. -/
lemma resyncStep_ends (hlaid : (m.layout a).Laid) (maxSectors : UInt32) :
    Ends (resyncStep a maxSectors) m
      (fun ret m' => ∃ i, m.IsSpare a i ∧
        ((¬ (m.arrays a).resyncOffset < (m.arrays a).memberSectors ∧ ret = 0 ∧ m' = m) ∨
          ret = (m.arrays a).resyncRun maxSectors ∧ ∃ buf m1 m2, Rebuilt a i ret buf m m1 m2 m'))
      fun _ m' => Quiet a m m' ∨ ∃ i m1, Quiet a m m1 ∧ Lost a i m1 m' := by
  have hsame : Quiet a m m := Quiet.refl m
  refine getArray_bind (Ends.failIf_bind (fun _ => .inl hsame) fun _ =>
    Ends.failIf_bind (fun _ => .inl hsame) fun _ =>
      Ends.orThrow_bind (fun _ => .inl hsame) fun i hi => ?_)
  have hspare := raid1Spare_eq_some hi
  split
  · rename_i hdone
    exact ⟨i, hspare, .inl ⟨UInt64.not_lt.mpr hdone, rfl, rfl⟩⟩
  rename_i hmore
  have hrun := resyncRun_fits hmore maxSectors
  generalize hret : (m.arrays a).resyncRun maxSectors = run at hrun
  refine .call (raid1Read_ends hlaid hrun) ?_ fun _ _ => .inl
  rintro buf m1 hread
  have hlaid1 := hread.quiet.laid hlaid
  have hspare1 : m1.InState a .spare i := hread.inState hspare nofun
  obtain ⟨hsize, ⟨d, hd⟩, hstate⟩ := hspare1
  have hfit : (m1.arrays a).resyncOffset.toNat + buf.sectors.length ≤ (m1.layout a).sectors := by
    rw [hread.quiet.resync, hread.quiet.layout, hread.length]
    exact hrun
  rw [← hread.quiet.resync]
  refine memberWrite_bind hlaid1 hsize hd (by rw [hstate]; exact nofun) hfit (fun _ => rfl) ?_ ?_
  · have hk := hlaid1.sector_toNat hsize hd (m1.arrays a).resyncOffset (by omega)
    have hcopied :=
      Copied.of_written hd ((m1.layout a).access d (m1.arrays a).resyncOffset buf.count true) hk
      hread.length hfit
    apply modifyArray_bind
    generalize Machine.setArray (Machine.written _ _ _ _) a _ = m2 at hcopied
    have hmore : (m.arrays a).resyncOffset < (m.arrays a).memberSectors := UInt64.not_le.mp hmore
    apply getArray_bind
    split
    · rename_i hdone
      have hlaid2 : ((m2.promoted a i).layout a).Laid := by
        rw [layout_promoted, hcopied.layout]
        exact hlaid1
      have hsync := Quiet.of_synced (superSync_synced a (m2.promoted a i)) hlaid2
      have hend : ∀ m', Quiet a (m2.promoted a i) m' → Rebuilt a i run buf m m1 m2 m' :=
          fun m' hq =>
        ⟨hmore, hrun, hread, hcopied, fun _ => hq, absurd hdone⟩
      refine modifyArray_bind (Ends.attempt_bind ((Ends.of_final hsync).mono ?_ ?_))
      all_goals exact fun _ m' hq => ⟨i, hspare, .inr ⟨rfl, buf, m1, m2, hend m' hq⟩⟩
    · rename_i hno
      exact ⟨i, hspare,
        .inr ⟨rfl, buf, m1, m2, hmore, hrun, hread, hcopied, fun hdone => absurd hdone hno,
        fun _ => rfl⟩⟩
  · exact fun e m' hlost => .inr ⟨i, m1, hread.quiet, hlost⟩

section

variable (h : Mirror a v touched m)
include h

lemma Mirror.lost (hm' : Lost a i m m') : Mirror a v touched m' := by
  refine h.transport hm'.layout (fun j hj => ⟨j, hm'.live j hj⟩) fun j hj => ?_
  by_cases hji : j = i
  · rw [hji]
    exact Holds.of_faulty hm'.faulty
  · exact hm'.others j hj hji v touched (h.holds j hj)

lemma Mirror.copied (hone : ∀ j, m.IsSpare a j → j = i) (hspare : m.IsSpare a i)
    (hlive : ∃ j, m.Live a j)
    (hl : ∀ (t : Nat) (s : Sector), l[t]? = some s → s ∈ v ((m.arrays a).resyncOffset.toNat + t))
    (hm' : Copied a i l m m') : Mirror a v touched m' := by
  obtain ⟨hi, ⟨d, hd⟩, hstate⟩ := hspare
  refine h.transport hm'.layout (fun _ _ => hlive) fun j hj => ?_
  by_cases hji : j = i
  · subst hji
    refine ⟨fun d' _ hactive => ?_, fun d' hd' _ n hn hlt hnot => ?_⟩
    · cases hactive.symm.trans ((hm'.state j).trans hstate)
    · rw [hm'.layout] at hd' hn ⊢
      cases hd.symm.trans hd'
      rw [hm'.resync] at hlt
      rw [hm'.self d hd]
      by_cases hlow : n < (m.arrays a).resyncOffset.toNat
      · rw [store_of_lt (by omega)]
        exact (h.holds j hj).spare d hd hstate n hn hlow hnot
      · -- a sector of this pass
        obtain ⟨t, rfl⟩ := Nat.exists_eq_add_of_le (Nat.not_lt.mp hlow)
        have ht : t < l.length := by omega
        rw [← Nat.add_assoc, store_of_mem ht]
        exact hl t _ (getElem?_eq_getElem ht)
  · refine (h.holds j hj).transport hm'.layout (hm'.state j)
      (fun d' hd' hsp => ?_) fun d' hd' _ _ => ?_
    · exact absurd (hone j ⟨hj, ⟨d', hd'⟩, hsp⟩) hji
    · rw [hm'.other d' fun hid => hji (h.laid.distinct j hj i hi d' hd' hid)]

lemma Mirror.promoted (hlive : ∃ j, m.Live a j) (hspare : m.IsSpare a i)
    (hdone : (m.arrays a).resyncOffset ≥ (m.arrays a).memberSectors) :
    Mirror a v touched (m.promoted a i) := by
  have hlayout := layout_promoted m a i
  refine h.transport hlayout (fun _ _ => hlive) fun j hj => ?_
  by_cases hji : j = i
  · subst hji
    refine ⟨fun d hd _ k hk => ?_, fun d _ hsp => ?_⟩
    · rw [hlayout] at hd hk ⊢
      have hle : (m.layout a).sectors ≤ (m.arrays a).resyncOffset.toNat :=
        UInt64.le_iff_toNat_le.mp hdone
      exact (h.holds j hj).spare d hd hspare.2.2 k hk (by omega) (h.live hlive k hk)
    · cases hsp.symm.trans (state_promoted_self m a j)
  · exact (h.holds j hj).transport hlayout (state_promoted_of_ne m a hji)
      (fun _ _ _ => resync_promoted m a i) fun _ _ _ _ => rfl

lemma Mirror.resyncStep (hone : m.OneSpare a) (maxSectors : UInt32) :
    Ends (resyncStep a maxSectors) m (fun _ m' => Mirror a v touched m' ∧ m'.OneSpare a)
      fun _ m' => Mirror a v touched m' := by
  refine (resyncStep_ends h.laid.toLaid maxSectors).mono ?_ ?_
  · rintro ret m' ⟨i, hspare, ⟨-, -, rfl⟩ | ⟨-, buf, m1, m2, hr⟩⟩
    · exact ⟨h, hone⟩
    have h1 := h.quiet hr.read.quiet
    have hspare1 : m1.IsSpare a i := hr.read.inState hspare nofun
    have hlive1 : ∃ j, m1.Live a j := by
      obtain ⟨j, -, hj, -⟩ := hr.read.source
      exact ⟨j, hj⟩
    have hone1 : ∀ j, m1.IsSpare a j → j = i := fun j hj =>
      hone hr.more j i (hj.of_quiet (by decide) hr.read.quiet) hspare
    have hmem : ∀ (t : Nat) (s : Sector), buf.sectors[t]? = some s →
        s ∈ v ((m1.arrays a).resyncOffset.toNat + t) := by
      intro t s hs
      rw [hr.read.quiet.resync]
      exact hr.read.mem h hr.fits hs
    have h2 := h1.copied hone1 hspare1 hlive1 hmem hr.copied
    by_cases hdone : (m2.arrays a).resyncOffset ≥ (m2.arrays a).memberSectors
    · have hspare2 : m2.InState a .spare i :=
        hspare1.congr hr.copied.layout (hr.copied.state i)
      have hlive2 : ∃ j, m2.InState a .active j := by
        obtain ⟨j, hj⟩ := hlive1
        exact ⟨j, hj.congr hr.copied.layout (hr.copied.state j)⟩
      have hquiet := hr.last hdone
      refine ⟨(h2.promoted hlive2 hspare2 hdone).quiet hquiet, Machine.OneSpare.quiet ?_ hquiet⟩
      intro hlt
      rw [resync_promoted] at hlt
      have hsectors : ((m2.promoted a i).arrays a).memberSectors = (m2.arrays a).memberSectors :=
        congrArg (fun L => L.array.memberSectors) (layout_promoted m2 a i)
      rw [hsectors] at hlt
      exact absurd hdone (UInt64.not_le.mpr hlt)
    · rw [hr.others hdone]
      refine ⟨h2, fun _ j j' hj hj' => ?_⟩
      have hback : ∀ j, m2.InState a .spare j → j = i := fun j hj =>
        hone1 j (hj.congr hr.copied.layout.symm (hr.copied.state j).symm)
      exact (hback j hj).trans (hback j' hj').symm
  · rintro e m' (hq | ⟨i, m1, hq, hlost⟩)
    · exact h.quiet hq
    · exact (h.quiet hq).lost hlost

lemma Mirror.resyncLoop (hone : m.OneSpare a) (fuel : Nat) :
    Leaves (resyncLoop a fuel) m (Mirror a v touched) := by
  induction fuel generalizing m with
  | zero => exact h
  | succ fuel ih =>
    apply getArray_bind
    split
    · exact h
    refine .next (h.resyncStep hone 0) ?_
    rintro ret m1 ⟨h1, hone1⟩
    split
    · exact h1
    · exact ih h1 hone1

lemma Mirror.resync (hone : m.OneSpare a) : Leaves (resync a) m (Mirror a v touched) :=
  have := Covered.mk h
  getArray_bind (.guard fun _ => .guard fun _ =>
    .fetch fun _ _ => h.resyncLoop hone _)

end

end Rebuild

/-! ## Members that fail and are replaced -/

section Members

section

variable (h : Mirror a v touched m)
include h

lemma Mirror.fail (i : Nat) : Leaves (fail a i) m (Mirror a v touched) :=
  have := Covered.mk h
  getArray_bind (.guard fun _ => .guard fun _ =>
    (memberFault_quiet h.laid.toLaid i).mono (fun _ _ hq => h.quiet hq.1) fun _ _ hno => hno.elim)

lemma Mirror.replaced {slot : Nat} {d : DevId} (hable : Replaceable a slot d m)
    (hr : Replaced a slot d m m') : Mirror a v touched m' := by
  obtain ⟨hsize, hsectors, hoffset, -, -, hlevel, harray⟩ := hr.geometry
  have hself : ((m'.arrays a).members slot).state = .spare := by
    rw [hr.member_self]
  have hzero : (m'.arrays a).resyncOffset.toNat = 0 := by
    rw [hr.array]
    rfl
  have hmember : (m'.layout a).array.memberSectors = (m.layout a).array.memberSectors :=
    UInt64.toNat_inj.mp hsectors
  refine ⟨⟨hr.laid hable h.laid.toLaid, ?_, ?_⟩, fun i hi => ?_, ?_⟩
  · rw [hlevel]
    exact h.laid.level
  · rw [harray, hmember]
    exact h.laid.sized
  · rw [hsize] at hi
    refine ⟨fun d' hd' hactive k hk => ?_, fun d' _ _ k _ hlt => ?_⟩
    · have hne : i ≠ slot := by
        rintro rfl
        rw [hself] at hactive
        cases hactive
      rw [hr.dev_of_ne hne] at hd'
      rw [hr.member_of_ne hne] at hactive
      rw [hsectors] at hk
      rw [hoffset, (hr.other hable h.laid.toLaid hi hne hd').2]
      exact (h.holds i hi).active d' hd' hactive k hk
    · rw [hzero] at hlt
      exact absurd hlt (Nat.not_lt_zero _)
  · rintro ⟨i, hi, ⟨d', hd'⟩, hactive⟩
    have hne : i ≠ slot := by
      rintro rfl
      rw [hself] at hactive
      cases hactive
    rw [hsize] at hi
    rw [hr.dev_of_ne hne] at hd'
    rw [hr.member_of_ne hne] at hactive
    rw [hsectors]
    exact h.live ⟨i, hi, ⟨d', hd'⟩, hactive⟩

lemma Mirror.add (d : DevId) :
    Leaves (add a d) m (Mirror a v touched) := by
  refine (add_ends a d m).mono ?_ ?_
  · rintro - m' ⟨slot, m1, hable, hreplaced, hsynced⟩
    have h1 := h.replaced hable hreplaced
    exact h1.quiet (Quiet.of_synced hsynced h1.laid.toLaid)
  · rintro - m' rfl
    exact h

end

end Members

end Anunix.Md
