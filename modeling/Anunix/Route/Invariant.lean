import Anunix.Lib.Tally
import Anunix.Route.Lease

/-!
# The invariant of leases

The unrevoked roots fit into the machine, the unrevoked children of a lease, together with what the
lease itself uses, fit into the lease, and what is above an unrevoked lease is unrevoked. That no
sum of the source wraps around is a consequence. The invariant survives adding a lease
(`Sound.add`), writing one back (`Sound.update`), marking a subtree (`Sound.revoke`) and taking a
leaf out (`Sound.release`).
-/

namespace Anunix.Route
open Fallible Tally List Keyed

def Lease.mem (l : Lease) : Nat := l.memReservedBytes.toNat

def Lease.pct (l : Lease) : Nat := l.accelPct.toNat

def State.rootMem (s : State) (tier : MemTier) : Nat :=
  sum (fun l => l.root && l.memTier = tier) Lease.mem s.leases

def State.rootPct (s : State) (accel : AccelType) : Nat :=
  sum (fun l => l.root && l.accel = accel) Lease.pct s.leases

def State.childMem (s : State) (addr : Nat) : Nat :=
  sum (Lease.childOf addr) Lease.mem s.leases

def State.childPct (s : State) (addr : Nat) : Nat :=
  sum (Lease.childOf addr) Lease.pct s.leases

/-- A lease that covers its own use and its unrevoked children. -/
structure Covers (s : State) (l : Lease) : Prop where
  mem : l.memUsedBytes.toNat + s.childMem l.addr ≤ l.mem
  pct : s.childPct l.addr ≤ l.pct

structure Sound (s : State) : Prop where
  addrs : (s.leases.map Lease.addr).Nodup
  memory : ∀ tier, s.rootMem tier ≤ (s.totalMemPerTier tier).toNat
  accelerator : ∀ accel, s.rootPct accel ≤ (s.totalAccelPct accel).toNat
  covers : ∀ l ∈ s.leases, l.revoked = false → Covers s l
  parents : ∀ l ∈ s.leases, ∀ p, l.parent = some p →
    ∃ q ∈ s.leases, q.addr = p ∧ l.depth = q.depth + 1 ∧ (l.revoked = false → q.revoked = false)
  depth : ∀ l ∈ s.leases, l.depth ≤ leaseDepthMax
  unaccelerated : ∀ l ∈ s.leases, l.accel = .none → l.accelPct = 0

lemma childOf_iff {l : Lease} {addr : Nat} :
    l.childOf addr = true ↔ l.parent = some addr ∧ l.revoked = false := by
  rw [Lease.childOf, Bool.and_eq_true, decide_eq_true_eq, Bool.not_eq_true']

section Loops

variable {e : Err} {mem acc : Lease → Bool} {leases : List Lease} {m m' n : UInt64}
  {p p' r : UInt32} {counts : Bool}

/-! ## What the loops compute -/

lemma takeMem_ok (h : takeMem e counts m n = .ok m') :
    (if counts then n.toNat else 0) + m'.toNat = m.toNat := by
  obtain ⟨_, hle, h⟩ := bind_eq_ok.mp h
  cases h
  cases counts with
  | true =>
    have hle := failIf_eq_ok.mp hle
    simp only [Bool.true_and, decide_eq_false_iff_not, UInt64.not_lt] at hle
    have hnat := UInt64.le_iff_toNat_le.mp hle
    rw [if_pos rfl, if_pos rfl, UInt64.toNat_sub_of_le _ _ hle]
    omega
  | false => exact Nat.zero_add _

lemma takePct_ok (h : takePct e counts p r = .ok p') :
    (if counts then r.toNat else 0) + p'.toNat = p.toNat := by
  obtain ⟨_, hle, h⟩ := bind_eq_ok.mp h
  cases h
  cases counts with
  | true =>
    have hle := failIf_eq_ok.mp hle
    simp only [Bool.true_and, decide_eq_false_iff_not, UInt32.not_lt] at hle
    have hnat := UInt32.le_iff_toNat_le.mp hle
    rw [if_pos rfl, if_pos rfl, UInt32.toNat_sub_of_le _ _ hle]
    omega
  | false => exact Nat.zero_add _

lemma spend_ok (h : spend e mem acc leases (m, p) = .ok (m', p')) :
    sum mem Lease.mem leases + m'.toNat = m.toNat ∧
    sum acc Lease.pct leases + p'.toNat = p.toNat := by
  induction leases generalizing m p with
  | nil =>
    obtain ⟨rfl, rfl⟩ := Prod.mk.inj (Except.ok.inj h)
    simp
  | cons l leases ih =>
    obtain ⟨m1, hm, h⟩ := bind_eq_ok.mp h
    obtain ⟨p1, hp, h⟩ := bind_eq_ok.mp h
    obtain ⟨hmem, hpct⟩ := ih h
    have hm1 := takeMem_ok hm
    have hp1 := takePct_ok hp
    rw [sum_cons, sum_cons, Lease.mem, Lease.pct]
    exact ⟨by omega, by omega⟩

lemma spare_ok {l : Lease} (h : l.spare e = .ok (m, p)) :
    l.memUsedBytes.toNat + m.toNat = l.mem ∧ p = l.accelPct := by
  obtain ⟨_, hle, h⟩ := bind_eq_ok.mp h
  have hle := failIf_eq_ok.mp hle
  simp only [decide_eq_false_iff_not, UInt64.not_lt] at hle
  obtain ⟨rfl, rfl⟩ := Prod.mk.inj (Except.ok.inj h)
  have hnat := UInt64.le_iff_toNat_le.mp hle
  refine ⟨?_, rfl⟩
  rw [UInt64.toNat_sub_of_le _ _ hle, Lease.mem]
  omega

end Loops

/-! ## What the invariant says of the figures -/

section Figures

variable {s : State} {l q : Lease} {addr : Nat} {tier : MemTier} {accel : AccelType} {c : Capacity}

lemma Sound.sumReservedMem (hs : Sound s) (tier : MemTier) :
    (s.sumReservedMem tier).toNat = s.rootMem tier := by
  have hle := hs.memory tier
  have htotal := (s.totalMemPerTier tier).toNat_lt
  refine (foldl_add UInt64.toNat (· + ·) (2 ^ 64) (fun x y h => ?_) ?_).trans (Nat.zero_add _)
  · exact (UInt64.toNat_add x y).trans (Nat.mod_eq_of_lt h)
  · show 0 + s.rootMem tier < 2 ^ 64
    omega

lemma Sound.sumReservedAccel (hs : Sound s) (accel : AccelType) :
    (s.sumReservedAccel accel).toNat = s.rootPct accel := by
  have hle := hs.accelerator accel
  have htotal := (s.totalAccelPct accel).toNat_lt
  refine (foldl_add UInt32.toNat (· + ·) (2 ^ 32) (fun x y h => ?_) ?_).trans (Nat.zero_add _)
  · exact (UInt32.toNat_add x y).trans (Nat.mod_eq_of_lt h)
  · show 0 + s.rootPct accel < 2 ^ 32
    omega

lemma Sound.availMem (hs : Sound s) (tier : MemTier) :
    (s.availMem tier).toNat + s.rootMem tier = (s.totalMemPerTier tier).toNat := by
  have hsum := hs.sumReservedMem tier
  have hle := hs.memory tier
  rw [State.availMem, UInt64.toNat_sub_of_le _ _ (UInt64.le_iff_toNat_le.mpr (by omega))]
  omega

lemma Sound.availAccel (hs : Sound s) (accel : AccelType) :
    (s.availAccel accel).toNat + s.rootPct accel = (s.totalAccelPct accel).toNat := by
  have hsum := hs.sumReservedAccel accel
  have hle := hs.accelerator accel
  rw [State.availAccel, UInt32.toNat_sub_of_le _ _ (UInt32.le_iff_toNat_le.mpr (by omega))]
  omega

lemma without_freeMemory (h : l.memReservedBytes ≤ c.freeMemory l.memTier) (tier : MemTier) :
    ((c.without l).freeMemory tier).toNat + (if l.memTier = tier then l.mem else 0) =
      (c.freeMemory tier).toNat := by
  have hnat := UInt64.le_iff_toNat_le.mp h
  by_cases he : l.memTier = tier
  · subst he
    simp only [Capacity.without, Function.update_self, UInt64.toNat_sub_of_le _ _ h,
      if_true, Lease.mem]
    omega
  · simp only [Capacity.without, Function.update_of_ne (Ne.symm he), if_neg he, Nat.add_zero]

lemma without_freeAccelerator (h : l.accelPct ≤ c.freeAccelerator l.accel) (accel : AccelType) :
    ((c.without l).freeAccelerator accel).toNat + (if l.accel = accel then l.pct else 0) =
      (c.freeAccelerator accel).toNat := by
  have hnat := UInt32.le_iff_toNat_le.mp h
  by_cases he : l.accel = accel
  · subst he
    simp only [Capacity.without, Function.update_self, UInt32.toNat_sub_of_le _ _ h,
      if_true, Lease.pct]
    omega
  · simp only [Capacity.without, Function.update_of_ne (Ne.symm he), if_neg he, Nat.add_zero]

lemma subtract_ok {leases : List Lease} (hmem : ∀ tier,
      sum (fun l => l.root && l.memTier = tier) Lease.mem leases ≤ (c.freeMemory tier).toNat)
    (hpct : ∀ accel, sum (fun l => l.root && l.accel = accel) Lease.pct leases ≤
      (c.freeAccelerator accel).toNat) : ∃ c', Capacity.subtract leases c = .ok c' ∧
      (∀ tier,
        (c'.freeMemory tier).toNat + sum (fun l => l.root && l.memTier = tier) Lease.mem leases =
        (c.freeMemory tier).toNat) ∧ ∀ accel, (c'.freeAccelerator accel).toNat +
        sum (fun l => l.root && l.accel = accel) Lease.pct leases =
        (c.freeAccelerator accel).toNat := by
  induction leases generalizing c with
  | nil => exact ⟨c, rfl, fun _ => rfl, fun _ => rfl⟩
  | cons l leases ih =>
    simp only [sum_cons] at hmem hpct ⊢
    rw [Capacity.subtract]
    cases hroot : l.root with
    | false =>
      simp only [hroot, Bool.false_and, Bool.false_eq_true, if_false, Nat.zero_add] at hmem hpct ⊢
      exact ih hmem hpct
    | true =>
      simp only [hroot, Bool.true_and, decide_eq_true_eq] at hmem hpct ⊢
      have hm := hmem l.memTier
      have hp := hpct l.accel
      rw [if_pos rfl] at hm hp
      have hlm : l.memReservedBytes ≤ c.freeMemory l.memTier :=
        UInt64.le_iff_toNat_le.mpr (Nat.le_of_add_right_le hm)
      have hlp : l.accelPct ≤ c.freeAccelerator l.accel :=
        UInt32.le_iff_toNat_le.mpr (Nat.le_of_add_right_le hp)
      have hguard : (decide (c.freeMemory l.memTier < l.memReservedBytes) ||
          decide (c.freeAccelerator l.accel < l.accelPct)) = false := by
        simp only [Bool.or_eq_false_iff, decide_eq_false_iff_not, UInt64.not_lt, UInt32.not_lt]
        exact ⟨hlm, hlp⟩
      have hmem1 := without_freeMemory hlm
      have hpct1 := without_freeAccelerator hlp
      obtain ⟨c', hc', hmem', hpct'⟩ := @ih (c.without l)
        (fun tier => by have := hmem tier; have := hmem1 tier; omega)
        (fun accel => by have := hpct accel; have := hpct1 accel; omega)
      refine ⟨c', ?_, fun tier => ?_, fun accel => ?_⟩
      · rw [hguard]
        exact hc'
      · have := hmem' tier
        have := hmem1 tier
        omega
      · have := hpct' accel
        have := hpct1 accel
        omega

end Figures

/-! ## One step of the invariant -/

section Step

variable {s : State} {l l' q : Lease} {addr root : Nat}

section

variable (hs : Sound s)
include hs

section

variable (hl : l ∈ s.leases)
include hl

lemma Sound.eq_of_addr (hq : q ∈ s.leases) (h : l.addr = q.addr) : l = q :=
  inj_on_of_nodup_map hs.addrs hl hq h

lemma Sound.lookup : s.lookup l.addr = some l :=
  (lookup_eq_some_iff hs.addrs).mpr ⟨hl, rfl⟩

lemma Sound.parent (hq : q ∈ s.leases) (hp : l.parent = some q.addr) :
    l.depth = q.depth + 1 ∧ (l.revoked = false → q.revoked = false) := by
  obtain ⟨q', hq', haddr, hrest⟩ := hs.parents l hl q.addr hp
  obtain rfl := hs.eq_of_addr hq' hq haddr
  exact hrest

lemma Sound.not_self : l.childOf l.addr = false := by
  cases hc : l.childOf l.addr with
  | false => rfl
  | true =>
    have hdepth := (hs.parent hl hl (childOf_iff.mp hc).1).1
    omega

end

lemma Sound.childless (hfresh : addr ∉ s.leases.map Lease.addr) (f : Lease → Nat) :
    sum (Lease.childOf addr) f s.leases = 0 := by
  refine sum_eq_zero fun l hl hc => ?_
  obtain ⟨q, hq, rfl, -⟩ := hs.parents l hl addr (childOf_iff.mp hc).1
  exact absurd (mem_map_of_mem hq) hfresh

lemma Sound.add (hfresh : l.addr ∉ s.leases.map Lease.addr) (hlive : l.revoked = false)
    (hunused : l.memUsedBytes = 0)
    (hmem : l.root = true → s.rootMem l.memTier + l.mem ≤ (s.totalMemPerTier l.memTier).toNat)
    (hpct : l.root = true → s.rootPct l.accel + l.pct ≤ (s.totalAccelPct l.accel).toNat)
    (hparent : ∀ p, l.parent = some p → ∃ q ∈ s.leases, q.addr = p ∧ q.revoked = false ∧
      l.depth = q.depth + 1 ∧ q.memUsedBytes.toNat + s.childMem p + l.mem ≤ q.mem ∧
      s.childPct p + l.pct ≤ q.pct)
    (hdepth : l.depth ≤ leaseDepthMax) (hnone : l.accel = .none → l.accelPct = 0) :
    Sound { s with leases := s.leases ++ [l] } where
  addrs := by
    rw [map_append]
    refine List.Nodup.append hs.addrs (nodup_singleton _) fun a ha ha' => ?_
    obtain rfl := mem_singleton.mp ha'
    exact hfresh ha
  memory tier := by
    refine sum_concat_le (hs.memory tier) fun hl => ?_
    simp only [Bool.and_eq_true, decide_eq_true_eq] at hl
    obtain ⟨hroot, rfl⟩ := hl
    exact hmem hroot
  accelerator accel := by
    refine sum_concat_le (hs.accelerator accel) fun hl => ?_
    simp only [Bool.and_eq_true, decide_eq_true_eq] at hl
    obtain ⟨hroot, rfl⟩ := hl
    exact hpct hroot
  covers m hm hrev := by
    rcases mem_append.mp hm with hm | hm
    · obtain ⟨hcm, hcp⟩ := hs.covers m hm hrev
      -- If the new lease is a child of this one, then this one has room for it.
      have hroom : l.childOf m.addr = true →
          m.memUsedBytes.toNat + s.childMem m.addr + l.mem ≤ m.mem ∧
          s.childPct m.addr + l.pct ≤ m.pct := by
        intro hc
        obtain ⟨q, hq, haddr, -, -, hqm, hqp⟩ := hparent m.addr (childOf_iff.mp hc).1
        obtain rfl := hs.eq_of_addr hq hm haddr
        exact ⟨hqm, hqp⟩
      exact ⟨add_sum_concat_le hcm fun hc => (hroom hc).1, sum_concat_le hcp fun hc => (hroom hc).2⟩
    · obtain rfl := mem_singleton.mp hm
      -- The new lease has no children, and is not its own.
      have hzero f : sum (Lease.childOf m.addr) f (s.leases ++ [m]) = 0 := by
        refine Nat.le_zero.mp (sum_concat_le (hs.childless hfresh f).le fun hc => ?_)
        obtain ⟨q, hq, haddr, -⟩ := hparent m.addr (childOf_iff.mp hc).1
        exact absurd (haddr ▸ mem_map_of_mem hq) hfresh
      refine ⟨?_, (hzero _).trans_le (Nat.zero_le _)⟩
      rw [hunused, State.childMem, hzero]
      exact Nat.zero_le _
  parents m hm p hp := by
    rcases mem_append.mp hm with hm | hm
    · obtain ⟨q, hq, hrest⟩ := hs.parents m hm p hp
      exact ⟨q, mem_append_left _ hq, hrest⟩
    · obtain rfl := mem_singleton.mp hm
      obtain ⟨q, hq, haddr, hqrev, hqd, -⟩ := hparent p hp
      exact ⟨q, mem_append_left _ hq, haddr, hqd, fun _ => hqrev⟩
  depth := forall_mem_append.mpr ⟨hs.depth, forall_mem_singleton.mpr hdepth⟩
  unaccelerated := forall_mem_append.mpr ⟨hs.unaccelerated, forall_mem_singleton.mpr hnone⟩

end

def State.rest (s : State) (addr : Nat) : List Lease :=
  erase Lease.addr s.leases addr

lemma mem_iff_rest (hl : s.lookup addr = some l) : q ∈ s.leases ↔ q = l ∨ q ∈ s.rest addr := by
  rw [(perm_erase hl).mem_iff, mem_cons]
  rfl

section

variable (hs : Sound s)
include hs

lemma Sound.addr_ne_of_rest (hl : s.lookup addr = some l) (hq : q ∈ s.rest addr) :
    q.addr ≠ addr :=
  key_ne_of_mem_erase hs.addrs hl hq

/-- The same lease with other amounts, which fit where the old ones did. -/
structure Rewritten (s : State) (l l' : Lease) : Prop where
  addr : l'.addr = l.addr
  tier : l'.memTier = l.memTier
  accel : l'.accel = l.accel
  parent : l'.parent = l.parent
  depth : l'.depth = l.depth
  revoked : l'.revoked = l.revoked
  memory : l'.root = true →
    l'.mem + sum (fun m => m.root && m.memTier = l'.memTier) Lease.mem (s.rest l'.addr) ≤
      (s.totalMemPerTier l'.memTier).toNat
  accelerator : l'.root = true →
    l'.pct + sum (fun m => m.root && m.accel = l'.accel) Lease.pct (s.rest l'.addr) ≤
      (s.totalAccelPct l'.accel).toNat
  above : ∀ q ∈ s.leases, l'.childOf q.addr = true →
    q.memUsedBytes.toNat + (l'.mem + sum (Lease.childOf q.addr) Lease.mem (s.rest l'.addr)) ≤
    q.mem ∧
      l'.pct + sum (Lease.childOf q.addr) Lease.pct (s.rest l'.addr) ≤ q.pct
  covers : l'.revoked = false → Covers s l'
  unaccelerated : l'.accel = .none → l'.accelPct = 0

lemma Sound.update (hl : s.lookup l'.addr = some l) (h : Rewritten s l l') :
    Sound { s with leases := Keyed.update Lease.addr s.leases l' } := by
  have hmem : l ∈ s.leases := lookup_mem hl
  have hin : ∀ m, m = l' ∨ m ∈ s.rest l'.addr → m ∈ Keyed.update Lease.addr s.leases l' := by
    intro m hm
    exact (perm_update hl).mem_iff.mpr (mem_cons.mpr hm)
  have hself : l'.childOf l'.addr = false := by
    rw [Lease.childOf, h.parent, h.revoked, h.addr]
    exact hs.not_self hmem
  refine ⟨?_, ?_, ?_, ?_, ?_, ?_, ?_⟩
  · rw [map_update]
    exact hs.addrs
  · intro tier
    refine sum_update_le hl (hs.memory tier) fun hr => ?_
    simp only [Bool.and_eq_true, decide_eq_true_eq] at hr
    obtain ⟨hr, rfl⟩ := hr
    exact h.memory hr
  · intro accel
    refine sum_update_le hl (hs.accelerator accel) fun hr => ?_
    simp only [Bool.and_eq_true, decide_eq_true_eq] at hr
    obtain ⟨hr, rfl⟩ := hr
    exact h.accelerator hr
  · intro m hm hrev
    have hold : Covers s m := by
      rcases of_mem_update hm with rfl | hm
      · exact h.covers hrev
      · exact hs.covers m hm hrev
    -- A lease that is a child of this one is not this one.
    have hother (hc : l'.childOf m.addr = true) : m ∈ s.leases := by
      rcases of_mem_update hm with rfl | hm
      · cases hc.symm.trans hself
      · exact hm
    exact ⟨add_sum_update_le hl hold.mem fun hc => (h.above m (hother hc) hc).1,
      sum_update_le hl hold.pct fun hc => (h.above m (hother hc) hc).2⟩
  · intro m hm p hp
    -- The parent is where it was, as it was or rewritten.
    have hparents : ∀ m0 ∈ s.leases, m0.parent = some p → ∃ q ∈ Keyed.update Lease.addr s.leases l',
        q.addr = p ∧ m0.depth = q.depth + 1 ∧ (m0.revoked = false → q.revoked = false) := by
      intro m0 hm0 hp0
      obtain ⟨q, hq, haddr, hd, hrev⟩ := hs.parents m0 hm0 p hp0
      rcases (mem_iff_rest hl).mp hq with rfl | hq
      · refine ⟨l', hin l' (.inl rfl), h.addr.trans haddr, ?_, ?_⟩
        · rw [h.depth]
          exact hd
        · rw [h.revoked]
          exact hrev
      · exact ⟨q, hin q (.inr hq), haddr, hd, hrev⟩
    rcases of_mem_update hm with rfl | hm
    · rw [h.depth, h.revoked]
      exact hparents l hmem (h.parent ▸ hp)
    · exact hparents m hm hp
  · intro m hm
    rcases of_mem_update hm with rfl | hm
    · rw [h.depth]
      exact hs.depth l hmem
    · exact hs.depth m hm
  · intro m hm
    rcases of_mem_update hm with rfl | hm
    · exact h.unaccelerated
    · exact hs.unaccelerated m hm

lemma Sound.release (hl : s.lookup addr = some l)
    (hleaf : ∀ m ∈ s.leases, m.parent ≠ some addr) : Sound { s with leases := s.rest addr } := by
  have hsub : ∀ m ∈ s.rest addr, m ∈ s.leases := fun m => mem_of_mem_erase
  have hsum : ∀ p f, sum p f (s.rest addr) ≤ sum p f s.leases := by
    intro p f
    rw [sum_lookup hl]
    exact Nat.le_add_left _ _
  refine ⟨nodup_erase hs.addrs, ?_, ?_, ?_, ?_, ?_, ?_⟩
  · exact fun tier => Nat.le_trans (hsum _ _) (hs.memory tier)
  · exact fun accel => Nat.le_trans (hsum _ _) (hs.accelerator accel)
  · intro m hm hrev
    obtain ⟨hcm, hcp⟩ := hs.covers m (hsub m hm) hrev
    exact ⟨Nat.le_trans (Nat.add_le_add_left (hsum _ _) _) hcm, Nat.le_trans (hsum _ _) hcp⟩
  · intro m hm p hp
    obtain ⟨q, hq, haddr, hrest⟩ := hs.parents m (hsub m hm) p hp
    rcases (mem_iff_rest hl).mp hq with rfl | hq
    · have hself : q.addr = addr := lookup_key hl
      exact absurd (hp.trans (congrArg some (haddr.symm.trans hself))) (hleaf m (hsub m hm))
    · exact ⟨q, hq, haddr, hrest⟩
  · exact fun m hm => hs.depth m (hsub m hm)
  · exact fun m hm => hs.unaccelerated m (hsub m hm)

/-! ### Revocation -/

/-- The walk of `in_subtree` is long enough for every lease. -/
lemma Sound.inSubtree_succ {n : Nat} (hl : l ∈ s.leases) (hn : l.depth < n) :
    s.inSubtree root (n + 1) (some l.addr) = s.inSubtree root n (some l.addr) := by
  induction n generalizing l with
  | zero => cases hn
  | succ n ih =>
    rw [State.inSubtree, State.inSubtree, hs.lookup hl, Option.bind_some]
    cases hp : l.parent with
    | none =>
      cases n <;> rfl
    | some p =>
      obtain ⟨q, hq, rfl, hd, -⟩ := hs.parents l hl p hp
      rw [ih hq (by omega)]

lemma Sound.below_of_parent (hl : l ∈ s.leases) (hq : q ∈ s.leases) (hp : l.parent = some q.addr)
    (h : s.below root q = true) : s.below root l = true := by
  have hd := (hs.parent hl hq hp).1
  have hdepth := hs.depth l hl
  have hlong : s.inSubtree root leaseDepthMax (some q.addr) = true := by
    rw [← hs.inSubtree_succ hq (by omega)]
    exact h
  rw [State.below, State.inSubtree, hs.lookup hl, Option.bind_some, hp, hlong, Bool.or_true]

lemma Sound.revoke (addr : Nat) : Sound { s with leases := s.leases.map (s.mark addr) } := by
  have hlive : ∀ m, (s.mark addr m).revoked = false → m.revoked = false ∧ s.below addr m = false :=
    fun m => Bool.or_eq_false_iff.mp
  have hroot : ∀ m, (s.mark addr m).root = true → m.root = true := by
    intro m h
    simp only [Lease.root, Bool.and_eq_true, Bool.not_eq_true'] at h ⊢
    exact ⟨h.1, (hlive m h.2).1⟩
  have hchild : ∀ a m, (s.mark addr m).childOf a = true → m.childOf a = true := by
    intro a m h
    obtain ⟨hp, hrev⟩ := childOf_iff.mp h
    exact childOf_iff.mpr ⟨hp, (hlive m hrev).1⟩
  -- Marks leave the amounts and take leases out of the sums.
  have hsum p f (hf : ∀ m, f (s.mark addr m) = f m)
      (hp : ∀ m, p (s.mark addr m) = true → p m = true) :
      sum p f (s.leases.map (s.mark addr)) ≤ sum p f s.leases := by
    rw [sum_map]
    exact sum_le fun m _ h => ⟨hp m h, (hf m).le⟩
  refine ⟨?_, ?_, ?_, ?_, ?_, ?_, ?_⟩
  · rw [map_map]
    exact hs.addrs
  · intro tier
    refine (hsum _ Lease.mem (fun _ => rfl) fun m h => ?_).trans (hs.memory tier)
    rw [Bool.and_eq_true] at h ⊢
    exact ⟨hroot m h.1, h.2⟩
  · intro accel
    refine (hsum _ Lease.pct (fun _ => rfl) fun m h => ?_).trans (hs.accelerator accel)
    rw [Bool.and_eq_true] at h ⊢
    exact ⟨hroot m h.1, h.2⟩
  · intro m hm hrev
    obtain ⟨m0, hm0, rfl⟩ := mem_map.mp hm
    obtain ⟨hcm, hcp⟩ := hs.covers m0 hm0 (hlive m0 hrev).1
    have hle := fun f hf => hsum (Lease.childOf m0.addr) f hf (hchild _)
    exact ⟨(Nat.add_le_add_left (hle _ fun _ => rfl) _).trans hcm, (hle _ fun _ => rfl).trans hcp⟩
  · intro m hm p hp
    obtain ⟨m0, hm0, rfl⟩ := mem_map.mp hm
    obtain ⟨q, hq, rfl, hd, hqrev⟩ := hs.parents m0 hm0 p hp
    refine ⟨s.mark addr q, mem_map_of_mem hq, rfl, hd, fun hrev => ?_⟩
    obtain ⟨hrev0, hbelow⟩ := hlive m0 hrev
    -- Were the parent below the root, so would be its child.
    refine Bool.or_eq_false_iff.mpr ⟨hqrev hrev0, ?_⟩
    cases hb : s.below addr q with
    | false => rfl
    | true =>
      rw [hs.below_of_parent hm0 hq hp hb] at hbelow
      cases hbelow
  · exact forall_mem_map.mpr hs.depth
  · exact forall_mem_map.mpr hs.unaccelerated

end

end Step

end Anunix.Route
