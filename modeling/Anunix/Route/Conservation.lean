import Anunix.Lib.Run
import Anunix.Route.Invariant

/-!
# Conservation of leases

The lease calls keep the invariant of `Route/Invariant.lean`, and so does every run of them in which
the engines use no more than their leases have left; a call that fails leaves the leases as they
were.
-/

namespace Anunix.Route
open Fallible Tally Keyed

/-! ## The calls -/

section Calls

variable {s : State} {alloc : Allocator} {id : Uuid} {tier : MemTier} {bytes : UInt64}
  {accel : AccelType} {pct : UInt32} {parent : Option Lease} {l p : Lease} {addr : Nat}

lemma createLease_ends
    (h : ∀ addr ∉ s.leases.map Lease.addr,
      Sound { s with leases := s.leases ++ [.fresh addr id parent tier bytes accel pct] }) :
    Atomic (createLease alloc id parent tier bytes accel pct) s (fun _ => Sound) := by
  refine .get_bind (.fetch fun addr _ => .bind (.modify ?_))
  exact h addr.1 addr.2

section

variable (hs : Sound s)
include hs

lemma leaseGrant_ends {tierCode accelCode : UInt32} :
    Atomic (leaseGrant alloc id tierCode bytes accelCode pct) s (fun _ => Sound) := by
  refine .guard fun _ => .fetch fun tier _ => ?_
  refine .fetch fun accel _ => .guard fun hargs => ?_
  refine .get_bind (.guard fun _ => .guard fun hmem => ?_)
  refine .guard fun hpct => createLease_ends fun addr hfresh => ?_
  have havail := hs.availMem tier
  have havailPct := hs.availAccel accel
  simp only [decide_eq_false_iff_not, UInt64.not_lt, UInt64.le_iff_toNat_le] at hmem
  simp only [Bool.or_eq_false_iff, Bool.and_eq_false_iff, decide_eq_false_iff_not, not_not] at hargs
  have hnone : accel = .none → pct = 0 := by
    intro he
    rcases hargs.2 with hne | h0
    · exact absurd he hne
    · exact h0
  refine hs.add hfresh rfl rfl (fun _ => ?_) (fun _ => ?_) nofun (Nat.zero_le _) hnone
  · show s.rootMem tier + bytes.toNat ≤ (s.totalMemPerTier tier).toNat
    omega
  · show s.rootPct accel + pct.toNat ≤ (s.totalAccelPct accel).toNat
    -- Without an accelerator there is no share to add.
    by_cases he : accel = .none
    · rw [hnone he]
      exact hs.accelerator accel
    · simp only [he, Bool.true_and, decide_eq_false_iff_not, UInt32.not_lt, UInt32.le_iff_toNat_le,
        ne_eq, not_false_eq_true, decide_true] at hpct
      omega

lemma leaseGrantChild_ends :
    Atomic (leaseGrantChild alloc addr id bytes pct) s (fun _ => Sound) := by
  refine .guard fun _ => .get_bind ?_
  refine .fetch fun p hp => .guard fun hlive => ?_
  refine .guard fun hnone => .guard fun _ => ?_
  refine .lift fun spare hspare => ?_
  refine .lift fun left hleft => .guard fun hfits => ?_
  refine createLease_ends fun new hfresh => ?_
  obtain ⟨hmemSpare, hpctSpare⟩ := spare_ok hspare
  obtain ⟨hmem, hpct⟩ := spend_ok hleft
  simp only [Bool.or_eq_false_iff, decide_eq_false_iff_not, UInt64.not_lt, UInt32.not_lt,
    UInt64.le_iff_toNat_le, UInt32.le_iff_toNat_le] at hfits
  simp only [Bool.or_eq_false_iff, decide_eq_false_iff_not, Nat.not_le] at hlive
  have hin : p ∈ s.leases := lookup_mem hp
  have haddr : p.addr = addr := lookup_key hp
  refine hs.add hfresh rfl rfl nofun nofun ?_ hlive.2 ?_
  · rintro q hq
    obtain rfl : p.addr = q := Option.some.inj hq
    refine ⟨p, hin, rfl, hlive.1, rfl, ?_, ?_⟩
    · show p.memUsedBytes.toNat + sum (Lease.childOf p.addr) Lease.mem s.leases + bytes.toNat ≤
        p.mem
      rw [haddr]
      omega
    · show sum (Lease.childOf p.addr) Lease.pct s.leases + pct.toNat ≤ p.accelPct.toNat
      rw [haddr, ← hpctSpare]
      omega
  · intro (he : p.accel = .none)
    simp only [he, decide_true, Bool.true_and, decide_eq_false_iff_not, not_not] at hnone
    exact hnone

lemma leaseRevoke_ends : Atomic (leaseRevoke addr) s (fun _ => Sound) := by
  refine .get_bind (.fetch fun _ _ => .guard fun _ => ?_)
  exact .modify (hs.revoke addr)

lemma leaseRelease_ends : Atomic (leaseRelease addr) s (fun _ => Sound) := by
  refine .get_bind (.fetch fun l hl => .guard fun _ => ?_)
  refine .guard fun hleaf => .modify (hs.release hl ?_)
  rw [List.any_eq_false] at hleaf
  intro m hm
  simpa using hleaf m hm

/-! ### Resizing -/

lemma Sound.sum_siblings (hl : s.lookup addr = some l) (counts target : Lease → Bool)
    (f : Lease → Nat) (hself : counts l = false)
    (hothers : ∀ m, m.addr ≠ l.addr → counts m = target m) :
    sum counts f s.leases = sum target f (s.rest addr) := by
  have haddr : l.addr = addr := lookup_key hl
  rw [sum_lookup hl, hself, if_neg Bool.false_ne_true, Nat.zero_add]
  refine sum_congr fun m hm => ⟨hothers m ?_, fun _ => rfl⟩
  exact haddr ▸ hs.addr_ne_of_rest hl hm

end

lemma sibling_self : l.sibling l = false := by
  simp [Lease.sibling]

lemma sibling_root {m : Lease} (hroot : l.parent = none) (hne : m.addr ≠ l.addr) :
    l.sibling m = m.root := by
  have hnone : decide (m.parent = none) = m.parent.isNone := by
    cases m.parent <;> rfl
  simp [Lease.sibling, Lease.root, hroot, hne, Bool.and_comm, hnone]

lemma sibling_child {m : Lease} {a : Nat} (hchild : l.parent = some a) (hne : m.addr ≠ l.addr) :
    l.sibling m = m.childOf a := by
  simp [Lease.sibling, Lease.childOf, hchild, hne, Bool.and_comm]

/-- What the second loop of a resize leaves, in terms of the other leases. -/
structure Left (s : State) (l : Lease) (bytes : UInt64) (pct : UInt32) : Prop where
  memory : l.parent = none →
    bytes.toNat + sum (fun m => m.root && m.memTier = l.memTier) Lease.mem (s.rest l.addr) ≤
      (s.totalMemPerTier l.memTier).toNat
  accelerator : l.parent = none → l.accel ≠ .none →
    pct.toNat + sum (fun m => m.root && m.accel = l.accel) Lease.pct (s.rest l.addr) ≤
      (s.totalAccelPct l.accel).toNat
  above : ∀ q ∈ s.leases, l.parent = some q.addr →
    q.memUsedBytes.toNat + (bytes.toNat + sum (Lease.childOf q.addr) Lease.mem (s.rest l.addr)) ≤
    q.mem ∧
      (l.accel ≠ .none →
        pct.toNat + sum (Lease.childOf q.addr) Lease.pct (s.rest l.addr) ≤ q.pct)

lemma left_of_spend (hs : Sound s) (hl : s.lookup l.addr = some l) {supply left : UInt64 × UInt32}
    (hsupply : s.supply l = .ok supply)
    (h : spend Err.enomem l.sharesMem l.sharesAccel s.leases supply = .ok left)
    (hbytes : bytes.toNat ≤ left.1.toNat) (hpct : pct.toNat ≤ left.2.toNat) :
    Left s l bytes pct := by
  obtain ⟨hmem, hacc⟩ := spend_ok h
  cases hp : l.parent with
  | none =>
    rw [State.supply, hp] at hsupply
    cases hsupply
    dsimp only at hmem hacc
    -- The siblings of a root are the other roots.
    rw [hs.sum_siblings hl l.sharesMem (fun m => m.root && m.memTier = l.memTier) Lease.mem
      (by rw [Lease.sharesMem, sibling_self, Bool.false_and]) fun m hne => by
        rw [Lease.sharesMem, sibling_root hp hne, hp, Option.isSome_none, Bool.false_or]] at hmem
    refine ⟨fun _ => by omega, fun _ haccel => ?_, fun q _ hq => absurd (hp.symm.trans hq) nofun⟩
    rw [hs.sum_siblings hl l.sharesAccel (fun m => m.root && m.accel = l.accel) Lease.pct
      (by rw [Lease.sharesAccel, sibling_self, Bool.false_and, Bool.false_and]) fun m hne => by
        rw [Lease.sharesAccel, sibling_root hp hne, hp, Option.isSome_none, Bool.false_or,
          decide_eq_true haccel, Bool.and_true]] at hacc
    omega
  | some a =>
    rw [State.supply, hp] at hsupply
    obtain ⟨q, hq, hsupply⟩ := bind_eq_ok.mp hsupply
    obtain ⟨_, -, hsupply⟩ := bind_eq_ok.mp hsupply
    have hq : s.lookup a = some q := orThrow_eq_ok.mp hq
    obtain ⟨hqmem, hqpct⟩ := spare_ok hsupply
    -- The siblings of a child are the other children of its parent.
    rw [hs.sum_siblings hl l.sharesMem (Lease.childOf a) Lease.mem
      (by rw [Lease.sharesMem, sibling_self, Bool.false_and]) fun m hne => by
        rw [Lease.sharesMem, sibling_child hp hne, hp, Option.isSome_some, Bool.true_or,
          Bool.and_true]] at hmem
    refine ⟨fun hroot => absurd (hp.symm.trans hroot) nofun,
      fun hroot => absurd (hp.symm.trans hroot) nofun, fun q' hq' haddr => ?_⟩
    obtain rfl : a = q'.addr := Option.some.inj (hp.symm.trans haddr)
    obtain rfl : q = q' := hs.eq_of_addr (lookup_mem hq) hq' (lookup_key hq)
    refine ⟨by omega, fun haccel => ?_⟩
    rw [hs.sum_siblings hl l.sharesAccel (Lease.childOf q.addr) Lease.pct
      (by rw [Lease.sharesAccel, sibling_self, Bool.false_and, Bool.false_and]) fun m hne => by
        rw [Lease.sharesAccel, sibling_child hp hne, hp, Option.isSome_some, Bool.true_or,
          decide_eq_true haccel, Bool.and_true, Bool.and_true], hqpct] at hacc
    rw [Lease.pct]
    omega

lemma leaseResize_ends (hs : Sound s) {current : Option Uuid} :
    Atomic (leaseResize current addr bytes pct) s (fun _ => Sound) := by
  refine .guard fun _ => .guard fun _ => .get_bind ?_
  refine .fetch fun l hl => .guard fun hlive => ?_
  refine .guard fun hnone => .lift fun spare hspare => ?_
  refine .lift fun kept hkept => ?_
  refine .lift fun supply hsupply => ?_
  refine .lift fun left hleft => .guard fun hfits => ?_
  have haddr : l.addr = addr := lookup_key hl
  subst haddr
  have hin : l ∈ s.leases := lookup_mem hl
  simp only [Bool.or_eq_false_iff, decide_eq_false_iff_not, UInt64.not_lt, UInt32.not_lt] at hfits
  have hroom := left_of_spend hs hl hsupply hleft hfits.1 hfits.2
  -- Without an accelerator both the old share and the new one are zero.
  have hzero : l.accel = .none → pct = 0 := by
    intro he
    simp only [he, decide_true, Bool.true_and, decide_eq_false_iff_not, not_not] at hnone
    exact hnone
  obtain ⟨hmemSpare, hpctSpare⟩ := spare_ok hspare
  obtain ⟨hmemKept, hpctKept⟩ := spend_ok hkept
  refine .modify (hs.update hl ⟨rfl, rfl, rfl, rfl, rfl, rfl, ?_, ?_, ?_, ?_, hzero⟩)
  · intro hroot
    simp only [Lease.root, Bool.and_eq_true, Option.isNone_iff_eq_none] at hroot
    exact hroom.memory hroot.1
  · intro hroot
    simp only [Lease.root, Bool.and_eq_true, Option.isNone_iff_eq_none] at hroot
    by_cases he : l.accel = .none
    · have hold := hs.accelerator l.accel
      rw [State.rootPct, sum_lookup hl] at hold
      rw [hzero he]
      exact Nat.le_trans (Nat.add_le_add_right (Nat.zero_le _) _) hold
    · exact hroom.accelerator hroot.1 he
  · intro q hq hchild
    have hparent := (childOf_iff.mp hchild).1
    obtain ⟨hqm, hqp⟩ := hroom.above q hq hparent
    refine ⟨hqm, ?_⟩
    by_cases he : l.accel = .none
    · have hold := (hs.covers q hq ((hs.parent hin hq hparent).2 hlive)).pct
      rw [State.childPct, sum_lookup hl] at hold
      rw [hzero he]
      exact Nat.le_trans (Nat.add_le_add_right (Nat.zero_le _) _) hold
    · exact hqp he
  · intro _
    have hm : l.memUsedBytes.toNat + spare.1.toNat = bytes.toNat := hmemSpare
    have hp : spare.2 = pct := hpctSpare
    constructor
    · show l.memUsedBytes.toNat + sum (Lease.childOf l.addr) Lease.mem s.leases ≤ bytes.toNat
      omega
    · show sum (Lease.childOf l.addr) Lease.pct s.leases ≤ pct.toNat
      rw [← hp]
      omega

end Calls

/-! ## Runs -/

/-- An engine writes down how much of a lease it uses, which is no more than the unrevoked children
    of the lease leave over. -/
def State.use (s : State) (addr : Nat) (bytes : UInt64) : State :=
  match s.lookup addr with
  | some l =>
    if bytes.toNat + s.childMem addr ≤ l.mem then
      { s with leases := update Lease.addr s.leases { l with memUsedBytes := bytes } }
    else s
  | none => s

inductive Input where
  | grant (alloc : Allocator) (id : Uuid) (tier : UInt32) (bytes : UInt64) (accel pct : UInt32)
  | grantChild (alloc : Allocator) (parent : Nat) (id : Uuid) (bytes : UInt64) (pct : UInt32)
  | resize (current : Option Uuid) (addr : Nat) (bytes : UInt64) (pct : UInt32)
  | revoke (addr : Nat)
  | release (addr : Nat)
  | use (addr : Nat) (bytes : UInt64)

def Input.exec : Input → RProg Unit
  | .grant alloc id tier bytes accel pct => discard (leaseGrant alloc id tier bytes accel pct)
  | .grantChild alloc parent id bytes pct => discard (leaseGrantChild alloc parent id bytes pct)
  | .resize current addr bytes pct => leaseResize current addr bytes pct
  | .revoke addr => leaseRevoke addr
  | .release addr => leaseRelease addr
  | .use addr bytes => modify fun s => s.use addr bytes

def State.step (s : State) (x : Input) : State :=
  final x.exec s

def State.succeeds (s : State) (x : Input) : Bool :=
  (outcome x.exec s).isOk

def stateAt (mem : MemTier → UInt64) (accel : AccelType → UInt32) (run : List Input) (n : Nat) :
    State :=
  Run.after State.step ⟨mem, accel, []⟩ run n

def State.Parent (s : State) (l q : Lease) : Prop :=
  l ∈ s.leases ∧ q ∈ s.leases ∧ l.parent = some q.addr

/-- The reservations fit together, and the figures reported are exact. -/
structure Conserved (s : State) : Prop where
  memory : ∀ tier, s.rootMem tier ≤ (s.totalMemPerTier tier).toNat
  accelerator : ∀ accel, s.rootPct accel ≤ (s.totalAccelPct accel).toNat
  covers : ∀ l ∈ s.leases, l.revoked = false →
    l.memUsedBytes.toNat + s.childMem l.addr ≤ l.mem ∧ s.childPct l.addr ≤ l.pct
  /-- Every ancestor of an unrevoked lease is unrevoked, and none is missing. -/
  ancestors : ∀ l ∈ s.leases, l.revoked = false →
    (∀ q, Relation.TransGen s.Parent l q → q.revoked = false) ∧
      ∀ p, l.parent = some p → ∃ q, s.Parent l q ∧ q.addr = p
  availMem : ∀ tier, (s.availMem tier).toNat = (s.totalMemPerTier tier).toNat - s.rootMem tier
  availAccel : ∀ accel, (s.availAccel accel).toNat = (s.totalAccelPct accel).toNat - s.rootPct accel
  snapshot : ∃ c, s.snapshotCapacity = .ok c ∧
    (∀ tier, c.freeMemory tier = s.availMem tier) ∧ ∀ accel,
    c.freeAccelerator accel = s.availAccel accel

section Runs

variable {s : State} {x : Input} {l q : Lease} {mem : MemTier → UInt64} {accel : AccelType → UInt32}
  {run : List Input} {n : Nat}

lemma Sound.use (hs : Sound s) (addr : Nat) (bytes : UInt64) : Sound (s.use addr bytes) := by
  rw [State.use]
  cases hl : s.lookup addr with
  | none => exact hs
  | some l =>
    dsimp only
    split
    · rename_i hfits
      obtain rfl : l.addr = addr := lookup_key hl
      have hin : l ∈ s.leases := lookup_mem hl
      -- Neither the amounts nor the place of the lease change.
      have hrewritten : Rewritten s l { l with memUsedBytes := bytes } := by
        refine ⟨rfl, rfl, rfl, rfl, rfl, rfl, ?_, ?_, ?_, ?_, hs.unaccelerated l hin⟩
        · intro (hroot : l.root = true)
          have hold := hs.memory l.memTier
          rw [State.rootMem, sum_lookup hl, hroot, decide_eq_true rfl] at hold
          exact hold
        · intro (hroot : l.root = true)
          have hold := hs.accelerator l.accel
          rw [State.rootPct, sum_lookup hl, hroot, decide_eq_true rfl] at hold
          exact hold
        · intro q hq (hchild : l.childOf q.addr = true)
          obtain ⟨hp, hlive⟩ := childOf_iff.mp hchild
          obtain ⟨hcm, hcp⟩ := hs.covers q hq ((hs.parent hin hq hp).2 hlive)
          rw [State.childMem, sum_lookup hl, hchild] at hcm
          rw [State.childPct, sum_lookup hl, hchild] at hcp
          exact ⟨hcm, hcp⟩
        · exact fun hrev => ⟨hfits, (hs.covers l hin hrev).pct⟩
      exact hs.update hl hrewritten
    · exact hs

lemma exec_ends (hs : Sound s) (x : Input) : Atomic x.exec s (fun _ => Sound) := by
  cases x with
  | grant alloc id tier bytes accel pct => exact Ends.discard (leaseGrant_ends hs)
  | grantChild alloc parent id bytes pct => exact Ends.discard (leaseGrantChild_ends hs)
  | resize current addr bytes pct => exact leaseResize_ends hs
  | revoke addr => exact leaseRevoke_ends hs
  | release addr => exact leaseRelease_ends hs
  | use addr bytes => exact .modify (hs.use addr bytes)

lemma Sound.step (hs : Sound s) (x : Input) : Sound (s.step x) := by
  refine Ends.final ((exec_ends hs x).mono (fun _ _ h => h) ?_)
  rintro _ s' rfl
  exact hs

lemma step_of_fails (hs : Sound s) (hf : s.succeeds x = false) : s.step x = s :=
  (exec_ends hs x).of_fails hf

lemma sound_stateAt (mem : MemTier → UInt64) (accel : AccelType → UInt32) (run : List Input)
    (n : Nat) : Sound (stateAt mem accel run n) := by
  refine Run.after_invariant State.step ?_ (fun _ x hs => hs.step x) n
  exact ⟨List.nodup_nil, fun _ => Nat.zero_le _, fun _ => Nat.zero_le _, nofun, nofun, nofun, nofun⟩

/-- Revocation goes down the whole tree, so what is above an unrevoked lease is unrevoked. -/
lemma Sound.ancestor_live (hs : Sound s) (hlive : l.revoked = false)
    (h : Relation.TransGen s.Parent l q) : q.revoked = false := by
  have hstep : ∀ m q, s.Parent m q → m.revoked = false → q.revoked = false := by
    rintro m q ⟨hm, hq, hp⟩ hrev
    exact (hs.parent hm hq hp).2 hrev
  induction h with
  | single h => exact hstep _ _ h hlive
  | tail _ h ih => exact hstep _ _ h ih

lemma Sound.conserved (hs : Sound s) : Conserved s where
  memory := hs.memory
  accelerator := hs.accelerator
  covers l hl hlive := ⟨(hs.covers l hl hlive).mem, (hs.covers l hl hlive).pct⟩
  ancestors l hl hlive := by
    refine ⟨fun q => hs.ancestor_live hlive, fun p hp => ?_⟩
    obtain ⟨q, hq, rfl, -⟩ := hs.parents l hl p hp
    exact ⟨q, ⟨hl, hq, hp⟩, rfl⟩
  availMem tier := by
    have h := hs.availMem tier
    omega
  availAccel accel := by
    have h := hs.availAccel accel
    omega
  snapshot := by
    obtain ⟨c, hc, hmem, hpct⟩ :=
      subtract_ok (c := ⟨s.totalMemPerTier, s.totalAccelPct⟩) hs.memory hs.accelerator
    refine ⟨c, hc, fun tier => UInt64.toNat_inj.mp ?_, fun accel => UInt32.toNat_inj.mp ?_⟩
    · have h := hs.availMem tier
      have h' : (c.freeMemory tier).toNat + s.rootMem tier = (s.totalMemPerTier tier).toNat :=
        hmem tier
      omega
    · have h := hs.availAccel accel
      have h' : (c.freeAccelerator accel).toNat + s.rootPct accel = (s.totalAccelPct accel).toNat :=
        hpct accel
      omega

/-- In every run the grants stay within what there is, and a refused call changes nothing. -/
theorem lease_conservation (mem : MemTier → UInt64) (accel : AccelType → UInt32) (run : List Input)
    (n : Nat) : Conserved (stateAt mem accel run n) ∧
      ∀ x, run[n]? = some x → (stateAt mem accel run n).succeeds x = false →
        stateAt mem accel run (n + 1) = stateAt mem accel run n := by
  have hs := sound_stateAt mem accel run n
  refine ⟨hs.conserved, fun x hx hf => ?_⟩
  exact (Run.after_succ State.step hx).trans (step_of_fails hs hf)

end Runs

/-! ## A divided lease -/

def onlyAt (addr : Nat) : Allocator := fun live =>
  if h : addr ∈ live then none else some ⟨addr, h⟩

def divided : List Input :=
  [.grant (onlyAt 1) ⟨1, 1⟩ 0 1000 1 50, .grantChild (onlyAt 2) 1 ⟨1, 2⟩ 600 50,
    .resize none 1 599 50, .revoke 1]

def dividedAt (n : Nat) : State :=
  stateAt State.init.totalMemPerTier State.init.totalAccelPct divided n

/-- A divided lease is not resized below its part, and is given back in full. -/
theorem lease_conservation_divided :
    (∀ n, Conserved (dividedAt n)) ∧ (dividedAt 2).succeeds (.resize none 1 599 50) = false ∧
      (dividedAt 3).availMem .l0 = 17179868184 ∧ (dividedAt 4).availMem .l0 = 17179869184 :=
  ⟨fun n => (lease_conservation State.init.totalMemPerTier State.init.totalAccelPct divided n).1,
    by decide +kernel, by decide +kernel, by decide +kernel⟩

end Anunix.Route
