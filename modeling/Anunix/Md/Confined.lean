import Anunix.Md.Runs

/-!
# Array I/O stays in the data areas

In any state of the machine, a request whose end can be counted in 64 bits touches no member sector
outside the data area of that member, except that a call that marks a member faulty writes the
superblocks of the array. A request past the end of the array is refused with nothing done
(`arrayIo_confined`).

The superblocks of a created array are outside its data areas, so only such calls reach them.
-/

namespace Anunix.Md
open Fallible

namespace Layout

variable {L : Layout} {acc : Access}

/-- Every sector of the access is in the data area of a member, if that area can be counted in 64
bits. -/
def InArea (L : Layout) (acc : Access) : Prop :=
  ∃ i < L.size, L.dev i = some acc.dev ∧
    ((L.array.members i).dataOffset.toNat + L.sectors < 2 ^ 64 →
      (L.array.members i).dataOffset.toNat ≤ acc.lba.toNat ∧
      acc.lba.toNat + acc.count.toNat ≤ (L.array.members i).dataOffset.toNat + L.sectors)

def MissesSupers (L : Layout) (acc : Access) : Prop :=
  ∀ i < L.size, ∀ d, L.dev i = some d → ∀ s, superSector (L.devs d) L.array.tailMeta = .ok s →
    ¬ acc.Covers d s.toNat

lemma allows_inArea {lba : UInt64} {count : UInt32} (h : lba.toNat + count.toNat < 2 ^ 64) :
    L.Allows L.InArea lba count := by
  intro i hi d hd hfit write
  have hle : lba.toNat + count.toNat ≤ L.sectors := by
    rw [gt_iff_lt, UInt64.lt_iff_toNat_lt, UInt64.toNat_add, UInt32.toNat_toUInt64,
      Nat.mod_eq_of_lt h] at hfit
    exact Nat.not_lt.mp hfit
  refine ⟨i, hi, hd, fun hoff => ?_⟩
  have hsum : ((L.array.members i).dataOffset + lba).toNat =
      (L.array.members i).dataOffset.toNat + lba.toNat := by
    rw [UInt64.toNat_add]
    exact Nat.mod_eq_of_lt (by omega)
  show _ ≤ ((L.array.members i).dataOffset + lba).toNat ∧
    ((L.array.members i).dataOffset + lba).toNat + count.toNat ≤ _
  omega

lemma Laid.missesSupers (h : L.Laid) (hacc : L.InArea acc) : L.MissesSupers acc := by
  intro j hj d hd s hs hcovers
  obtain ⟨i, hi, hdi, harea⟩ := hacc
  obtain ⟨hdev, hlow, hhigh⟩ := hcovers
  rw [hdev] at hdi
  have hoff : (L.array.members i).dataOffset.toNat = L.offset :=
    congrArg UInt64.toNat (h.member i hi d hdi).2.2.1
  have hcap : L.offset + L.sectors < 2 ^ 64 :=
    Nat.lt_of_le_of_lt (h.fits hi hdi) (UInt64.toNat_lt _)
  -- the superblock sector would be a data sector
  obtain ⟨k, hk⟩ := Nat.exists_eq_add_of_le (show L.offset ≤ s.toNat by omega)
  have hsuper : L.IsSuper ⟨d, s, 1, true⟩ := ⟨rfl, rfl, i, hi, hdi, hs⟩
  have hone : (1 : UInt32).toNat = 1 := rfl
  apply h.not_covers_data hsuper (k := k) (by omega)
  exact ⟨rfl, by show s.toNat ≤ _; omega, by show _ < s.toNat + (1 : UInt32).toNat; omega⟩

end Layout

/-- Array requests stay in the data areas of the members, but for the superblocks of a member that
failed, and one past the end changes nothing. -/
theorem arrayIo_confined {a : ArrayId} {m : Machine} {r : Request}
    (hr : r.lba.toNat + r.count.toNat < 2 ^ 64) :
    (∃ accs, (final (r.exec a) m).trace = m.trace ++ accs ∧ ∀ acc ∈ accs,
      ((m.layout a).InArea acc ∧ (Reached a m → (m.layout a).MissesSupers acc)) ∨
      ((m.layout a).IsSuper acc ∧ Marked a m (final (r.exec a) m))) ∧
    ((m.arrays a).arraySectors.toNat < r.lba.toNat + r.count.toNat → ∃ e,
      r.exec a m = .error e m) := by
  constructor
  · have hserved : Served a (m.layout a).InArea m (final (r.exec a) m) :=
      r.exec_served (fun _ _ hk => Layout.allows_inArea (hk hr)) m rfl
    obtain ⟨accs, htrace, hall⟩ := hserved.trace
    refine ⟨accs, htrace, fun acc hacc => ?_⟩
    rcases hall acc hacc with harea | hsuper
    · exact .inl ⟨harea, fun hreached => hreached.laid.missesSupers harea⟩
    · exact .inr hsuper
  · intro hpast
    have hwide : r.lba + r.count.toUInt64 > (m.arrays a).arraySectors := by
      rw [gt_iff_lt, UInt64.lt_iff_toNat_lt, UInt64.toNat_add, UInt32.toNat_toUInt64,
        Nat.mod_eq_of_lt hr]
      exact hpast
    have hends := Request.exec_refused hwide
    cases hexec : r.exec a m with
    | ok l m' => exact (hends.of_ok hexec).elim
    | error e m' => exact ⟨e, congrArg _ (hends.of_error hexec)⟩

/-- A read of the sector behind the last one fails. -/
theorem arrayIo_confined_pastEnd : ∃ e, (Request.read 992 1).exec .first
        (final (create Level.raid1.code 0 [0, 1] true Uuid.nil 0) (Machine.fresh 2 1000)) =
      .error e (final (create Level.raid1.code 0 [0, 1] true Uuid.nil 0) (Machine.fresh 2 1000)) :=
  (arrayIo_confined (by decide)).2 (by decide +kernel)

def thirdFails : Machine :=
  { Machine.fresh 2 4096 with
    io := fun t => if t = 2 then some ⟨.eio, fun _ => zeroSector⟩ else none }

def failingMirror : Machine :=
  final (create Level.raid1.code 0 [0, 1] false Uuid.nil 0) thirdFails

/-- A mirror whose first read fails on one drive writes sector 8 of both, ahead of their data
areas. -/
theorem raid1Read_writes_superblocks :
    create Level.raid1.code 0 [0, 1] false Uuid.nil 0 thirdFails = .ok .first failingMirror ∧
    (Request.read 0 1).InRange (failingMirror.arrays .first).arraySectors.toNat ∧
    (final ((Request.read 0 1).exec .first) failingMirror).trace = failingMirror.trace ++
      [⟨0, 2048, 1, false⟩, ⟨0, 8, 1, true⟩, ⟨1, 8, 1, true⟩, ⟨1, 2048, 1, false⟩] ∧
    ¬ (failingMirror.layout .first).InArea ⟨0, 8, 1, true⟩ := by
  refine ⟨?_, ?_, by decide +kernel, ?_⟩
  · obtain ⟨a, m, hok⟩ := exists_ok_of_outcome
      (x := create Level.raid1.code 0 [0, 1] false .nil 0) (s := thirdFails) (by decide +kernel)
    have hfirst : (outcome (create Level.raid1.code 0 [0, 1] false .nil 0) thirdFails).toOption =
        some .first := by decide +kernel
    have hm : failingMirror = m := final_of_ok hok
    rw [outcome, hok] at hfirst
    cases hfirst
    rw [hok, hm]
  · show 0 + 1 ≤ 2048
    omega
  · rintro ⟨i, hi, -, harea⟩
    have hoff :
        ∀ i < 2, (((failingMirror.layout .first).array.members i).dataOffset).toNat = 2048 := by
      decide +kernel
    rw [hoff i hi] at harea
    have hlow : 2048 ≤ (8 : UInt64).toNat := (harea (by decide)).1
    exact absurd hlow (by decide)

end Anunix.Md
