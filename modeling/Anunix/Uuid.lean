import Anunix.Lib.Codec

/-!
# Object and cell identifiers

`struct anx_uuid` of `kernel/include/anx/types.h`, the type behind `anx_oid_t` and `anx_cid_t`, and
the generator of `kernel/lib/uuid.c`. Where `anx_uuid_compare` is tested against zero it is equality
of the two halves, and the derived decidable equality stands in for it; `Uuid.before` is its order.
-/

namespace Anunix

/-- A 128-bit identifier in two halves (C `struct anx_uuid`). -/
structure Uuid where
  hi : UInt64
  lo : UInt64
  deriving DecidableEq, Repr

/-- The nil identifier (C `ANX_UUID_NIL`). -/
def Uuid.nil : Uuid := ⟨0, 0⟩

/-- The order of identifiers, high half first (C `anx_uuid_compare(a, b) <= 0`). -/
def Uuid.before (a b : Uuid) : Bool :=
  a.hi < b.hi || (a.hi = b.hi && a.lo ≤ b.lo)

/-- An identifier is stored high half first. -/
def Uuid.codec : Codec Uuid :=
  (Codec.u64.pair Codec.u64).iso (fun x => ⟨x.1, x.2⟩) (fun u => (u.hi, u.lo)) fun _ => rfl

/-- The UUIDv7 built from a timestamp in nanoseconds and two random words (C
`anx_uuid_generate`). -/
def Uuid.generate (tsNs rand1 rand2 : UInt64) : Uuid where
  hi := ((tsNs / 1000000) <<< 16) ||| ((0x7 : UInt64) <<< 12) ||| (rand1 &&& 0xFFF)
  lo := ((0x2 : UInt64) <<< 62) ||| (rand2 &&& 0x3FFFFFFFFFFFFFFF)

/-- The variant bits keep a generated identifier away from the nil one. -/
lemma Uuid.generate_ne_nil (tsNs rand1 rand2 : UInt64) : generate tsNs rand1 rand2 ≠ nil := by
  intro h
  have hlo : ((0x2 : UInt64) <<< 62) ||| (rand2 &&& 0x3FFFFFFFFFFFFFFF) = 0 := congrArg Uuid.lo h
  rw [UInt64.or_eq_zero_iff] at hlo
  exact absurd hlo.1 (by decide)

end Anunix
