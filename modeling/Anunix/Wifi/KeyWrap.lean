import Mathlib

/-!
# AES key unwrapping and the key derivation of WPA2

`anx_aes128_unwrap` of `kernel/lib/crypto/aes128.c` (RFC 3394) over the AES block cipher, and
`anx_prf_sha1` and `anx_pbkdf2_hmac_sha1` of `kernel/lib/crypto/sha1.c` over HMAC-SHA-1. The block
cipher and the MAC are the parameters `Prims`.
-/

namespace Anunix.Wifi
open List

/-- The cryptographic primitives, with the sizes of what they compute. -/
structure Prims where
  hmacSha1 : (key data : List UInt8) → List UInt8
  aesDecrypt : (key block : List UInt8) → List UInt8
  length_hmacSha1 : ∀ key data, (hmacSha1 key data).length = 20
  length_aesDecrypt : ∀ key block, (aesDecrypt key block).length = 16

variable (P : Prims)

/-! ## Key unwrapping -/

/-- The step counter goes into the register `A`, big-endian. The nested tests of the source only
skip bytes that are zero. -/
def xorCounter (a : List UInt8) (t : UInt32) : List UInt8 :=
  zipWith (· ^^^ ·) a
    [0, 0, 0, 0, (t >>> 24).toUInt8, (t >>> 16).toUInt8, (t >>> 8).toUInt8, t.toUInt8]

/-- One step of the unwrapping, on the block `i` of round `j`, blocks counted from one. -/
def unwrapStep (kek : List UInt8) (n : Nat) : List UInt8 × List UInt8 → Nat × Nat →
    List UInt8 × List UInt8
  | (a, r), (j, i) =>
    let b :=
      P.aesDecrypt kek (xorCounter a (UInt32.ofNat (n * j + i)) ++ (r.drop ((i - 1) * 8)).take 8)
    (b.take 8, r.take ((i - 1) * 8) ++ b.drop 8 ++ r.drop (i * 8))

def unwrapOrder (n : Nat) : List (Nat × Nat) :=
  (range 6).reverse.flatMap fun j => (range n).reverse.map fun i => (j, i + 1)

/-- C `anx_aes128_unwrap`: the plain text, if the register comes out as the default initial
value. -/
def aes128Unwrap (kek wrapped : List UInt8) (outLen : Nat) : Option (List UInt8) :=
  if wrapped.length < 16 ∨ wrapped.length % 8 ≠ 0 then none
  else
    let n := wrapped.length / 8 - 1
    if n * 8 ≠ outLen then none
    else
      let (a, r) := (unwrapOrder n).foldl (unwrapStep P kek n) (wrapped.take 8, wrapped.drop 8)
      if a = replicate 8 0xA6 then some r else none

/-! ## Wrapping -/

abbrev Registers := List UInt8 × List UInt8

/-- A block cipher that `aesDecrypt` inverts. -/
structure Enciphers (kek : List UInt8) (encrypt : List UInt8 → List UInt8) : Prop where
  length : ∀ b, b.length = 16 → (encrypt b).length = 16
  decrypt : ∀ b, b.length = 16 → P.aesDecrypt kek (encrypt b) = b
  encrypt : ∀ b, b.length = 16 → encrypt (P.aesDecrypt kek b) = b

/-- A step that takes the register and the block `i` through `f`. -/
def blockStep (f : UInt32 → Registers → Registers) (n : Nat) : Registers → Nat × Nat → Registers
  | (a, r), (j, i) =>
    let b := f (UInt32.ofNat (n * j + i)) (a, (r.drop ((i - 1) * 8)).take 8)
    (b.1, r.take ((i - 1) * 8) ++ b.2 ++ r.drop (i * 8))

def encipher (encrypt : List UInt8 → List UInt8) (t : UInt32) (s : Registers) : Registers :=
  let b := encrypt (s.1 ++ s.2)
  (xorCounter (b.take 8) t, b.drop 8)

def decipher (kek : List UInt8) (t : UInt32) (s : Registers) : Registers :=
  let b := P.aesDecrypt kek (xorCounter s.1 t ++ s.2)
  (b.take 8, b.drop 8)

/-- The wrapping of RFC 3394, for plain texts whose steps can be counted in 32 bits. -/
def wrap (encrypt : List UInt8 → List UInt8) (plain : List UInt8) : List UInt8 :=
  let n := plain.length / 8
  let s := (unwrapOrder n).reverse.foldl (blockStep (encipher encrypt) n) (replicate 8 0xA6, plain)
  s.1 ++ s.2

/-- The register has 8 bytes, and there are `n` blocks of 8 bytes. -/
def Sized (n : Nat) (s : Registers) : Prop :=
  s.1.length = 8 ∧ s.2.length = n * 8

section

variable {P} {encrypt : List UInt8 → List UInt8} {kek a l m r : List UInt8} {n i : Nat}
  {s : Registers} {f g : UInt32 → Registers → Registers} {x : Nat × Nat}

lemma unwrapStep_eq : unwrapStep P kek n = blockStep (decipher P kek) n := rfl

lemma xorCounter_self (ha : a.length = 8) (t : UInt32) : xorCounter (xorCounter a t) t = a := by
  match a, ha with
  | [_, _, _, _, _, _, _, _], _ => simp [xorCounter]

lemma blocks (hl : l.length = (i - 1) * 8) (hm : m.length = 8) (hi : 1 ≤ i) :
    (l ++ m ++ r).take ((i - 1) * 8) = l ∧ ((l ++ m ++ r).drop ((i - 1) * 8)).take 8 = m ∧
      (l ++ m ++ r).drop (i * 8) = r := by
  have hend : i * 8 = (l ++ m).length := by
    rw [length_append]
    omega
  rw [hend, drop_left, append_assoc, ← hl, take_left, drop_left, ← hm, take_left]
  exact ⟨rfl, rfl, rfl⟩

/-- `g` undoes `f` on a register and a block. -/
def Undoes (g f : UInt32 → Registers → Registers) : Prop :=
  ∀ t s, Sized 1 s → Sized 1 (f t s) ∧ g t (f t s) = s

lemma blockStep_undone (hg : Undoes g f) (hs : Sized n s) (hx : x ∈ unwrapOrder n) :
    Sized n (blockStep f n s x) ∧ blockStep g n (blockStep f n s x) x = s := by
  obtain ⟨a, r⟩ := s
  obtain ⟨ha, hr⟩ : a.length = 8 ∧ r.length = n * 8 := hs
  simp only [unwrapOrder, mem_flatMap, mem_reverse, mem_range, mem_map] at hx
  obtain ⟨j, -, i, hi, rfl⟩ := hx
  -- The blocks in front of the one that is worked on, this block, and those behind it.
  obtain ⟨l, m, r, rfl, hl, hm⟩ : ∃ l m r', r = l ++ m ++ r' ∧ l.length = (i + 1 - 1) * 8 ∧
      m.length = 8 := by
    refine ⟨r.take (i * 8), (r.drop (i * 8)).take 8, (r.drop (i * 8)).drop 8, ?_, ?_⟩
    · rw [append_assoc, take_append_drop, take_append_drop]
    · simp only [length_take, length_drop]
      omega
  obtain ⟨⟨hhead, htail⟩, heq⟩ := hg (UInt32.ofNat (n * j + (i + 1))) (a, m) ⟨ha, hm⟩
  obtain ⟨htake, hblock, hdrop⟩ := blocks (r := r) hl hm (Nat.le_add_left 1 i)
  obtain ⟨htake', hblock', hdrop'⟩ := blocks (r := r) hl htail (Nat.le_add_left 1 i)
  simp only [blockStep, htake, hblock, hdrop, htake', hblock', hdrop', Prod.mk.eta, heq]
  simp only [length_append, hm] at hr
  exact ⟨⟨hhead, by simp only [length_append, htail]; omega⟩, trivial⟩

lemma Enciphers.undone (hc : Enciphers P kek encrypt) :
    Undoes (decipher P kek) (encipher encrypt) ∧ Undoes (encipher encrypt) (decipher P kek) := by
  have hhalves {b : List UInt8} (hb : b.length = 16) :
      (b.take 8).length = 8 ∧ (b.drop 8).length = 1 * 8 := by
    simp [hb]
  have hxor {a : List UInt8} (ha : a.length = 8) (t : UInt32) : (xorCounter a t).length = 8 := by
    simp [xorCounter, ha]
  constructor
  · rintro t ⟨a, m⟩ ⟨ha, hm⟩
    dsimp only at ha hm
    have hb : (a ++ m).length = 16 := by rw [length_append, ha, hm]
    obtain ⟨hhead, htail⟩ := hhalves (hc.length _ hb)
    refine ⟨⟨hxor hhead t, htail⟩, ?_⟩
    simp only [decipher, encipher, xorCounter_self hhead, take_append_drop, hc.decrypt _ hb,
      take_left' ha, drop_left' ha]
  · rintro t ⟨a, m⟩ ⟨ha, hm⟩
    dsimp only at ha hm
    have hb : (xorCounter a t ++ m).length = 16 := by rw [length_append, hxor ha, hm]
    refine ⟨hhalves (P.length_aesDecrypt ..), ?_⟩
    simp only [decipher, encipher, take_append_drop, hc.encrypt _ hb, take_left' (hxor ha t),
      drop_left' (hxor ha t), xorCounter_self ha]

/-- A loop whose steps are undone one by one is undone by the loop that runs the other way. -/
lemma foldl_reverse_foldl {σ α : Type*} {I : σ → Prop} {f g : σ → α → σ} (order : List α) {s : σ}
    (hs : I s) (h : ∀ x ∈ order, ∀ s, I s → I (f s x) ∧ g (f s x) x = s) :
    I (order.foldl f s) ∧ order.reverse.foldl g (order.foldl f s) = s := by
  induction order generalizing s with
  | nil => exact ⟨hs, rfl⟩
  | cons x order ih =>
    obtain ⟨hx, horder⟩ := forall_mem_cons.mp h
    obtain ⟨hI, heq⟩ := ih (hx s hs).1 horder
    refine ⟨hI, ?_⟩
    rw [reverse_cons, foldl_append, foldl_cons, foldl_cons, foldl_nil, heq]
    exact (hx s hs).2

lemma aes128Unwrap_some {wrapped plain : List UInt8} {outLen : Nat}
    (hn : n = wrapped.length / 8 - 1) :
    aes128Unwrap P kek wrapped outLen = some plain ↔
    (16 ≤ wrapped.length ∧ wrapped.length % 8 = 0) ∧ n * 8 = outLen ∧
      (unwrapOrder n).foldl (unwrapStep P kek n) (wrapped.take 8, wrapped.drop 8) =
      (replicate 8 0xA6, plain) := by
  simp only [aes128Unwrap, ← hn, Option.ite_none_left_eq_some, Option.ite_none_right_eq_some,
    not_or, not_not, not_lt, Prod.ext_iff, Option.some.injEq]

lemma blockSteps_undone (hg : Undoes g f) (hs : Sized n s) {order : List (Nat × Nat)}
    (horder : order ⊆ unwrapOrder n) : Sized n (order.foldl (blockStep f n) s) ∧
      order.reverse.foldl (blockStep g n) (order.foldl (blockStep f n) s) = s :=
  foldl_reverse_foldl order hs fun _ hx _ hs => blockStep_undone hg hs (horder hx)

/-- **Unwrapping inverts the wrapping of RFC 3394**, whatever the block cipher: it succeeds on the
wrapping of a plain text of the expected length, with that plain text, and on nothing else. -/
theorem aes128Unwrap_eq_some_iff (hc : Enciphers P kek encrypt) (wrapped plain : List UInt8)
    (outLen : Nat) : aes128Unwrap P kek wrapped outLen = some plain ↔
      wrapped = wrap encrypt plain ∧ plain.length = outLen ∧ 8 ≤ plain.length ∧
      plain.length % 8 = 0 := by
  rw [aes128Unwrap_some rfl, unwrapStep_eq]
  constructor
  · rintro ⟨⟨hlong, hwhole⟩, hlen, hfold⟩
    have hs : Sized (wrapped.length / 8 - 1) (wrapped.take 8, wrapped.drop 8) := by
      simp only [Sized, length_take, length_drop]
      omega
    obtain ⟨⟨-, hplain⟩, hback⟩ := blockSteps_undone hc.undone.2 hs (Subset.refl _)
    rw [hfold] at hplain hback
    dsimp only at hplain
    have hn : plain.length / 8 = wrapped.length / 8 - 1 := by omega
    rw [wrap, hn, hback]
    exact ⟨(take_append_drop ..).symm, hplain.trans hlen, by omega, by omega⟩
  · rintro ⟨rfl, rfl, hlong, hwhole⟩
    have hs : Sized (plain.length / 8) (replicate 8 0xA6, plain) :=
      ⟨length_replicate, by dsimp only; omega⟩
    obtain ⟨⟨ha, hr⟩, hback⟩ := blockSteps_undone hc.undone.1 hs fun _ => mem_reverse.mp
    have hlen : (wrap encrypt plain).length = 8 + plain.length := by
      rw [wrap, length_append, ha, hr]
      omega
    have hn : (8 + plain.length) / 8 - 1 = plain.length / 8 := by omega
    rw [hlen, hn]
    refine ⟨by omega, by omega, ?_⟩
    rw [wrap, take_left' ha, drop_left' ha, Prod.mk.eta]
    rwa [reverse_reverse] at hback

end

/-- A cipher that turns a block around. -/
def reversingPrims : Prims where
  hmacSha1 _ _ := replicate 20 0
  aesDecrypt _ block := ((block ++ replicate 16 0).take 16).reverse
  length_hmacSha1 _ _ := length_replicate
  length_aesDecrypt _ block := by simp

/-- A wrapped key is unwrapped. -/
theorem aes128Unwrap_reversed :
    aes128Unwrap reversingPrims [] (wrap reverse [1, 2, 3, 4, 5, 6, 7, 8]) 8 =
    some [1, 2, 3, 4, 5, 6, 7, 8] := by
  have hdecrypt {b : List UInt8} (hb : b.length = 16) :
      reversingPrims.aesDecrypt [] b = b.reverse :=
    congrArg reverse (take_left' hb)
  have hlength {b : List UInt8} (hb : b.length = 16) : b.reverse.length = 16 :=
    length_reverse.trans hb
  have hc : Enciphers reversingPrims [] reverse := {
    length := fun _ => hlength
    decrypt := fun b hb => by rw [hdecrypt (hlength hb), reverse_reverse]
    encrypt := fun b hb => by rw [hdecrypt hb, reverse_reverse] }
  exact (aes128Unwrap_eq_some_iff hc _ _ 8).mpr ⟨rfl, rfl, by decide, rfl⟩

/-! ## Key derivation -/

/-- C `anx_prf_sha1`: blocks of 20 bytes, the last one cut off. -/
def prfSha1 (key label data : List UInt8) (outLen : Nat) : List UInt8 :=
  ((range ((outLen + 19) / 20)).flatMap fun counter =>
    P.hmacSha1 key (label ++ [0] ++ data ++ [UInt8.ofNat counter])).take outLen

/-- The inner loop of `anx_pbkdf2_hmac_sha1`: `U` and the sum of all `U`. -/
def pbkdf2Block (pass first : List UInt8) (iters : Nat) : List UInt8 :=
  ((range (iters - 1)).foldl
    (fun (u, block) _ =>
      let u := P.hmacSha1 pass u
      (u, zipWith (· ^^^ ·) block u))
    (first, first)).2

/-- C `anx_pbkdf2_hmac_sha1`. -/
def pbkdf2HmacSha1 (pass salt : List UInt8) (iters outLen : Nat) : List UInt8 :=
  ((range ((outLen + 19) / 20)).flatMap fun i =>
    let blk := UInt32.ofNat (i + 1)
    let index := [(blk >>> 24).toUInt8, (blk >>> 16).toUInt8, (blk >>> 8).toUInt8, blk.toUInt8]
    pbkdf2Block P pass (P.hmacSha1 pass (salt.take 252 ++ index)) iters).take outLen

end Anunix.Wifi
