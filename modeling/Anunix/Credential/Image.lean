import Anunix.Credential.Credential

/-!
# The disk image of the credential store

`EntryAt buf n e` says that the entry `n` of the image in a buffer holds the credential `e`. Saving
establishes it for every slot in use, later writes to other entries and the terminator that loading
forces keep it, and the fields that loading reads off such an entry are those of `e`.
-/

namespace Anunix.Credential

open Fallible List Codec

/-- A credential that fits an entry of the image: its name and terminator fit the array of bytes,
and its secret is no longer than `CRED_MAX_SECRET`. -/
structure Entry.Fits (e : Entry) : Prop where
  name : e.name.bytes.length < nameSize
  nonempty : 0 < e.secret.length
  secret : e.secret.length ≤ credMaxSecret

structure EntryAt (buf : Nat → UInt8) (n : Nat) (e : Entry) : Prop where
  name : Region.load buf (entryBase n) (e.name.bytes.length + 1) = e.name.bytes ++ [0]
  credType : Region.load buf (entryBase n + 128) 4 = u32.encode e.credType
  secretLen : Region.load buf (entryBase n + 132) 4 = u32.encode (UInt32.ofNat e.secret.length)
  secret : Region.load buf (entryBase n + 136) e.secret.length = e.secret

lemma entryBase_succ (n : Nat) : entryBase (n + 1) = entryBase n + entrySize := by
  simp only [entryBase, Nat.succ_mul]
  omega

lemma entryBase_mono {m n : Nat} (h : m ≤ n) : entryBase m ≤ entryBase n :=
  Nat.add_le_add_left (Nat.mul_le_mul_right entrySize h) hdrSize

lemma entryBase_lt {m n : Nat} (h : m < n) : entryBase m + entrySize ≤ entryBase n := by
  rw [← entryBase_succ]
  exact entryBase_mono h

section Image

variable {buf buf' : Nat → UInt8} {n k : Nat} {e : Entry} {es : List Entry}

lemma length_strlcpy_name (h : e.Fits) :
    (e.name.strlcpy nameSize).length = e.name.bytes.length + 1 :=
  CString.length_strlcpy (Nat.le_sub_one_of_lt h.name)

lemma strlcpy_name (h : e.Fits) : e.name.strlcpy nameSize = e.name.bytes ++ [0] := by
  rw [CString.strlcpy, CString.take_of_length_le (Nat.le_sub_one_of_lt h.name)]

lemma length_u32 (x : UInt32) : (u32.encode x).length = 4 :=
  u32.length_encode x

lemma EntryAt.congr (h : EntryAt buf n e) (hfits : e.Fits)
    (heq : ∀ i, entryBase n ≤ i → i < entryBase n + entrySize → buf' i = buf i) :
    EntryAt buf' n e := by
  have hn : e.name.bytes.length < 128 := hfits.name
  have hs : e.secret.length ≤ 512 := hfits.secret
  have hload : ∀ a m, a + m ≤ entrySize →
      Region.load buf' (entryBase n + a) m = Region.load buf (entryBase n + a) m := by
    intro a m ham
    apply Region.load_congr
    intro i hl hr
    exact heq i (by omega) (by omega)
  refine ⟨?_, ?_, ?_, ?_⟩
  · rw [← h.name]
    exact hload 0 _ (by simp only [entrySize]; omega)
  · rw [← h.credType]
    exact hload 128 4 (by simp only [entrySize]; omega)
  · rw [← h.secretLen]
    exact hload 132 4 (by simp only [entrySize]; omega)
  · rw [hload 136 _ (by simp only [entrySize]; omega)]
    exact h.secret

lemma writeEntry_frame (hfits : e.Fits) {i : Nat}
    (h : i < entryBase n ∨ entryBase n + entrySize ≤ i) : writeEntry buf n e i = buf i := by
  have hn : e.name.bytes.length < 128 := hfits.name
  have hs : e.secret.length ≤ 512 := hfits.secret
  simp only [entrySize] at h
  simp only [writeEntry, take_of_length_le hfits.secret]
  rw [Region.store_of_disjoint (by omega),
    Region.store_of_disjoint (by rw [length_u32]; omega),
    Region.store_of_disjoint (by rw [length_u32]; omega),
    Region.store_of_disjoint (by rw [length_strlcpy_name hfits]; omega)]

lemma entryAt_writeEntry (hfits : e.Fits) : EntryAt (writeEntry buf n e) n e := by
  have hn : e.name.bytes.length < 128 := hfits.name
  have hlen := length_strlcpy_name hfits
  simp only [writeEntry, take_of_length_le hfits.secret]
  refine ⟨?_, ?_, ?_, ?_⟩
  · rw [Region.load_store_of_disjoint (.inl (by omega)),
      Region.load_store_of_disjoint (.inl (by omega)),
      Region.load_store_of_disjoint (.inl (by omega)), ← hlen, Region.load_store_self,
      strlcpy_name hfits]
  · rw [Region.load_store_of_disjoint (.inl (by omega)),
      Region.load_store_of_disjoint (.inl (by omega))]
    exact Region.load_store_self
  · rw [Region.load_store_of_disjoint (.inl (by omega))]
    exact Region.load_store_self
  · exact Region.load_store_self

lemma writeEntries_frame (hfits : ∀ e ∈ es, e.Fits) {i : Nat} (h : i < entryBase n) :
    writeEntries buf n es i = buf i := by
  induction es generalizing buf n with
  | nil => rfl
  | cons e es ih =>
    have hnext : i < entryBase (n + 1) := Nat.lt_of_lt_of_le h (entryBase_mono (Nat.le_succ n))
    rw [writeEntries, ih (fun f hf => hfits f (mem_cons_of_mem e hf)) hnext]
    exact writeEntry_frame (hfits e mem_cons_self) (.inl h)

lemma entryAt_writeEntries (hfits : ∀ e ∈ es, e.Fits) (hk : es[k]? = some e) :
    EntryAt (writeEntries buf n es) (n + k) e := by
  induction es generalizing buf n k with
  | nil => cases hk
  | cons f es ih =>
    have hrest : ∀ g ∈ es, g.Fits := fun g hg => hfits g (mem_cons_of_mem f hg)
    cases k with
    | zero =>
      cases hk
      have he := hfits e mem_cons_self
      have hat : EntryAt (writeEntry buf n e) n e := entryAt_writeEntry he
      apply hat.congr he
      intro i _ hr
      apply writeEntries_frame hrest
      rw [entryBase_succ]
      exact hr
    | succ k =>
      have h : EntryAt (writeEntries (writeEntry buf n f) (n + 1) es) (n + 1 + k) e := ih hrest hk
      rwa [show n + 1 + k = n + (k + 1) by omega] at h

lemma EntryAt.terminate (h : EntryAt buf n e) (hfits : e.Fits) (m : Nat) :
    EntryAt (Region.store buf (entryBase m + (nameSize - 1)) [0]) n e := by
  have hn : e.name.bytes.length < 128 := hfits.name
  rcases Nat.lt_trichotomy m n with hmn | rfl | hmn
  · refine h.congr hfits fun i hl _ => Region.store_of_le ?_
    have := entryBase_lt hmn
    simp only [entrySize, nameSize, length_singleton] at this ⊢
    omega
  · rcases Nat.lt_or_ge e.name.bytes.length 127 with hlt | hge
    · refine ⟨?_, ?_, ?_, ?_⟩
      · rw [Region.load_store_of_disjoint (.inl (by simp only [nameSize]; omega))]
        exact h.name
      · rw [Region.load_store_of_disjoint (.inr (by simp only [nameSize, length_singleton]; omega))]
        exact h.credType
      · rw [Region.load_store_of_disjoint (.inr (by simp only [nameSize, length_singleton]; omega))]
        exact h.secretLen
      · rw [Region.load_store_of_disjoint (.inr (by simp only [nameSize, length_singleton]; omega))]
        exact h.secret
    · -- the name takes up the whole field, so the terminator is there already
      have hlen : e.name.bytes.length = 127 := by omega
      have hname := h.name
      rw [hlen, Region.load_add] at hname
      obtain ⟨-, hzero⟩ := append_inj hname (by rw [Region.length_load, hlen])
      rw [show nameSize - 1 = 127 from rfl, Region.store_eq_self (singleton_inj.mp hzero)]
      exact h
  · refine h.congr hfits fun i _ hr => Region.store_of_lt ?_
    have := entryBase_lt hmn
    omega

lemma EntryAt.readEntry (h : EntryAt buf n e) (hfits : e.Fits) : readEntry buf n =
      { name := e.name, credType := e.credType, secretLen := e.secret.length,
        secret := e.secret } := by
  have hn : e.name.bytes.length < 128 := hfits.name
  have hs : e.secret.length ≤ 512 := hfits.secret
  have hread : ∀ x, u32.decode (u32.encode x) = x := by
    intro x
    have := u32.decode_encode x []
    rwa [append_nil] at this
  have hlen : (u32.decode (Region.load buf (entryBase n + 132) 4)).toNat = e.secret.length := by
    have hlt : e.secret.length < UInt32.size := Nat.lt_of_le_of_lt hs (by decide)
    rw [h.secretLen, hread, UInt32.toNat_ofNat_of_lt' hlt]
  have hname : CString.ofField (Region.load buf (entryBase n) nameSize) = e.name := by
    rw [show nameSize = e.name.bytes.length + 1 + (127 - e.name.bytes.length) by
      simp only [nameSize]; omega, Region.load_add, h.name, append_assoc]
    exact CString.ofField_terminated e.name _
  simp only [Credential.readEntry, hlen, hname, h.credType, hread, h.secret]

end Image

/-! ## Saving -/

structure ImageOf (image : List UInt8) (es : List Entry) : Prop where
  length : image.length = hdrSize + es.length * entrySize
  hdr : image.take hdrSize = header es.length
  entries : ∀ buf, Region.load buf 0 image.length = image → ∀ k e, es[k]? = some e → EntryAt buf k e

lemma length_header (n : Nat) : (header n).length = hdrSize := by
  simp only [header, length_append, length_u32, hdrSize]

end Anunix.Credential
