import Anunix.Exposure.Ledger

/-!
# The tree of ledgers

The shape of the ledger table that `anx_exposure_create` and `anx_exposure_destroy` maintain: unique
identifiers, live parents one level up, and a child count that keeps a parent from being freed under
its children. `Tree.chain_cons` is what makes `chain` the walk of the code: it follows the parent of
every live ledger and stops at a root, never for lack of fuel.
-/

namespace Anunix
open Fallible List

structure Tree (t : List Ledger) (seq : UInt64) : Prop where
  nodup : (t.map Ledger.id).Nodup
  drawn : ∀ b ∈ t, b.id ≠ 0 ∧ b.id.toNat ≤ seq.toNat
  depth : ∀ b ∈ t, b.depth.toNat < exposureDepth
  link : ∀ b ∈ t, b.parent = 0 ∨ ∃ p ∈ t, p.id = b.parent ∧ b.depth.toNat = p.depth.toNat + 1
  size : t.length ≤ exposureMax

def Tallied (n : Ledger → UInt32) (refs : List UInt64) (t : List Ledger) : Prop :=
  ∀ b ∈ t, (n b).toNat = refs.count b.id

def Counted (t : List Ledger) : Prop :=
  ∀ b ∈ t, b.children.toNat = (t.map Ledger.parent).count b.id

section Tree

variable {t t' : List Ledger} {seq id leaf : UInt64} {b c : Ledger}

lemma Tree.find_iff (h : Tree t seq) : budgetFind t id = some b ↔ b ∈ t ∧ b.id = id :=
  Keyed.lookup_eq_some_iff h.nodup

lemma Tree.find_mem (h : Tree t seq) (hb : b ∈ t) : budgetFind t b.id = some b :=
  h.find_iff.mpr ⟨hb, rfl⟩

lemma Tree.find_zero (h : Tree t seq) : budgetFind t 0 = none := by
  cases hf : budgetFind t 0 with
  | none => rfl
  | some b =>
    obtain ⟨hb, h0⟩ := h.find_iff.mp hf
    exact absurd h0 (h.drawn b hb).1

/-! ## Chains -/

/-- Two tables with the same parent links on a set of identifiers closed under them have the same
    chains there. -/
lemma chainFrom_congr {P : UInt64 → Prop} (hagree : ∀ id, P id →
      (budgetFind t' id).map Ledger.parent = (budgetFind t id).map Ledger.parent)
    (hclosed : ∀ id b, P id → budgetFind t id = some b → P b.parent) (n : Nat) (hid : P id) :
    chainFrom t' n id = chainFrom t n id := by
  induction n generalizing id with
  | zero => rfl
  | succ n ih =>
    have ha := hagree id hid
    rw [chainFrom, chainFrom]
    cases hf : budgetFind t id with
    | none =>
      rw [hf, Option.map_none, Option.map_eq_none_iff] at ha
      rw [ha]
    | some b =>
      rw [hf, Option.map_some, Option.map_eq_some_iff] at ha
      obtain ⟨b', hb', hp⟩ := ha
      rw [hb']
      simp only [hp, ih (hclosed id b hid hf)]

lemma mem_chainFrom {n : Nat} (h : id ∈ chainFrom t n leaf) : ∃ b ∈ t, b.id = id := by
  induction n generalizing leaf with
  | zero => cases h
  | succ n ih =>
    rw [chainFrom] at h
    cases hf : budgetFind t leaf with
    | none =>
      rw [hf] at h
      cases h
    | some b =>
      rw [hf] at h
      rcases mem_cons.mp h with rfl | h
      · exact ⟨b, Keyed.lookup_mem hf, Keyed.lookup_key hf⟩
      · exact ih h

/-- More fuel than the depth of a ledger does not lengthen its chain. -/
lemma Tree.chainFrom_stable (h : Tree t seq) {n : Nat} (hb : b ∈ t) (hn : b.depth.toNat < n) :
    chainFrom t (n + 1) b.id = chainFrom t n b.id := by
  induction n generalizing b with
  | zero => exact absurd hn (Nat.not_lt_zero _)
  | succ n ih =>
    rw [chainFrom, chainFrom, h.find_mem hb]
    simp only [cons.injEq, true_and]
    rcases h.link b hb with h0 | ⟨p, hp, hpid, hd⟩
    · -- the null parent has no chain, whatever the fuel
      have hnil (k : Nat) : chainFrom t k b.parent = [] := by
        cases k with
        | zero => rfl
        | succ k => rw [chainFrom, h0, h.find_zero]
      rw [hnil, hnil]
    · rw [← hpid]
      exact ih hp (by omega)

lemma Tree.chain_cons (h : Tree t seq) (hb : b ∈ t) : chain t b.id = b.id :: chain t b.parent := by
  have hd := h.depth b hb
  rw [chain, ← h.chainFrom_stable hb hd, chainFrom, h.find_mem hb]
  rfl

lemma Tree.chain_zero (h : Tree t seq) : chain t 0 = [] := by
  rw [chain, exposureDepth, chainFrom, h.find_zero]

lemma mem_chain (h : id ∈ chain t leaf) : ∃ b ∈ t, b.id = id :=
  mem_chainFrom h

def Ledger.shape (b : Ledger) : UInt64 × UInt64 × UInt32 := (b.id, b.parent, b.depth)

def Linked (t : List Ledger) (b : Ledger) : Prop :=
  b.parent = 0 ∨ ∃ p ∈ t, p.id = b.parent ∧ b.depth.toNat = p.depth.toNat + 1

section

variable (h : t'.map Ledger.shape = t.map Ledger.shape)
include h

lemma exists_of_shape (hb : b ∈ t') :
    ∃ c ∈ t, c.id = b.id ∧ c.parent = b.parent ∧ c.depth = b.depth := by
  have hm : b.shape ∈ t.map Ledger.shape := h ▸ mem_map_of_mem hb
  obtain ⟨c, hc, e⟩ := mem_map.mp hm
  simp only [Ledger.shape, Prod.mk.injEq] at e
  exact ⟨c, hc, e⟩

lemma map_id_of_shape : t'.map Ledger.id = t.map Ledger.id := by
  have := congrArg (map Prod.fst) h
  rw [map_map, map_map] at this
  exact this

lemma map_parent_of_shape : t'.map Ledger.parent = t.map Ledger.parent := by
  have := congrArg (map fun x => x.2.1) h
  rw [map_map, map_map] at this
  exact this

end

lemma Linked.congr (h : Linked t b) (e : t'.map Ledger.shape = t.map Ledger.shape) :
    Linked t' b := by
  rcases h with h0 | ⟨p, hp, hid, hd⟩
  · exact .inl h0
  · obtain ⟨q, hq, hqid, -, hqd⟩ := exists_of_shape e.symm hp
    exact .inr ⟨q, hq, hqid.trans hid, by rw [hqd, hd]⟩

lemma Tree.congr (h : Tree t seq) (e : t'.map Ledger.shape = t.map Ledger.shape) : Tree t' seq := by
  refine ⟨map_id_of_shape e ▸ h.nodup, ?_, ?_, ?_, ?_⟩
  · intro b hb
    obtain ⟨c, hc, hid, -, -⟩ := exists_of_shape e hb
    exact hid ▸ h.drawn c hc
  · intro b hb
    obtain ⟨c, hc, -, -, hd⟩ := exists_of_shape e hb
    exact hd ▸ h.depth c hc
  · intro b hb
    obtain ⟨c, hc, -, hp, hd⟩ := exists_of_shape e hb
    rw [← hp, ← hd]
    exact Linked.congr (h.link c hc) e
  · have := congrArg length e
    rw [length_map, length_map] at this
    exact this ▸ h.size

lemma chain_congr (e : t'.map Ledger.shape = t.map Ledger.shape) :
    chain t' leaf = chain t leaf := by
  have hfind (id : UInt64) :
      (budgetFind t' id).map Ledger.parent = (budgetFind t id).map Ledger.parent := by
    induction t generalizing t' with
    | nil =>
      rw [map_nil, map_eq_nil_iff] at e
      rw [e]
    | cons c t ih =>
      obtain ⟨b, t', rfl, hb, ht⟩ := map_eq_cons_iff.mp e
      simp only [Ledger.shape, Prod.mk.injEq] at hb
      simp only [budgetFind, Keyed.lookup_cons, hb.1]
      split
      · simp [hb.2.1]
      · exact ih ht
  exact chainFrom_congr (P := fun _ => True) (fun id _ => hfind id)
    (fun _ _ _ _ => trivial) _ trivial

/-! ## Assignments -/

section Touch

variable {ids refs : List UInt64} {g : Ledger → Ledger} {n : Ledger → UInt32} {k : UInt64}

lemma mem_touch : c ∈ touch ids g t ↔ ∃ b ∈ t, (if b.id ∈ ids then g b else b) = c :=
  mem_map

lemma touch_shape (hg : ∀ b, (g b).shape = b.shape) :
    (touch ids g t).map Ledger.shape = t.map Ledger.shape := by
  rw [touch, map_map]
  apply map_congr_left
  intro b _
  simp only [Function.comp_apply]
  split
  · exact hg b
  · rfl

lemma live_touch (h : id = 0 ∨ ∃ b ∈ t, b.id = id)
    (hg : ∀ b, (g b).shape = b.shape) : id = 0 ∨ ∃ b ∈ touch ids g t, b.id = id := by
  rcases h with h0 | ⟨b, hb, rfl⟩
  · exact .inl h0
  · obtain ⟨c, hc, hid, -, -⟩ := exists_of_shape (touch_shape hg).symm hb
    exact .inr ⟨c, hc, hid⟩

lemma Tallied.of_touch (h : Tallied n refs t) (hg : ∀ b, (g b).shape = b.shape)
    (hn : ∀ b, n (g b) = n b) : Tallied n refs (touch ids g t) := by
  intro c hcm
  obtain ⟨b, hb, rfl⟩ := mem_touch.mp hcm
  split
  · rw [hn, show (g b).id = b.id from congrArg Prod.fst (hg b)]
    exact h b hb
  · exact h b hb

lemma Tallied.inc (h : Tallied n refs t) (hlen : refs.length < 4096)
    (hg : ∀ b, (g b).shape = b.shape)
    (hn : ∀ b, n (g b) = n b + 1) : Tallied n (k :: refs) (touch [k] g t) := by
  intro c hcm
  obtain ⟨b, hb, rfl⟩ := mem_touch.mp hcm
  have hcount := h b hb
  have hle : refs.count b.id ≤ refs.length := count_le_length
  rw [count_cons]
  by_cases hk : b.id = k
  · have hid : (g b).id = k := (congrArg Prod.fst (hg b)).trans hk
    rw [if_pos (mem_singleton.mpr hk), hn, hid, if_pos (beq_self_eq_true k), ← hk, ← hcount,
      UInt32.toNat_add, UInt32.toNat_one, Nat.mod_eq_of_lt (by omega)]
  · rw [if_neg (mt mem_singleton.mp hk), if_neg (by simpa using Ne.symm hk)]
    exact hcount

lemma Tallied.dec (h : Tallied n (k :: refs) t) (hg : ∀ b, (g b).shape = b.shape)
    (hn : ∀ b, n (g b) = n b - 1) : Tallied n refs (touch [k] g t) := by
  intro c hcm
  obtain ⟨b, hb, rfl⟩ := mem_touch.mp hcm
  have hcount := h b hb
  rw [count_cons] at hcount
  by_cases hk : b.id = k
  · have hid : (g b).id = k := (congrArg Prod.fst (hg b)).trans hk
    have hone : (1 : UInt32).toNat = 1 := rfl
    rw [hk, if_pos (beq_self_eq_true k)] at hcount
    rw [if_pos (mem_singleton.mpr hk), hn, hid,
      UInt32.toNat_sub_of_le _ _ (UInt32.le_iff_toNat_le.mpr (by omega))]
    omega
  · rw [if_neg (by simpa using Ne.symm hk)] at hcount
    rw [if_neg (mt mem_singleton.mp hk)]
    exact hcount

lemma Counted.of_touch (h : Counted t) (hg : ∀ b, (g b).shape = b.shape)
    (hc : ∀ b, (g b).children = b.children) : Counted (touch ids g t) := by
  rw [Counted, map_parent_of_shape (touch_shape hg)]
  exact Tallied.of_touch h hg hc

end Touch

/-! ## Creation and destruction -/

lemma Tree.live_le (h : Tree t seq) (hid : id = 0 ∨ ∃ b ∈ t, b.id = id) : id.toNat ≤ seq.toNat := by
  rcases hid with rfl | ⟨b, hb, rfl⟩
  · exact Nat.zero_le _
  · exact (h.drawn b hb).2

/-- The parents of the live ledgers are live or null, so a new identifier is nobody's parent. -/
lemma Tree.parent_le (h : Tree t seq) (hb : b ∈ t) : b.parent.toNat ≤ seq.toNat :=
  h.live_le ((h.link b hb).imp_right fun ⟨p, hp, hid, _⟩ => ⟨p, hp, hid⟩)

lemma ne_of_fresh {k : UInt64} (h : id.toNat ≤ seq.toNat) (hk : seq.toNat < k.toNat) : id ≠ k := by
  rintro rfl
  omega

lemma Tree.cons (h : Tree t seq) (hsize : t.length < exposureMax) {seq' : UInt64}
    (hseq : seq'.toNat = seq.toNat + 1) (hid : b.id = seq') (hdepth : b.depth.toNat < exposureDepth)
    (hlink : Linked t b) : Tree (b :: t) seq' := by
  refine ⟨?_, ?_, ?_, ?_, ?_⟩
  · rw [map_cons, nodup_cons]
    refine ⟨fun hm => ?_, h.nodup⟩
    obtain ⟨c, hc, e⟩ := mem_map.mp hm
    have := (h.drawn c hc).2
    rw [e, hid] at this
    omega
  · refine forall_mem_cons.mpr ⟨⟨fun h0 => ?_, by rw [hid]⟩, fun c hc => ?_⟩
    · rw [← hid, h0] at hseq
      exact absurd hseq (by simp)
    · exact ⟨(h.drawn c hc).1, (h.drawn c hc).2.trans (by omega)⟩
  · exact forall_mem_cons.mpr ⟨hdepth, h.depth⟩
  · have hup {c : Ledger} : Linked t c → Linked (b :: t) c :=
      Or.imp id fun ⟨p, hp, hr⟩ => ⟨p, mem_cons_of_mem b hp, hr⟩
    exact forall_mem_cons.mpr ⟨hup hlink, fun c hc => hup (h.link c hc)⟩
  · exact hsize

lemma Tree.chain_cons_of_ne (h : Tree t seq) (hb : seq.toNat < b.id.toNat) (hne : leaf ≠ b.id) :
    chain (b :: t) leaf = chain t leaf := by
  refine chainFrom_congr (P := fun id => id ≠ b.id) (fun id hid => ?_) (fun id c _ hc => ?_) _ hne
  · rw [budgetFind, Keyed.lookup_cons, if_neg hid.symm]
    rfl
  · exact ne_of_fresh (h.parent_le (Keyed.lookup_mem hc)) hb

lemma Tree.erase (h : Tree t seq) (hf : budgetFind t id = some b)
    (hleaf : (t.map Ledger.parent).count id = 0) : Tree (Keyed.erase Ledger.id t id) seq := by
  have hsub : (Keyed.erase Ledger.id t id).Sublist t := Keyed.erase_sublist
  refine ⟨Keyed.nodup_erase h.nodup, fun c hc => h.drawn c (hsub.subset hc),
    fun c hc => h.depth c (hsub.subset hc), fun c hc => ?_, hsub.length_le.trans h.size⟩
  rcases h.link c (hsub.subset hc) with h0 | ⟨p, hpm, hpid, hd⟩
  · exact .inl h0
  · refine .inr ⟨p, ?_, hpid, hd⟩
    rcases mem_cons.mp ((Keyed.perm_erase hf).mem_iff.mp hpm) with rfl | hpm
    · -- a ledger with a child is not the one that goes
      rw [Keyed.lookup_key hf] at hpid
      rw [count_eq_zero] at hleaf
      exact absurd (mem_map_of_mem (hsub.subset hc)) (hpid ▸ hleaf)
    · exact hpm

lemma chain_erase (hleaf : (t.map Ledger.parent).count id = 0) (hne : leaf ≠ id) :
    chain (Keyed.erase Ledger.id t id) leaf = chain t leaf := by
  refine chainFrom_congr (P := fun k => k ≠ id) (fun k hk => ?_) (fun k c _ hc => ?_) _ hne
  · exact congrArg _ (Keyed.lookup_erase_of_ne hk.symm)
  · intro e
    rw [count_eq_zero] at hleaf
    exact hleaf (e ▸ mem_map_of_mem (Keyed.lookup_mem hc))

end Tree

end Anunix
