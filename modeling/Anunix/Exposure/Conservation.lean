import Anunix.Exposure.Tree

/-!
# Conservation of exposure

The invariant of the exposure ledgers, over every run of the machine of `Exposure/Ledger.lean` and
in every state between two critical sections, whichever providers are running at the time.

An operation is booked on its ledger and on every ancestor (`share`). `Balanced` says that the three
buckets of a ledger are the sums of the shares of the operations in the corresponding phases, plus
the history for the operations that are gone; `Booked` and `Roster` tie the operations to live
ledgers, to the running providers and to the history of provider calls; `Tree` and `Counted` are
about the shape of the ledger table. The arithmetic of the code is modulo 2^64 throughout: that no
operation wraps is a consequence of `Balanced.bound` and of the sums, not an assumption.
-/

namespace Anunix
open Fallible List Keyed

def EffectPhase.pending : EffectPhase → Bool
  | .prepared | .dispatching => true
  | _ => false

def EffectPhase.ambiguous : EffectPhase → Bool
  | .unknown => true
  | _ => false

/-- What an operation in one of the phases `ph` weighs on the ledger `id`. -/
def share (t : List Ledger) (ph : EffectPhase → Bool) (id : UInt64) (op : Operation) : Nat :=
  if ph op.phase = true ∧ id ∈ chain t op.exposureLedger then op.exposureUnits.toNat else 0

/-- The units of the operations in phases `ph` booked on the ledger `id` or below it. -/
protected def load (t : List Ledger) (ph : EffectPhase → Bool) (ops : List Operation)
    (id : UInt64) : Nat :=
  (ops.map (share t ph id)).sum

open Anunix (load)

/-- The units of all operations that ever committed on the ledger `id` or below it. -/
def spent (history : List Commitment) (id : UInt64) : Nat :=
  (history.map fun c => if id ∈ c.ledgers then c.units.toNat else 0).sum

structure Balanced (t : List Ledger) (ops : List Operation) (history : List Commitment)
    (b : Ledger) : Prop where
  reserved : b.reserved.toNat = load t EffectPhase.pending ops b.id
  uncertain : b.uncertain.toNat = load t EffectPhase.ambiguous ops b.id
  committed : b.committed.toNat = spent history b.id
  bound : b.reserved.toNat + b.committed.toNat + b.uncertain.toNat ≤ b.limit.toNat

def Books (t : List Ledger) (ops : List Operation) (history : List Commitment) : Prop :=
  ∀ b ∈ t, Balanced t ops history b

def Room (t : List Ledger) (id units : UInt64) : Prop :=
  ∀ b ∈ t, b.id ∈ chain t id → units ≤ b.limit - b.reserved - b.committed - b.uncertain

structure Booked (t : List Ledger) (ops : List Operation) : Prop where
  ledger : ∀ op ∈ ops, op.exposureLedger = 0 ∨ ∃ b ∈ t, b.id = op.exposureLedger
  count : ∀ b ∈ t, b.operations.toNat = (ops.map Operation.exposureLedger).count b.id

structure Roster (ops : List Operation) (seq : UInt64) (threads log : List Uuid) : Prop where
  nodup : (ops.map Operation.id).Nodup
  drawn : ∀ op ∈ ops, op.id.lo.toNat ≤ seq.toNat
  effect : ∀ op ∈ ops, op.effect = op.phase
  size : ops.length ≤ extOperationMax
  running : ∀ op ∈ ops, op.id ∈ threads → op.phase = .dispatching
  runningOnce : threads.Nodup
  runningCalled : ∀ id ∈ threads, id ∈ log
  uncalled : ∀ op ∈ ops, op.phase = .prepared → op.id ∉ log
  callsDrawn : ∀ id ∈ log, id.lo.toNat ≤ seq.toNat
  callsOnce : log.Nodup

structure Sound (s : System) : Prop where
  tree : Tree s.budgets s.budgetSequence
  counted : Counted s.budgets
  booked : Booked s.budgets s.operations
  roster : Roster s.operations s.operationSequence s.running s.calls
  recorded : ∀ c ∈ s.commitments, ∀ id ∈ c.ledgers, id.toNat ≤ s.budgetSequence.toNat
  balanced : ∀ b ∈ s.budgets, Balanced s.budgets s.operations s.commitments b

variable {t t' : List Ledger} {ops : List Operation} {history : List Commitment}
  {ph : EffectPhase → Bool} {b : Ledger} {op : Operation} {s : System}

section Books

variable {ops' : List Operation} {id : UInt64} {b' : Ledger}

lemma load_cons : load t ph (op :: ops) id = share t ph id op + load t ph ops id := by
  rfl

lemma load_chain (h : ∀ op ∈ ops, chain t' op.exposureLedger = chain t op.exposureLedger) :
    load t' ph ops id = load t ph ops id := by
  refine congrArg sum (map_congr_left fun op hop => ?_)
  rw [share, share, h op hop]

lemma spent_cons {c : Commitment} : spent (c :: history) id =
    (if id ∈ c.ledgers then c.units.toNat else 0) + spent history id := by
  rfl

lemma load_perm (h : ops.Perm ops') : load t ph ops id = load t ph ops' id :=
  (h.map _).sum_eq

lemma Balanced.of_load (h : Balanced t ops history b)
    (hp : load t' EffectPhase.pending ops' b.id = load t EffectPhase.pending ops b.id)
    (ha : load t' EffectPhase.ambiguous ops' b.id = load t EffectPhase.ambiguous ops b.id) :
    Balanced t' ops' history b :=
  ⟨h.reserved.trans hp.symm, h.uncertain.trans ha.symm, h.committed, h.bound⟩

/-- The room that `budget_reserve` computes with three unsigned subtractions is the true one. -/
lemma Balanced.room (h : Balanced t ops history b) :
    (b.limit - b.reserved - b.committed - b.uncertain).toNat =
      b.limit.toNat - (b.reserved.toNat + b.committed.toNat + b.uncertain.toNat) := by
  have hb := h.bound
  have h1 : (b.limit - b.reserved).toNat = b.limit.toNat - b.reserved.toNat :=
    UInt64.toNat_sub_of_le _ _ (UInt64.le_iff_toNat_le.mpr (by omega))
  have h2 : (b.limit - b.reserved - b.committed).toNat =
      b.limit.toNat - b.reserved.toNat - b.committed.toNat := by
    rw [UInt64.toNat_sub_of_le _ _ (UInt64.le_iff_toNat_le.mpr (by omega)), h1]
  rw [UInt64.toNat_sub_of_le _ _ (UInt64.le_iff_toNat_le.mpr (by omega))]
  omega

end Books

/-! ## Revocation is for good -/

/-- Every ledger of the later table was in the earlier one, and a revoked one stays revoked. -/
def Stems (t t' : List Ledger) : Prop :=
  ∀ c ∈ t', ∃ b ∈ t, b.id = c.id ∧ (b.revoked = true → c.revoked = true)

lemma Stems.refl (t : List Ledger) : Stems t t :=
  fun c hc => ⟨c, hc, rfl, id⟩

lemma Stems.trans {t1 t2 t3 : List Ledger} (h : Stems t1 t2) (h' : Stems t2 t3) : Stems t1 t3 := by
  intro c hc
  obtain ⟨b, hb, hid, hr⟩ := h' c hc
  obtain ⟨a, ha, hid', hr'⟩ := h b hb
  exact ⟨a, ha, hid'.trans hid, hr ∘ hr'⟩

lemma stems_touch {ids : List UInt64} {g : Ledger → Ledger}
    (hg : ∀ b, b.id = (g b).id ∧ (b.revoked = true → (g b).revoked = true)) :
    Stems t (touch ids g t) := by
  intro c hc
  obtain ⟨b, hb, rfl⟩ := mem_touch.mp hc
  refine ⟨b, hb, ?_⟩
  split
  · exact hg b
  · exact ⟨rfl, id⟩

/-- Ledgers drawn by now that are still there later carry their revocation with them. -/
structure Persists (s s' : System) : Prop where
  sequence : s.budgetSequence.toNat ≤ s'.budgetSequence.toNat
  ledgers : ∀ c ∈ s'.budgets, c.id.toNat ≤ s.budgetSequence.toNat →
    ∃ b ∈ s.budgets, b.id = c.id ∧ (b.revoked = true → c.revoked = true)

instance : IsPreorder System Persists where
  refl s := ⟨le_rfl, fun c hc _ => Stems.refl _ c hc⟩
  trans s1 s2 s3 h h' := by
    refine ⟨h.sequence.trans h'.sequence, fun c hc hle => ?_⟩
    obtain ⟨b, hb, hid, hr⟩ := h'.ledgers c hc (hle.trans h.sequence)
    obtain ⟨a, ha, hid', hr'⟩ := h.ledgers b hb (hid ▸ hle)
    exact ⟨a, ha, hid'.trans hid, hr ∘ hr'⟩

lemma Stems.persists {s' : System} (h : Stems s.budgets s'.budgets)
    (hseq : s'.budgetSequence = s.budgetSequence) : Persists s s' :=
  ⟨hseq ▸ le_rfl, fun c hc _ => h c hc⟩

def System.Keeps (s s' : System) : Prop :=
  Sound s → Sound s' ∧ Persists s s'

instance : IsPreorder System System.Keeps where
  refl s h := ⟨h, refl_of Persists s⟩
  trans _ _ _ h h' hs := by
    obtain ⟨hs1, hp⟩ := h hs
    obtain ⟨hs2, hp'⟩ := h' hs1
    exact ⟨hs2, trans_of Persists hp hp'⟩

/-! ## Ledger calls -/

section Ledgers

variable {s : System} {ids : List UInt64} {g : Ledger → Ledger} {seq id : UInt64} {r : Registry}
  {cells : CellStore} {active : Option Uuid}

lemma Booked.of_touch (h : Booked t ops) (hshape : ∀ b, (g b).shape = b.shape)
    (hops : ∀ b, (g b).operations = b.operations) : Booked (touch ids g t) ops :=
  ⟨fun op hop => live_touch (h.ledger op hop) hshape, Tallied.of_touch h.count hshape hops⟩

/-- The books after an assignment to the ledgers `ids`, from the books in terms of the old
chains. -/
lemma balanced_of_chain (hshape : ∀ b, (g b).shape = b.shape)
    (hin : ∀ b ∈ t, b.id ∈ ids → Balanced t ops history (g b))
    (hout : ∀ b ∈ t, b.id ∉ ids → Balanced t ops history b) :
    Books (touch ids g t) ops history := by
  have hload (ph : EffectPhase → Bool) (id : UInt64) :
      load (touch ids g t) ph ops id = load t ph ops id :=
    load_chain fun _ _ => chain_congr (touch_shape hshape)
  intro c hc
  obtain ⟨b, hb, rfl⟩ := mem_touch.mp hc
  split
  · exact (hin b hb ‹_›).of_load (hload _ _) (hload _ _)
  · exact (hout b hb ‹_›).of_load (hload _ _) (hload _ _)

lemma balanced_touch (h : Books t ops history) (hshape : ∀ b, (g b).shape = b.shape)
    (hamounts : ∀ b, (g b).reserved = b.reserved ∧ (g b).uncertain = b.uncertain ∧
      (g b).committed = b.committed ∧ (g b).limit = b.limit) :
    Books (touch ids g t) ops history := by
  refine balanced_of_chain hshape (fun b hb _ => ?_) fun b hb _ => h b hb
  obtain ⟨hr, hu, hc, hl⟩ := hamounts b
  have hid : (g b).id = b.id := congrArg Prod.fst (hshape b)
  constructor
  · rw [hid, hr, (h b hb).reserved]
  · rw [hid, hu, (h b hb).uncertain]
  · rw [hid, hc, (h b hb).committed]
  · rw [hr, hc, hu, hl]
    exact (h b hb).bound

lemma Sound.of_touch (h : Sound s) (hshape : ∀ b, (g b).shape = b.shape)
    (hch : ∀ b, (g b).children = b.children) (hops : ∀ b, (g b).operations = b.operations)
    (hamounts : ∀ b, (g b).reserved = b.reserved ∧ (g b).uncertain = b.uncertain ∧
      (g b).committed = b.committed ∧ (g b).limit = b.limit) :
    Sound { s with budgets := touch ids g s.budgets } :=
  ⟨h.tree.congr (touch_shape hshape), h.counted.of_touch hshape hch, h.booked.of_touch hshape hops,
    h.roster, h.recorded, balanced_touch h.balanced hshape hamounts⟩

lemma Booked.ledger_le (h : Booked t ops) (ht : Tree t seq) (hop : op ∈ ops) :
    op.exposureLedger.toNat ≤ seq.toNat :=
  ht.live_le (h.ledger op hop)

lemma Tree.load_fresh (h : Tree t seq) (hid : seq.toNat < id.toNat) (ph : EffectPhase → Bool) :
    load t ph ops id = 0 := by
  rw [load, sum_eq_zero]
  intro n hn
  obtain ⟨op, -, rfl⟩ := mem_map.mp hn
  rw [share, if_neg]
  rintro ⟨-, hm⟩
  obtain ⟨b, hb, rfl⟩ := mem_chain hm
  have := (h.drawn b hb).2
  omega

lemma Sound.spent_fresh (h : Sound s) (hid : s.budgetSequence.toNat < id.toNat) :
    spent s.commitments id = 0 := by
  rw [spent, sum_eq_zero]
  intro n hn
  obtain ⟨c, hc, rfl⟩ := mem_map.mp hn
  rw [if_neg]
  intro hm
  have := h.recorded c hc id hm
  omega

lemma Counted.grow (h : Counted t) (ht : Tree t seq) (hb : seq.toNat < b.id.toNat)
    (hparent : b.parent.toNat ≤ seq.toNat) (hch : b.children = 0) :
    Counted (b :: touch [b.parent] Ledger.addChild t) := by
  have hlen : (t.map Ledger.parent).length < 4096 := by
    rw [length_map]
    exact Nat.lt_of_le_of_lt ht.size (by decide)
  rw [Counted, map_cons, map_parent_of_shape (touch_shape fun _ => by rfl)]
  refine forall_mem_cons.mpr ⟨?_, Tallied.inc h hlen (fun _ => rfl) fun _ => rfl⟩
  -- the new identifier is nobody's parent
  rw [hch, count_eq_zero.mpr]
  · rfl
  · intro hm
    rcases mem_cons.mp hm with e | hm
    · exact ne_of_fresh hparent hb e.symm
    · obtain ⟨p, hp, e⟩ := mem_map.mp hm
      exact ne_of_fresh (ht.parent_le hp) hb e

lemma Booked.cons (h : Booked t ops) (ht : Tree t seq) (hb : seq.toNat < b.id.toNat)
    (hops : b.operations = 0) : Booked (b :: t) ops := by
  refine ⟨fun op hop => ?_, fun c hc => ?_⟩
  · exact (h.ledger op hop).imp id fun ⟨c, hc, e⟩ => ⟨c, mem_cons_of_mem b hc, e⟩
  · rcases mem_cons.mp hc with rfl | hc
    · have hzero : (ops.map Operation.exposureLedger).count c.id = 0 := by
        rw [count_eq_zero]
        intro hm
        obtain ⟨op, hop, e⟩ := mem_map.mp hm
        exact ne_of_fresh (h.ledger_le ht hop) hb e
      rw [hops, hzero]
      rfl
    · exact h.count c hc

lemma balanced_cons (h : Books t ops history) (ht : Tree t seq) (hbk : Booked t ops)
    (hb : seq.toNat < b.id.toNat) (hnew : Balanced t ops history b) :
    Books (b :: t) ops history := by
  have hload (ph : EffectPhase → Bool) (id : UInt64) :
      load (b :: t) ph ops id = load t ph ops id := by
    exact load_chain fun op hop => ht.chain_cons_of_ne hb (ne_of_fresh (hbk.ledger_le ht hop) hb)
  refine forall_mem_cons.mpr ⟨hnew.of_load (hload _ _) (hload _ _), fun c hc => ?_⟩
  exact (h c hc).of_load (hload _ _) (hload _ _)

lemma Sound.grow (h : Sound s) (hsize : s.budgets.length ≠ exposureMax)
    (hseq : (s.budgetSequence + 1).toNat = s.budgetSequence.toNat + 1)
    (hb : b = .create (s.budgetSequence + 1) b.parent b.limit b.owner b.depth)
    (hdepth : b.depth.toNat < exposureDepth) (hlink : Linked s.budgets b) :
    Sound { s with
      budgets := b :: touch [b.parent] Ledger.addChild s.budgets
      budgetSequence := s.budgetSequence + 1 } := by
  have hs : (touch [b.parent] Ledger.addChild s.budgets).map Ledger.shape =
      s.budgets.map Ledger.shape := touch_shape fun _ => rfl
  have ht := h.tree.congr hs
  have hid : b.id = s.budgetSequence + 1 := by rw [hb]; rfl
  have hlt : s.budgetSequence.toNat < b.id.toNat := by
    rw [hid]
    omega
  have hparent : b.parent.toNat ≤ s.budgetSequence.toNat :=
    h.tree.live_le (hlink.imp_right fun ⟨p, hp, hid, _⟩ => ⟨p, hp, hid⟩)
  have hlen : (touch [b.parent] Ledger.addChild s.budgets).length < exposureMax := by
    rw [touch, length_map]
    exact lt_of_le_of_ne h.tree.size hsize
  have hbk : Booked (touch [b.parent] Ledger.addChild s.budgets) s.operations :=
    h.booked.of_touch (fun _ => rfl) fun _ => rfl
  refine ⟨ht.cons hlen hseq hid hdepth (hlink.congr hs),
    h.counted.grow h.tree hlt hparent (by rw [hb]; rfl),
    hbk.cons ht hlt (by rw [hb]; rfl), h.roster, ?_, ?_⟩
  · intro c hc id hm
    have := h.recorded c hc id hm
    show id.toNat ≤ (s.budgetSequence + 1).toNat
    omega
  · refine balanced_cons (balanced_touch h.balanced (fun _ => rfl) fun _ =>
      ⟨rfl, rfl, rfl, rfl⟩) ht hbk hlt ⟨?_, ?_, ?_, ?_⟩
    · rw [ht.load_fresh hlt, hb]
      rfl
    · rw [ht.load_fresh hlt, hb]
      rfl
    · rw [h.spent_fresh hlt, hb]
      rfl
    · rw [hb]
      exact Nat.zero_le _

lemma childDepth_ok {cell : Cell} {parent limit : UInt64} {depth : UInt32}
    (h : childDepth r cells cell parent limit = .ok depth) : depth.toNat < exposureDepth ∧
      (parent = 0 ∨ ∃ p, budgetFind r.budgets parent = some p ∧
        depth.toNat = p.depth.toNat + 1) := by
  rw [childDepth] at h
  split at h
  · rename_i h0
    obtain rfl : 0 = depth := by simpa [pure, Except.pure] using h
    exact ⟨by decide, .inl h0⟩
  · simp only [bind_eq_ok, orThrow_eq_ok, failIf_eq_ok] at h
    obtain ⟨p, hp, _, -, _, hd, h⟩ := h
    obtain rfl : p.depth + 1 = depth := by simpa [pure, Except.pure] using h
    have hlt : p.depth.toNat + 1 < exposureDepth := by
      simp only [Bool.or_eq_false_iff, decide_eq_false_iff_not] at hd
      omega
    have hadd : (p.depth + 1).toNat = p.depth.toNat + 1 := by
      rw [UInt32.toNat_add, UInt32.toNat_one]
      rw [exposureDepth] at hlt
      omega
    exact ⟨hadd ▸ hlt, .inr ⟨p, hp, hadd⟩⟩

lemma create_keeps {owner : Uuid} {parent limit : UInt64} {memory : Bool}
    (hr : exposureCreate s.toRegistry active cells owner parent limit memory = .ok r) :
    s.Keeps { s with toRegistry := r } := by
  intro h
  simp only [exposureCreate, bind_eq_ok, failIf_eq_ok] at hr
  obtain ⟨_, -, _, -, _, -, cell, -, _, -, _, -, depth, hdepth, _, hfull, hr⟩ := hr
  cases hr
  obtain ⟨hsize, hseq⟩ : s.budgets.length ≠ exposureMax ∧ s.budgetSequence ≠ uint64Max := by
    simpa using hfull
  obtain ⟨hlt, hlink⟩ := childDepth_ok hdepth
  have hsucc := toNat_succ_of_ne hseq
  refine ⟨?_, ?_, fun c hc hle => ?_⟩
  · apply h.grow hsize hsucc rfl hlt
    exact hlink.imp_right fun ⟨p, hp, hd⟩ => ⟨p, lookup_mem hp, lookup_key hp, hd⟩
  · show s.budgetSequence.toNat ≤ (s.budgetSequence + 1).toNat
    omega
  · rcases mem_cons.mp hc with rfl | hc
    · simp only [Ledger.create] at hle
      omega
    · exact stems_touch (g := .addChild) (fun _ => ⟨rfl, id⟩) c hc

lemma Counted.prune (h : Counted t) (hf : budgetFind t b.id = some b) :
    Counted (touch [b.parent] Ledger.dropChild (Keyed.erase Ledger.id t b.id)) := by
  have hp := perm_erase hf
  rw [Counted, map_parent_of_shape (touch_shape fun _ => by rfl)]
  refine Tallied.dec (fun c hc => ?_) (fun _ => rfl) fun _ => rfl
  rw [← map_cons, ← (hp.map Ledger.parent).count_eq]
  exact h c (mem_of_mem_erase hc)

lemma Booked.erase (h : Booked t ops) (hf : budgetFind t b.id = some b)
    (hfree : ∀ op ∈ ops, op.exposureLedger ≠ b.id) : Booked (Keyed.erase Ledger.id t b.id) ops := by
  have hp := perm_erase hf
  refine ⟨fun op hop => ?_, fun c hc => h.count c (mem_of_mem_erase hc)⟩
  rcases h.ledger op hop with h0 | ⟨c, hc, e⟩
  · exact .inl h0
  · rcases mem_cons.mp (hp.mem_iff.mp hc) with rfl | hc
    · exact absurd e.symm (hfree op hop)
    · exact .inr ⟨c, hc, e⟩

lemma Sound.prune (h : Sound s) (hf : budgetFind s.budgets b.id = some b) (hch : b.children = 0)
    (hops : b.operations = 0) :
    Sound { s with
      budgets := touch [b.parent] Ledger.dropChild (Keyed.erase Ledger.id s.budgets b.id) } := by
  have hb := lookup_mem hf
  have hleaf : (s.budgets.map Ledger.parent).count b.id = 0 := by
    rw [← h.counted b hb, hch]
    rfl
  have hfree : ∀ op ∈ s.operations, op.exposureLedger ≠ b.id := by
    have hzero := h.booked.count b hb
    rw [hops] at hzero
    have hnot := count_eq_zero.mp hzero.symm
    intro op hop e
    exact hnot (e ▸ mem_map_of_mem hop)
  have ht := h.tree.erase hf hleaf
  have hbal : Books (Keyed.erase Ledger.id s.budgets b.id) s.operations s.commitments := by
    intro c hc
    have hchain :
        ∀ op ∈ s.operations, chain (Keyed.erase Ledger.id s.budgets b.id) op.exposureLedger = _ :=
      fun op hop => chain_erase hleaf (hfree op hop)
    exact (h.balanced c (mem_of_mem_erase hc)).of_load (load_chain hchain) (load_chain hchain)
  exact ⟨ht.congr (touch_shape fun _ => rfl), h.counted.prune hf,
    (h.booked.erase hf hfree).of_touch (fun _ => rfl) fun _ => rfl,
    h.roster, h.recorded, balanced_touch hbal (fun _ => rfl) fun _ => ⟨rfl, rfl, rfl, rfl⟩⟩

lemma destroy_keeps (hr : exposureDestroy s.toRegistry active id = .ok r) :
    s.Keeps { s with toRegistry := r } := by
  intro h
  simp only [exposureDestroy, bind_eq_ok, failIf_eq_ok, orThrow_eq_ok] at hr
  obtain ⟨_, -, _, -, b, hf, _, hbusy, hr⟩ := hr
  cases hr
  obtain rfl : b.id = id := lookup_key hf
  simp only [Bool.or_eq_false_iff, bne_eq_false_iff_eq] at hbusy
  have herase : Stems s.budgets (Keyed.erase Ledger.id s.budgets b.id) :=
    fun c hc => ⟨c, mem_of_mem_erase hc, rfl, fun h => h⟩
  exact ⟨h.prune hf hbusy.1.1.1.1.2 hbusy.1.1.1.2,
    (herase.trans (stems_touch fun _ => by exact ⟨rfl, id⟩)).persists rfl⟩

end Ledgers

/-! ## Operation calls -/

section Operations

variable {s : System} {id seq units a : UInt64} {ids : List UInt64} {g : Ledger → Ledger}
  {threads log : List Uuid} {active caller : Option Uuid} {r : Registry} {p : EffectPhase}
  {op' : Operation} {checks mark : Except Err Unit} {owner : Uuid}

lemma share_of_pos (hp : op.phase = p) (h : ph p = true) : share t ph id op =
      if id ∈ chain t op.exposureLedger then op.exposureUnits.toNat else 0 := by
  simp [share, hp, h]

lemma share_of_neg (hp : op.phase = p) (h : ph p = false) : share t ph id op = 0 := by
  simp [share, hp, h]

lemma share_of_not_mem (h : id ∉ chain t op.exposureLedger) : share t ph id op = 0 := by
  simp [share, h]

lemma toNat_sub_share {n : Nat} (h : n + units.toNat = a.toNat) : (a - units).toNat = n := by
  rw [UInt64.toNat_sub_of_le _ _ (UInt64.le_iff_toNat_le.mpr (by omega))]
  omega

lemma toNat_add_le {limit : UInt64} (h : a.toNat + units.toNat ≤ limit.toNat) :
    (a + units).toNat = a.toNat + units.toNat := by
  have := limit.toNat_lt
  rw [UInt64.toNat_add]
  omega

/-! ### Preparation -/

lemma balanced_reserve (h : Books t ops history) (hphase : op.phase = .prepared)
    (hroom : Room t op.exposureLedger op.exposureUnits) :
    Books (touch (chain t op.exposureLedger) (Ledger.reserve op.exposureUnits) t)
    (op :: ops) history := by
  refine balanced_of_chain (fun _ => rfl) (fun b hb hin => ?_) fun b hb hout => ?_
  · have hbal := h b hb
    have hfit := UInt64.le_iff_toNat_le.mp (hroom b hb hin)
    rw [hbal.room] at hfit
    have hbound := hbal.bound
    have hadd : (b.reserved + op.exposureUnits).toNat = _ :=
      toNat_add_le (show _ ≤ b.limit.toNat by omega)
    refine ⟨?_, ?_, hbal.committed, ?_⟩
    · rw [load_cons, share_of_pos hphase rfl]
      simp only [Ledger.reserve, hin, if_true]
      rw [hadd, hbal.reserved, Nat.add_comm]
    · rw [load_cons, share_of_neg hphase rfl, Nat.zero_add]
      exact hbal.uncertain
    · simp only [Ledger.reserve]
      omega
  · have hload (ph : EffectPhase → Bool) : load t ph (op :: ops) b.id = load t ph ops b.id := by
      rw [load_cons, share_of_not_mem hout, Nat.zero_add]
    exact (h b hb).of_load (hload _) (hload _)

lemma Booked.book (h : Booked t ops) (hsize : ops.length < extOperationMax)
    (hledger : op.exposureLedger = 0 ∨ ∃ b ∈ t, b.id = op.exposureLedger) :
    Booked (touch [op.exposureLedger] Ledger.addOperation t) (op :: ops) := by
  have hlen : (ops.map Operation.exposureLedger).length < 4096 := by
    rw [length_map]
    exact hsize.trans (by decide)
  refine ⟨fun o ho => live_touch ?_ fun _ => rfl, Tallied.inc h.count hlen (fun _ => rfl)
    fun _ => rfl⟩
  rcases mem_cons.mp ho with rfl | ho
  · exact hledger
  · exact h.ledger o ho

lemma Roster.cons {seq' : UInt64} (h : Roster ops seq threads log)
    (hsize : ops.length < extOperationMax) (hseq : seq'.toNat = seq.toNat + 1)
    (hid : op.id.lo = seq') (hphase : op.phase = .prepared) (heffect : op.effect = .prepared) :
    Roster (op :: ops) seq' threads log := by
  have hfresh : op.id ∉ log := by
    intro hm
    have := h.callsDrawn _ hm
    rw [hid] at this
    omega
  refine ⟨?_, ?_, ?_, hsize, ?_, h.runningOnce, h.runningCalled, ?_, ?_, h.callsOnce⟩
  · rw [map_cons, nodup_cons]
    refine ⟨fun hm => ?_, h.nodup⟩
    obtain ⟨o, ho, e⟩ := mem_map.mp hm
    have := h.drawn o ho
    rw [e, hid] at this
    omega
  · refine forall_mem_cons.mpr ⟨by rw [hid], fun o ho => ?_⟩
    have := h.drawn o ho
    omega
  · exact forall_mem_cons.mpr ⟨heffect.trans hphase.symm, h.effect⟩
  · exact forall_mem_cons.mpr ⟨fun hr => absurd (h.runningCalled _ hr) hfresh, h.running⟩
  · exact forall_mem_cons.mpr ⟨fun _ => hfresh, h.uncalled⟩
  · intro id hm
    have := h.callsDrawn id hm
    omega

lemma touch_eq_self (h : ∀ b ∈ t, b.id ∉ ids) : touch ids g t = t := by
  conv_rhs => rw [← map_id t]
  exact map_congr_left fun b hb => if_neg (h b hb)

/-- What a successful reservation did. Without a ledger it did the same to no ledger. -/
lemma budgetReserve_ok (ht : Tree t seq) (h : budgetReserve t owner id units = .ok t') :
    (id = 0 ∨ ∃ b ∈ t, b.id = id) ∧ Room t id units ∧
    t' = touch [id] Ledger.addOperation (touch (chain t id) (Ledger.reserve units) t) := by
  rw [budgetReserve] at h
  split at h
  · rename_i h0
    cases h
    subst h0
    have hnone : ∀ b ∈ t, b.id ∉ ([0] : List UInt64) := fun b hb hm =>
      (ht.drawn b hb).1 (mem_singleton.mp hm)
    refine ⟨.inl rfl, fun b _ hm => ?_, ?_⟩
    · rw [ht.chain_zero] at hm
      cases hm
    · have hnil : touch [] (Ledger.reserve units) t = t := touch_eq_self fun _ _ => not_mem_nil
      rw [ht.chain_zero, hnil, touch_eq_self hnone]
  · simp only [bind_eq_ok, orThrow_eq_ok, failIf_eq_ok] at h
    obtain ⟨leaf, hleaf, _, -, _, hfull, h⟩ := h
    cases h
    refine ⟨.inr ⟨leaf, lookup_mem hleaf, lookup_key hleaf⟩, fun b hb hm => ?_, rfl⟩
    have := any_eq_false.mp hfull b hb
    simpa [hm] using this

lemma Sound.book (h : Sound s) (op : Operation) (hlen : s.operations.length < extOperationMax)
    (hseq : seq.toNat = s.operationSequence.toNat + 1) (hid : op.id.lo = seq)
    (hphase : op.phase = .prepared) (heffect : op.effect = .prepared)
    (hledger : op.exposureLedger = 0 ∨ ∃ b ∈ s.budgets, b.id = op.exposureLedger)
    (hroom : Room s.budgets op.exposureLedger op.exposureUnits) :
    Sound { s with
      budgets := touch [op.exposureLedger] Ledger.addOperation
        (touch (chain s.budgets op.exposureLedger) (Ledger.reserve op.exposureUnits) s.budgets)
      operations := op :: s.operations
      operationSequence := seq } := by
  have hbal := balanced_reserve h.balanced hphase hroom
  -- the reservation first: a table of the same shape, with the same counts
  generalize htab : touch (chain s.budgets op.exposureLedger) (Ledger.reserve op.exposureUnits)
    s.budgets = t at hbal ⊢
  have hs : t.map Ledger.shape = s.budgets.map Ledger.shape := htab ▸ touch_shape fun _ => rfl
  have hbk : Booked t s.operations := htab ▸ h.booked.of_touch (fun _ => rfl) fun _ => rfl
  have hcounted : Counted t := htab ▸ h.counted.of_touch (fun _ => rfl) fun _ => rfl
  have hledger' : op.exposureLedger = 0 ∨ ∃ b ∈ t, b.id = op.exposureLedger :=
    htab ▸ live_touch hledger fun _ => rfl
  exact ⟨(h.tree.congr hs).congr (touch_shape fun _ => rfl),
    hcounted.of_touch (fun _ => rfl) fun _ => rfl, hbk.book hlen hledger',
    h.roster.cons hlen hseq hid hphase heffect, h.recorded,
    balanced_touch hbal (fun _ => rfl) fun _ => ⟨rfl, rfl, rfl, rfl⟩⟩

lemma prepare_keeps {admission : Except Err Unit} {ledger : UInt64}
    (hr : operationPrepare s.toRegistry active owner admission ledger units = .ok r) :
    s.Keeps { s with toRegistry := r } := by
  intro h
  simp only [operationPrepare, bind_eq_ok, failIf_eq_ok] at hr
  obtain ⟨_, -, _, -, _, hfull, t', hres, hr⟩ := hr
  cases hr
  obtain ⟨hseq, hsize⟩ : s.operationSequence ≠ uint64Max ∧
      s.operations.length ≠ extOperationMax := by simpa using hfull
  obtain ⟨hledger, hroom, rfl⟩ := budgetReserve_ok h.tree hres
  refine ⟨?_, ?_⟩
  · exact h.book ⟨operationId (s.operationSequence + 1), owner, .prepared, .prepared, ledger, units⟩
      (lt_of_le_of_ne h.roster.size hsize) (toNat_succ_of_ne hseq) rfl rfl rfl hledger hroom
  · exact ((stems_touch fun _ => by exact ⟨rfl, id⟩).trans
      (stems_touch fun _ => by exact ⟨rfl, id⟩)).persists rfl

/-! ### Changing one operation -/

lemma load_update (op' : Operation) (hf : operationFind ops op'.id = some op)
    (ph : EffectPhase → Bool) (id : UInt64) :
    load t ph (Keyed.update Operation.id ops op') id + share t ph id op =
      load t ph ops id + share t ph id op' := by
  rw [load_perm (perm_update hf), load_perm (perm_erase hf), load_cons, load_cons]
  omega

lemma Booked.update (h : Booked t ops) (hf : operationFind ops op'.id = some op)
    (he : op'.exposureLedger = op.exposureLedger) :
    Booked t (Keyed.update Operation.id ops op') := by
  refine ⟨fun o ho => ?_, fun b hb => ?_⟩
  · rcases of_mem_update ho with rfl | ho
    · rw [he]
      exact h.ledger op (lookup_mem hf)
    · exact h.ledger o ho
  · rw [h.count b hb, ((perm_erase hf).map Operation.exposureLedger).count_eq,
      ((perm_update hf).map Operation.exposureLedger).count_eq, map_cons, map_cons, he]

lemma Roster.update {threads' log' : List Uuid} (h : Roster ops seq threads log)
    (hf : operationFind ops op'.id = some op) (heffect : op'.effect = op'.phase)
    (hprep : op'.phase ≠ .prepared) (hrun : op'.id ∈ threads' → op'.phase = .dispatching)
    (hthreads : ∀ id, id ≠ op'.id → id ∈ threads' → id ∈ threads)
    (hlog : ∀ id, id ∈ log' → id = op'.id ∨ id ∈ log) (honce : threads'.Nodup)
    (hcalled : ∀ id ∈ threads', id ∈ log') (hlogOnce : log'.Nodup) :
    Roster (Keyed.update Operation.id ops op') seq threads' log' := by
  have hkeys : (Keyed.update Operation.id ops op').map Operation.id = ops.map Operation.id :=
    map_update
  have hall {P : Operation → Prop} (hnew : P op') (hold : ∀ o ∈ ops, o.id ≠ op'.id → P o) :
      ∀ o ∈ Keyed.update Operation.id ops op', P o := by
    intro o ho
    rcases mem_cons.mp ((perm_update hf).mem_iff.mp ho) with rfl | ho
    · exact hnew
    · exact hold o (mem_of_mem_erase ho) (key_ne_of_mem_erase h.nodup hf ho)
  have hdrawn : op'.id.lo.toNat ≤ seq.toNat := by
    rw [← lookup_key hf]
    exact h.drawn op (lookup_mem hf)
  refine ⟨hkeys ▸ h.nodup, ?_, ?_, ?_, ?_, honce, hcalled, ?_, ?_, hlogOnce⟩
  · exact hall hdrawn fun o ho _ => h.drawn o ho
  · exact hall heffect fun o ho _ => h.effect o ho
  · have hlen := congrArg length hkeys
    rw [length_map, length_map] at hlen
    exact hlen ▸ h.size
  · exact hall hrun fun o ho hne hm => h.running o ho (hthreads o.id hne hm)
  · exact hall (fun hph _ => hprep hph) fun o ho hne hph hm =>
      (hlog o.id hm).elim hne (h.uncalled o ho hph)
  · intro id hm
    rcases hlog id hm with rfl | hm
    · exact hdrawn
    · exact h.callsDrawn id hm

lemma dispatchEnter_ok {r' : Registry} {id : Uuid}
    (h : dispatchEnter r caller id checks mark = .ok r') :
    ∃ op, operationFind r.operations id = some op ∧ op.phase = .prepared ∧
      (∀ b ∈ r.budgets, b.id ∈ chain r.budgets op.exposureLedger → b.revoked = false) ∧
      r' = { r with
        budgets := touch (chain r.budgets op.exposureLedger) Ledger.enter r.budgets
        operations := Keyed.update Operation.id r.operations
          { op with effect := .dispatching, phase := .dispatching } } := by
  simp only [dispatchEnter, bind_eq_ok, failIf_eq_ok, orThrow_eq_ok] at h
  obtain ⟨op, hf, _, -, _, hphase, _, -, _, hrev, _, -, _, -, h⟩ := h
  cases h
  refine ⟨op, hf, by simpa using hphase, fun b hb hm => ?_, rfl⟩
  have := any_eq_false.mp hrev b hb
  simpa [hm] using this

lemma enter_keeps {id : Uuid} (hr : dispatchEnter s.toRegistry caller id checks mark = .ok r) :
    s.Keeps { s with toRegistry := r, running := id :: s.running, calls := id :: s.calls } := by
  intro h
  obtain ⟨op, hf, hprep, -, rfl⟩ := dispatchEnter_ok hr
  obtain rfl : op.id = id := lookup_key hf
  have huncalled := h.roster.uncalled op (lookup_mem hf) hprep
  have hidle : op.id ∉ s.running := fun hm => huncalled (h.roster.runningCalled _ hm)
  -- the books do not tell a prepared operation from a dispatched one
  have hload ph (hph : ph .dispatching = ph .prepared) id :
      load s.budgets ph (Keyed.update Operation.id s.operations
        { op with effect := .dispatching, phase := .dispatching }) id =
      load s.budgets ph s.operations id := by
    have hu :=
      load_update (t := s.budgets) { op with effect := .dispatching, phase := .dispatching }
      hf ph id
    rw [share, share, hprep, hph] at hu
    exact Nat.add_right_cancel hu
  have hmoved : Sound { s with
      operations := Keyed.update Operation.id s.operations
        { op with effect := .dispatching, phase := .dispatching }
      running := op.id :: s.running
      calls := op.id :: s.calls } := by
    refine ⟨h.tree, h.counted, h.booked.update hf rfl, ?_, h.recorded, fun b hb => ?_⟩
    · refine h.roster.update hf rfl nofun (fun _ => rfl) (fun id hne hm => ?_)
        (fun id => mem_cons.mp) (nodup_cons.mpr ⟨hidle, h.roster.runningOnce⟩)
        (fun id hm => ?_) (nodup_cons.mpr ⟨huncalled, h.roster.callsOnce⟩)
      · exact (mem_cons.mp hm).resolve_left hne
      · rcases mem_cons.mp hm with rfl | hm
        · exact mem_cons_self ..
        · exact mem_cons_of_mem _ (h.roster.runningCalled id hm)
    · exact (h.balanced b hb).of_load (hload _ rfl _) (hload _ rfl _)
  exact ⟨hmoved.of_touch (fun _ => rfl) (fun _ => rfl) (fun _ => rfl) fun _ => ⟨rfl, rfl, rfl, rfl⟩,
    (stems_touch fun _ => by exact ⟨rfl, id⟩).persists rfl⟩

lemma settledEffect_dispatching (confirmed : Bool) :
    settledEffect .dispatching confirmed = if confirmed then .committed else .unknown := by
  cases confirmed <;> rfl

lemma balanced_settle (h : Books t ops history) (op' : Operation)
    (hf : operationFind ops op'.id = some op) (hphase : op.phase = .dispatching) {confirmed : Bool}
    (hphase' : op'.phase = if confirmed then .committed else .unknown)
    (hsame : op'.exposureLedger = op.exposureLedger ∧ op'.exposureUnits = op.exposureUnits) :
    Books (budgetSettle t op confirmed) (Keyed.update Operation.id ops op')
      (if confirmed then ⟨chain t op.exposureLedger, op.exposureUnits⟩ :: history else
        history) := by
  have hpend' id : share t EffectPhase.pending id op' = 0 :=
    share_of_neg hphase' (by cases confirmed <;> rfl)
  refine balanced_of_chain (fun _ => rfl) (fun b hb hin => ?_) fun b hb hout => ?_
  · have hbal := h b hb
    have hbound := hbal.bound
    have hp := load_update (t := t) op' hf EffectPhase.pending b.id
    have ha := load_update (t := t) op' hf EffectPhase.ambiguous b.id
    rw [share_of_pos hphase rfl, if_pos hin, hpend', ← hbal.reserved] at hp
    rw [share_of_neg hphase rfl, Nat.add_zero, ← hbal.uncertain] at ha
    have hres : (b.reserved - op.exposureUnits).toNat = _ := toNat_sub_share hp
    cases confirmed with
    | true =>
      have hadd : (b.committed + op.exposureUnits).toNat = _ :=
        toNat_add_le (show _ ≤ b.limit.toNat by omega)
      rw [share_of_neg hphase' rfl] at ha
      refine ⟨hres, ha.symm, ?_, ?_⟩
      · simp only [Ledger.settle, if_true, spent_cons, hin]
        rw [hadd, hbal.committed, Nat.add_comm]
      · simp only [Ledger.settle, if_true]
        omega
    | false =>
      have hadd : (b.uncertain + op.exposureUnits).toNat = _ :=
        toNat_add_le (show _ ≤ b.limit.toNat by omega)
      rw [share_of_pos hphase' rfl, hsame.1, if_pos hin, hsame.2] at ha
      refine ⟨hres, ?_, hbal.committed, ?_⟩
      · simp only [Ledger.settle, Bool.false_eq_true, if_false]
        rw [hadd, ha]
      · simp only [Ledger.settle, Bool.false_eq_true, if_false]
        omega
  · have hload ph :
        load t ph (Keyed.update Operation.id ops op') b.id = load t ph ops b.id := by
      have hu := load_update (t := t) op' hf ph b.id
      rwa [share_of_not_mem hout, share_of_not_mem (hsame.1 ▸ hout), Nat.add_zero,
        Nat.add_zero] at hu
    have hbal := (h b hb).of_load (hload _) (hload _)
    refine ⟨hbal.reserved, hbal.uncertain, ?_, hbal.bound⟩
    rw [hbal.committed]
    cases confirmed with
    | true => rw [if_pos rfl, spent_cons, if_neg hout, Nat.zero_add]
    | false => rfl

lemma settle_keeps (hf : operationFind s.operations op.id = some op) (hrun : op.id ∈ s.running)
    (confirmed : Bool) :
    s.Keeps { s with
      toRegistry := dispatchSettle s.toRegistry op confirmed
      running := s.running.erase op.id
      commitments :=
        if confirmed then ⟨chain s.budgets op.exposureLedger, op.exposureUnits⟩ :: s.commitments
        else s.commitments } := by
  intro h
  have hmem := lookup_mem hf
  have hphase := h.roster.running op hmem hrun
  have hsettled : settledEffect op.effect confirmed =
      if confirmed then .committed else .unknown := by
    rw [h.roster.effect op hmem, hphase, settledEffect_dispatching]
  have hbook : Booked (budgetSettle s.budgets op confirmed) s.operations :=
    h.booked.of_touch (fun _ => rfl) fun _ => rfl
  refine ⟨⟨h.tree.congr (touch_shape fun _ => rfl), h.counted.of_touch (fun _ => rfl) fun _ => rfl,
    hbook.update hf rfl, ?_, ?_, ?_⟩, (stems_touch fun _ => by exact ⟨rfl, id⟩).persists rfl⟩
  · refine h.roster.update hf rfl ?_ (fun hm => ?_) (fun id _ => mem_of_mem_erase)
      (fun id => .inr) (h.roster.runningOnce.erase op.id)
      (fun id hm => h.roster.runningCalled id (mem_of_mem_erase hm)) h.roster.callsOnce
    · rw [hsettled]
      cases confirmed <;> exact nofun
    · -- the thread has left the provider
      exact absurd hm h.roster.runningOnce.not_mem_erase
  · intro c hc id hm
    cases confirmed with
    | false => exact h.recorded c hc id hm
    | true =>
      rcases mem_cons.mp hc with rfl | hc
      · obtain ⟨b, hb, rfl⟩ := mem_chain hm
        exact (h.tree.drawn b hb).2
      · exact h.recorded c hc id hm
  · exact balanced_settle h.balanced { op with
      effect := settledEffect op.effect confirmed
      phase := settledEffect op.effect confirmed } hf hphase hsettled ⟨rfl, rfl⟩

/-! ### Discarding -/

lemma Booked.unbook (h : Booked t ops) (hf : operationFind ops op.id = some op) :
    Booked (touch [op.exposureLedger] Ledger.dropOperation t)
    (Keyed.erase Operation.id ops op.id) := by
  refine ⟨fun o ho => live_touch (h.ledger o (mem_of_mem_erase ho)) fun _ => rfl, ?_⟩
  refine Tallied.dec (fun b hb => ?_) (fun _ => rfl) fun _ => rfl
  rw [← map_cons, ← ((perm_erase hf).map Operation.exposureLedger).count_eq]
  exact h.count b hb

lemma Roster.erase (h : Roster ops seq threads log) (id : Uuid) :
    Roster (Keyed.erase Operation.id ops id) seq threads log := by
  have hsub : (Keyed.erase Operation.id ops id).Sublist ops := Keyed.erase_sublist
  exact ⟨nodup_erase h.nodup, fun o ho => h.drawn o (hsub.subset ho),
    fun o ho => h.effect o (hsub.subset ho),
    hsub.length_le.trans h.size, fun o ho => h.running o (hsub.subset ho), h.runningOnce,
    h.runningCalled, fun o ho => h.uncalled o (hsub.subset ho), h.callsDrawn, h.callsOnce⟩

lemma balanced_release (h : Books t ops history) (hf : operationFind ops op.id = some op)
    (hphase : op.phase = .prepared) :
    Books (touch (chain t op.exposureLedger) (Ledger.release op.exposureUnits) t)
      (Keyed.erase Operation.id ops op.id) history := by
  have hload (ph : EffectPhase → Bool) (id : UInt64) : load t ph ops id =
      share t ph id op + load t ph (Keyed.erase Operation.id ops op.id) id := by
    rw [load_perm (perm_erase hf), load_cons]
  refine balanced_of_chain (fun _ => rfl) (fun b hb hin => ?_) fun b hb hout => ?_
  · have hbal := h b hb
    have hp := hload EffectPhase.pending b.id
    have ha := hload EffectPhase.ambiguous b.id
    rw [share_of_pos hphase rfl, if_pos hin, ← hbal.reserved, Nat.add_comm] at hp
    rw [share_of_neg hphase rfl, Nat.zero_add, ← hbal.uncertain] at ha
    have hres : (b.reserved - op.exposureUnits).toNat = _ := toNat_sub_share hp.symm
    have hbound := hbal.bound
    refine ⟨hres, ha, hbal.committed, ?_⟩
    simp only [Ledger.release]
    omega
  · have hsame (ph : EffectPhase → Bool) :
        load t ph (Keyed.erase Operation.id ops op.id) b.id = load t ph ops b.id := by
      rw [hload, share_of_not_mem hout, Nat.zero_add]
    exact (h b hb).of_load (hsame _) (hsame _)

lemma balanced_forget (h : Books t ops history) (hf : operationFind ops op.id = some op)
    (hphase : op.phase = .committed) : Books t (Keyed.erase Operation.id ops op.id) history := by
  have hload (ph : EffectPhase → Bool) (hph : ph .committed = false) (id : UInt64) :
      load t ph (Keyed.erase Operation.id ops op.id) id = load t ph ops id := by
    rw [load_perm (perm_erase hf), load_cons, share_of_neg hphase hph, Nat.zero_add]
  exact fun b hb => (h b hb).of_load (hload _ rfl _) (hload _ rfl _)

lemma discard_keeps {id : Uuid} (hr : externalOperationDiscard s.toRegistry active id = .ok r) :
    s.Keeps { s with toRegistry := r } := by
  intro h
  simp only [externalOperationDiscard, bind_eq_ok, failIf_eq_ok, orThrow_eq_ok] at hr
  obtain ⟨_, -, op, hf, _, hphase, hr⟩ := hr
  cases hr
  obtain rfl : op.id = id := lookup_key hf
  have hroster := h.roster.erase op.id
  have hbal : ∃ t', (if op.phase = .prepared then
        touch (chain s.budgets op.exposureLedger) (Ledger.release op.exposureUnits) s.budgets
      else s.budgets) = t' ∧ t'.map Ledger.shape = s.budgets.map Ledger.shape ∧ Stems s.budgets t' ∧
      Counted t' ∧
      Booked t' s.operations ∧
      Books t' (Keyed.erase Operation.id s.operations op.id) s.commitments := by
    by_cases hprep : op.phase = .prepared
    · exact ⟨_, if_pos hprep, touch_shape fun _ => rfl, stems_touch fun _ => by exact ⟨rfl, id⟩,
        h.counted.of_touch (fun _ => rfl) fun _ => rfl,
        h.booked.of_touch (fun _ => rfl) fun _ => rfl, balanced_release h.balanced hf hprep⟩
    · have hcomm : op.phase = .committed := by simpa [hprep] using hphase
      exact ⟨_, if_neg hprep, rfl, .refl _, h.counted, h.booked,
        balanced_forget h.balanced hf hcomm⟩
  obtain ⟨t', ht', hs, hstems, hcounted, hbook, hbal⟩ := hbal
  simp only [budgetDiscard, ht']
  exact ⟨⟨(h.tree.congr hs).congr (touch_shape fun _ => rfl),
    hcounted.of_touch (fun _ => rfl) fun _ => rfl, hbook.unbook hf, hroster,
    h.recorded, balanced_touch hbal (fun _ => rfl) fun _ => ⟨rfl, rfl, rfl, rfl⟩⟩,
    (hstems.trans (stems_touch fun _ => by exact ⟨rfl, id⟩)).persists rfl⟩

end Operations

/-! ## Runs -/

lemma Sound.boot : Sound System.boot where
  tree := ⟨nodup_nil, nofun, nofun, nofun, Nat.zero_le _⟩
  counted := nofun
  booked := ⟨nofun, nofun⟩
  roster :=
    ⟨nodup_nil, nofun, nofun, Nat.zero_le _, nofun, nodup_nil, nofun, nofun, nofun, nodup_nil⟩
  recorded := nofun
  balanced := nofun

lemma System.apply_keeps {r : Except Err Registry}
    (hr : ∀ reg, r = .ok reg → s.Keeps { s with toRegistry := reg }) : s.Keeps (s.apply r) := by
  cases r with
  | error e => exact refl_of System.Keeps s
  | ok reg => exact hr reg rfl

lemma System.step_keeps (s : System) (op : ExposureOp) : s.Keeps (s.step op) := by
  cases op with
  | create active cells owner parent limit memory => exact System.apply_keeps fun _ => create_keeps
  | revoke active id =>
    refine System.apply_keeps fun reg hr h => ?_
    simp only [exposureRevoke, bind_eq_ok] at hr
    obtain ⟨_, -, _, -, b, -, hr⟩ := hr
    cases hr
    exact ⟨h.of_touch (fun _ => rfl) (fun _ => rfl) (fun _ => rfl) fun _ => ⟨rfl, rfl, rfl, rfl⟩,
      (stems_touch (g := .revoke) fun _ => ⟨rfl, fun _ => rfl⟩).persists rfl⟩
  | destroy active id => exact System.apply_keeps fun _ => destroy_keeps
  | prepare active owner admission => exact System.apply_keeps fun _ => prepare_keeps
  | prepareBudgeted active owner admission ledger units =>
    refine System.apply_keeps fun reg hr => ?_
    simp only [externalOperationPrepareBudgeted, bind_eq_ok] at hr
    obtain ⟨_, -, _, -, hr⟩ := hr
    exact prepare_keeps hr
  | discard active id => exact System.apply_keeps fun _ => discard_keeps
  | enter caller id checks mark =>
    simp only [System.step]
    cases hr : dispatchEnter s.toRegistry caller id checks mark with
    | error e => exact refl_of System.Keeps s
    | ok reg => exact enter_keeps hr
  | settle id confirmed =>
    simp only [System.step]
    cases hf : operationFind s.operations id with
    | none => exact refl_of System.Keeps s
    | some op =>
      obtain rfl : op.id = id := lookup_key hf
      simp only
      split
      · exact settle_keeps hf ‹_› confirmed
      · exact refl_of System.Keeps s

end Anunix
