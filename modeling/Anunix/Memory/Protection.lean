import Anunix.Memory.Admission

/-!
# Runs of the memory plane

Every call makes one of the changes of `Change`, so the accounts and the tiers that must stay are
kept along every run (`admission_conserved`).
-/

namespace Anunix.Memory
open Fallible Route Mask

variable {needed : Uuid → Bool} {s s' : Plane} {e : Entry} {oid : Uuid}

/-! ## Tiers -/

lemma notMem_of_and_eq_zero {m m' : BitVec 8} {i : Nat} (h : decide (m &&& m' ≠ 0#8) = false)
    (hi : i ∈ members m) : i ∉ members m' := by
  intro hi'
  apply of_decide_eq_false h
  exact and_ne_zero.mpr ⟨i, hi, hi'⟩

lemma kept_promote (e : Entry) (tier : MemTier) :
    e.Kept needed { e with tierMask := e.tierMask ||| tierBit tier } := by
  refine ⟨rfl, rfl, rfl, fun h => ?_, fun i hi => ?_⟩
  · unfold Entry.Placed
    rw [members_or]
    exact h.trans Finset.subset_union_left
  · rw [members_or]
    exact Finset.mem_union_left _ hi.1

lemma kept_remove {e' : Entry} {lost : BitVec 8} (hoid : e'.oid = e.oid)
    (hbytes : e'.admittedBytes = e.admittedBytes) (howner : e'.admissionOwner = e.admissionOwner)
    (hprotected : e'.protectedTiers = e.protectedTiers)
    (hstay : ∀ i ∈ members e.tierMask, i ∉ members lost → i ∈ members e'.tierMask)
    (hfree : decide (e.protectedTiers &&& lost ≠ 0#8) = false)
    (hidle : needed e.oid = true → ∀ i ∈ members e.tierMask, i ∉ members lost) :
    e.Kept needed e' := by
  refine ⟨hoid, hbytes, howner, fun h i hi => ?_, fun i hi => ?_⟩
  · rw [hprotected] at hi
    exact hstay i (h hi) (notMem_of_and_eq_zero hfree hi)
  · apply hstay i hi.1
    cases hi.2 with
    | inl hprot => exact notMem_of_and_eq_zero hfree hprot
    | inr hneeded => exact hidle hneeded i hi.1

/-! ## Calls -/

abbrev Changes (needed : Uuid → Bool) (x : Prog PUnit) (s : Plane) : Prop :=
  Ends x s (fun _ s' => Change needed s s') fun _ s' => Change needed s s'

lemma promote_changes (caller : Option Uuid) (oid : Uuid) (tier : Option MemTier) :
    Changes needed (promote caller oid tier) s := by
  refine .guard fun _ => ?_
  refine .fetch fun e he => ?_
  refine .fetch fun tier _ => ?_
  refine .guard fun _ => ?_
  refine .guard fun _ => ?_
  exact .write he (kept_promote e tier)

lemma demote_changes (caller : Option Uuid) (oid : Uuid) (tier : Option MemTier) :
    Changes needed (demote needed caller oid tier) s := by
  refine .guard fun _ => ?_
  refine .fetch fun e he => ?_
  refine .fetch fun tier _ => ?_
  refine .guard fun hidle => ?_
  refine .guard fun hfree => ?_
  refine .write he (kept_remove rfl rfl rfl rfl (fun i hi hout => ?_) hfree
    fun hneeded i hi hin => ?_)
  · rw [members_and_not]
    exact Finset.mem_sdiff.mpr ⟨hi, hout⟩
  · -- a needed entry in the tier is refused
    have hin' : e.inTier tier = true := decide_eq_true (and_ne_zero.mpr ⟨i, hi, hin⟩)
    rw [hin', hneeded] at hidle
    cases hidle

lemma setValidation_changes (caller : Option Uuid) (oid : Uuid) (state : Option Validation) :
    Changes needed (setValidation caller oid state) s := by
  refine .guard fun _ => ?_
  refine .fetch fun state _ => ?_
  refine .fetch fun e he => ?_
  refine .guard fun _ => ?_
  have hoid : e.oid = oid := Keyed.lookup_key he
  refine .rewrite (forall₂_kept_update (e := e) ?_ (Entry.Kept.of_eq rfl rfl rfl rfl rfl)) rfl
  exact hoid ▸ he

lemma touch_changes (oid : Uuid) {f : Entry → Entry} (hf : ∀ e : Entry, e.Kept needed (f e)) :
    Change needed s (s.touch oid f) := by
  unfold Plane.touch
  cases he : s.lookup oid with
  | none => exact .refl s
  | some e => exact Change.write he (hf e)

lemma hint_changes (oid : Uuid) (h : Retention) (granted : Except Err PUnit) :
    Changes needed (hint oid h granted) s := by
  refine .fetch fun e he => ?_
  refine .guard fun _ => ?_
  refine .lift fun _ _ => ?_
  exact .write he (Entry.Kept.of_eq rfl rfl rfl rfl rfl)

lemma protect_changes (caller : Option Uuid) (oid : Uuid) (tiers : BitVec 32) :
    Changes needed (protect caller oid tiers) s := by
  refine .guard fun _ => ?_
  refine .fetch fun e he => ?_
  refine .guard fun _ => ?_
  refine .guard fun hsub => ?_
  refine .write he ⟨rfl, rfl, rfl, fun _ i hi => ?_, fun i hi => hi.1⟩
  have hzero := and_not_eq_zero.mp (not_not.mp (of_decide_eq_false hsub))
  have hi32 : i ∈ members tiers := by
    rw [mem_members] at hi ⊢
    rw [BitVec.getLsbD_setWidth] at hi
    exact (Bool.and_eq_true_iff.mp hi).2
  have hmask := mem_members.mp (hzero hi32)
  rw [BitVec.getLsbD_setWidth] at hmask
  exact mem_members.mpr (Bool.and_eq_true_iff.mp hmask).2

lemma evict_changes (caller : Option Uuid) (candidates : List Uuid) (tier : Option MemTier) :
    Ends (evict needed caller candidates tier) s (fun _ => Change needed s)
    fun _ => Change needed s := by
  refine .guard fun _ => ?_
  refine .guard fun _ => ?_
  refine .guard fun _ => ?_
  refine .fetch fun tier _ => ?_
  refine .lift fun entries _ => ?_
  refine .fetch fun victim _ => ?_
  exact .bind (demote_changes caller victim.oid (some tier))

lemma decayed_kept (e : Entry) : e.Kept needed e.decayed :=
  Entry.Kept.of_eq rfl rfl rfl rfl rfl

lemma decaySweep_changes : Change needed s s.decaySweep := by
  refine .rewrite (List.forall₂_map_right_iff.mpr ?_) rfl
  exact List.forall₂_same.mpr fun e _ => decayed_kept e

lemma cellCreate_changes (cid : Uuid) (limit : Nat) : Changes needed (cellCreate cid limit) s := by
  refine .guard fun hnew => ?_
  exact .create cid limit
    (Option.isSome_eq_false_iff.mp hnew |> Option.isNone_iff_eq_none.mp) rfl rfl

lemma cellDestroy_changes (cid : Uuid) (busy : Bool) : Changes needed (cellDestroy cid busy) s := by
  refine .fetch fun cell hcell => ?_
  refine .guard fun hidle => ?_
  have hunused := of_decide_eq_false hidle
  push Not at hunused
  exact .destroy cid cell hcell hunused.2 rfl rfl

lemma placed_admitted (oid : Uuid) (profile : Profile) (bytes : Nat) (owner : Option Uuid) :
    (Entry.admitted oid profile bytes owner).Placed := by
  intro i hi
  have hzero := mem_members.mp hi
  change (0#8).getLsbD i = true at hzero
  rw [BitVec.getLsbD_zero] at hzero
  cases hzero

lemma cells_of_payer {caller : Option Uuid} {cid : Uuid} {cell : Cell}
    (h : s.payer caller = some (cid, cell)) : s.cells cid = some cell := by
  obtain ⟨c, -, h⟩ := Option.bind_eq_some_iff.mp h
  obtain ⟨b, hb, h⟩ := Option.bind_eq_some_iff.mp h
  split at h
  · cases h
  · cases h
    exact hb

lemma admit_changes (caller : Option Uuid) (oid : Uuid) (profile : Option Profile)
    (object : Except Err Opened) (memory : Bool) :
    Changes needed (memplaneAdmit caller oid profile object memory) s := by
  refine .fetch fun profile _ => ?_
  refine .guard fun hfresh => ?_
  refine .lift fun object _ => ?_
  refine .guard fun _ => ?_
  refine .guard fun _ => ?_
  have hnone : s.lookup oid = none :=
    Option.isSome_eq_false_iff.mp hfresh |> Option.isNone_iff_eq_none.mp
  apply Ends.bind
  cases hpayer : s.payer caller with
  | none =>
    exact Change.enter (Entry.admitted oid profile object.payloadSize none) hnone
      (placed_admitted _ _ _ _) rfl (fun _ => rfl) fun cid howner => nomatch howner
  | some payer =>
    obtain ⟨cid, cell⟩ := payer
    have hcell := cells_of_payer hpayer
    refine .guard fun hfits => ?_
    have hbounds := of_decide_eq_false hfits
    push Not at hbounds
    refine Change.enter (Entry.admitted oid profile object.payloadSize (some cid)) hnone
      (placed_admitted _ _ _ _) rfl (fun howner => nomatch howner) fun c howner => ?_
    cases howner
    refine ⟨cell, hcell, ?_, rfl⟩
    change cell.memoryAdmittedBytes + object.payloadSize ≤ cell.maxMemoryAdmissionBytes
    omega

lemma delete_changes (he : s.lookup oid = some e) (hloose : ∀ tier, ¬e.Held needed tier) :
    Changes needed (do
      refund e
      modify fun s => { s with entries := Keyed.erase Entry.oid s.entries oid }) s := by
  have hoid : e.oid = oid := Keyed.lookup_key he
  apply Ends.bind
  unfold refund
  cases hown : e.admissionOwner with
  | none =>
    refine .delete e (hoid ▸ he) hloose (congrArg (Keyed.erase Entry.oid s.entries) hoid.symm)
      (fun _ => rfl) ?_
    exact fun cid howner => nomatch hown.symm.trans howner
  | some cid =>
    refine .fetch fun cell hcell => ?_
    refine .guard fun _ => ?_
    refine .delete e (hoid ▸ he) hloose (congrArg (Keyed.erase Entry.oid s.entries) hoid.symm)
      (fun howner => nomatch hown.symm.trans howner) ?_
    intro c howner
    cases hown.symm.trans howner
    exact ⟨cell, hcell, rfl⟩

lemma forget_changes (caller : Option Uuid) (oid : Uuid) (mode : Option ForgetMode) :
    Changes needed (forget needed caller oid mode) s := by
  refine .fetch fun e he => ?_
  refine .fetch fun mode _ => ?_
  refine .guard fun _ => ?_
  refine .guard fun hfree => ?_
  refine .guard fun hidle => ?_
  -- a needed object loses nothing
  have hnothing : needed e.oid = true → ∀ i, i ∉ members (e.removed mode) := by
    intro hneeded i hi
    have hzero : e.removed mode ≠ 0#8 := fun heq => by simp [heq] at hi
    rw [hneeded, decide_eq_true hzero] at hidle
    cases hidle
  cases mode with
  | hardDelete =>
    have hunneeded : needed e.oid = false := by simpa using hidle
    refine delete_changes he fun tier hheld => ?_
    cases hheld.2 with
    | inl hprot => exact notMem_of_and_eq_zero hfree hprot hheld.1
    | inr hneeded =>
      rw [hunneeded] at hneeded
      cases hneeded
  | tombstone =>
    refine .write he (kept_remove rfl rfl rfl rfl (fun i hi hout => ?_) hfree
      fun h i _ => hnothing h i)
    exact absurd hi hout
  | archive =>
    refine .write he (kept_remove rfl rfl rfl rfl (fun i hi hout => ?_) hfree
      fun h i _ => hnothing h i)
    by_contra hl2
    apply hout
    change i ∈ members (e.tierMask &&& ~~~tierBit .l2)
    rw [members_and_not]
    exact Finset.mem_sdiff.mpr ⟨hi, hl2⟩
  | rederive =>
    refine .write he (kept_remove rfl rfl rfl rfl (fun i hi hout => ?_) hfree
      fun h i _ => hnothing h i)
    rw [members_and_not]
    refine Finset.mem_sdiff.mpr ⟨hi, fun hgone => hout ?_⟩
    change i ∈ members (e.tierMask &&& (tierBit .l0 ||| tierBit .l1 ||| tierBit .l3))
    rw [members_and]
    exact Finset.mem_inter.mpr ⟨hi, hgone⟩

/-! ## Runs -/

lemma Plane.step_change (s : Plane) (i : Input) : Change i.needed s (s.step i) := by
  apply Ends.final
  unfold Input.run
  cases i.call with
  | memplaneAdmit oid profile object memory =>
    exact admit_changes i.caller oid profile object memory
  | promote oid tier => exact promote_changes i.caller oid tier
  | demote oid tier => exact demote_changes i.caller oid tier
  | setValidation oid state => exact setValidation_changes i.caller oid state
  | addContradiction oid => exact touch_changes oid fun e => Entry.Kept.of_eq rfl rfl rfl rfl rfl
  | recordAccess oid => exact touch_changes oid fun e => Entry.Kept.of_eq rfl rfl rfl rfl rfl
  | forget oid mode => exact forget_changes i.caller oid mode
  | hint oid retention granted => exact hint_changes oid retention granted
  | protect oid tiers => exact protect_changes i.caller oid tiers
  | evict candidates tier => exact .bind (evict_changes i.caller candidates tier)
  | decayEntry oid => exact touch_changes oid decayed_kept
  | decaySweep => exact decaySweep_changes
  | cellCreate cid limit => exact cellCreate_changes cid limit
  | cellDestroy cid busy => exact cellDestroy_changes cid busy

lemma sound_init : Plane.init.Sound :=
  ⟨List.nodup_nil, List.forall_mem_nil _, List.forall_mem_nil _, nofun⟩

lemma planeAt_sound (inputs : List Input) (n : Nat) : (planeAt inputs n).Sound :=
  Run.after_invariant Plane.step sound_init (fun s i h => h.change (s.step_change i)) n

/-- In every run the charges of a cell are those of the entries it had admitted, within its limits.
-/
theorem admission_conserved (inputs : List Input) (n : Nat) :
    (∀ cid cell, (planeAt inputs n).cells cid = some cell →
      cell.memoryAdmittedBytes = chargedBytes (planeAt inputs n).entries cid ∧
      cell.memoryAdmissionCount = chargedCount (planeAt inputs n).entries cid ∧
      cell.memoryAdmittedBytes ≤ cell.maxMemoryAdmissionBytes) ∧
    (∀ e ∈ (planeAt inputs n).entries, ∀ cid, e.admissionOwner = some cid →
      ∃ cell, (planeAt inputs n).cells cid = some cell) ∧
    (∀ e ∈ (planeAt inputs n).entries, ∀ tier, e.protectedTiers.getLsbD tier = true →
      e.tierMask.getLsbD tier = true) ∧
    ∀ i : Input, ∀ e ∈ (planeAt inputs n).entries, ∀ tier, e.tierMask.getLsbD tier = true →
      e.protectedTiers.getLsbD tier = true ∨ i.needed e.oid = true →
      ∃ e' ∈ ((planeAt inputs n).step i).entries, e'.oid = e.oid ∧
      e'.tierMask.getLsbD tier = true := by
  have h := planeAt_sound inputs n
  refine ⟨?_, ?_, ?_, ?_⟩
  · intro cid cell hcell
    have hagrees := h.agrees cid cell hcell
    exact ⟨hagrees.bytes, hagrees.count, hagrees.limit⟩
  · intro e he cid howner
    exact Option.isSome_iff_exists.mp (h.owners e he cid howner)
  · intro e he tier hprot
    exact mem_members.mp (h.placed e he (mem_members.mpr hprot))
  · intro i e he tier hin hheld
    have hkeeps := ((planeAt inputs n).step_change i).keeps e he tier
      ⟨mem_members.mpr hin, hheld.imp_left mem_members.mpr⟩
    obtain ⟨e', he', hoid, htier⟩ := hkeeps
    exact ⟨e', he', hoid, mem_members.mp htier⟩

end Anunix.Memory
