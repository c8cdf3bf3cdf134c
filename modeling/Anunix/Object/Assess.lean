import Anunix.Object.Capture

/-!
# Ready reviews

What it takes for `assess` to call a review ready. `Store.approvals` are the reviewers whose
approval counts at the moment: every object behind their evidence is in the store as it was captured
(`approvals_match`). There are at least `threshold` of them, and the loop over all sets of roots has
found that no set with fewer than `minimum_cut` members reaches `threshold` of them
(`Ready.reached_lt`).
-/

namespace Anunix.Object
open Fallible Mask Finset

section Assess

variable {s : Store} {env : Env} {r : EpistemicRecord} {i j voter : Nat} {node : EvidenceNode}

/-! ## Current evidence -/

/-- The object that a captured node stands for is in the store as it was captured. -/
def Store.Matches (s : Store) (node : EvidenceNode) : Prop :=
  ∃ addr obj, s.lookup node.oid = some (addr, obj) ∧ obj.state = .sealed ∧
    obj.version = node.version ∧ obj.payload.size = node.size ∧ obj.sensitivity = node.sensitivity ∧
    obj.parentOids = node.parents ∧ s.sha256 obj.payload.bytes = node.digest

lemma isEvidence_sealed {obj : StateObject} {ceiling : Sensitivity}
    (h : obj.isEvidence ceiling = true) : obj.state = .sealed := by
  simp only [StateObject.isEvidence, Bool.and_eq_true, decide_eq_true_eq] at h
  exact h.1.1.1.1.1.1.1

lemma nodeCurrent_matches (h : (s.nodeCurrent env r j voter).isOk = true)
    (hj : r.nodes[j]? = some node) : s.Matches node := by
  cases hc : s.nodeCurrent env r j voter with
  | error e => simp [hc, Except.toBool] at h
  | ok u =>
    obtain ⟨old, hold, hc⟩ := bind_eq_ok.mp hc
    obtain ⟨now, hnow, hsame⟩ := bind_eq_ok.mp hc
    cases hj.symm.trans (orThrow_eq_ok.mp hold)
    obtain ⟨addr, obj, hl, hev, rfl⟩ := snapshot_eq_ok hnow
    have hs := failIf_eq_ok.mp hsame
    simp only [EvidenceNode.same, Bool.not_eq_false', Bool.and_eq_true, decide_eq_true_eq] at hs
    obtain ⟨⟨⟨⟨hversion, hsize⟩, hlabel⟩, hparents⟩, hdigest⟩ := hs
    exact ⟨addr, obj, hl, isEvidence_sealed hev, hversion, hsize, hlabel, hparents, hdigest⟩

lemma nodesCurrent_matches {mask : BitVec 32} (h : s.nodesCurrent env r mask voter = true)
    (hm : j ∈ members mask) (hj : r.nodes[j]? = some node) : s.Matches node := by
  have hlt := (List.getElem?_eq_some_iff.mp hj).1
  have hall := List.all_eq_true.mp h j (List.mem_range.mpr hlt)
  rw [mem_members.mp hm] at hall
  exact nodeCurrent_matches hall hj

/-! ## Approvals that count -/

def Store.approvals (s : Store) (env : Env) (r : EpistemicRecord) : Finset Nat :=
  (range r.spec.count).filter fun i => s.voteCurrent env r i

lemma approvals_match (h : i ∈ s.approvals env r) :
    ∃ vote, r.vote i = some vote ∧ vote.approve = true ∧
      ∀ (j : Nat) (node : EvidenceNode), j ∈ members vote.nodes → r.nodes[j]? = some node →
        s.Matches node := by
  have hc := (mem_filter.mp h).2
  unfold Store.voteCurrent at hc
  cases hv : r.vote i with
  | none => simp [hv] at hc
  | some vote =>
    simp only [hv, Bool.and_eq_true] at hc
    exact ⟨vote, rfl, hc.1.1, fun j node => nodesCurrent_matches hc.2⟩

/-! ## The smallest cut -/

structure EpistemicRecord.Bounded (r : EpistemicRecord) : Prop where
  spec : r.spec.wellFormed = true
  roots : r.roots.length ≤ epistemicRoots

lemma EpistemicRecord.Bounded.count_le (h : r.Bounded) : r.spec.count ≤ 32 := by
  have hw := h.spec
  simp only [EpistemicSpec.wellFormed, Bool.and_eq_true, decide_eq_true_eq] at hw
  exact hw.1.1.1.1.2.trans (by decide)

def EpistemicRecord.reached (r : EpistemicRecord) (A F : Finset Nat) : Finset Nat :=
  A.filter fun i => ∃ k ∈ F, ∃ vote ∈ r.vote i, k ∈ members vote.roots

lemma members_valid (h : r.Bounded) :
    members (collect r.spec.count (s.voteCurrent env r) : BitVec 32) = s.approvals env r :=
  members_collect h.count_le

lemma members_covered (h : r.Bounded) (faults : BitVec 32) :
    members (r.covered (collect r.spec.count (s.voteCurrent env r)) faults) =
      r.reached (s.approvals env r) (members faults) := by
  rw [EpistemicRecord.covered, members_collect h.count_le]
  ext i
  rw [EpistemicRecord.reached, mem_filter, mem_filter, ← members_valid h, mem_members,
    Bool.and_eq_true, mem_range]
  have hlt : (collect r.spec.count (s.voteCurrent env r) : BitVec 32).getLsbD i = true →
      i < r.spec.count := by
    intro hi
    have hm := mem_members.mpr hi
    rw [members_valid h] at hm
    exact mem_range.mp (mem_filter.mp hm).1
  cases hv : r.vote i with
  | none => simp
  | some vote =>
    simp only [Option.mem_def, Option.some.injEq, exists_eq_left', decide_eq_true_eq]
    rw [show (0 : BitVec 32) = 0#32 from rfl, and_ne_zero]
    constructor
    · rintro ⟨-, hvalid, k, hr, hf⟩
      exact ⟨hvalid, k, hf, hr⟩
    · rintro ⟨hvalid, k, hf, hr⟩
      exact ⟨hlt hvalid, hvalid, k, hr, hf⟩

/-- The search keeps the smallest size seen: below its start value, and below the size of every set
    that covers enough. -/
lemma foldl_minimum_le (covers : BitVec 32 → Bool) (l : List Nat) (start : Nat) :
    let found := l.foldl (fun minimum faults =>
      let mask := BitVec.ofNat 32 faults
      if minimum ≤ bits mask then minimum
      else if covers mask then bits mask else minimum) start
    found ≤ start ∧ ∀ faults ∈ l, covers (BitVec.ofNat 32 faults) = true →
      found ≤ bits (BitVec.ofNat 32 faults) := by
  induction l generalizing start with
  | nil => exact ⟨Nat.le_refl _, fun _ h => nomatch h⟩
  | cons faults l ih =>
    simp only [List.foldl_cons]
    split
    · rename_i hle
      obtain ⟨hstart, hall⟩ := ih start
      exact ⟨hstart, List.forall_mem_cons.mpr ⟨fun _ => hstart.trans hle, hall⟩⟩
    · split
      · obtain ⟨hstart, hall⟩ := ih (bits (BitVec.ofNat 32 faults))
        exact ⟨hstart.trans (by omega), List.forall_mem_cons.mpr ⟨fun _ => hstart, hall⟩⟩
      · rename_i hno
        obtain ⟨hstart, hall⟩ := ih start
        exact ⟨hstart, List.forall_mem_cons.mpr ⟨fun hc => absurd hc hno, hall⟩⟩

/-- No set of roots that reaches `threshold` valid approvals is smaller than the minimum found. -/
lemma minimumOf_le (h : r.Bounded) {F : Finset Nat} (hF : F ⊆ range r.roots.length)
    (hne : F.Nonempty) (hreach : r.spec.threshold ≤ (r.reached (s.approvals env r) F).card) :
    r.minimumOf (collect r.spec.count (s.voteCurrent env r)) ≤ F.card := by
  -- The set as the mask that the loop counts through.
  let mask : BitVec 32 := collect r.roots.length fun k => decide (k ∈ F)
  have hle : r.roots.length ≤ 32 := h.roots.trans (by simp [epistemicRoots])
  have hmask : members mask = F := by
    rw [members_collect hle]
    ext k
    simp only [mem_filter, decide_eq_true_eq, and_iff_right_iff_imp]
    exact fun hk => hF hk
  have hofNat : BitVec.ofNat 32 mask.toNat = mask := by simp
  have hpos : mask.toNat ≠ 0 := by
    intro h0
    obtain ⟨k, hk⟩ := hne
    rw [← hmask, mem_members, ← BitVec.testBit_toNat, h0] at hk
    simp at hk
  have hlt : mask.toNat < 2 ^ r.roots.length := by
    apply Nat.lt_pow_two_of_testBit
    intro k hk
    rw [BitVec.testBit_toNat, getLsbD_collect hle]
    simp [Nat.not_lt.mpr hk]
  have hmem : mask.toNat ∈ List.range' 1 (2 ^ r.roots.length - 1) := by
    rw [List.mem_range'_1]
    omega
  have hcovers : r.spec.threshold ≤
      bits (r.covered (collect r.spec.count (s.voteCurrent env r)) mask) := by
    rw [bits_eq_card, members_covered h, hmask]
    exact hreach
  have hfound := (foldl_minimum_le (fun mask => decide (r.spec.threshold ≤
    bits (r.covered (collect r.spec.count (s.voteCurrent env r)) mask)))
    (List.range' 1 (2 ^ r.roots.length - 1)) (epistemicRoots + 1)).2 mask.toNat hmem
    (by rw [hofNat]; exact decide_eq_true hcovers)
  rw [hofNat, bits_eq_card, hmask] at hfound
  simpa [EpistemicRecord.minimumOf] using hfound

structure Ready (s : Store) (env : Env) (r : EpistemicRecord) : Prop where
  enough : r.spec.threshold ≤ (s.approvals env r).card
  uncut : ∀ F : Finset Nat, F ⊆ range r.roots.length → F.card < r.spec.minimumCut →
    (r.reached (s.approvals env r) F).card < r.spec.threshold

lemma ready_of_assess (h : r.Bounded) (hr : (s.assess env r).view.ready = true) :
    Ready s env r := by
  have hw := h.spec
  simp only [EpistemicSpec.wellFormed, Bool.and_eq_true, decide_eq_true_eq] at hw
  simp only [Store.assess, Bool.and_eq_true, decide_eq_true_eq] at hr
  obtain ⟨henough, hcut⟩ := hr
  rw [bits_eq_card, members_valid h] at henough hcut
  refine ⟨henough, fun F hF hcard => ?_⟩
  by_contra hmany
  have hreach : r.spec.threshold ≤ (r.reached (s.approvals env r) F).card := by omega
  cases F.eq_empty_or_nonempty with
  | inl hempty =>
    rw [hempty] at hreach
    simp [EpistemicRecord.reached] at hreach
    omega
  | inr hne =>
    have hmin := minimumOf_le h hF hne hreach
    split at hcut
    · omega
    · omega

end Assess

end Anunix.Object
