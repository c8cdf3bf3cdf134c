import Anunix.Object.Ballots

/-!
# The review gate

A stage that is bound to a review is published only as it was proposed. The approvals that count are
at least `threshold`, by different reviewers and with all their evidence as it was, and no set of
fewer than `minimum_cut` roots carries `threshold` of them.

The closure of a piece of evidence is that of the objects themselves at the time of the vote
(`Store.Ancestor`); that the record captured exactly this closure is `Standing.ancestor`.
-/

namespace Anunix.Object
open Fallible Finset

/-! ## Evidence in the store -/

def Store.ParentOf (s : Store) (oid parent : Uuid) : Prop :=
  ∃ addr obj, s.lookup oid = some (addr, obj) ∧ parent ∈ obj.parentOids

/-- The object itself or something it was derived from. -/
def Store.Ancestor (s : Store) : Uuid → Uuid → Prop :=
  Relation.ReflTransGen s.ParentOf

def Store.RootOf (s : Store) (oid root : Uuid) : Prop :=
  s.Ancestor oid root ∧ ∃ addr obj, s.lookup root = some (addr, obj) ∧ obj.parentOids = []

/-- An object is sealed in both stores, with the same version, payload, label and parents. -/
def Unchanged (s s' : Store) (oid : Uuid) : Prop :=
  ∃ addr obj addr' obj', s.lookup oid = some (addr, obj) ∧ s'.lookup oid = some (addr', obj') ∧
    obj.state = .sealed ∧ obj'.state = .sealed ∧ obj'.version = obj.version ∧
    obj'.payload.size = obj.payload.size ∧ obj'.payload.bytes = obj.payload.bytes ∧
    obj'.sensitivity = obj.sensitivity ∧ obj'.parentOids = obj.parentOids

/-- A reviewer's only vote on a review, an approval whose evidence stands up to the `n`-th event. -/
structure Approval (sha256 : List UInt8 → Digest) (history : List Event) (n : Nat) (id : UInt64)
    (reviewer : Uuid) (k : Nat) (evidence : Uuid) : Prop where
  before : k < n
  voted : VotedAt sha256 history k id evidence reviewer true
  single : ∀ k' < n, ∀ evidence' approve, VotedAt sha256 history k' id evidence' reviewer approve →
    k' = k
  unchanged : ∀ oid, (moment sha256 history k).Ancestor evidence oid →
    Unchanged (moment sha256 history k) (moment sha256 history n) oid

structure Backed (sha256 : List UInt8 → Digest) (history : List Event) (n : Nat) (env : Env)
    (obj : StateObject) (stage : StagedMutation) (r : EpistemicRecord) : Prop where
  /-- The shadow is what the review was opened on. -/
  proposal : ∃ k h env obj₀ stage₀, k < n ∧ BegunAt sha256 history k h env obj₀ stage₀ r ∧
    obj.oid = obj₀.oid ∧ stage.stagingCell = stage₀.stagingCell ∧
    stage.shadow.size = stage₀.shadow.size ∧
    sha256 stage.shadow.bytes = sha256 stage₀.shadow.bytes ∧
    stage.shadow.bytes = stage₀.shadow.bytes
  strangers : ∀ i < r.spec.count, r.spec.reviewer i ≠ r.view.owner
  distinct : ∀ i < r.spec.count, ∀ j < r.spec.count, r.spec.reviewer i = r.spec.reviewer j → i = j
  /-- The approvals that the gate counts are enough, each stands, and no small set of roots carries
      enough of them. -/
  approvals : ∃ (time : Nat → Nat) (evidence : Nat → Uuid),
    let A := (moment sha256 history n).approvals env r
    A ⊆ range r.spec.count ∧ r.spec.threshold ≤ A.card ∧
    (∀ i ∈ A, Approval sha256 history n r.view.id (r.spec.reviewer i) (time i) (evidence i)) ∧
    ∀ F : Finset Uuid, F.card < r.spec.minimumCut →
      {i : Nat | i ∈ A ∧ ∃ oid ∈ F,
        (moment sha256 history (time i)).RootOf (evidence i) oid}.ncard < r.spec.threshold

structure GateSound (sha256 : List UInt8 → Digest) (history : List Event) : Prop where
  /-- A commit, single or batched, of a stage that is bound to a review. -/
  commits : ∀ n c env handles h addr obj stage, history[n]? = some (.call c env) →
    c.resolves = some (true, handles) → (moment sha256 history n).succeeds (c, env) = true →
    h ∈ handles → (moment sha256 history n).held h = some (addr, obj) → obj.staged = some stage →
    stage.epistemicId ≠ 0 →
    ∃ r, (moment sha256 history n).find stage.epistemicId = some r ∧
      Backed sha256 history n env obj stage r
  /-- The masks of a captured node are exactly the captured objects reachable from it, and the
      parentless ones among these. -/
  masks : ∀ n id r i node, (moment sha256 history n).find id = some r → r.nodes[i]? = some node →
    (∀ k, k ∈ Mask.members node.nodes ↔ r.Reaches i k) ∧
    ∀ k, k ∈ Mask.members node.roots ↔ ∃ j b, r.Reaches i j ∧ r.nodes[j]? = some b ∧
    b.parents = [] ∧
      r.roots[k]? = some b.oid
  bounded : ∀ n id r, (moment sha256 history n).find id = some r →
    r.nodes.length ≤ epistemicNodes ∧ r.roots.length ≤ epistemicRoots
  rejects : ∀ n id evidence approve env,
    history[n]? = some (.call (.reviewVote id evidence approve) env) →
    (moment sha256 history n).succeeds (.reviewVote id evidence approve, env) = false →
    moment sha256 history (n + 1) = moment sha256 history n

section Gate

variable {sha256 : List UInt8 → Digest} {history : List Event} {n k : Nat} {r : EpistemicRecord}
  {s s' : Store} {env : Env} {node : EvidenceNode} {rank : Nat → Nat} {oid evidence : Uuid}
  {obj : StateObject} {stage : StagedMutation} {i : Nat}

/-! ## Captured and real evidence -/

lemma lookup_congr (ho : s'.objects = s.objects) (ht : s'.table = s.table) (oid : Uuid) :
    s'.lookup oid = s.lookup oid := by
  have hn : s'.named oid = s.named oid := by
    funext addr
    simp only [Store.named, ho]
  simp only [Store.lookup, ht, hn]

lemma OnlyViews.matches (h : OnlyViews s s') (hm : s'.Matches node) : s.Matches node := by
  obtain ⟨addr, obj, hl, hrest⟩ := hm
  rw [lookup_congr h.objects h.table] at hl
  rw [h.sha256] at hrest
  exact ⟨addr, obj, hl, hrest⟩

lemma OnlyViews.approvals (h : OnlyViews s s') (env : Env) (r : EpistemicRecord) :
    s'.approvals env r = s.approvals env r.ballot := by
  have hcurrent (j i : Nat) : s'.nodeCurrent env r j i = s.nodeCurrent env r.ballot j i := by
    simp only [Store.nodeCurrent, Store.snapshot, Store.evidenceOf, lookup_congr h.objects h.table,
      h.sha256]
    rfl
  simp only [Store.approvals, Store.voteCurrent, Store.nodesCurrent, hcurrent]
  rfl

def EpistemicRecord.rootsIn (r : EpistemicRecord) (F : Finset Uuid) : Finset Nat :=
  (range r.roots.length).filter fun k => r.roots.getD k .nil ∈ F

lemma getD_roots (h : r.roots[k]? = some oid) : r.roots.getD k .nil = oid := by
  rw [List.getD_eq_getElem?_getD, h, Option.getD_some]

lemma rootsIn_card (hn : r.roots.Nodup) (F : Finset Uuid) : (r.rootsIn F).card ≤ F.card := by
  refine card_le_card_of_injOn (fun k => r.roots.getD k .nil) ?_ ?_
  · intro k hk
    exact (mem_filter.mp hk).2
  · intro a ha b hb hab
    have hla : a < r.roots.length := mem_range.mp (mem_filter.mp ha).1
    have hlb : b < r.roots.length := mem_range.mp (mem_filter.mp hb).1
    have hga := List.getElem?_eq_getElem hla
    have hgb := List.getElem?_eq_getElem hlb
    have hab' : r.roots[a] = r.roots[b] := (getD_roots hga).symm.trans (hab.trans (getD_roots hgb))
    exact (List.getElem?_inj hla hn).mp (hga.trans (hab' ▸ hgb.symm))

/-! ## A passing commit -/

lemma commit_cleared {c : Call} {handles : List Nat} {h addr : Nat}
    (hc : c.resolves = some (true, handles)) (hs : s.succeeds (c, env) = true) (hh : h ∈ handles)
    (hheld : s.held h = some (addr, obj)) (hstage : obj.staged = some stage)
    (hid : stage.epistemicId ≠ 0) :
    ∃ s1 r1, OnlyViews s s1 ∧ Cleared s1 env obj stage r1 := by
  obtain ⟨haddr, hobj⟩ := held_eq_some.mp hheld
  obtain ⟨targets, hlists, hall, -⟩ := (resolves_ends hc).of_succeeds hs
  obtain ⟨t, ht, hw, hobj'⟩ := hlists.opened h hh
  cases haddr.symm.trans hw.1
  cases hobj.symm.trans hobj'
  obtain ⟨s1, stage', hviews, hpub, hreview⟩ := (hall t ht).2 rfl
  cases hstage.symm.trans hpub.staged
  rcases hreview with h0 | ⟨r, hr⟩
  · exact absurd h0 hid
  · exact ⟨s1, r, hviews, hr⟩

/-- An approval that counts after `n` events, with the event that cast it and the captured node it
    was cast from. -/
structure Standing (sha256 : List UInt8 → Digest) (history : List Event) (n : Nat)
    (r : EpistemicRecord) (i k root : Nat) (evidence : Uuid) : Prop where
  before : k < n
  voted : VotedAt sha256 history k r.view.id evidence (r.spec.reviewer i) true
  captured : ∃ node vote, r.nodes[root]? = some node ∧ node.oid = evidence ∧ r.vote i = some vote ∧
    vote.roots = node.roots
  holds : ∀ (j : Nat) (p : EvidenceNode), r.Reaches root j → r.nodes[j]? = some p →
    (moment sha256 history k).Matches p ∧ (moment sha256 history n).Matches p

lemma standing_of_approvals (hg : Graph r (fun _ => False) rank)
    (hviews : OnlyViews (moment sha256 history n) s) (hr : Review sha256 history n r.ballot)
    (hi : i ∈ s.approvals env r) :
    ∃ k root evidence, Standing sha256 history n r i k root evidence := by
  obtain ⟨vote, hvote, happrove, hnow⟩ := approvals_match hi
  obtain ⟨k, root, node, hk, hc⟩ := hr.cast i vote hvote
  refine ⟨k, root, node.oid, hk, happrove ▸ hc.voted,
    ⟨node, vote, hc.evidence, rfl, hvote, hc.roots⟩, ?_⟩
  intro j p hreach hp
  have hmem : j ∈ Mask.members vote.nodes := by
    rw [hc.nodes]
    exact (hg.nodes_iff hc.evidence).mpr hreach
  exact ⟨hc.held j p hmem hp, hviews.matches (hnow j p hmem hp)⟩

section Standing

variable {top : Nat} (h : Standing sha256 history n r i k top evidence)
  (hg : Graph r (fun _ => False) rank)

include h hg

/-- Every ancestor of the evidence was captured: the objects of the captured nodes have the parents
    that the nodes list, and these were captured too. -/
lemma Standing.ancestor (hanc : (moment sha256 history k).Ancestor evidence oid) :
    ∃ (j : Nat) (p : EvidenceNode), r.Reaches top j ∧ r.nodes[j]? = some p ∧ p.oid = oid := by
  obtain ⟨node, vote, hnode, heq, -⟩ := h.captured
  induction hanc with
  | refl => exact ⟨top, node, .refl, hnode, heq⟩
  | tail _ hstep ih =>
    obtain ⟨j, p, hreach, hp, rfl⟩ := ih
    obtain ⟨addr, obj, hl, hparent⟩ := hstep
    obtain ⟨addr', obj', hl', -, -, -, -, hparents, -⟩ := (h.holds j p hreach hp).1
    cases hl.symm.trans hl'
    rw [hparents] at hparent
    obtain ⟨i, q, hq, -, hoid, -⟩ := (hg.finished j p hp not_false).parents _ hparent
    exact ⟨i, q, hreach.tail ⟨p, q, hp, hq, hoid ▸ hparent⟩, hq, hoid⟩

lemma Standing.unchanged (hinj : Function.Injective sha256)
    (hanc : (moment sha256 history k).Ancestor evidence oid) :
    Unchanged (moment sha256 history k) (moment sha256 history n) oid := by
  obtain ⟨j, p, hreach, hp, rfl⟩ := h.ancestor hg hanc
  -- Both stores match the captured node, so they agree on its object.
  obtain ⟨⟨addr, obj, hl, hstate, hversion, hsize, hlabel, hparents, hdigest⟩,
    addr', obj', hl', hstate', hversion', hsize', hlabel', hparents', hdigest'⟩ :=
    h.holds j p hreach hp
  have hbytes : obj'.payload.bytes = obj.payload.bytes := by
    apply hinj
    rw [(sound_moment sha256 history k).hash] at hdigest
    rw [(sound_moment sha256 history n).hash] at hdigest'
    rw [hdigest, hdigest']
  exact ⟨addr, obj, addr', obj', hl, hl', hstate, hstate', hversion'.trans hversion.symm,
    hsize'.trans hsize.symm, hbytes, hlabel'.trans hlabel.symm, hparents'.trans hparents.symm⟩

lemma Standing.root (hroot : (moment sha256 history k).RootOf evidence oid) :
    ∃ (place : Nat) (vote : EvidenceVote), r.roots[place]? = some oid ∧ r.vote i = some vote ∧
      place ∈ Mask.members vote.roots := by
  obtain ⟨hanc, addr, obj, hl, hnil⟩ := hroot
  obtain ⟨node, vote, hnode, -, hvote, hmask⟩ := h.captured
  obtain ⟨j, p, hreach, hp, rfl⟩ := h.ancestor hg hanc
  obtain ⟨addr', obj', hl', -, -, -, -, hparents, -⟩ := (h.holds j p hreach hp).1
  cases hl.symm.trans hl'
  have hpnil : p.parents = [] := hparents.symm.trans hnil
  obtain ⟨place, hplace⟩ := List.mem_iff_getElem?.mp ((hg.finished j p hp not_false).entered hpnil)
  refine ⟨place, vote, hplace, hvote, ?_⟩
  rw [hmask]
  exact (hg.roots_iff hnode).mpr ⟨j, p, hreach, hp, hpnil, hplace⟩

end Standing

lemma Cleared.backed (h : Cleared s env obj stage r) (hinj : Function.Injective sha256)
    (hviews : OnlyViews (moment sha256 history n) s) (hs : s.sha256 = sha256)
    (hr : Review sha256 history n r.ballot) : Backed sha256 history n env obj stage r.ballot := by
  obtain ⟨k, hd, env0, obj0, stage0, hk, hb⟩ := hr.begun
  have hdigest : sha256 stage.shadow.bytes = sha256 stage0.shadow.bytes := by
    rw [← hs, h.digest]
    exact hb.digest.trans (congrFun hs.symm _)
  obtain ⟨rank, hg0⟩ := hr.graph
  have hready := ready_of_assess ⟨hr.spec, hg0.few⟩ h.ready
  have hg : Graph r (fun _ => False) rank := hg0.congr rfl rfl
  have hall : ∀ i ∈ s.approvals env r, ∃ k root evidence,
      Standing sha256 history n r i k root evidence :=
    fun i => standing_of_approvals hg hviews hr
  have : Nonempty Uuid := ⟨.nil⟩
  choose! time root evidence hstands using hall
  refine ⟨⟨k, hd, env0, obj0, stage0, hk, hb, h.target.symm.trans hb.target,
    h.owner.symm.trans hb.owner,
    h.size.trans hb.size, hdigest, hinj hdigest⟩, hr.strangers, hr.distinct, time, evidence, ?_⟩
  rw [← hviews.approvals]
  refine ⟨filter_subset _ _, hready.enough, ?_, ?_⟩
  · intro i hi
    have hcount : i < r.spec.count := mem_range.mp (mem_filter.mp hi).1
    have hst := hstands i hi
    refine ⟨hst.before, hst.voted, fun k' hk' evidence' approve' hv' => ?_, fun oid hanc => ?_⟩
    · exact hr.single i hcount (time i) hst.before k' hk' _ _ _ _ hst.voted hv'
    · exact hst.unchanged hg hinj hanc
  · intro F hF
    -- In the record, `F` is a set of root indices that is no larger.
    have hcut := hready.uncut (r.rootsIn F) (filter_subset _ _)
      (Nat.lt_of_le_of_lt (rootsIn_card hg.single F) hF)
    refine Nat.lt_of_le_of_lt ?_ hcut
    rw [← Set.ncard_coe_finset]
    refine Set.ncard_le_ncard ?_ (finite_toSet _)
    rintro i ⟨hi, oid, hoid, hroot⟩
    obtain ⟨place, vote, hplace, hvote, hmem⟩ := (hstands i hi).root hg hroot
    refine mem_coe.mpr (mem_filter.mpr ⟨hi, place, ?_, vote, hvote, hmem⟩)
    refine mem_filter.mpr ⟨mem_range.mpr (List.getElem?_eq_some_iff.mp hplace).1, ?_⟩
    rw [getD_roots hplace]
    exact hoid

lemma Backed.of_ballot {r1 : EpistemicRecord} (h : Backed sha256 history n env obj stage r1.ballot)
    (hb : r.ballot = r1.ballot) : Backed sha256 history n env obj stage r := by
  rw [← hb] at h
  obtain ⟨k, hd, env0, obj0, stage0, hk, hbegun, hrest⟩ := h.proposal
  refine ⟨⟨k, hd, env0, obj0, stage0, hk, ?_, hrest⟩, h.strangers, h.distinct, h.approvals⟩
  exact ⟨hbegun.event, hbegun.ok, hbegun.held, hbegun.staged, hbegun.id, hbegun.target,
    hbegun.owner, hbegun.size, hbegun.digest⟩

/-- Nothing is committed past the review gate without the approvals that back it. -/
theorem review_gate_sound (sha256 : List UInt8 → Digest) (hinj : Function.Injective sha256)
    (history : List Event) : GateSound sha256 history where
  commits n c env handles h addr obj stage _ hc hs hh hheld hstage hid := by
    have hsound := sound_moment sha256 history n
    obtain ⟨s₁, r₁, hviews, hclear⟩ := commit_cleared hc hs hh hheld hstage hid
    have hballot := hviews.ballots stage.epistemicId
    rw [hclear.found] at hballot
    obtain ⟨r, hr, hb⟩ := Option.map_eq_some_iff.mp hballot.symm
    have hreview := hsound.reviews stage.epistemicId r₁.ballot hballot.symm
    have hbacked := hclear.backed hinj hviews (hviews.sha256.trans hsound.hash) hreview
    exact ⟨r, hr, hbacked.of_ballot hb⟩
  masks n id r i node hr hnode := by
    have hreview := (sound_moment sha256 history n).reviews id r.ballot (by rw [hr]; rfl)
    obtain ⟨rank, hg₀⟩ := hreview.graph
    have hg : Graph r (fun _ => False) rank := hg₀.congr rfl rfl
    exact ⟨fun k => hg.nodes_iff hnode, fun k => hg.roots_iff hnode⟩
  bounded n id r hr := by
    have hreview := (sound_moment sha256 history n).reviews id r.ballot (by rw [hr]; rfl)
    obtain ⟨rank, hg⟩ := hreview.graph
    exact ⟨hg.small, hg.few⟩
  rejects n id evidence approve env he hs := by
    rw [moment_succ he]
    exact vote_rejected hs

end Gate

/-! ## A reviewed commit -/

def Env.panel (current : Option Uuid) (freshOid : Uuid) : Env :=
  let owner := Cell.create ⟨2, 1⟩
  { Env.trusted id with
    current := current
    cells :=
      [{ owner with execution.allowSideEffects := true }, Cell.create ⟨2, 2⟩, Cell.create ⟨2, 3⟩]
    identity := fun cid => .ok cid
    scope := fun _ => .ok ()
    fence := fun _ => .ok ()
    branch := fun _ => .ok ()
    freshOid := freshOid }

/-- Two reviewers who are to rest on two roots vote on the first piece of evidence and on
`second`. -/
def reviewedCommit (second : Uuid) : List Event :=
  [.call (.create twoBytes) (.panel none ⟨1, 1⟩), .call (.create twoBytes) (.panel none ⟨1, 2⟩),
    .call (.create twoBytes) (.panel none ⟨1, 3⟩), .call (.sealObject ⟨1, 2⟩) (.panel none .nil),
    .call (.sealObject ⟨1, 3⟩) (.panel none .nil),
    .call (.openAs ⟨1, 1⟩ .readwrite 0) (.panel none .nil),
    .call (.stage 0 ⟨2, 1⟩) (.panel none .nil),
    .call (.reviewBegin 0 ⟨2, 2, 2, [⟨2, 2⟩, ⟨2, 3⟩]⟩) (.panel none .nil),
    .call (.reviewVote 1 ⟨1, 2⟩ true) (.panel (some ⟨2, 2⟩) .nil),
    .call (.reviewVote 1 second true) (.panel (some ⟨2, 3⟩) .nil),
    .call (.commit 0) (.panel none .nil)]

/-- Two approvals from one root do not pass, two from different roots do. -/
theorem review_gate_sound_commit : GateSound id (reviewedCommit ⟨1, 3⟩) ∧
      (moment id (reviewedCommit ⟨1, 3⟩) 10).succeeds (.commit 0, .panel none .nil) = true ∧
      (moment id (reviewedCommit ⟨1, 2⟩) 10).succeeds (.commit 0, .panel none .nil) = false :=
  ⟨review_gate_sound id Function.injective_id _, by decide +kernel, by decide +kernel⟩

end Anunix.Object
