import Anunix.Object.Assess
import Anunix.Object.Isolation

/-!
# Reviews along a run

Where the contents of a review record come from. A history is any sequence of calls with arbitrary
changes of the objects in between. `Review` says of a record at a moment of a history which call
opened it, which calls cast its votes, and that the captured evidence is a finished graph;
`RecordStep` lists what a call can do to the records, and `sound_succ` carries the invariant from
one moment to the next.
-/

namespace Anunix.Object
open Fallible List Keyed

/-! ## Records in one step -/

inductive RecordStep (s : Store) (c : Call × Env) (s' : Store) : Prop where
  | same (quiet : ∀ id evidence approve, c.1 = .reviewVote id evidence approve →
      s.succeeds c = false)
    (still : Still s s')
  | begins {h : Nat} {spec : EpistemicSpec} {addr : Nat} {obj : StateObject}
      {stage : StagedMutation}
    {ownerIdentity : Uuid} {identities : List Uuid} (call : c.1 = .reviewBegin h spec)
    (ok : s.succeeds c = true) (held : s.held h = some (addr, obj))
      (staged : obj.staged = some stage)
    (wellFormed : spec.wellFormed = true)
    (listed : (range epistemicReviewers).mapM (spec.enlist c.2 stage.stagingCell) = .ok identities)
    (room : s.sequence ≠ uint64Max)
    (next : s' = s.reviewed addr obj stage (s.newRecord spec obj stage ownerIdentity identities))
  | votes {id : UInt64} {evidence caller : Uuid} {approve : Bool} {r r' : EpistemicRecord}
    {voter root : Nat} (call : c.1 = .reviewVote id evidence approve) (ok : s.succeeds c = true)
    (voted : Voted s c.2 id evidence caller r voter root r')
    (next : s' = s.setRecord (s.assess c.2 (r'.castVote voter approve root)))
  | destroys {id : UInt64} (call : c.1 = .reviewDestroy id)
    (next : s' = { s with records := erase (fun r => r.view.id) s.records id })

section Step

variable {s s' : Store} {c : Call × Env} {env : Env} {h : Nat}

lemma vote_rejected {id : UInt64} {evidence : Uuid} {approve : Bool}
    (hs : s.succeeds (.reviewVote id evidence approve, env) = false) :
    s.step (.reviewVote id evidence approve, env) = s := by
  have hf := (Ends.discard epistemicVote_ends).of_fails hs
  rcases hf with hf | ⟨r, voter, e, r', hr, hg, hf⟩
  · exact hf
  · have hext : Extended r r' := by
      refine Ends.of_error (E := fun _ => Extended r) (Q := fun _ => Extended r) ?_ hg
      refine .next (Ends.of_final (capture_extended _ _ _ r)) ?_
      intro root r1 h1
      exact .get_bind (.failIf_bind (fun _ => h1) fun _ => h1)
    refine hf.trans ?_
    rw [hext.rollback]
    have hself : s.find r.view.id = some r := by rw [find_id hr, hr]
    have hrec : update (fun r => r.view.id) s.records r = s.records := update_eq_self hself
    rw [Store.setRecord, hrec]

lemma step_records (s : Store) (c : Call × Env) : RecordStep s c (s.step c) := by
  obtain ⟨x, env⟩ := c
  have failed {s' : Store} (h : s' = s) : Still s s' := by
    rw [h]
    exact still_of_records rfl rfl rfl
  cases x with
  | openAs oid mode h =>
    refine .same nofun (Ends.final (.mono soOpen_ends ?_ ?_))
    · rintro _ _ ⟨_, _, -, -, -, rfl⟩
      exact still_of_records rfl rfl rfl
    · rintro _ _ rfl
      exact still_of_records rfl rfl rfl
  | close h => exact .same nofun (still_of_records rfl rfl rfl)
  | reviewBegin h spec =>
    cases hs : s.succeeds (.reviewBegin h spec, env) with
    | true =>
      obtain ⟨addr, obj, stage, own, ids, hheld, hstage, -, hspec, hlist, hroom, hnext⟩ :=
        (Ends.discard epistemicBegin_ends).of_succeeds hs
      exact .begins rfl hs hheld hstage hspec hlist hroom hnext
    | false => exact .same nofun (failed ((Ends.discard epistemicBegin_ends).of_fails hs))
  | reviewVote id evidence approve =>
    cases hs : s.succeeds (.reviewVote id evidence approve, env) with
    | true =>
      obtain ⟨caller, r, voter, root, r', hvoted, hnext⟩ :=
        (Ends.discard epistemicVote_ends).of_succeeds hs
      exact .votes rfl hs hvoted hnext
    | false => exact .same (fun _ _ _ _ => hs) (failed (vote_rejected hs))
  | reviewDestroy id =>
    cases hs : s.succeeds (.reviewDestroy id, env) with
    | true => exact .destroys rfl (epistemicDestroy_ends.of_succeeds hs)
    | false => exact .same nofun (failed (epistemicDestroy_ends.of_fails hs))
  | _ => exact .same nofun (step_rest rfl).toStill

end Step

/-! ## Histories -/

/-- Something that happens to the store: a call, or code outside of it that changes objects in any
    way. -/
inductive Event where
  | call (c : Call) (env : Env)
  | outside (change : List StateObject → List StateObject)

def Store.happen (s : Store) : Event → Store
  | .call c env => s.step (c, env)
  | .outside change => { s with objects := change s.objects }

def moment (sha256 : List UInt8 → Digest) (history : List Event) (n : Nat) : Store :=
  Run.after Store.happen (Store.boot sha256) history n

def VotedAt (sha256 : List UInt8 → Digest) (history : List Event) (k : Nat) (id : UInt64)
    (evidence caller : Uuid) (approve : Bool) : Prop :=
  ∃ env, history[k]? = some (.call (.reviewVote id evidence approve) env) ∧ env.current =
    some caller ∧ (moment sha256 history k).succeeds (.reviewVote id evidence approve, env) = true

structure BegunAt (sha256 : List UInt8 → Digest) (history : List Event) (k h : Nat) (env : Env)
    (obj : StateObject) (stage : StagedMutation) (r : EpistemicRecord) : Prop where
  event : history[k]? = some (.call (.reviewBegin h r.spec) env)
  ok : (moment sha256 history k).succeeds (.reviewBegin h r.spec, env) = true
  held : ∃ addr, (moment sha256 history k).held h = some (addr, obj)
  staged : obj.staged = some stage
  id : r.view.id = (moment sha256 history k).sequence + 1
  target : r.view.target = obj.oid
  owner : r.view.owner = stage.stagingCell
  size : r.proposalSize = stage.shadow.size
  digest : r.view.proposalDigest = sha256 stage.shadow.bytes

/-- A vote in a record was cast by the `k`-th event from the captured node `root`, when everything
    behind that node was in the store as captured. -/
structure Cast (sha256 : List UInt8 → Digest) (history : List Event) (r : EpistemicRecord) (i : Nat)
    (vote : EvidenceVote) (k root : Nat) (node : EvidenceNode) : Prop where
  evidence : r.nodes[root]? = some node
  nodes : vote.nodes = node.nodes
  roots : vote.roots = node.roots
  voted : VotedAt sha256 history k r.view.id node.oid (r.spec.reviewer i) vote.approve
  held : ∀ (j : Nat) (p : EvidenceNode), j ∈ Mask.members vote.nodes → r.nodes[j]? = some p →
    (moment sha256 history k).Matches p

structure Review (sha256 : List UInt8 → Digest) (history : List Event) (n : Nat)
    (r : EpistemicRecord) : Prop where
  graph : ∃ rank, Graph r (fun _ => False) rank
  spec : r.spec.wellFormed = true
  strangers : ∀ i < r.spec.count, r.spec.reviewer i ≠ r.view.owner
  distinct : ∀ i < r.spec.count, ∀ j < r.spec.count, r.spec.reviewer i = r.spec.reviewer j → i = j
  slots : r.votes.length = epistemicReviewers
  begun : ∃ k h env obj stage, k < n ∧ BegunAt sha256 history k h env obj stage r
  cast : ∀ i vote, r.vote i = some vote → ∃ k root node,
    k < n ∧ Cast sha256 history r i vote k root node
  uncast : ∀ i < r.spec.count, r.vote i = none → ∀ k < n, ∀ evidence approve,
    ¬ VotedAt sha256 history k r.view.id evidence (r.spec.reviewer i) approve
  single : ∀ i < r.spec.count, ∀ k < n, ∀ k' < n, ∀ evidence evidence' approve approve',
    VotedAt sha256 history k r.view.id evidence (r.spec.reviewer i) approve →
    VotedAt sha256 history k' r.view.id evidence' (r.spec.reviewer i) approve' → k' = k

/-- The invariant of histories. Records are taken without the computed part of their view. -/
structure Sound (sha256 : List UInt8 → Digest) (history : List Event) (n : Nat) : Prop where
  hash : (moment sha256 history n).sha256 = sha256
  ids : ((moment sha256 history n).records.map fun r => r.view.id).Nodup
  drawn : ∀ id ∈ (moment sha256 history n).records.map fun r => r.view.id,
    id.toNat ≤ (moment sha256 history n).sequence.toNat
  past : ∀ k < n, ∀ id evidence caller approve,
    VotedAt sha256 history k id evidence caller approve →
    id.toNat ≤ (moment sha256 history n).sequence.toNat
  reviews : ∀ id b, ((moment sha256 history n).find id).map EpistemicRecord.ballot = some b →
    Review sha256 history n b

section History

variable {sha256 : List UInt8 → Digest} {history : List Event} {n k i addr root : Nat}
  {r r' : EpistemicRecord} {env : Env} {s s' : Store} {rank : Nat → Nat} {spec : EpistemicSpec}
  {obj : StateObject} {stage : StagedMutation} {caller evidence owner own : Uuid} {voter : Nat}
  {node : EvidenceNode} {approve : Bool} {id : UInt64} {ids : List Uuid}

lemma moment_succ {e : Event} (h : history[n]? = some e) :
    moment sha256 history (n + 1) = (moment sha256 history n).happen e :=
  Run.after_succ Store.happen h

lemma Graph.congr {P : Nat → Prop} (h : Graph r P rank) (hn : r'.nodes = r.nodes)
    (hr : r'.roots = r.roots) : Graph r' P rank := by
  refine h.transfer (hn ▸ h.nodup) (hn ▸ h.small) (hr ▸ h.few) (hr ▸ h.single) ?_ ?_ ?_ ?_
  · rw [hn, hr]
    exact h.rooted
  · exact fun hj hP => ⟨hn ▸ hj, hP⟩
  · exact fun hj hP => ⟨hn ▸ hj, hP⟩
  · exact fun hk => hr ▸ hk

lemma Review.later (h : Review sha256 history n r) (hq : ∀ i < r.spec.count, ∀ evidence approve,
      ¬ VotedAt sha256 history n r.view.id evidence (r.spec.reviewer i) approve) :
    Review sha256 history (n + 1) r where
  graph := h.graph
  spec := h.spec
  strangers := h.strangers
  distinct := h.distinct
  slots := h.slots
  begun := by
    obtain ⟨k, hd, env, obj, stage, hk, hb⟩ := h.begun
    exact ⟨k, hd, env, obj, stage, Nat.lt_succ_of_lt hk, hb⟩
  cast i vote hv := by
    obtain ⟨k, root, node, hk, hc⟩ := h.cast i vote hv
    exact ⟨k, root, node, Nat.lt_succ_of_lt hk, hc⟩
  uncast i hi hv k hk evidence approve hvoted := by
    rcases Nat.lt_succ_iff_lt_or_eq.mp hk with hk | rfl
    · exact h.uncast i hi hv k hk evidence approve hvoted
    · exact hq i hi evidence approve hvoted
  single i hi k hk k' hk' evidence evidence' approve approve' hv hv' := by
    rcases Nat.lt_succ_iff_lt_or_eq.mp hk with hk | rfl
    · rcases Nat.lt_succ_iff_lt_or_eq.mp hk' with hk' | rfl
      · exact h.single i hi k hk k' hk' evidence evidence' approve approve' hv hv'
      · exact absurd hv' (hq i hi evidence' approve')
    · exact absurd hv (hq i hi evidence approve)

/-! ### Opening a review -/

lemma enlisted {identities : List Uuid} (hw : spec.wellFormed = true)
    (h : (range epistemicReviewers).mapM (spec.enlist env owner) = .ok identities) :
    (∀ i < spec.count, spec.reviewer i ≠ owner) ∧
      ∀ i < spec.count, ∀ j < spec.count, spec.reviewer i = spec.reviewer j → i = j := by
  simp only [EpistemicSpec.wellFormed, Bool.and_eq_true, decide_eq_true_eq] at hw
  have hcount : spec.count ≤ epistemicReviewers := hw.1.1.1.1.2
  have hall : ∀ i < spec.count, spec.reviewer i ≠ owner ∧ ∀ j < i,
      spec.reviewer i ≠ spec.reviewer j := by
    intro i hi
    obtain ⟨identity, he⟩ := exists_ok_of_mapM h i (mem_range.mpr (Nat.lt_of_lt_of_le hi hcount))
    unfold EpistemicSpec.enlist at he
    rw [if_neg (by omega)] at he
    obtain ⟨_, hself, he⟩ := bind_eq_ok.mp he
    obtain ⟨_, hdup, -⟩ := bind_eq_ok.mp he
    have hself' := failIf_eq_ok.mp hself
    simp only [Bool.or_eq_false_iff, decide_eq_false_iff_not] at hself'
    refine ⟨hself'.2, fun j hj => ?_⟩
    have hno := any_eq_false.mp (failIf_eq_ok.mp hdup) j (mem_range.mpr hj)
    simpa using hno
  refine ⟨fun i hi => (hall i hi).1, fun i hi j hj e => ?_⟩
  rcases Nat.lt_trichotomy i j with hlt | rfl | hlt
  · exact absurd e.symm ((hall j hj).2 i hlt)
  · rfl
  · exact absurd e ((hall i hi).2 j hlt)

lemma review_new {h : Nat} (hs : Sound sha256 history n)
    (he : history[n]? = some (.call (.reviewBegin h spec) env))
    (hok : (moment sha256 history n).succeeds (.reviewBegin h spec, env) = true)
    (hheld : (moment sha256 history n).held h = some (addr, obj)) (hstage : obj.staged = some stage)
    (hw : spec.wellFormed = true)
    (hl : (range epistemicReviewers).mapM (spec.enlist env stage.stagingCell) = .ok ids)
    (hroom : (moment sha256 history n).sequence ≠ uint64Max) :
    Review sha256 history (n + 1)
    ((moment sha256 history n).newRecord spec obj stage own ids).ballot := by
  obtain ⟨hstrangers, hdistinct⟩ := enlisted hw hl
  have hfresh : ∀ k < n + 1, ∀ evidence caller approve,
      ¬ VotedAt sha256 history k
      ((moment sha256 history n).sequence + 1) evidence caller approve := by
    intro k hk evidence caller approve hv
    rcases Nat.lt_succ_iff_lt_or_eq.mp hk with hk | rfl
    · have hle := hs.past k hk _ evidence caller approve hv
      rw [toNat_succ_of_ne hroom] at hle
      exact Nat.not_succ_le_self _ hle
    · obtain ⟨env', hv, -⟩ := hv
      cases he.symm.trans hv
  have hnone :
      ∀ i, (replicate epistemicReviewers (none : Option EvidenceVote)).getD i none = none := by
    intro i
    rcases Nat.lt_or_ge i epistemicReviewers with hi | hi <;> simp
  refine ⟨⟨fun _ => 0, ?_⟩, hw, hstrangers, hdistinct, rfl, ?_, ?_, ?_, ?_⟩
  · refine ⟨nodup_nil, Nat.zero_le _, Nat.zero_le _, nodup_nil, ?_, ?_⟩
    · intro oid ho
      cases ho
    · intro i node hi
      cases hi
  · refine ⟨n, h, env, obj, stage, Nat.lt_succ_self n, he, hok, ⟨addr, hheld⟩, hstage, rfl, rfl,
      rfl, rfl, ?_⟩
    exact congrFun hs.hash _
  · intro i vote hv
    exact absurd ((hnone i).symm.trans hv) nofun
  · exact fun i _ _ k hk evidence => hfresh k hk evidence _
  · exact fun i _ k hk _ _ evidence _ approve _ hv _ => absurd hv (hfresh k hk evidence _ approve)

/-! ### Voting -/

lemma voterOf_eq_some (h : r.voterOf caller = some voter) :
    voter < r.spec.count ∧ r.spec.reviewer voter = caller := by
  have hmem := mem_of_find?_eq_some h
  have heq := find?_some h
  exact ⟨mem_range.mp hmem, by simpa using heq⟩

lemma gather_ends (hg : Graph r (fun _ => False) rank) : Ends (s.gather env voter evidence) r
      (fun root r' => Extended r r' ∧ (∃ rank', Graph r' (fun _ => False) rank') ∧
        ∃ node, r'.nodes[root]? = some node ∧ node.oid = evidence ∧
          ∀ (j : Nat) (p : EvidenceNode), j ∈ Mask.members node.nodes → r'.nodes[j]? = some p →
          s.Matches p)
      fun _ _ => True := by
  have hnone : onTheWay 0 = fun _ => False := by
    funext j
    simp [onTheWay]
  have hcapture := capture_sound s env voter epistemicRoots 0 evidence r rank (hnone ▸ hg)
    (fun j hj => (by rw [hnone] at hj; exact hj.elim))
  refine .next hcapture ?_
  rintro root r1 ⟨hext, hgraph, node, hnode, hoid, -⟩
  refine .get_bind (.guard fun hcurrent => ?_)
  rw [hnode, Bool.not_eq_false'] at hcurrent
  rw [hnone] at hgraph
  exact ⟨hext, hgraph, node, hnode, hoid, fun j p => nodesCurrent_matches hcurrent⟩

lemma Cast.extend {vote : EvidenceVote} (h : Cast sha256 history r i vote k root node)
    (hg : Graph r (fun _ => False) rank) (hid : r'.view.id = r.view.id) (hspec : r'.spec = r.spec)
    (hnodes : ∀ {j : Nat} {p}, r.nodes[j]? = some p → r'.nodes[j]? = some p) :
    Cast sha256 history r' i vote k root node := by
  refine ⟨hnodes h.evidence, h.nodes, h.roots, ?_, fun j p hj hp => ?_⟩
  · rw [hid, hspec]
    exact h.voted
  · -- What is behind the old node was captured with it.
    have hreach : r.Reaches root j := (hg.nodes_iff h.evidence).mp (h.nodes ▸ hj)
    have hold : ∃ q, r.nodes[j]? = some q := by
      rcases Relation.ReflTransGen.cases_tail hreach with rfl | ⟨_, -, _, q, -, hq, -⟩
      · exact ⟨node, h.evidence⟩
      · exact ⟨q, hq⟩
    obtain ⟨q, hq⟩ := hold
    obtain rfl := Option.some.inj ((hnodes hq).symm.trans hp)
    exact h.held j q hj hq

def EpistemicRecord.entered (r : EpistemicRecord) (nodes : List EvidenceNode) (roots : List Uuid)
    (voter : Nat) (vote : EvidenceVote) : EpistemicRecord :=
  { r.ballot with
    nodes := nodes
    roots := roots
    votes := r.votes.set voter (some vote)
    view := { r.ballot.view with votes := r.view.votes + 1 } }

lemma ballot_castVote (hext : Extended r r') (h : r'.nodes[root]? = some node) :
    (r'.castVote voter approve root).ballot =
      r.entered r'.nodes r'.roots voter ⟨approve, node.nodes, node.roots⟩ := by
  simp only [EpistemicRecord.castVote, h]
  rw [hext.rest]
  rfl

lemma vote_entered {nodes : List EvidenceNode} {roots : List Uuid} {vote : EvidenceVote}
    (h : voter < r.votes.length) (i : Nat) :
    (r.entered nodes roots voter vote).vote i = if i = voter then some vote else r.vote i := by
  simp only [EpistemicRecord.entered, EpistemicRecord.vote]
  by_cases hi : i = voter
  · subst hi
    simp [h]
  · have hi' : voter ≠ i := fun e => hi e.symm
    simp [hi, hi']

/-! ### The invariant -/

lemma ballot_id {b : EpistemicRecord} (h : (s.find id).map EpistemicRecord.ballot = some b) :
    b.view.id = id := by
  obtain ⟨r, hr, rfl⟩ := Option.map_eq_some_iff.mp h
  exact (find_id hr : r.view.id = id)

section

variable (he : history[n]? = some (.call (.reviewVote id evidence approve) env))
  (hok : (moment sha256 history n).succeeds (.reviewVote id evidence approve, env) = true)
  (hv : Voted (moment sha256 history n) env id evidence caller r voter root r')
include he hok hv

lemma Review.vote (h : Review sha256 history n r.ballot) :
    Review sha256 history (n + 1) (r'.castVote voter approve root).ballot := by
  obtain ⟨rank, hg⟩ := h.graph
  have hgraph : Graph r (fun _ => False) rank := hg.congr rfl rfl
  obtain ⟨hext, ⟨rank', hg'⟩, node, hnode, hoid, hheld⟩ := (gather_ends hgraph).of_ok hv.gathered
  obtain ⟨hvoter, hcaller⟩ := voterOf_eq_some hv.listed
  have hid : r.view.id = id := find_id hv.found
  have hlen : voter < r.votes.length := by
    have hslots : r.votes.length = epistemicReviewers := h.slots
    have hw : r.spec.wellFormed = true := h.spec
    simp only [EpistemicSpec.wellFormed, Bool.and_eq_true, decide_eq_true_eq] at hw
    omega
  -- This event is the vote of `voter`, and there was none before.
  have hnow : ∀ i < r.spec.count, ∀ evidence approve,
      VotedAt sha256 history n r.view.id evidence (r.spec.reviewer i) approve → i = voter := by
    rintro i hi ev ap ⟨env', hev, hcur, -⟩
    cases he.symm.trans hev
    have hreviewer : r.spec.reviewer i = r.spec.reviewer voter := by
      rw [hcaller]
      exact Option.some.inj (hcur.symm.trans hv.running)
    exact h.distinct i hi voter hvoter hreviewer
  have hbefore : ∀ k < n, ∀ evidence approve,
      ¬ VotedAt sha256 history k r.view.id evidence (r.spec.reviewer voter) approve :=
    h.uncast voter hvoter hv.fresh
  rw [ballot_castVote hext hnode]
  refine ⟨⟨rank', hg'.congr rfl rfl⟩, h.spec, h.strangers, h.distinct, ?_, ?_, ?_, ?_, ?_⟩
  · exact (length_set ..).trans h.slots
  · obtain ⟨k, hd, env0, obj, stage, hk, hb⟩ := h.begun
    exact ⟨k, hd, env0, obj, stage, Nat.lt_succ_of_lt hk, hb.event, hb.ok, hb.held, hb.staged,
      hb.id, hb.target, hb.owner, hb.size, hb.digest⟩
  · intro i vote hvote
    rw [vote_entered hlen] at hvote
    split at hvote
    · rename_i hi
      subst hi
      cases hvote
      refine ⟨n, root, node, Nat.lt_succ_self n, hnode, rfl, rfl, ?_, hheld⟩
      show VotedAt sha256 history n r.view.id node.oid (r.spec.reviewer i) approve
      rw [hid, hoid, hcaller]
      exact ⟨env, he, hv.running, hok⟩
    · obtain ⟨k, root0, node0, hk, hc⟩ := h.cast i vote hvote
      exact ⟨k, root0, node0, Nat.lt_succ_of_lt hk, hc.extend hg rfl rfl hext.nodes⟩
  · intro i hi hnone k hk evidence approve hvoted
    rw [vote_entered hlen] at hnone
    split at hnone
    · cases hnone
    · rename_i hne
      rcases Nat.lt_succ_iff_lt_or_eq.mp hk with hk | rfl
      · exact h.uncast i hi hnone k hk evidence approve hvoted
      · exact hne (hnow i hi evidence approve hvoted)
  · intro i hi k hk k' hk' evidence evidence' approve approve' hv1 hv2
    rcases Nat.lt_succ_iff_lt_or_eq.mp hk with hlt | rfl
    · rcases Nat.lt_succ_iff_lt_or_eq.mp hk' with hlt' | rfl
      · exact h.single i hi k hlt k' hlt' evidence evidence' approve approve' hv1 hv2
      · obtain rfl := hnow i hi evidence' approve' hv2
        exact absurd hv1 (hbefore k hlt evidence approve)
    · rcases Nat.lt_succ_iff_lt_or_eq.mp hk' with hlt' | rfl
      · obtain rfl := hnow i hi evidence approve hv1
        exact absurd hv2 (hbefore k' hlt' evidence' approve')
      · rfl

lemma Sound.vote (hs : Sound sha256 history n) (hnext : moment sha256 history (n + 1) =
      (moment sha256 history n).setRecord
      ((moment sha256 history n).assess env (r'.castVote voter approve root))) :
    Sound sha256 history (n + 1) := by
  have hold : Review sha256 history n r.ballot := hs.reviews id r.ballot (by rw [hv.found]; rfl)
  have hreview := hold.vote he hok hv
  have hid : (r'.castVote voter approve root).ballot.view.id = id := by
    obtain ⟨rank, hg⟩ := hold.graph
    have hgraph : Graph r (fun _ => False) rank := hg.congr rfl rfl
    obtain ⟨hext, -, node, hnode, -⟩ := (gather_ends hgraph).of_ok hv.gathered
    rw [ballot_castVote hext hnode]
    exact (find_id hv.found : r.view.id = id)
  have hids : (moment sha256 history (n + 1)).records.map (fun r => r.view.id) =
      (moment sha256 history n).records.map fun r => r.view.id := by
    rw [hnext]
    exact map_update
  have hseq : (moment sha256 history (n + 1)).sequence = (moment sha256 history n).sequence := by
    rw [hnext]
    rfl
  have hmem : id ∈ (moment sha256 history n).records.map fun r => r.view.id :=
    mem_map.mpr ⟨r, lookup_mem hv.found, find_id hv.found⟩
  constructor
  · rw [hnext]
    exact hs.hash
  · rw [hids]
    exact hs.ids
  · rw [hids, hseq]
    exact hs.drawn
  · intro k hk id' evidence' caller' approve' hv'
    rw [hseq]
    rcases Nat.lt_succ_iff_lt_or_eq.mp hk with hk | rfl
    · exact hs.past k hk id' evidence' caller' approve' hv'
    · obtain ⟨env', hev, -⟩ := hv'
      cases he.symm.trans hev
      exact hs.drawn id hmem
  · intro id' b hb
    rw [hnext, find_setRecord] at hb
    split at hb
    · rename_i he'
      have he' : id = id' := hid.symm.trans he'
      subst he'
      rw [hv.found] at hb
      cases hb
      exact hreview
    · rename_i hne
      have hne' : id ≠ id' := fun e => hne (hid.trans e)
      refine (hs.reviews id' b hb).later fun i _ evidence' approve' hv' => ?_
      obtain ⟨env', hev, -⟩ := hv'
      rw [ballot_id hb] at hev
      cases he.symm.trans hev
      exact hne' rfl

end

section

variable (hs : Sound sha256 history n)
include hs

lemma Sound.still
    (hq : ∀ id evidence caller approve, ¬ VotedAt sha256 history n id evidence caller approve)
    (h : Still (moment sha256 history n) (moment sha256 history (n + 1))) :
    Sound sha256 history (n + 1) where
  hash := h.sha256.trans hs.hash
  ids := h.ids ▸ hs.ids
  drawn := by
    rw [h.ids, h.sequence]
    exact hs.drawn
  past k hk id evidence caller approve hv := by
    rw [h.sequence]
    rcases Nat.lt_succ_iff_lt_or_eq.mp hk with hk | rfl
    · exact hs.past k hk id evidence caller approve hv
    · exact absurd hv (hq id evidence caller approve)
  reviews id b hb := by
    rw [h.ballots] at hb
    exact (hs.reviews id b hb).later fun i _ evidence => hq _ evidence _

lemma Sound.begin {h : Nat} (he : history[n]? = some (.call (.reviewBegin h spec) env))
    (hnew : Review sha256 history (n + 1)
      ((moment sha256 history n).newRecord spec obj stage own ids).ballot)
    (hroom : (moment sha256 history n).sequence ≠ uint64Max)
    (hnext : moment sha256 history (n + 1) = (moment sha256 history n).reviewed addr obj stage
      ((moment sha256 history n).newRecord spec obj stage own ids)) :
    Sound sha256 history (n + 1) := by
  have hsucc := toNat_succ_of_ne hroom
  have hq :
      ∀ id evidence caller approve, ¬ VotedAt sha256 history n id evidence caller approve := by
    rintro id evidence caller approve ⟨env', hv, -⟩
    cases he.symm.trans hv
  have hids : (moment sha256 history (n + 1)).records.map (fun r => r.view.id) =
      (moment sha256 history n).records.map (fun r => r.view.id) ++
        [(moment sha256 history n).sequence + 1] := by
    rw [hnext]
    exact map_append
  have hseq :
      (moment sha256 history (n + 1)).sequence = (moment sha256 history n).sequence + 1 := by
    rw [hnext]
    rfl
  constructor
  · rw [hnext]
    exact hs.hash
  · rw [hids]
    refine nodup_append.mpr ⟨hs.ids, nodup_singleton _, ?_⟩
    intro a ha b hb e
    have hle := hs.drawn a ha
    rw [e, mem_singleton.mp hb, hsucc] at hle
    exact Nat.not_succ_le_self _ hle
  · rw [hids, hseq]
    refine forall_mem_append.mpr ⟨fun id hid => ?_, forall_mem_singleton.mpr (Nat.le_refl _)⟩
    rw [hsucc]
    exact Nat.le_succ_of_le (hs.drawn id hid)
  · intro k hk id evidence caller approve hv
    rw [hseq, hsucc]
    rcases Nat.lt_succ_iff_lt_or_eq.mp hk with hk | rfl
    · exact Nat.le_succ_of_le (hs.past k hk id evidence caller approve hv)
    · exact absurd hv (hq id evidence caller approve)
  · intro id b hb
    have hfind : (moment sha256 history (n + 1)).find id =
        ((moment sha256 history n).find id).or
          (if (moment sha256 history n).sequence + 1 = id then
            some ((moment sha256 history n).newRecord spec obj stage own ids) else none) := by
      rw [hnext]
      exact lookup_concat
    rw [hfind] at hb
    cases hold : (moment sha256 history n).find id with
    | some r =>
      rw [hold] at hb
      have hb' : ((moment sha256 history n).find id).map EpistemicRecord.ballot = some b := by
        rw [hold]
        exact hb
      exact (hs.reviews id b hb').later fun i _ evidence => hq _ evidence _
    | none =>
      rw [hold] at hb
      split at hb
      · cases hb
        exact hnew
      · cases hb

lemma Sound.destroy (he : history[n]? = some (.call (.reviewDestroy id) env))
    (hnext : moment sha256 history (n + 1) =
      { moment sha256 history n with
        records := erase (fun r => r.view.id) (moment sha256 history n).records id }) :
    Sound sha256 history (n + 1) := by
  have hq :
      ∀ id evidence caller approve, ¬ VotedAt sha256 history n id evidence caller approve := by
    rintro id evidence caller approve ⟨env', hv, -⟩
    cases he.symm.trans hv
  constructor
  · rw [hnext]
    exact hs.hash
  · rw [hnext]
    exact nodup_erase hs.ids
  · intro id' hid'
    rw [hnext] at hid' ⊢
    obtain ⟨r, hr, rfl⟩ := mem_map.mp hid'
    exact hs.drawn _ (mem_map_of_mem (mem_of_mem_erase hr))
  · intro k hk id' evidence caller approve hv
    rw [hnext]
    rcases Nat.lt_succ_iff_lt_or_eq.mp hk with hk | rfl
    · exact hs.past k hk id' evidence caller approve hv
    · exact absurd hv (hq id' evidence caller approve)
  · intro id' b hb
    have hb' : ((moment sha256 history n).find id').map EpistemicRecord.ballot = some b := by
      rw [hnext] at hb
      by_cases hid : id = id'
      · subst hid
        have hnone : lookup (fun r : EpistemicRecord => r.view.id)
            (erase (fun r => r.view.id) (moment sha256 history n).records id) id = none :=
          lookup_erase_self hs.ids
        rw [Store.find, hnone] at hb
        cases hb
      · have hsame : lookup (fun r : EpistemicRecord => r.view.id)
            (erase (fun r => r.view.id) (moment sha256 history n).records id) id' =
            (moment sha256 history n).find id' := lookup_erase_of_ne hid
        rw [Store.find, hsame] at hb
        exact hb
    exact (hs.reviews id' b hb').later fun i _ evidence => hq _ evidence _

lemma sound_succ : Sound sha256 history (n + 1) := by
  cases he : history[n]? with
  | none =>
    have hsame : moment sha256 history (n + 1) = moment sha256 history n :=
      Run.after_succ_none Store.happen he
    refine hs.still ?_ (hsame ▸ still_of_records rfl rfl rfl)
    rintro id evidence caller approve ⟨env, hv, -⟩
    cases he.symm.trans hv
  | some e =>
    have hnext : moment sha256 history (n + 1) = (moment sha256 history n).happen e :=
      moment_succ he
    cases e with
    | outside change =>
      refine hs.still ?_ (hnext ▸ still_of_records rfl rfl rfl)
      rintro id evidence caller approve ⟨env, hv, -⟩
      cases he.symm.trans hv
    | call c env =>
      have hnext' : moment sha256 history (n + 1) = (moment sha256 history n).step (c, env) := hnext
      cases step_records (moment sha256 history n) (c, env) with
      | same quiet still =>
        refine hs.still ?_ (hnext' ▸ still)
        rintro id evidence caller approve ⟨env', hv, -, hok⟩
        cases he.symm.trans hv
        exact absurd hok (by rw [quiet id evidence approve rfl]; nofun)
      | begins call ok held staged wellFormed listed room next =>
        obtain rfl := call
        exact hs.begin he (review_new hs he ok held staged wellFormed listed room) room
          (hnext'.trans next)
      | votes call ok voted next =>
        obtain rfl := call
        exact hs.vote he ok voted (hnext'.trans next)
      | destroys call next =>
        obtain rfl := call
        exact hs.destroy he (hnext'.trans next)

end

lemma sound_moment (sha256 : List UInt8 → Digest) (history : List Event) (n : Nat) :
    Sound sha256 history n := by
  induction n with
  | zero =>
    refine ⟨rfl, nodup_nil, ?_, ?_, ?_⟩
    · intro id hid
      cases hid
    · intro k hk
      exact absurd hk (Nat.not_lt_zero k)
    · intro id b hb
      cases hb
  | succ n ih => exact sound_succ ih

end History

end Anunix.Object
