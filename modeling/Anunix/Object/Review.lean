import Anunix.Lib.Mask
import Anunix.Object.Store

/-!
# Epistemic review

Model of `kernel/core/state/epistemic.c`: a controller opens a review of a staged mutation, the
listed reviewers vote from sealed evidence objects, and the commit of the stage asks the review.

A vote names one evidence object. `capture` walks its parents and copies every object it meets into
the record, once each, with the set of captured objects behind it (`EvidenceNode.nodes`) and the set
of parentless ones among them (`EvidenceNode.roots`). `assess` takes the approvals whose evidence is
still as captured and looks for the smallest set of roots behind `threshold` of them.

Reviewer and owner cells, which the record keeps pointers to, are named by their CIDs. `capture`
works on the record in place and leaves it half extended when it fails; `epistemicVote` undoes that.
-/

namespace Anunix.Object
open Fallible

/-- C `ANX_EPISTEMIC_MAX`. -/
def epistemicMax : Nat := 16

/-- C `ANX_EPISTEMIC_REVIEWERS`. -/
def epistemicReviewers : Nat := 8

/-- C `ANX_EPISTEMIC_NODES`. -/
def epistemicNodes : Nat := 32

/-- C `ANX_EPISTEMIC_ROOTS`. -/
def epistemicRoots : Nat := 8

def epistemicBytes : UInt64 := 4096

/-! ## Records -/

def EpistemicSpec.reviewer (spec : EpistemicSpec) (i : Nat) : Uuid :=
  spec.reviewers.getD i .nil

def EpistemicRecord.identityOf (r : EpistemicRecord) (i : Nat) : Uuid :=
  r.reviewerIdentity.getD i .nil

def EpistemicRecord.vote (r : EpistemicRecord) (i : Nat) : Option EvidenceVote :=
  r.votes.getD i none

/-- C `find`. -/
def Store.find (s : Store) (id : UInt64) : Option EpistemicRecord :=
  Keyed.lookup (fun r => r.view.id) s.records id

def Store.setRecord (s : Store) (r : EpistemicRecord) : Store :=
  { s with records := Keyed.update (fun r => r.view.id) s.records r }

/-- A cell may look at its own reviews only (C `access`). -/
def EpistemicRecord.access (r : EpistemicRecord) (env : Env) : Except Err Unit :=
  match env.current with
  | some caller => failIf (caller ≠ r.view.owner) Err.eperm
  | none => pure ()

/-! ## Evidence -/

/-- What an object must be to serve as evidence under a record's label. -/
def StateObject.isEvidence (obj : StateObject) (ceiling : Sensitivity) : Bool :=
  obj.state = .sealed && obj.version ≠ 0 && obj.payload.present &&
    obj.payload.size ≤ epistemicBytes && obj.parentOids.length ≤ epistemicRoots &&
    obj.accessPolicy.ruleCount.toNat ≤ maxAccessRules && obj.sensitivity ≤ ceiling &&
    (obj.objectType = .byteData || obj.objectType = .structuredData)

def Store.evidenceOf (s : Store) (oid : Uuid) (obj : StateObject) : EvidenceNode where
  oid := oid
  parents := obj.parentOids
  version := obj.version
  size := obj.payload.size
  sensitivity := obj.sensitivity
  digest := s.sha256 obj.payload.bytes
  nodes := 0
  roots := 0

/-- Read an evidence object for a reviewer (C `snapshot`). -/
def Store.snapshot (s : Store) (env : Env) (r : EpistemicRecord) (oid : Uuid) (voter : Nat) :
    Except Err EvidenceNode := do
  failIf (oid = r.view.target) Err.einval
  let (_, obj) ← orThrow (s.lookup oid) Err.enoent
  failIf (!obj.isEvidence r.sensitivity) Err.einval
  obj.accessPolicy.evaluate (some (r.spec.reviewer voter)) .readPayload
  if env.current = some (r.spec.reviewer voter) then env.observe oid obj.sensitivity
  pure (s.evidenceOf oid obj)

/-- The comparison of `node_current`: everything but the masks. -/
def EvidenceNode.same (old now : EvidenceNode) : Bool :=
  now.version = old.version && now.size = old.size && now.sensitivity = old.sensitivity &&
    now.parents = old.parents && now.digest = old.digest

/-- A captured object is still as it was captured (C `node_current`). -/
def Store.nodeCurrent (s : Store) (env : Env) (r : EpistemicRecord) (node voter : Nat) :
    Except Err Unit := do
  let old ← orThrow r.nodes[node]? Err.einval
  let now ← s.snapshot env r old.oid voter
  failIf (!old.same now) Err.ebusy

/-- Add a captured object; one without parents is a root of its own. -/
def EpistemicRecord.push (r : EpistemicRecord) (value : EvidenceNode) : EpistemicRecord :=
  { r with nodes := r.nodes ++ [{ value with nodes := Mask.single r.nodes.length }] }

def EpistemicRecord.pushRoot (r : EpistemicRecord) (i : Nat) (oid : Uuid) : EpistemicRecord :=
  { r with
    roots := r.roots ++ [oid]
    nodes := r.nodes.modify i fun node => { node with roots := Mask.single r.roots.length } }

def EpistemicRecord.merge (r : EpistemicRecord) (i parent : Nat) : EpistemicRecord :=
  match r.nodes[parent]? with
  | some p =>
    { r with
      nodes := r.nodes.modify i fun node =>
        { node with nodes := node.nodes ||| p.nodes, roots := node.roots ||| p.roots } }
  | none => r

/-- Capture an object and what is behind it, and return its index (C `capture`). The first argument
    is how many levels `ANX_EPISTEMIC_ROOTS` leaves; `visiting` are the nodes on the way here. -/
def Store.capture (s : Store) (env : Env) (voter : Nat) :
    Nat → Uuid → BitVec 32 → EStateM Err EpistemicRecord Nat
  | 0, _, _ => throw Err.einval
  | levels + 1, oid, visiting => do
    failIf (oid = .nil) Err.einval
    let r ← get
    match r.nodes.findIdx? fun node => node.oid = oid with
    | some i =>
      failIf (visiting.getLsbD i) Err.einval
      MonadExcept.ofExcept (s.nodeCurrent env r i voter)
      pure i
    | none =>
      let i := r.nodes.length
      failIf (i = epistemicNodes) Err.efull
      let value ← MonadExcept.ofExcept (s.snapshot env r oid voter)
      modify fun r => r.push value
      if value.parents = [] then
        failIf (r.roots.length = epistemicRoots) Err.efull
        modify fun r => r.pushRoot i oid
      value.parents.forM fun oid => do
        let parent ← s.capture env voter levels oid (visiting ||| Mask.single i)
        modify fun r => r.merge i parent
      pure i

/-! ## Votes -/

/-- A reviewer still acts under the identity it had (C `voter_current`). -/
def voterCurrent (env : Env) (cell identity : Uuid) : Except Err Unit := do
  let now ← env.identity cell
  failIf (now ≠ identity) Err.ebusy
  env.scope cell

def Store.nodesCurrent (s : Store) (env : Env) (r : EpistemicRecord) (mask : BitVec 32)
    (voter : Nat) : Bool :=
  (List.range r.nodes.length).all fun j => !mask.getLsbD j || (s.nodeCurrent env r j voter).isOk

/-- An approval counts while its reviewer and its evidence are unchanged (C `vote_current`). -/
def Store.voteCurrent (s : Store) (env : Env) (r : EpistemicRecord) (i : Nat) : Bool :=
  match r.vote i with
  | some vote =>
    vote.approve && (voterCurrent env (r.spec.reviewer i) (r.identityOf i)).isOk &&
      s.nodesCurrent env r vote.nodes i
  | none => false

def EpistemicRecord.covered (r : EpistemicRecord) (valid faults : BitVec 32) : BitVec 32 :=
  Mask.collect r.spec.count fun i =>
    valid.getLsbD i &&
      match r.vote i with
      | some vote => vote.roots &&& faults ≠ 0
      | none => false

/-- The size of the smallest set of roots behind `threshold` valid approvals, or one more than there
    can be: the loop over all `faults` of `assess`. -/
def EpistemicRecord.minimumOf (r : EpistemicRecord) (valid : BitVec 32) : Nat :=
  (List.range' 1 (2 ^ r.roots.length - 1)).foldl (fun minimum faults =>
    let mask := BitVec.ofNat 32 faults
    if minimum ≤ Mask.bits mask then minimum
    else if r.spec.threshold ≤ Mask.bits (r.covered valid mask) then Mask.bits mask else minimum)
    (epistemicRoots + 1)

/-- Refresh the view of a record (C `assess`). -/
def Store.assess (s : Store) (env : Env) (r : EpistemicRecord) : EpistemicRecord :=
  let valid := Mask.collect r.spec.count (s.voteCurrent env r)
  let approvals := Mask.bits valid
  let minimum := r.minimumOf valid
  let cut :=
    if r.spec.threshold ≤ approvals ∧ minimum ≤ epistemicRoots then minimum else 0
  { r with
    view :=
      { r.view with
        validApprovals := approvals
        structuralCut := cut
        roots := r.roots.length
        ready := r.spec.threshold ≤ approvals && r.spec.minimumCut ≤ cut } }

/-! ## Calls -/

def EpistemicSpec.wellFormed (spec : EpistemicSpec) : Bool :=
  spec.count ≠ 0 && spec.count ≤ epistemicReviewers && spec.threshold ≠ 0 &&
    spec.threshold ≤ spec.count && spec.minimumCut ≠ 0 && spec.minimumCut ≤ spec.threshold

/-- Check one entry of the reviewer array and return the identity the reviewer has. -/
def EpistemicSpec.enlist (spec : EpistemicSpec) (env : Env) (owner : Uuid) (i : Nat) :
    Except Err Uuid :=
  if spec.count ≤ i then do
    failIf (spec.reviewer i ≠ .nil) Err.einval
    pure .nil
  else do
    failIf (spec.reviewer i = .nil || spec.reviewer i = owner) Err.einval
    failIf ((List.range i).any fun j => spec.reviewer i = spec.reviewer j) Err.einval
    let _ ← orThrow (env.cells.lookup (spec.reviewer i)) Err.enoent
    let identity ← env.identity (spec.reviewer i)
    voterCurrent env (spec.reviewer i) identity
    pure identity

def Store.newRecord (s : Store) (spec : EpistemicSpec) (obj : StateObject) (stage : StagedMutation)
    (ownerIdentity : Uuid) (identities : List Uuid) : EpistemicRecord where
  view :=
    { id := s.sequence + 1
      owner := stage.stagingCell
      target := obj.oid
      proposalDigest := s.sha256 stage.shadow.bytes
      votes := 0
      validApprovals := 0
      structuralCut := 0
      roots := 0
      state := .opened
      ready := false }
  spec := spec
  ownerIdentity := ownerIdentity
  reviewerIdentity := identities
  roots := []
  nodes := []
  votes := List.replicate epistemicReviewers none
  proposalSize := stage.shadow.size
  sensitivity := obj.sensitivity
  baseVersion := stage.baseVersion

def StagedMutation.reviewable (stage : StagedMutation) (obj : StateObject) : Bool :=
  stage.epistemicId = 0 && stage.shadow.present && stage.shadow.size ≤ epistemicBytes &&
    stage.baseVersion = obj.version && stage.stagingCell ≠ .nil

/-- Open a review of the staged mutation behind a handle (C `anx_epistemic_begin`). -/
def epistemicBegin (env : Env) (h : Nat) (spec : EpistemicSpec) : Prog EpistemicView := do
  failIf env.current.isSome Err.eperm
  let s ← get
  let (addr, obj) ← orThrow (s.held h) Err.einval
  failIf ((s.handles h).mode = .read) Err.eperm
  failIf (!env.alloc) Err.enomem
  failIf (!spec.wellFormed) Err.einval
  let stage ← orThrow obj.staged Err.ebusy
  failIf (!stage.reviewable obj) Err.ebusy
  let _ ← orThrow (env.cells.lookup stage.stagingCell) Err.enoent
  let ownerIdentity ← MonadExcept.ofExcept (env.identity stage.stagingCell)
  let identities ← MonadExcept.ofExcept
    ((List.range epistemicReviewers).mapM (spec.enlist env stage.stagingCell))
  failIf (epistemicMax ≤ s.records.length || s.sequence = uint64Max) Err.efull
  let r := s.newRecord spec obj stage ownerIdentity identities
  modify fun s =>
    { s.setObject addr { obj with staged := some { stage with epistemicId := r.view.id } } with
      records := s.records ++ [r]
      sequence := s.sequence + 1 }
  pure r.view

def EpistemicRecord.voterOf (r : EpistemicRecord) (caller : Uuid) : Option Nat :=
  (List.range r.spec.count).find? fun i => r.spec.reviewer i = caller

def EpistemicRecord.castVote (r : EpistemicRecord) (voter : Nat) (approve : Bool) (root : Nat) :
    EpistemicRecord :=
  match r.nodes[root]? with
  | some node =>
    { r with
      votes := r.votes.set voter (some ⟨approve, node.nodes, node.roots⟩)
      view := { r.view with votes := r.view.votes + 1 } }
  | none => r

def EpistemicRecord.rollback (r : EpistemicRecord) (oldNodes oldRoots : Nat) : EpistemicRecord :=
  { r with nodes := r.nodes.take oldNodes, roots := r.roots.take oldRoots }

/-- Capture the evidence of a vote and check all of it once more. -/
def Store.gather (s : Store) (env : Env) (voter : Nat) (evidence : Uuid) :
    EStateM Err EpistemicRecord Nat := do
  let root ← s.capture env voter epistemicRoots evidence 0
  let r ← get
  let mask := ((r.nodes[root]?).map EvidenceNode.nodes).getD 0
  failIf (!s.nodesCurrent env r mask voter) Err.ebusy
  pure root

/-- Cast the vote of the running cell (C `anx_epistemic_vote`). -/
def epistemicVote (env : Env) (id : UInt64) (evidence : Uuid) (approve : Bool) :
    Prog EpistemicView := do
  let caller ← orThrow env.current Err.eperm
  failIf (id = 0) Err.einval
  let s ← get
  let r ← orThrow (s.find id) Err.enoent
  let voter ← orThrow (r.voterOf caller) Err.eperm
  failIf (r.view.state ≠ .opened) Err.ebusy
  failIf (r.vote voter).isSome Err.eexist
  MonadExcept.ofExcept (voterCurrent env (r.spec.reviewer voter) (r.identityOf voter))
  match s.gather env voter evidence r with
  | .ok root r' =>
    let r'' := s.assess env (r'.castVote voter approve root)
    modify fun s => s.setRecord r''
    pure r''.view
  | .error e r' =>
    modify fun s => s.setRecord (r'.rollback r.nodes.length r.roots.length)
    throw e

/-- Look at a review (C `anx_epistemic_get`). -/
def epistemicGet (env : Env) (id : UInt64) : Prog EpistemicView := do
  failIf (id = 0) Err.einval
  let s ← get
  let r ← orThrow (s.find id) Err.enoent
  MonadExcept.ofExcept (r.access env)
  if r.view.state = .opened then
    modify fun s => s.setRecord (s.assess env r)
    pure (s.assess env r).view
  else pure r.view

/-- The review a stage is bound to lets it be published (C `anx_epistemic_stage_check`). -/
def epistemicStageCheck (env : Env) (obj : StateObject) : Prog Unit := do
  let stage ← orThrow obj.staged Err.einval
  if stage.epistemicId ≠ 0 then
    let s ← get
    let r ← orThrow (s.find stage.epistemicId) Err.enoent
    MonadExcept.ofExcept (r.access env)
    failIf (r.view.state ≠ .opened || r.view.target ≠ obj.oid || r.view.owner ≠ stage.stagingCell ||
      r.baseVersion ≠ stage.baseVersion || stage.shadow.size ≠ r.proposalSize ||
      !stage.shadow.present || obj.sensitivity ≠ r.sensitivity) Err.ebusy
    failIf (s.sha256 stage.shadow.bytes ≠ r.view.proposalDigest) Err.ebusy
    let identity ← MonadExcept.ofExcept (env.identity r.view.owner)
    failIf (identity ≠ r.ownerIdentity) Err.ebusy
    modify fun s => s.setRecord (s.assess env r)
    failIf (!(s.assess env r).view.ready) Err.eaudit

def EpistemicRecord.resolve (r : EpistemicRecord) (obj : StateObject) (stage : StagedMutation)
    (committed : Bool) : EpistemicRecord :=
  if r.view.state = .opened ∧ r.view.target = obj.oid ∧ r.view.owner = stage.stagingCell then
    { r with
      view := { r.view with state := if committed then .committed else .aborted, ready := false } }
  else r

/-- Close the review of a stage (C `anx_epistemic_stage_resolve`). -/
def epistemicStageResolve (s : Store) (obj : StateObject) (committed : Bool) : Store :=
  match obj.staged with
  | none => s
  | some stage =>
    if stage.epistemicId = 0 then s
    else
      match s.find stage.epistemicId with
      | some r => s.setRecord (r.resolve obj stage committed)
      | none => s

/-- Free a closed review (C `anx_epistemic_destroy`). -/
def epistemicDestroy (env : Env) (id : UInt64) : Prog Unit := do
  failIf env.current.isSome Err.eperm
  failIf (id = 0) Err.einval
  let s ← get
  let r ← orThrow (s.find id) Err.enoent
  failIf (r.view.state = .opened) Err.ebusy
  modify fun s => { s with records := Keyed.erase (fun r => r.view.id) s.records id }

end Anunix.Object
