import Anunix.Object.Stage

/-!
# What a call does

The calls of the object store as one type, `Call`, and what each of them does to the store, said
once. A failed call leaves every object as it was. A successful one that names an object by a handle
or an identifier changes that object only, in the way its `_ends` lemma says; `Touch` collects the
cases.

A commit asks the review of its stage, which may refresh the view of a record even when the commit
is then refused. `OnlyViews` says that nothing else has happened.
-/

namespace Anunix.Object
open Fallible List

/-! ## Reading the store -/

variable {s s' : Store} {h : Nat} {oid : Uuid} {env : Env}

section Store

variable {addr i : Nat} {obj : StateObject} {stage : StagedMutation} {r : EpistemicRecord}
  {id : UInt64}

lemma held_eq_some :
    s.held h = some (addr, obj) ↔ (s.handles h).obj = some addr ∧ s.objects[addr]? = some obj := by
  unfold Store.held
  cases (s.handles h).obj with
  | none => simp
  | some a =>
    simp only [Option.map_eq_some_iff, Prod.mk.injEq, Option.some.injEq]
    constructor
    · rintro ⟨o, ho, rfl, rfl⟩
      exact ⟨rfl, ho⟩
    · rintro ⟨rfl, ho⟩
      exact ⟨obj, ho, rfl, rfl⟩

lemma lookup_eq_some (hl : s.lookup oid = some (addr, obj)) :
    addr ∈ s.table ∧ s.objects[addr]? = some obj ∧ obj.oid = oid := by
  obtain ⟨a, ha, hn⟩ := exists_of_findSome?_eq_some hl
  unfold Store.named at hn
  split at hn
  · rename_i o ho
    split at hn
    · rename_i hoid
      cases hn
      exact ⟨ha, ho, hoid⟩
    · cases hn
  · cases hn

lemma getElem?_setObject_self {old : StateObject} (ho : s.objects[addr]? = some old) :
    (s.setObject addr obj).objects[addr]? = some obj :=
  List.getElem?_set_self (List.getElem?_eq_some_iff.mp ho).1

lemma getElem?_setObject_of_ne (hne : i ≠ addr) :
    (s.setObject addr obj).objects[i]? = s.objects[i]? :=
  getElem?_set_ne hne.symm

/-! ## Reviews and objects -/

structure OnlyRecords (s s' : Store) : Prop where
  sha256 : s'.sha256 = s.sha256
  objects : s'.objects = s.objects
  table : s'.table = s.table
  handles : s'.handles = s.handles
  sequence : s'.sequence = s.sequence

instance : IsPreorder Store OnlyRecords where
  refl _ := ⟨rfl, rfl, rfl, rfl, rfl⟩
  trans _ _ _ h1 h2 :=
    ⟨h2.sha256.trans h1.sha256, h2.objects.trans h1.objects, h2.table.trans h1.table,
      h2.handles.trans h1.handles, h2.sequence.trans h1.sequence⟩

/-- What a review keeps from its opening on, votes and captured evidence included: a record without
    the part of its view that is computed from them and without its state. -/
def EpistemicRecord.ballot (r : EpistemicRecord) : EpistemicRecord :=
  { r with
    view :=
      { r.view with
        validApprovals := 0, structuralCut := 0, roots := 0, state := .opened, ready := false } }

structure SameBallots (s s' : Store) : Prop where
  ids : s'.records.map (fun r => r.view.id) = s.records.map fun r => r.view.id
  ballots : ∀ id, (s'.find id).map EpistemicRecord.ballot = (s.find id).map EpistemicRecord.ballot

lemma SameBallots.trans {s'' : Store} (h1 : SameBallots s s') (h2 : SameBallots s' s'') :
    SameBallots s s'' :=
  ⟨h2.ids.trans h1.ids, fun id => (h2.ballots id).trans (h1.ballots id)⟩

structure OnlyViews (s s' : Store) : Prop extends OnlyRecords s s', SameBallots s s'

instance : IsPreorder Store OnlyViews where
  refl s := ⟨refl_of OnlyRecords s, rfl, fun _ => rfl⟩
  trans _ _ _ h1 h2 :=
    ⟨trans_of OnlyRecords h1.toOnlyRecords h2.toOnlyRecords,
      h1.toSameBallots.trans h2.toSameBallots⟩

lemma OnlyViews.of_eq (h : s' = s) : OnlyViews s s' := by
  rw [h]
  exact refl_of OnlyViews s

lemma find_id (hf : s.find id = some r) : r.view.id = id := by
  simpa using find?_some hf

lemma find_setRecord :
    (s.setRecord r).find id = if r.view.id = id then (s.find id).map fun _ => r else s.find id :=
  Keyed.lookup_update

lemma onlyViews_setRecord {r' : EpistemicRecord} (hf : s.find r.view.id = some r)
    (hb : r'.ballot = r.ballot) : OnlyViews s (s.setRecord r') := by
  have hid : r'.view.id = r.view.id := congrArg (fun b => b.view.id) hb
  refine ⟨⟨rfl, rfl, rfl, rfl, rfl⟩, Keyed.map_update, fun id => ?_⟩
  rw [find_setRecord]
  split
  · rename_i he
    rw [← he, hid, hf]
    exact congrArg some hb
  · rfl

lemma ballot_assess (s : Store) (env : Env) (r : EpistemicRecord) :
    (s.assess env r).ballot = r.ballot :=
  rfl

lemma onlyViews_resolve (s : Store) (obj : StateObject) (committed : Bool) :
    OnlyViews s (epistemicStageResolve s obj committed) := by
  unfold epistemicStageResolve
  split
  · exact refl_of OnlyViews s
  · split
    · exact refl_of OnlyViews s
    · split
      · rename_i r hr
        rw [← find_id hr] at hr
        refine onlyViews_setRecord hr ?_
        unfold EpistemicRecord.resolve
        split <;> rfl
      · exact refl_of OnlyViews s

/-- The conditions under which a review lets its stage be published. -/
structure Cleared (s : Store) (env : Env) (obj : StateObject) (stage : StagedMutation)
    (r : EpistemicRecord) : Prop where
  found : s.find stage.epistemicId = some r
  opened : r.view.state = .opened
  target : r.view.target = obj.oid
  owner : r.view.owner = stage.stagingCell
  size : stage.shadow.size = r.proposalSize
  present : stage.shadow.present = true
  digest : s.sha256 stage.shadow.bytes = r.view.proposalDigest
  ready : (s.assess env r).view.ready = true

/-- A check that passes has found a review that clears the stage, unless the stage has none. -/
lemma epistemicStageCheck_ends : Ends (epistemicStageCheck env obj) s
      (fun _ s' => OnlyViews s s' ∧ ∃ stage, obj.staged = some stage ∧
        (stage.epistemicId = 0 ∨ ∃ r, Cleared s env obj stage r)) fun _ => OnlyViews s := by
  refine .fetch fun stage hstage => ?_
  by_cases hid : stage.epistemicId = 0
  · rw [if_neg (by simpa using hid)]
    exact ⟨refl_of OnlyViews s, stage, hstage, .inl hid⟩
  rw [if_pos hid]
  refine .get_bind (.fetch fun r hr => ?_)
  refine .lift fun _ _ => ?_
  refine .guard fun hmatch => ?_
  refine .guard fun hdigest => ?_
  refine .lift fun _ _ => ?_
  refine .guard fun _ => ?_
  simp only [Bool.or_eq_false_iff, decide_eq_false_iff_not, not_not,
    Bool.not_eq_false'] at hmatch hdigest
  obtain ⟨⟨⟨⟨⟨⟨hopen, htarget⟩, howner⟩, -⟩, hsize⟩, hpresent⟩, -⟩ := hmatch
  have hself : s.find r.view.id = some r := by rw [find_id hr, hr]
  have hviews : OnlyViews s (s.setRecord (s.assess env r)) :=
    onlyViews_setRecord hself (ballot_assess s env r)
  cases hready : (s.assess env r).view.ready with
  | false => exact hviews
  | true =>
    refine ⟨hviews, stage, hstage, .inr ⟨r, ?_⟩⟩
    exact ⟨hr, hopen, htarget, howner, hsize, hpresent, hdigest, hready⟩

/-! ## Publishing and discarding -/

structure Publishable (s : Store) (env : Env) (addr : Nat) (obj : StateObject)
    (stage : StagedMutation) : Prop where
  object : s.objects[addr]? = some obj
  staged : obj.staged = some stage
  authority : obj.commitAuthority env stage = .ok ()
  unsealed : obj.closed = false
  base : obj.version = stage.baseVersion
  room : obj.version ≠ uint64Max

lemma commitCheck_ends : Ends (commitCheck env addr) s
      (fun _ s' => OnlyViews s s' ∧ ∃ obj stage, Publishable s env addr obj stage ∧
        (stage.epistemicId = 0 ∨ ∃ r, Cleared s env obj stage r)) fun _ => OnlyViews s := by
  refine .get_bind (.fetch fun obj hobj => ?_)
  refine .fetch fun stage hstage => ?_
  refine .lift fun _ hauth => ?_
  refine .guard fun hclosed => ?_
  refine .guard fun hbase => ?_
  refine .guard fun hroom => ?_
  refine .post epistemicStageCheck_ends ?_
  rintro _ s' ⟨hrec, stage', hstage', hreview⟩
  cases hstage.symm.trans hstage'
  refine ⟨hrec, obj, stage, ⟨hobj, hstage, hauth, hclosed, ?_, ?_⟩, hreview⟩
  · simpa using hbase
  · simpa using hroom

lemma abortDiscard_eq (ho : s.objects[addr]? = some obj) :
    OnlyViews (s.setObject addr { obj with staged := none }) (s.abortDiscard addr) := by
  simp only [Store.abortDiscard, ho]
  exact onlyViews_resolve _ _ _

lemma abortCheck_ends : Atomic (abortCheck env addr) s
      (fun _ s' => s' = s ∧ ∃ obj stage, s.objects[addr]? = some obj ∧
        obj.staged = some stage) := by
  refine .get_bind (.fetch fun obj hobj => ?_)
  refine .guard fun hstaged => ?_
  cases hs : obj.staged with
  | none => simp [hs] at hstaged
  | some stage =>
    cases hw : obj.stageCheckWriter env.current with
    | error e => exact rfl
    | ok u => exact ⟨rfl, obj, stage, hobj, hs⟩

def Store.Writes (s : Store) (h addr : Nat) : Prop :=
  (s.handles h).obj = some addr ∧ (s.handles h).mode ≠ .read

lemma writableHandle_ends : Atomic (writableHandle h) s
      (fun target s' => s' = s ∧ s.Writes h target.1 ∧ s.objects[target.1]? = some target.2) := by
  refine .get_bind (.fetch fun target ht => ?_)
  refine .guard fun hmode => ?_
  obtain ⟨hobj, ho⟩ := held_eq_some.mp (show s.held h = some (target.1, target.2) from ht)
  exact ⟨rfl, ⟨hobj, by simpa using hmode⟩, ho⟩

end Store

/-! ## Single calls -/

section Calls

lemma objectStage_ends {cell : Uuid} : Atomic (objectStage env h cell) s
      (fun _ s' => ∃ addr obj, s.Writes h addr ∧ s.objects[addr]? = some obj ∧ obj.closed = false ∧
        obj.staged = none ∧
        s' = s.setObject addr { obj with staged := some (obj.newStage cell) }) := by
  refine .get_bind (.fetch fun ⟨addr, obj⟩ ht => ?_)
  obtain ⟨hobj, ho⟩ := held_eq_some.mp ht
  refine .guard fun hmode => ?_
  refine .guard fun _ => ?_
  refine .guard fun hclosed => ?_
  refine .guard fun hstaged => ?_
  refine .lift fun _ _ => ?_
  refine .guard fun _ => ?_
  refine .modify ⟨addr, obj, ⟨hobj, by simpa using hmode⟩, ho, hclosed, ?_, rfl⟩
  simpa using hstaged

lemma writeTarget_ends : Atomic (writeTarget env h) s
      (fun target s' => s' = s ∧ s.Writes h target.1 ∧ s.objects[target.1]? = some target.2 ∧
        target.2.state ≠ .sealed ∧ target.2.stageCheckWriter env.current = .ok ()) := by
  refine .get_bind (.fetch fun ⟨addr, obj⟩ ht => ?_)
  obtain ⟨hobj, ho⟩ := held_eq_some.mp ht
  refine .guard fun hmode => ?_
  refine .guard fun hsealed => ?_
  refine .lift fun _ hw => ?_
  exact ⟨rfl, ⟨hobj, by simpa using hmode⟩, ho, by simpa using hsealed, hw⟩

lemma soWritePayload_ends {offset : UInt64} {data : Buffer} :
    Atomic (soWritePayload env h offset data) s
      (fun _ s' => ∃ addr obj, s.Writes h addr ∧ s.objects[addr]? = some obj ∧ obj.state ≠ .sealed ∧
        s' = match obj.target.write offset data env.junk with
          | some p => s.setObject addr (obj.assign s.sha256 p)
          | none => { s with objects := env.stray s.objects }) := by
  refine .next writeTarget_ends ?_
  rintro ⟨addr, obj⟩ _ ⟨rfl, hw, ho, hsealed, -⟩
  refine .guard fun _ => ?_
  cases hp :
    obj.target.write offset data env.junk <;> exact .modify ⟨addr, obj, hw, ho, hsealed, by rw [hp]⟩

lemma soReplacePayload_ends {data : Payload} : Atomic (soReplacePayload env h data) s
      (fun _ s' => ∃ addr obj, s.Writes h addr ∧ s.objects[addr]? = some obj ∧ obj.state ≠ .sealed ∧
        s' = s.setObject addr (obj.assign s.sha256 data.replacement)) := by
  refine .next writeTarget_ends ?_
  rintro ⟨addr, obj⟩ _ ⟨rfl, hw, ho, hsealed, -⟩
  refine .guard fun _ => ?_
  exact .modify ⟨addr, obj, hw, ho, hsealed, rfl⟩

lemma soSeal_ends : Atomic (soSeal oid) s
      (fun _ s' => ∃ addr obj, s.lookup oid = some (addr, obj) ∧ s.objects[addr]? = some obj ∧
        obj.staged = none ∧ obj.state = .active ∧
        s' = s.setObject addr { obj with state := .sealed }) := by
  refine .get_bind (.fetch fun ⟨addr, obj⟩ ht => ?_)
  refine .guard fun hstaged => ?_
  refine .lift fun obj' hobj' => ?_
  obtain ⟨hv, rfl⟩ := StateObject.transition_eq_ok.mp hobj'
  refine .modify ⟨addr, obj, ht, (lookup_eq_some ht).2.1, by simpa using hstaged, ?_, rfl⟩
  cases hst : obj.state with
  | active => rfl
  | _ => simp [hst, validTransition] at hv

lemma soDelete_ends {force : Bool} : Atomic (soDelete oid force) s
      (fun _ s' => ∃ addr obj, s.lookup oid = some (addr, obj) ∧ s.objects[addr]? = some obj ∧
        obj.staged = none ∧
        s' =
        { s.setObject addr { obj with state := .deleted } with table := s.table.erase addr }) := by
  refine .get_bind (.fetch fun ⟨addr, obj⟩ ht => ?_)
  refine .guard fun hstaged => ?_
  refine .guard fun _ => ?_
  refine .lift fun obj' hobj' => ?_
  obtain ⟨-, rfl⟩ := StateObject.transition_eq_ok.mp hobj'
  exact .modify ⟨addr, obj, ht, (lookup_eq_some ht).2.1, by simpa using hstaged, rfl⟩

lemma objectSetSensitivity_ends {level : Sensitivity} : Atomic (objectSetSensitivity oid level) s
      (fun _ s' => ∃ addr obj, s.objects[addr]? = some obj ∧
        s' = s.setObject addr { obj with sensitivity := level, sensitivityOrigin := .nil }) := by
  refine .get_bind (.fetch fun ⟨addr, obj⟩ ht => ?_)
  exact .modify ⟨addr, obj, (lookup_eq_some ht).2.1, rfl⟩

lemma soCreate_ends {params : CreateParams} :
    Atomic (soCreate env params) s
      (fun addr s' => addr = s.objects.length ∧
        s' = { s with
          objects := s.objects ++ [s.fresh env.freshOid params]
          table := s.objects.length :: s.table }) := by
  refine .guard fun _ => ?_
  refine .guard fun _ => ?_
  exact .get_bind (.bind (.modify ⟨rfl, rfl⟩))

lemma soOpen_ends {mode : OpenMode} : Ends (soOpen env oid mode h) s
      (fun _ s' => ∃ addr obj, s.lookup oid = some (addr, obj) ∧
        (obj.state = .active ∨ obj.state = .sealed ∧ mode = .read) ∧
        obj.openCheck env mode = .ok () ∧ s' = s.setHandle h ⟨some addr, mode, obj.version⟩)
      (fun _ s' => s' = s.setHandle h { s.handles h with obj := none }) := by
  refine .bind (.modify (.get_bind (.fetch fun ⟨addr, obj⟩ ht => ?_)))
  refine .guard fun hstate => ?_
  refine .guard fun hsealed => ?_
  refine .lift fun _ hcheck => ?_
  refine .modify ⟨addr, obj, ht, ?_, hcheck, ?_⟩
  · cases hst : obj.state with
    | active => exact .inl rfl
    | sealed => exact .inr ⟨rfl, by simpa [hst] using hsealed⟩
    | _ => simp [hst] at hstate
  · simp [Store.setHandle]

end Calls

/-! ## Batches -/

section Batches

variable {commit : Bool} {targets : List (Nat × StateObject)} {handles : List Nat}
  {target : Nat × StateObject} {obj : StateObject} {addr : Nat}

def StateObject.resolved (sha256 : List UInt8 → Digest) (obj : StateObject) (commit : Bool) :
    StateObject :=
  match obj.staged with
  | some stage => if commit then obj.published sha256 stage else { obj with staged := none }
  | none => obj

def Store.Opens (s : Store) (h : Nat) (target : Nat × StateObject) : Prop :=
  s.Writes h target.1 ∧ s.objects[target.1]? = some target.2

structure Store.Lists (s : Store) (handles : List Nat) (targets : List (Nat × StateObject)) :
    Prop where
  opened : ∀ h ∈ handles, ∃ t ∈ targets, s.Opens h t
  listed : ∀ t ∈ targets, ∃ h ∈ handles, s.Opens h t

lemma batchTargets_ends {seen : List (Nat × StateObject)} (hseen : (seen.map Prod.fst).Nodup) :
    Atomic (batchTargets seen handles) s (fun targets s' => s' = s ∧ (targets.map Prod.fst).Nodup ∧
        ∃ rest, targets = seen.reverse ++ rest ∧ s.Lists handles rest) := by
  induction handles generalizing seen with
  | nil =>
    refine ⟨rfl, ?_, [], by simp, ⟨fun h hh => ?_, fun t ht => ?_⟩⟩
    · rw [map_reverse]
      exact nodup_reverse.mpr hseen
    · cases hh
    · cases ht
  | cons h rest ih =>
    refine .next writableHandle_ends ?_
    rintro ⟨addr, obj⟩ _ ⟨rfl, hw, ho⟩
    refine .guard fun hnew => ?_
    have haddr : addr ∉ seen.map Prod.fst := by
      intro hmem
      obtain ⟨other, hother, rfl⟩ := mem_map.mp hmem
      have hno := any_eq_false.mp hnew other hother
      simp at hno
    refine .post (ih (nodup_cons.mpr ⟨haddr, hseen⟩)) ?_
    rintro targets _ ⟨rfl, hnodup, more, rfl, hall⟩
    refine ⟨rfl, hnodup, (addr, obj) :: more, by simp, ⟨forall_mem_cons.mpr ⟨?_, fun h' hh' => ?_⟩,
      forall_mem_cons.mpr ⟨?_, fun t ht => ?_⟩⟩⟩
    · exact ⟨(addr, obj), mem_cons_self, hw, ho⟩
    · obtain ⟨t, ht, hopens⟩ := hall.opened h' hh'
      exact ⟨t, mem_cons_of_mem _ ht, hopens⟩
    · exact ⟨h, mem_cons_self, hw, ho⟩
    · obtain ⟨h', hh', hopens⟩ := hall.listed t ht
      exact ⟨h', mem_cons_of_mem _ hh', hopens⟩

lemma insertTarget_perm (target : Nat × StateObject) (l : List (Nat × StateObject)) :
    (insertTarget target l).Perm (target :: l) := by
  induction l with
  | nil => exact .refl _
  | cons other rest ih =>
    rw [insertTarget]
    split
    · exact (ih.cons other).trans (.swap target other rest)
    · exact .refl _

lemma foldl_insertTarget_perm (targets sorted : List (Nat × StateObject)) :
    (targets.foldl (fun sorted target => insertTarget target sorted) sorted).Perm
    (targets ++ sorted) := by
  induction targets generalizing sorted with
  | nil => exact .refl _
  | cons target rest ih =>
    exact (ih _).trans (((insertTarget_perm target sorted).append_left rest).trans perm_middle)

lemma sortTargets_perm (targets : List (Nat × StateObject)) :
    (sortTargets targets).Perm targets := by
  have hp := foldl_insertTarget_perm targets []
  rwa [append_nil] at hp

lemma batchOwned_staged {owner : Option Uuid} (h : batchOwned owner targets = .ok ()) :
    ∀ t ∈ targets, ∃ stage, t.2.staged = some stage := by
  induction targets generalizing owner with
  | nil => exact forall_mem_nil _
  | cons target rest ih =>
    obtain ⟨stage, hstage, h⟩ := bind_eq_ok.mp h
    obtain ⟨-, -, h⟩ := bind_eq_ok.mp h
    exact forall_mem_cons.mpr ⟨⟨stage, orThrow_eq_ok.mp hstage⟩, ih h⟩

/-- What the checks of a batch have established of one member: at some point only views of reviews
    were different, and a commit was allowed. -/
def Store.Checked (s : Store) (env : Env) (commit : Bool) (target : Nat × StateObject) : Prop :=
  commit = true → ∃ s₁ stage, OnlyViews s s₁ ∧ Publishable s₁ env target.1 target.2 stage ∧
    (stage.epistemicId = 0 ∨ ∃ r, Cleared s₁ env target.2 stage r)

lemma checkOne_ends (ho : s.objects[target.1]? = some target.2) :
    Ends (if commit then commitCheck env target.1 else abortCheck env target.1) s
      (fun _ s' => OnlyViews s s' ∧ s.Checked env commit target) fun _ => OnlyViews s := by
  cases commit with
  | true =>
    refine .post commitCheck_ends ?_
    rintro _ s' ⟨hviews, obj, stage, hpub, hreview⟩
    cases ho.symm.trans hpub.object
    exact ⟨hviews, fun _ => ⟨s, stage, refl_of OnlyViews s, hpub, hreview⟩⟩
  | false =>
    refine .mono abortCheck_ends ?_ fun _ _ => .of_eq
    rintro _ _ ⟨rfl, -⟩
    exact ⟨refl_of OnlyViews _, fun h => nomatch h⟩

lemma checkAll_ends (ho : ∀ t ∈ targets, s.objects[t.1]? = some t.2) :
    Ends (targets.forM fun t => if commit then commitCheck env t.1 else abortCheck env t.1) s
      (fun _ s' => OnlyViews s s' ∧ ∀ t ∈ targets, s.Checked env commit t)
      fun _ => OnlyViews s := by
  induction targets generalizing s with
  | nil => exact ⟨refl_of OnlyViews s, forall_mem_nil _⟩
  | cons target rest ih =>
    obtain ⟨hfirst, hrest⟩ := forall_mem_cons.mp ho
    refine .next (checkOne_ends hfirst) ?_
    rintro _ s1 ⟨hviews, hchecked⟩
    rw [← hviews.objects] at hrest
    refine .mono (ih hrest) ?_ fun _ s2 => trans_of OnlyViews hviews
    rintro _ s2 ⟨hviews2, hall⟩
    refine ⟨trans_of OnlyViews hviews hviews2, forall_mem_cons.mpr ⟨hchecked, fun t ht hc => ?_⟩⟩
    obtain ⟨s3, stage, hviews3, hpub, hreview⟩ := hall t ht hc
    exact ⟨s3, stage, trans_of OnlyViews hviews hviews3, hpub, hreview⟩

/-- The stages of some objects were resolved; everything else is as it was, views of reviews
apart. -/
structure Batched (s s' : Store) (commit : Bool) (targets : List (Nat × StateObject)) : Prop
    extends SameBallots s s' where
  member : ∀ t ∈ targets, s'.objects[t.1]? = some (t.2.resolved s.sha256 commit)
  other : ∀ i, i ∉ targets.map Prod.fst → s'.objects[i]? = s.objects[i]?
  sha256 : s'.sha256 = s.sha256
  table : s'.table = s.table
  handles : s'.handles = s.handles
  sequence : s'.sequence = s.sequence

lemma batched_one (commit : Bool) {stage : StagedMutation}
    (ho : s.objects[addr]? = some obj) (hs : obj.staged = some stage) :
    Batched s (if commit then s.commitPublish addr else s.abortDiscard addr) commit
    [(addr, obj)] := by
  have hviews : OnlyViews (s.setObject addr (obj.resolved s.sha256 commit))
      (if commit then s.commitPublish addr else s.abortDiscard addr) := by
    rw [StateObject.resolved, hs]
    cases commit with
    | true =>
      show OnlyViews _ (s.commitPublish addr)
      simp only [Store.commitPublish, ho, hs]
      exact onlyViews_resolve _ _ _
    | false => exact abortDiscard_eq ho
  refine ⟨⟨hviews.ids, hviews.ballots⟩, fun t ht => ?_, fun i hi => ?_, hviews.sha256, hviews.table,
    hviews.handles, hviews.sequence⟩
  · cases mem_singleton.mp ht
    rw [hviews.objects]
    exact getElem?_setObject_self ho
  · rw [hviews.objects]
    exact getElem?_setObject_of_ne fun e => hi (mem_singleton.mpr e)

/-- Resolving the members of a batch one after the other; no two of them are the same object. -/
lemma foldl_resolve (commit : Bool) (ho : ∀ t ∈ targets, s.objects[t.1]? = some t.2)
    (hs : ∀ t ∈ targets, ∃ stage, t.2.staged = some stage) (hn : (targets.map Prod.fst).Nodup) :
    Batched s (targets.foldl
      (fun s t => if commit then s.commitPublish t.1 else s.abortDiscard t.1) s) commit
      targets := by
  induction targets generalizing s with
  | nil =>
    exact ⟨⟨rfl, fun _ => rfl⟩, forall_mem_nil _, fun _ _ => rfl, rfl, rfl, rfl, rfl⟩
  | cons target rest ih =>
    obtain ⟨hnew, hn'⟩ := nodup_cons.mp (map_cons ▸ hn)
    obtain ⟨stage, hstage⟩ := hs target mem_cons_self
    have hone := batched_one commit (ho target mem_cons_self) hstage
    rw [foldl_cons]
    generalize (if commit then s.commitPublish target.1 else s.abortDiscard target.1) = s1 at hone
    have hrest : ∀ t ∈ rest, s1.objects[t.1]? = some t.2 := by
      intro t ht
      have hne : t.1 ∉ [target].map Prod.fst := fun e =>
        hnew (mem_singleton.mp e ▸ mem_map_of_mem ht)
      rw [hone.other t.1 hne]
      exact ho t (mem_cons_of_mem target ht)
    have hb := ih hrest (fun t ht => hs t (mem_cons_of_mem target ht)) hn'
    refine ⟨hone.toSameBallots.trans hb.toSameBallots, forall_mem_cons.mpr ⟨?_, fun t ht => ?_⟩,
      fun i hi => ?_,
      hb.sha256.trans hone.sha256, hb.table.trans hone.table, hb.handles.trans hone.handles,
      hb.sequence.trans hone.sequence⟩
    · rw [hb.other target.1 hnew]
      exact hone.member target (mem_singleton_self target)
    · rw [hb.member t ht, hone.sha256]
    · rw [map_cons, mem_cons, not_or] at hi
      rw [hb.other i hi.2, hone.other i (fun e => hi.1 (mem_singleton.mp e))]

lemma Batched.perm {targets' : List (Nat × StateObject)} (h : Batched s s' commit targets)
    (hp : targets.Perm targets') : Batched s s' commit targets' where
  member t ht := h.member t (hp.mem_iff.mpr ht)
  other i hi := h.other i fun hm => hi ((hp.map Prod.fst).mem_iff.mp hm)
  sha256 := h.sha256
  table := h.table
  handles := h.handles
  sequence := h.sequence
  toSameBallots := h.toSameBallots

lemma Batched.of_views {s1 : Store} (hviews : OnlyViews s s1) (h : Batched s1 s' commit targets) :
    Batched s s' commit targets where
  member t ht := hviews.sha256 ▸ h.member t ht
  other i hi := hviews.objects ▸ h.other i hi
  sha256 := h.sha256.trans hviews.sha256
  table := h.table.trans hviews.table
  handles := h.handles.trans hviews.handles
  sequence := h.sequence.trans hviews.sequence
  toSameBallots := hviews.toSameBallots.trans h.toSameBallots

/-- The stages of the objects that some handles open were checked and resolved. -/
def Store.Settles (s : Store) (env : Env) (commit : Bool) (handles : List Nat) (s' : Store) :
    Prop :=
  ∃ targets, s.Lists handles targets ∧
    (∀ t ∈ targets, (∃ stage, t.2.staged = some stage) ∧ s.Checked env commit t) ∧
    Batched s s' commit targets

lemma settles_one (hw : s.Writes h addr) (ho : s.objects[addr]? = some obj)
    (hs : ∃ stage, obj.staged = some stage) (hc : s.Checked env commit (addr, obj))
    (hb : Batched s s' commit [(addr, obj)]) : s.Settles env commit [h] s' := by
  refine ⟨[(addr, obj)], ⟨?_, ?_⟩, forall_mem_singleton.mpr ⟨hs, hc⟩, hb⟩
  · exact forall_mem_singleton.mpr ⟨_, mem_singleton_self _, hw, ho⟩
  · exact forall_mem_singleton.mpr ⟨h, mem_singleton_self _, hw, ho⟩

lemma Batched.onlyRecords (hb : Batched s s' commit targets)
    (hl : s.Lists [h] targets) (hw : s.Writes h addr) (ho : s.objects[addr]? = some obj) :
    OnlyRecords (s.setObject addr (obj.resolved s.sha256 commit)) s' := by
  refine ⟨hb.sha256, ext_getElem? fun i => ?_, hb.table, hb.handles, hb.sequence⟩
  by_cases hi : i = addr
  · obtain ⟨t, ht, hw', ho'⟩ := hl.opened h (mem_singleton_self h)
    cases hw.1.symm.trans hw'.1
    cases ho.symm.trans ho'
    rw [hi, hb.member t ht, getElem?_setObject_self ho]
  · rw [getElem?_setObject_of_ne hi]
    refine hb.other i fun hm => hi ?_
    obtain ⟨t, ht, rfl⟩ := mem_map.mp hm
    obtain ⟨h', hh', hw', -⟩ := hl.listed t ht
    cases mem_singleton.mp hh'
    exact Option.some.inj (hw'.1.symm.trans hw.1)

lemma objectCommit_ends :
    Ends (objectCommit env h) s (fun _ s' => s.Settles env true [h] s') fun _ => OnlyViews s := by
  refine .call writableHandle_ends ?_ fun _ _ => .of_eq
  rintro ⟨addr, obj0⟩ s ⟨rfl, hw, -⟩
  refine .next commitCheck_ends ?_
  rintro _ s1 ⟨hviews, obj, stage, hpub, hreview⟩
  have hone := batched_one true (hviews.objects ▸ hpub.object) hpub.staged
  refine .modify
    (settles_one hw hpub.object ⟨stage, hpub.staged⟩ (fun _ => ?_) (hone.of_views hviews))
  exact ⟨s, stage, refl_of OnlyViews s, hpub, hreview⟩

lemma objectAbort_ends :
    Ends (objectAbort env h) s (fun _ s' => s.Settles env false [h] s') fun _ => OnlyViews s := by
  refine .call writableHandle_ends ?_ fun _ _ => .of_eq
  rintro ⟨addr, obj0⟩ s ⟨rfl, hw, -⟩
  refine .call abortCheck_ends ?_ fun _ _ => .of_eq
  rintro _ _ ⟨rfl, obj, stage, hobj, hs⟩
  exact .modify (settles_one hw hobj ⟨stage, hs⟩ nofun (batched_one false hobj hs))

lemma resolveBatch_ends :
    Ends (resolveBatch env handles commit) s (fun _ s' => s.Settles env commit handles s')
      fun _ => OnlyViews s := by
  refine .guard fun _ => ?_
  refine .call (batchTargets_ends nodup_nil) ?_ fun _ _ => .of_eq
  rintro targets s ⟨rfl, hnodup, rest, hrest, hopens⟩
  obtain rfl : targets = rest := hrest
  have hp := sortTargets_perm targets
  have hobj : ∀ t ∈ sortTargets targets, s.objects[t.1]? = some t.2 := by
    intro t ht
    obtain ⟨h, -, ho⟩ := hopens.listed t (hp.mem_iff.mp ht)
    exact ho.2
  refine .lift fun _ howned => ?_
  have hstaged := batchOwned_staged howned
  refine .next (checkAll_ends hobj) ?_
  rintro _ s1 ⟨hviews, hchecked⟩
  have hobj1 : ∀ t ∈ sortTargets targets, s1.objects[t.1]? = some t.2 := by
    intro t ht
    rw [hviews.objects]
    exact hobj t ht
  have hb := foldl_resolve commit hobj1 hstaged ((hp.map Prod.fst).nodup_iff.mpr hnodup)
  refine .modify ⟨targets, hopens, fun t ht => ?_, (hb.of_views hviews).perm hp⟩
  exact ⟨hstaged t (hp.mem_iff.mpr ht), hchecked t (hp.mem_iff.mpr ht)⟩

end Batches

/-! ## Reviews -/

section Reviews

variable {id : UInt64}

def Store.reviewed (s : Store) (addr : Nat) (obj : StateObject) (stage : StagedMutation)
    (r : EpistemicRecord) : Store :=
  { s.setObject addr { obj with staged := some { stage with epistemicId := r.view.id } } with
    records := s.records ++ [r]
    sequence := s.sequence + 1 }

lemma epistemicBegin_ends {spec : EpistemicSpec} : Atomic (epistemicBegin env h spec) s
      (fun _ s' => ∃ addr obj stage ownerIdentity identities, s.held h = some (addr, obj) ∧
        obj.staged = some stage ∧ stage.reviewable obj = true ∧ spec.wellFormed = true ∧
        (range epistemicReviewers).mapM (spec.enlist env stage.stagingCell) = .ok identities ∧
        s.sequence ≠ uint64Max ∧
        s' = s.reviewed addr obj stage (s.newRecord spec obj stage ownerIdentity identities)) := by
  refine .guard fun _ => ?_
  refine .get_bind (.fetch fun ⟨addr, obj⟩ ht => ?_)
  refine .guard fun _ => ?_
  refine .guard fun _ => ?_
  refine .guard fun hspec => ?_
  refine .fetch fun stage hstage => ?_
  refine .guard fun hreviewable => ?_
  refine .fetch fun _ _ => ?_
  refine .lift fun ownerIdentity _ => ?_
  refine .lift fun identities hids => ?_
  refine .guard fun hroom => ?_
  refine ⟨addr, obj, stage, ownerIdentity, identities, ht, hstage, ?_, ?_, hids, ?_, rfl⟩
  · simpa using hreviewable
  · simpa using hspec
  · simp only [Bool.or_eq_false_iff, decide_eq_false_iff_not] at hroom
    exact hroom.2

structure Voted (s : Store) (env : Env) (id : UInt64) (evidence : Uuid) (caller : Uuid)
    (r : EpistemicRecord) (voter root : Nat) (r' : EpistemicRecord) : Prop where
  running : env.current = some caller
  found : s.find id = some r
  listed : r.voterOf caller = some voter
  opened : r.view.state = .opened
  fresh : r.vote voter = none
  gathered : s.gather env voter evidence r = .ok root r'

lemma epistemicVote_ends {evidence : Uuid} {approve : Bool} :
    Ends (epistemicVote env id evidence approve) s
      (fun _ s' => ∃ caller r voter root r', Voted s env id evidence caller r voter root r' ∧
        s' = s.setRecord (s.assess env (r'.castVote voter approve root)))
      (fun _ s' => s' = s ∨ ∃ r voter e r', s.find id = some r ∧ s.gather env voter evidence r =
        .error e r' ∧ s' = s.setRecord (r'.rollback r.nodes.length r.roots.length)) := by
  refine .fetch fun caller hcaller => ?_
  refine .guard fun _ => ?_
  refine .get_bind (.fetch fun r hr => ?_)
  refine .fetch fun voter hvoter => ?_
  refine .guard fun hopen => ?_
  refine .guard fun hfresh => ?_
  refine .lift fun _ _ => ?_
  cases hg : s.gather env voter evidence r with
  | ok root r' =>
    refine .bind (.modify ⟨caller, r, voter, root, r', ?_, rfl⟩)
    exact ⟨hcaller, hr, hvoter, by simpa using hopen, by simpa using hfresh, hg⟩
  | error e r' =>
    exact .bind (.modify (.throw (.inr ⟨r, voter, e, r', hr, hg, rfl⟩)))

lemma epistemicGet_ends : Atomic (epistemicGet env id) s fun _ => OnlyViews s := by
  refine .guard fun _ => ?_
  refine .get_bind (.fetch fun r hr => ?_)
  refine .lift fun _ _ => ?_
  split
  · have hself : s.find r.view.id = some r := by rw [find_id hr, hr]
    exact .bind (.modify (onlyViews_setRecord hself (ballot_assess s env r)))
  · exact refl_of OnlyViews s

lemma epistemicDestroy_ends : Atomic (epistemicDestroy env id) s
      (fun _ s' => s' = { s with records := Keyed.erase (fun r => r.view.id) s.records id }) := by
  refine .guard fun _ => ?_
  refine .guard fun _ => ?_
  refine .get_bind (.fetch fun r _ => ?_)
  refine .guard fun _ => ?_
  exact .modify rfl

end Reviews

end Anunix.Object
