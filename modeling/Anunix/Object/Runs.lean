import Anunix.Object.Calls

/-!
# Runs of the object store

The calls as inputs of one state machine. `Touch` lists everything a call can do to an object that
is already there, and `step_touch` shows that nothing else happens, except where a write runs out of
its buffer: `Payload.overruns` says exactly when that is.
-/

namespace Anunix.Object
open Fallible List

/-! ## Overrunning writes -/

/-- A write that grows the payload overruns when its end wraps around 64 bits or the block for the
    new size is too small, and any other when its bytes end behind those that are there. -/
def Payload.overruns (p : Payload) (offset : UInt64) (data : Buffer) : Bool :=
  let newSize := offset + UInt64.ofNat data.1.length
  if p.size < newSize then
    decide (2 ^ 64 ≤ offset.toNat + data.1.length) || decide (allocBytes newSize < newSize.toNat)
  else !data.1.isEmpty && decide (p.bytes.length < offset.toNat + data.1.length)

section Payload

variable {p : Payload} {offset size : UInt64} {data b : Buffer} {junk : Nat → UInt8}
  {bytes : List UInt8}

lemma copyIn_eq_none : p.copyIn offset bytes = none ↔
    bytes ≠ [] ∧ p.bytes.length < offset.toNat + bytes.length := by
  cases p <;> cases bytes <;> simp [Payload.copyIn, Payload.bytes]

lemma toNat_end (offset : UInt64) (data : Buffer) :
    (offset + UInt64.ofNat data.1.length).toNat = (offset.toNat + data.1.length) % 2 ^ 64 := by
  have hlen : (UInt64.ofNat data.1.length).toNat = data.1.length := Nat.mod_eq_of_lt data.2.1
  rw [UInt64.toNat_add, hlen]

lemma write_eq_none : p.write offset data junk = none ↔ p.overruns offset data = true := by
  have hend := toNat_end offset data
  unfold Payload.write Payload.overruns
  by_cases hgrow : p.size < offset + UInt64.ofNat data.1.length
  · simp only [hgrow, if_true, Bool.or_eq_true, decide_eq_true_eq]
    by_cases hblock :
      (offset + UInt64.ofNat data.1.length).toNat ≤ allocBytes (offset + UInt64.ofNat data.1.length)
    · have hlen : (Payload.buffer (p.grow _ hblock junk)).bytes.length = _ := grown_length p _ junk
      rw [dif_pos hblock, copyIn_eq_none, hlen]
      have hlt := offset.toNat_lt
      rw [← length_pos_iff]
      omega
    · rw [dif_neg hblock]
      exact iff_of_true rfl (.inr (Nat.not_le.mp hblock))
  · simp [hgrow, copyIn_eq_none]

end Payload

/-! ## Calls as inputs -/

/-- A call with its arguments. Handles are named by the variable that holds them. -/
inductive Call where
  | create (params : CreateParams)
  | openAs (oid : Uuid) (mode : OpenMode) (h : Nat)
  | close (h : Nat)
  | sealObject (oid : Uuid)
  | delete (oid : Uuid) (force : Bool)
  | setSensitivity (oid : Uuid) (level : Sensitivity)
  | write (h : Nat) (offset : UInt64) (data : Buffer)
  | replace (h : Nat) (data : Payload)
  | stage (h : Nat) (stagingCell : Uuid)
  | commit (h : Nat)
  | abort (h : Nat)
  | commitBatch (handles : List Nat)
  | abortBatch (handles : List Nat)
  | reviewBegin (h : Nat) (spec : EpistemicSpec)
  | reviewVote (id : UInt64) (evidence : Uuid) (approve : Bool)
  | reviewGet (id : UInt64)
  | reviewDestroy (id : UInt64)

/-- An empty store (C `anx_objstore_init`). -/
def Store.boot (sha256 : List UInt8 → Digest) : Store where
  sha256 := sha256
  objects := []
  table := []
  handles := fun _ => ⟨none, .read, 0⟩
  records := []
  sequence := 0

def Call.exec (env : Env) : Call → Prog Unit
  | .create params => discard (soCreate env params)
  | .openAs oid mode h => soOpen env oid mode h
  | .close h => soClose h
  | .sealObject oid => soSeal oid
  | .delete oid force => soDelete oid force
  | .setSensitivity oid level => objectSetSensitivity oid level
  | .write h offset data => soWritePayload env h offset data
  | .replace h data => soReplacePayload env h data
  | .stage h cell => objectStage env h cell
  | .commit h => objectCommit env h
  | .abort h => objectAbort env h
  | .commitBatch handles => objectCommitBatch env handles
  | .abortBatch handles => objectAbortBatch env handles
  | .reviewBegin h spec => discard (epistemicBegin env h spec)
  | .reviewVote id evidence approve => discard (epistemicVote env id evidence approve)
  | .reviewGet id => discard (epistemicGet env id)
  | .reviewDestroy id => epistemicDestroy env id

/-- The calls that resolve stages: whether they publish, and the handles they are given. -/
def Call.resolves : Call → Option (Bool × List Nat)
  | .commit h => some (true, [h])
  | .abort h => some (false, [h])
  | .commitBatch handles => some (true, handles)
  | .abortBatch handles => some (false, handles)
  | _ => none

/-- The calls that assign to no handle variable and neither open, vote on nor free a review. -/
def Call.plain : Call → Bool
  | .openAs .. | .close _ | .reviewBegin .. | .reviewVote .. | .reviewDestroy _ => false
  | _ => true

def Store.step (s : Store) (c : Call × Env) : Store :=
  final (c.1.exec c.2) s

def Store.succeeds (s : Store) (c : Call × Env) : Bool :=
  (outcome (c.1.exec c.2) s).isOk

def Store.strays (s : Store) (c : Call × Env) : Bool :=
  match c.1 with
  | .write h offset data =>
    match s.held h with
    | some (_, obj) => obj.target.overruns offset data
    | none => false
  | _ => false

def Store.publishesNew (s : Store) (h : Nat) : Bool :=
  (s.held h).all fun (_, obj) => obj.staged.all fun stage => stage.shadow != obj.payload

/-- A payload that the call puts in place is not the one that is there. -/
def Store.renews (s : Store) (c : Call × Env) : Bool :=
  match c.1 with
  | .write h offset data => (s.held h).all fun (_, obj) =>
      obj.staged.isSome || obj.payload.write offset data c.2.junk != some obj.payload
  | .replace h data => (s.held h).all fun (_, obj) =>
    obj.staged.isSome || data.replacement != obj.payload
  | x => match x.resolves with
    | some (true, handles) => handles.all s.publishesNew
    | _ => true

/-- What a call makes of the payload that writes to the object `i` go to. -/
def Store.written (s : Store) (i : Nat) (c : Call × Env) (p : Payload) : Payload :=
  match c.1 with
  | .write h offset data =>
    if s.succeeds c ∧ (s.handles h).obj = some i then (p.write offset data c.2.junk).getD p else p
  | .replace h data => if s.succeeds c ∧ (s.handles h).obj = some i then data.replacement else p
  | _ => p

inductive Touch (s : Store) (c : Call × Env) (i : Nat) (obj : StateObject) :
    StateObject → Prop where
  | keep (quiet : s.written i c = id) : Touch s c i obj obj
  | label (quiet : s.written i c = id) (level : Sensitivity) :
    Touch s c i obj { obj with sensitivity := level, sensitivityOrigin := .nil }
  | sealing (quiet : s.written i c = id) (unstaged : obj.staged = none)
      (active : obj.state = .active) :
    Touch s c i obj { obj with state := .sealed }
  | delete (quiet : s.written i c = id) (unstaged : obj.staged = none) {oid : Uuid} {force : Bool}
    (call : c.1 = .delete oid force) (found : s.lookup oid = some (i, obj)) :
    Touch s c i obj { obj with state := .deleted }
  | assign {h : Nat} (writes : s.Writes h i) (unsealed : obj.state ≠ .sealed) :
    Touch s c i obj (obj.assign s.sha256 (s.written i c obj.target))
  | stage (quiet : s.written i c = id) (cell : Uuid) (unsealed : obj.closed = false)
    (unstaged : obj.staged = none) :
    Touch s c i obj { obj with staged := some (obj.newStage cell) }
  | review (quiet : s.written i c = id) {stage : StagedMutation} (staged : obj.staged = some stage)
    (id : UInt64) : Touch s c i obj { obj with staged := some { stage with epistemicId := id } }
  | resolve (quiet : s.written i c = id) {stage : StagedMutation} (staged : obj.staged = some stage)
    (commit : Bool) : Touch s c i obj (obj.resolved s.sha256 commit)

/-! ## What a step can do -/

section Step

variable {s s' : Store} {c : Call × Env} {env : Env} {i h addr : Nat} {obj : StateObject} {x : Call}
  {commit : Bool} {handles : List Nat}

lemma written_eq_id (hw : ∀ h offset data, c.1 ≠ .write h offset data)
    (hr : ∀ h data, c.1 ≠ .replace h data) : s.written i c = id := by
  unfold Store.written
  split
  · rename_i h offset data e
    exact absurd e (hw h offset data)
  · rename_i h data e
    exact absurd e (hr h data)
  · rfl

lemma written_of_fails (hf : s.succeeds c = false) : s.written i c = id := by
  funext p
  unfold Store.written
  split
  · simp [hf]
  · simp [hf]
  · rfl

lemma written_of_ne (hne : i ≠ addr)
    (hc : ∀ h, ((∃ offset data, c.1 = .write h offset data) ∨ ∃ data, c.1 = .replace h data) →
      (s.handles h).obj = some addr) : s.written i c = id := by
  have hno : ∀ h, (s.handles h).obj = some addr → ¬ (s.handles h).obj = some i := by
    intro h ha hi
    exact hne (Option.some.inj (hi.symm.trans ha))
  funext p
  unfold Store.written
  split
  · rename_i h offset data e
    simp [hno h (hc h (.inl ⟨offset, data, e⟩))]
  · rename_i h data e
    simp [hno h (hc h (.inr ⟨data, e⟩))]
  · rfl

/-- Every object that is there stays there and was touched in one of the ways listed. -/
def Touches (s : Store) (c : Call × Env) (s' : Store) : Prop :=
  ∀ i obj, s.objects[i]? = some obj → ∃ obj', s'.objects[i]? = some obj' ∧ Touch s c i obj obj'

/-- The other objects are new, and a version changes with the payload only, if the call renews
it. -/
structure Tracks (s : Store) (c : Call × Env) (s' : Store) : Prop where
  touches : Touches s c s'
  created : ∀ (i : Nat) obj', s'.objects[i]? = some obj' → s.objects[i]? = none →
    ∃ params, c.1 = .create params ∧ obj' = s.fresh c.2.freshOid params
  counts : s.renews c = true → ∀ (i : Nat) obj obj', s.objects[i]? = some obj →
    s'.objects[i]? = some obj' → obj'.version = obj.version ∨ obj'.payload ≠ obj.payload

lemma tracks_of_cases (h : ∀ i, (s'.objects[i]? = s.objects[i]? ∧ s.written i c = id) ∨
    ∃ old new, s.objects[i]? = some old ∧ s'.objects[i]? = some new ∧ Touch s c i old new ∧
      (s.renews c = true → new.version = old.version ∨ new.payload ≠ old.payload)) :
      Tracks s c s' := by
  refine ⟨fun i obj ho => ?_, fun i obj' ho' hnone => ?_, fun hc i obj obj' ho ho' => ?_⟩
  · rcases h i with ⟨he, hq⟩ | ⟨old, new, hold, hnew, htouch, -⟩
    · exact ⟨obj, he.trans ho, .keep hq⟩
    · cases hold.symm.trans ho
      exact ⟨new, hnew, htouch⟩
  · rcases h i with ⟨he, -⟩ | ⟨old, new, hold, -⟩
    · cases ho'.symm.trans (he.trans hnone)
    · cases hold.symm.trans hnone
  · rcases h i with ⟨he, -⟩ | ⟨old, new, hold, hnew, -, hcounts⟩
    · cases ho.symm.trans (he.symm.trans ho')
      exact .inl rfl
    · cases hold.symm.trans ho
      cases hnew.symm.trans ho'
      exact hcounts hc

lemma tracks_of_objects (hq : ∀ i, s.written i c = id) (h : s'.objects = s.objects) :
    Tracks s c s' :=
  tracks_of_cases fun i => .inl ⟨by rw [h], hq i⟩

lemma tracks_of_set {old new : StateObject} (ho : s.objects[addr]? = some old)
    (hnew : Touch s c addr old new) (hq : ∀ i, i ≠ addr → s.written i c = id)
    (h : s'.objects = (s.setObject addr new).objects)
    (hcounts : s.renews c = true → new.version = old.version ∨ new.payload ≠ old.payload := by
      exact fun _ => .inl rfl) : Tracks s c s' := by
  refine tracks_of_cases fun i => ?_
  by_cases he : i = addr
  · subst he
    exact .inr ⟨old, new, ho, by rw [h, getElem?_setObject_self ho], hnew, hcounts⟩
  · exact .inl ⟨by rw [h, getElem?_setObject_of_ne he], hq i he⟩

/-- The records keep their ballots, and no identifier is drawn. -/
structure Still (s s' : Store) : Prop extends SameBallots s s' where
  sha256 : s'.sha256 = s.sha256
  sequence : s'.sequence = s.sequence

structure Rest (s s' : Store) : Prop extends Still s s' where
  handles : s'.handles = s.handles

lemma still_of_records (hsha : s'.sha256 = s.sha256) (hseq : s'.sequence = s.sequence)
    (hrec : s'.records = s.records) : Still s s' := by
  refine ⟨⟨by rw [hrec], fun id => ?_⟩, hsha, hseq⟩
  rw [Store.find, Store.find, hrec]

lemma OnlyViews.rest (h : OnlyViews s s') : Rest s s' :=
  ⟨⟨h.toSameBallots, h.sha256, h.sequence⟩, h.handles⟩

lemma rest_of_objects (h : s' = { s with objects := s'.objects, table := s'.table }) :
    Rest s s' := by
  rw [h]
  exact ⟨still_of_records rfl rfl rfl, rfl⟩

/-- What a call does to the objects unless its write strays, and to the rest if it is plain. -/
structure Stepped (s : Store) (c : Call × Env) (s' : Store) : Prop where
  tracks : s.strays c = false → Tracks s c s'
  rest : c.1.plain = true → Rest s s'

lemma stepped_of_ends
    (h : Ends (x.exec env) s (fun _ s' => s.succeeds (x, env) = true → Stepped s (x, env) s')
      (fun _ s' => s'.objects = s.objects ∧ (x.plain = true → Rest s s'))) :
    Stepped s (x, env) (s.step (x, env)) := by
  cases hs : s.succeeds (x, env) with
  | true => exact h.of_succeeds hs hs
  | false =>
    obtain ⟨hobjects, hrest⟩ := h.of_fails hs
    exact ⟨fun _ => tracks_of_objects (fun _ => written_of_fails hs) hobjects, hrest⟩

lemma failed_of_eq {P : Prop} (h : s' = s) : s'.objects = s.objects ∧ (P → Rest s s') :=
  ⟨by rw [h], fun _ => rest_of_objects (by rw [h])⟩

lemma assign_counts {sha256 : List UInt8 → Digest} {p : Payload}
    (h : obj.staged = none → p ≠ obj.payload) :
    (obj.assign sha256 p).version = obj.version ∨ (obj.assign sha256 p).payload ≠ obj.payload := by
  unfold StateObject.assign
  cases hstaged : obj.staged with
  | some stage => exact .inl rfl
  | none => exact .inr (h hstaged)

lemma stepped_write {offset : UInt64} {data : Buffer} :
    Stepped s (.write h offset data, env) (s.step (.write h offset data, env)) := by
  refine stepped_of_ends (.mono soWritePayload_ends ?_ fun _ _ => failed_of_eq)
  rintro _ s' ⟨addr, obj, hw, ho, hsealed, hs'⟩ hok
  have hheld : s.held h = some (addr, obj) := held_eq_some.mpr ⟨hw.1, ho⟩
  cases hp : obj.target.write offset data env.junk with
  | none =>
    rw [hp] at hs'
    refine ⟨fun hn => absurd (write_eq_none.mp hp) ?_, fun _ => rest_of_objects (by rw [hs'])⟩
    simpa [Store.strays, hheld] using hn
  | some p =>
    rw [hp] at hs'
    have hself : s.written addr (.write h offset data, env) obj.target = p := by
      simp [Store.written, hok, hw.1, hp]
    have htouch := Touch.assign (c := (.write h offset data, env)) hw hsealed
    rw [hself] at htouch
    refine ⟨fun _ =>
      tracks_of_set ho htouch (fun i hi => written_of_ne hi fun h' hc => ?_) (by rw [hs'])
      fun hnew => assign_counts fun hstaged hsame => ?_,
      fun _ => rest_of_objects (by rw [hs']; rfl)⟩
    · rcases hc with ⟨_, _, e⟩ | ⟨_, e⟩
      · cases e
        exact hw.1
      · cases e
    · simp only [StateObject.target, hstaged] at hp
      simp [Store.renews, hheld, hstaged, hp, hsame] at hnew

lemma stepped_replace {data : Payload} :
    Stepped s (.replace h data, env) (s.step (.replace h data, env)) := by
  refine stepped_of_ends (.mono soReplacePayload_ends ?_ fun _ _ => failed_of_eq)
  rintro _ s' ⟨addr, obj, hw, ho, hsealed, hs'⟩ hok
  have hself : s.written addr (.replace h data, env) obj.target = data.replacement := by
    simp [Store.written, hok, hw.1]
  have htouch := Touch.assign (c := (.replace h data, env)) hw hsealed
  rw [hself] at htouch
  refine ⟨fun _ =>
    tracks_of_set ho htouch (fun i hi => written_of_ne hi fun h' hc => ?_) (by rw [hs'])
    fun hnew => assign_counts fun hstaged hsame => ?_, fun _ => rest_of_objects (by rw [hs']; rfl)⟩
  · rcases hc with ⟨_, _, e⟩ | ⟨_, e⟩
    · cases e
    · cases e
      exact hw.1
  · simp [Store.renews, held_eq_some.mpr ⟨hw.1, ho⟩, hstaged, hsame] at hnew

lemma resolves_ends (hr : x.resolves = some (commit, handles)) :
    Ends (x.exec env) s (fun _ s' => s.Settles env commit handles s')
    (fun _ s' => OnlyViews s s') := by
  cases x with
  | commit h => cases hr; exact objectCommit_ends
  | abort h => cases hr; exact objectAbort_ends
  | commitBatch hl => cases hr; exact resolveBatch_ends
  | abortBatch hl => cases hr; exact resolveBatch_ends
  | _ => cases hr

lemma stepped_resolves (hr : x.resolves = some (commit, handles))
    (hq : ∀ i, s.written i (x, env) = id) : Stepped s (x, env) (s.step (x, env)) := by
  refine stepped_of_ends (.mono (resolves_ends hr) ?_
    fun _ _ hviews => ⟨hviews.objects, fun _ => hviews.rest⟩)
  rintro _ s' ⟨targets, hlists, hall, hb⟩ -
  refine ⟨fun _ => ?_, fun _ => ⟨⟨hb.toSameBallots, hb.sha256, hb.sequence⟩, hb.handles⟩⟩
  refine tracks_of_cases fun i => ?_
  by_cases hi : i ∈ targets.map Prod.fst
  · obtain ⟨t, ht, rfl⟩ := mem_map.mp hi
    obtain ⟨h, hh, hw, hobj⟩ := hlists.listed t ht
    obtain ⟨stage, hstage⟩ := (hall t ht).1
    refine .inr ⟨t.2, _, hobj, hb.member t ht, .resolve (hq _) hstage commit, fun hnew => ?_⟩
    rw [StateObject.resolved, hstage]
    cases commit with
    | false => exact .inl rfl
    | true =>
      have hall : handles.all s.publishesNew = true := by
        cases x <;> cases hr <;> exact hnew
      have hnew := all_eq_true.mp hall h hh
      simp only [Store.publishesNew, held_eq_some.mpr ⟨hw.1, hobj⟩, Option.all_some, hstage,
        bne_iff_ne] at hnew
      exact .inr hnew
  · exact .inl ⟨hb.other i hi, hq i⟩

lemma step_stepped (s : Store) (c : Call × Env) : Stepped s c (s.step c) := by
  obtain ⟨x, env⟩ := c
  have quiet : (∀ h offset data, x ≠ .write h offset data) → (∀ h data, x ≠ .replace h data) →
      ∀ i, s.written i (x, env) = id := fun hw hr i => written_eq_id hw hr
  have failed : ∀ (e : Err) s', s' = s → s'.objects = s.objects ∧ (x.plain = true → Rest s s') :=
    fun _ _ => failed_of_eq
  cases x with
  | create params =>
    refine stepped_of_ends (.call soCreate_ends ?_ failed)
    rintro _ s' ⟨-, rfl⟩ -
    have hold : ∀ i obj, s.objects[i]? = some obj →
        (s.objects ++ [s.fresh env.freshOid params])[i]? = some obj := fun i obj ho => by
      rw [getElem?_append_left (getElem?_eq_some_iff.mp ho).1, ho]
    refine ⟨fun _ => ⟨fun i obj ho => ⟨obj, hold i obj ho, .keep (quiet nofun nofun i)⟩,
      fun i obj' ho' hnone => ?_, fun _ i obj obj' ho ho' => ?_⟩, fun _ => rest_of_objects rfl⟩
    · rw [getElem?_append_right (getElem?_eq_none_iff.mp hnone)] at ho'
      exact ⟨params, rfl, mem_singleton.mp (mem_of_getElem? ho')⟩
    · cases (hold i obj ho).symm.trans ho'
      exact .inl rfl
  | openAs oid mode h =>
    refine stepped_of_ends (.mono soOpen_ends ?_ ?_)
    · rintro _ s' ⟨addr, obj, -, -, -, rfl⟩ -
      exact ⟨fun _ => tracks_of_objects (quiet nofun nofun) rfl, nofun⟩
    · rintro _ s' rfl
      exact ⟨rfl, nofun⟩
  | close h => exact ⟨fun _ => tracks_of_objects (quiet nofun nofun) rfl, nofun⟩
  | sealObject oid =>
    refine stepped_of_ends (.mono soSeal_ends ?_ failed)
    rintro _ s' ⟨addr, obj, -, ho, hstaged, hactive, rfl⟩ -
    exact ⟨fun _ => tracks_of_set ho (.sealing (quiet nofun nofun addr) hstaged hactive)
      (fun i _ => quiet nofun nofun i) rfl, fun _ => rest_of_objects rfl⟩
  | delete oid force =>
    refine stepped_of_ends (.mono soDelete_ends ?_ failed)
    rintro _ s' ⟨addr, obj, hl, ho, hstaged, rfl⟩ -
    exact ⟨fun _ => tracks_of_set ho (.delete (quiet nofun nofun addr) hstaged rfl hl)
      (fun i _ => quiet nofun nofun i) rfl, fun _ => rest_of_objects rfl⟩
  | setSensitivity oid level =>
    refine stepped_of_ends (.mono objectSetSensitivity_ends ?_ failed)
    rintro _ s' ⟨addr, obj, ho, rfl⟩ -
    exact ⟨fun _ => tracks_of_set ho (.label (quiet nofun nofun addr) level)
      (fun i _ => quiet nofun nofun i) rfl, fun _ => rest_of_objects rfl⟩
  | write h offset data => exact stepped_write
  | replace h data => exact stepped_replace
  | stage h cell =>
    refine stepped_of_ends (.mono objectStage_ends ?_ failed)
    rintro _ s' ⟨addr, obj, hw, ho, hclosed, hstaged, rfl⟩ -
    exact ⟨fun _ => tracks_of_set ho (.stage (quiet nofun nofun addr) cell hclosed hstaged)
      (fun i _ => quiet nofun nofun i) rfl, fun _ => rest_of_objects rfl⟩
  | commit h => exact stepped_resolves rfl (quiet nofun nofun)
  | abort h => exact stepped_resolves rfl (quiet nofun nofun)
  | commitBatch handles => exact stepped_resolves rfl (quiet nofun nofun)
  | abortBatch handles => exact stepped_resolves rfl (quiet nofun nofun)
  | reviewBegin h spec =>
    refine stepped_of_ends (.call epistemicBegin_ends ?_ failed)
    rintro _ s' ⟨addr, obj, stage, _, _, hheld, hstage, -, -, -, -, rfl⟩ -
    exact ⟨fun _ =>
      tracks_of_set (held_eq_some.mp hheld).2 (.review (quiet nofun nofun addr) hstage _)
      (fun i _ => quiet nofun nofun i) rfl, nofun⟩
  | reviewVote id evidence approve =>
    refine stepped_of_ends (.call epistemicVote_ends ?_ ?_)
    · rintro _ s' ⟨_, _, _, _, _, -, rfl⟩ -
      exact ⟨fun _ => tracks_of_objects (quiet nofun nofun) rfl, nofun⟩
    · rintro _ s' (rfl | ⟨_, _, _, _, -, -, rfl⟩)
      · exact ⟨rfl, nofun⟩
      · exact ⟨rfl, nofun⟩
  | reviewGet id =>
    refine stepped_of_ends (.call epistemicGet_ends ?_ failed)
    rintro _ s' hs' -
    exact ⟨fun _ => tracks_of_objects (quiet nofun nofun) hs'.objects, fun _ => hs'.rest⟩
  | reviewDestroy id =>
    refine stepped_of_ends (.mono epistemicDestroy_ends ?_ failed)
    rintro _ s' rfl -
    exact ⟨fun _ => tracks_of_objects (quiet nofun nofun) rfl, nofun⟩

lemma step_tracks (hn : s.strays c = false) : Tracks s c (s.step c) :=
  (step_stepped s c).tracks hn

lemma step_rest (hc : c.1.plain = true) : Rest s (s.step c) :=
  (step_stepped s c).rest hc

end Step

end Anunix.Object
