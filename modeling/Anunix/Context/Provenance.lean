import Anunix.Context.Calls
import Anunix.Object.Gate

/-!
# Provenance is not laundered

Runs of the context calls with anything happening to objects and cells in between. Each text of a
compiled bundle is placed within the ceilings of every import it was derived from, belongs to the
owner of all of them, is labelled no lower, and all of them are at the compilation what they were
when their records were made.
-/

namespace Anunix.Context
open Fallible Object Slots

/-! ## Runs -/

def State.boot (sha256 : List UInt8 → Digest) : State where
  store := Store.boot sha256
  records := List.replicate contextMax none
  sequence := 0
  out := .empty

inductive Input where
  | outside (change : Store → Store)
  | load (owner source : Uuid) (origin : Origin) (a : Around)
  | derive (owner source : Uuid) (parents : List UInt64) (a : Around)
  | get (id : UInt64) (a : Around)
  | compile (owner : Uuid) (spec : List SpecSegment) (a : Around)
  | destroy (id : UInt64) (a : Around)

/-- Run an input. The hash function is the same at all times. -/
def Input.exec : Input → CProg Unit
  | .outside change => modify fun s =>
    { s with store := { change s.store with sha256 := s.store.sha256 } }
  | .load owner source origin a => discard (contextImport a owner source origin)
  | .derive owner source parents a => discard (contextDerive a owner source parents)
  | .get id a => discard (contextGet a id)
  | .compile owner spec a => contextCompile a owner spec
  | .destroy id a => contextDestroy a id

def State.step (s : State) (x : Input) : State :=
  final x.exec s

def State.succeeds (s : State) (x : Input) : Bool :=
  (outcome x.exec s).isOk

def stateAt (sha256 : List UInt8 → Digest) (run : List Input) (n : Nat) : State :=
  Run.after State.step (State.boot sha256) run n

/-! ## One step -/

/-- The input makes a record of this owner, source, origin and parents. -/
inductive Input.Makes (r : Record) : Input → Prop where
  | load (a : Around) (imported : r.view.origin ≠ .derived) (parents : r.parents = []) :
    Makes r (.load r.view.owner r.view.source r.view.origin a)
  | derive (a : Around) (derived : r.view.origin = .derived) :
    Makes r (.derive r.view.owner r.view.source r.parents a)

/-- What the records are after an input: one more, one less, or the same. -/
inductive Turn (s : State) (x : Input) (s' : State) : Prop where
  | keep (records : s'.records = s.records) (sequence : s'.sequence = s.sequence)
    (hash : s'.store.sha256 = s.store.sha256)
  | make (owner source : Uuid) (origin : Origin) (parents : List UInt64) (r : Record)
      (call : x.Makes r)
    (ok : s.succeeds x = true) (created : Created owner source origin parents s r s')
  | destroy (r : Record) (gone : Destroyed s r s')

section Step

variable {s s' : State} {x : Input} {a : Around} {owner source : Uuid} {spec : List SpecSegment}
  {i : Nat} {r : Record}

lemma load_ends {origin : Origin} : Atomic (Input.load owner source origin a).exec s
      (fun _ s' => origin ≠ .derived ∧ ∃ r, Created owner source origin [] s r s') := by
  refine Ends.discard (.guard fun horigin => Ends.post create_ends ?_)
  rintro view s' ⟨r, -, hc⟩
  exact ⟨of_decide_eq_false horigin, r, hc⟩

lemma derive_ends {parents : List UInt64} : Atomic (Input.derive owner source parents a).exec s
      (fun _ s' => ∃ r, Created owner source .derived parents s r s') := by
  refine Ends.discard (.post create_ends ?_)
  rintro view s' ⟨r, -, hc⟩
  exact ⟨r, hc⟩

lemma get_ends {id : UInt64} : Atomic (Input.get id a).exec s (fun _ s' => s' = s) := by
  refine Ends.discard (.guard fun _ => .get_bind ?_)
  refine .fetch fun r _ => .lift fun _ _ => ?_
  exact .lift fun _ _ => rfl

lemma Turn.of_eq (h : s' = s) : Turn s x s' := by
  rw [h]
  exact .keep rfl rfl rfl

lemma Turn.of_atomic {Q : Unit → State → Prop} (h : Atomic x.exec s Q)
    (hQ : ∀ s', s.succeeds x = true → Q () s' → Turn s x s') : Turn s x (s.step x) := by
  cases hok : s.succeeds x with
  | true => exact hQ _ hok (h.of_succeeds hok)
  | false => exact .of_eq (h.of_fails hok)

lemma step_turn (hs : Sound s) (x : Input) : Turn s x (s.step x) := by
  cases x with
  | outside change => exact .keep rfl rfl rfl
  | load owner source origin a =>
    refine .of_atomic load_ends ?_
    rintro s' hok ⟨horigin, r, hc⟩
    have hcall : (Input.load owner source origin a).Makes r := by
      rw [← hc.owner, ← hc.source, ← hc.origin]
      exact .load a (hc.origin ▸ horigin) hc.derived
    exact .make owner source origin [] r hcall hok hc
  | derive owner source parents a =>
    refine .of_atomic derive_ends ?_
    rintro s' hok ⟨r, hc⟩
    have hcall : (Input.derive owner source parents a).Makes r := by
      rw [← hc.owner, ← hc.source, ← hc.derived]
      exact .derive a hc.origin
    exact .make owner source .derived parents r hcall hok hc
  | get id a => exact .of_atomic get_ends fun _ _ => .of_eq
  | compile owner spec a =>
    refine .of_atomic (contextCompile_ends hs) ?_
    rintro s' - ⟨b, rfl, -⟩
    exact .keep rfl rfl rfl
  | destroy id a =>
    refine .of_atomic contextDestroy_ends ?_
    rintro s' - ⟨r, hd⟩
    exact .destroy r hd

lemma Sound.turn (hs : Sound s) (ht : Turn s x s') : Sound s' := by
  cases ht with
  | keep records sequence hash =>
    exact ⟨by rw [records, sequence]; exact hs.graph, by rw [records]; exact hs.counted⟩
  | make owner source origin parents r call ok created => exact hs.created created
  | destroy r gone => exact hs.destroyed gone

lemma Turn.sha256 (ht : Turn s x s') : s'.store.sha256 = s.store.sha256 := by
  cases ht with
  | keep records sequence hash => exact hash
  | make owner source origin parents r call ok created => rw [created.next]
  | destroy r gone => rw [gone.next]

def SameRecord (r r₀ : Record) : Prop :=
  r.view = r₀.view ∧ r.parents = r₀.parents

/-- The step lemma of the records: what is there was there, or has just been made. -/
lemma step_records (hs : Sound s) (hget : get (s.step x).records i = some r) :
    (∃ r0, get s.records i = some r0 ∧ SameRecord r r0) ∨
      ∃ r0, SameRecord r r0 ∧ x.Makes r0 ∧ s.succeeds x = true ∧ s.find r0.view.id = none ∧
        (∃ r', (s.step x).find r0.view.id = some r' ∧ r'.view = r0.view) ∧ ∃ obj,
        Current s r0 obj := by
  have hnext : Sound (s.step x) := hs.turn (step_turn hs x)
  cases step_turn hs x with
  | keep records sequence hash => exact .inl ⟨r, records ▸ hget, rfl, rfl⟩
  | make owner source origin parents r1 call ok created =>
    have hthere := hget
    rw [created.next] at hget
    obtain ⟨r0, hr0, rfl⟩ := get_countReferences hget
    rcases of_get_set hr0 with ⟨rfl, ⟨⟩⟩ | ⟨-, hr0⟩
    · refine .inr ⟨r1, ⟨rfl, rfl⟩, call, ok, ?_,
        ⟨r1.counted (· + ·) parents, hnext.find hthere, rfl⟩, created.captured⟩
      -- The identifier has not been given out before.
      cases hold : s.find r1.view.id with
      | none => rfl
      | some q =>
        obtain ⟨j, hq, hid⟩ := get_of_find hold
        have hle := hs.graph.ids j q hq
        rw [hid, created.id] at hle
        exact absurd (sequence_lt created.room) (UInt64.not_lt.mpr hle)
    · exact .inl ⟨r0, hr0, rfl, rfl⟩
  | destroy r1 gone =>
    rw [gone.next] at hget
    obtain ⟨r0, hr0, rfl⟩ := get_countReferences hget
    exact .inl ⟨r0, (ne_of_get_set_none hr0).2, rfl, rfl⟩

end Step

/-! ## Runs -/

structure CapturedAt (sha256 : List UInt8 → Digest) (run : List Input) (k : Nat) (r : Record)
    (obj : StateObject) : Prop where
  call : ∃ x, run[k]? = some x ∧ x.Makes r ∧ (stateAt sha256 run k).succeeds x = true
  fresh : (stateAt sha256 run k).find r.view.id = none
  made : ∃ r', (stateAt sha256 run (k + 1)).find r.view.id = some r' ∧ r'.view = r.view
  found : ∃ addr, (stateAt sha256 run k).store.lookup r.view.source = some (addr, obj)

/-- The source of a record holds after `n` inputs what it held when the record was made. -/
def Unchanged (sha256 : List UInt8 → Digest) (run : List Input) (n : Nat) (r : Record) : Prop :=
  ∃ k obj₀ addr obj, k < n ∧ CapturedAt sha256 run k r obj₀ ∧
    (stateAt sha256 run n).store.lookup r.view.source = some (addr, obj) ∧
    obj.version = obj₀.version ∧
    sha256 obj.payload.bytes = sha256 obj₀.payload.bytes ∧ obj.sensitivity = obj₀.sensitivity

/-- What stands behind a text of a bundle that is compiled after `n` inputs. -/
structure Attested (sha256 : List UInt8 → Digest) (run : List Input) (n : Nat) (owner : Uuid)
    (g : BundleSegment) (r : Record) : Prop where
  found : (stateAt sha256 run n).find g.id = some r
  owners : ∀ q, (stateAt sha256 run n).Ancestor r q → q.view.owner = owner
  labels : ∀ q, (stateAt sha256 run n).Ancestor r q → q.view.sensitivity ≤ r.view.sensitivity
  ceilings : ∀ q, (stateAt sha256 run n).Ancestor r q → q.view.origin ≠ .derived →
    g.role.toNat ≤ q.view.origin.roleCeiling.code ∧ g.scope.toNat ≤ q.view.origin.scopeCeiling.code
  unchanged : ∀ q, (stateAt sha256 run n).Ancestor r q → Unchanged sha256 run n q
  imported : ∃ q, (stateAt sha256 run n).Ancestor r q ∧ q.view.origin ≠ .derived

structure ProvenanceSound (sha256 : List UInt8 → Digest) (run : List Input) : Prop where
  /-- A compiled bundle has the texts that were asked for, each of them attested, and their current
      payloads one after another. -/
  compiled : ∀ n owner spec a, run[n]? = some (.compile owner spec a) →
    (stateAt sha256 run n).succeeds (.compile owner spec a) = true →
    let b := (stateAt sha256 run (n + 1)).out
    b.segments.map BundleSegment.request = spec ∧
      (∀ g ∈ b.segments, ∃ r, Attested sha256 run n owner g r) ∧
      b.bytes = (b.segments.map fun g => (stateAt sha256 run n).payloadOf g.id).flatten ∧
      ∀ g ∈ b.segments,
        (b.bytes.drop g.offset).take g.size.toNat = (stateAt sha256 run n).payloadOf g.id
  refused : ∀ n owner spec a, run[n]? = some (.compile owner spec a) →
    (stateAt sha256 run n).succeeds (.compile owner spec a) = false →
    (stateAt sha256 run (n + 1)).out = (stateAt sha256 run n).out
  acyclic : ∀ n r, ¬ Relation.TransGen (stateAt sha256 run n).Parent r r
  resolved : ∀ n i r, get (stateAt sha256 run n).records i = some r →
    ∀ p ∈ r.parents, ∃ q, (stateAt sha256 run n).find p = some q

section Runs

variable {sha256 : List UInt8 → Digest} {run : List Input} {n i : Nat} {r : Record} {x : Input}
  {owner : Uuid} {b : Bundle}

lemma stateAt_succ (h : run[n]? = some x) :
    stateAt sha256 run (n + 1) = (stateAt sha256 run n).step x :=
  Run.after_succ State.step h

lemma sound_boot (sha256 : List UInt8 → Digest) : Sound (State.boot sha256) := by
  have hnone : ∀ {i r}, get (State.boot sha256).records i ≠ some r := by
    intro i r h
    exact absurd ((get_replicate_none contextMax).symm.trans h) nofun
  exact ⟨⟨List.length_replicate, fun _ _ h => absurd h hnone, fun _ _ _ _ h => absurd h hnone,
    fun _ _ h => absurd h hnone, fun _ _ h => absurd h hnone, fun _ _ h => absurd h hnone⟩,
    fun _ _ h => absurd h hnone⟩

lemma sound_stateAt (sha256 : List UInt8 → Digest) (run : List Input) (n : Nat) :
    Sound (stateAt sha256 run n) :=
  Run.after_invariant State.step (sound_boot sha256) (fun _ x hs => hs.turn (step_turn hs x)) n

lemma sha256_stateAt (sha256 : List UInt8 → Digest) (run : List Input) (n : Nat) :
    (stateAt sha256 run n).store.sha256 = sha256 := by
  have h : Sound (stateAt sha256 run n) ∧ (stateAt sha256 run n).store.sha256 = sha256 :=
    Run.after_invariant (I := fun s : State => Sound s ∧ s.store.sha256 = sha256) State.step
      ⟨sound_boot sha256, rfl⟩
      (fun _ x h => ⟨h.1.turn (step_turn h.1 x), (step_turn h.1 x).sha256.trans h.2⟩) n
  exact h.2

/-- The run lemma of the records: each has been made by an earlier input, out of an object that it
    still describes. -/
lemma exists_capturedAt (hget : get (stateAt sha256 run n).records i = some r) :
    ∃ k obj, k < n ∧ CapturedAt sha256 run k r obj ∧ obj.version = r.view.version ∧
      sha256 obj.payload.bytes = r.view.digest ∧ obj.sensitivity = r.view.sensitivity := by
  induction n generalizing r with
  | zero => exact absurd ((get_replicate_none contextMax).symm.trans hget) nofun
  | succ n ih =>
    -- The count of references is no part of what is captured.
    have hsame : ∀ {r0 k obj}, SameRecord r r0 → CapturedAt sha256 run k r0 obj →
        CapturedAt sha256 run k r obj := by
      rintro r0 k obj ⟨hview, hparents⟩ ⟨⟨x, hx, hmakes, hok⟩, hfresh, hmade, hfound⟩
      refine ⟨⟨x, hx, ?_, hok⟩, hview ▸ hfresh, hview ▸ hmade, hview ▸ hfound⟩
      cases hmakes with
      | load a imported parents =>
        rw [← hview]
        exact .load a (hview ▸ imported) (hparents.trans parents)
      | derive a derived =>
        rw [← hview, ← hparents]
        exact .derive a (hview ▸ derived)
    cases hx : run[n]? with
    | none =>
      have he : stateAt sha256 run (n + 1) = stateAt sha256 run n :=
        Run.after_succ_none State.step hx
      rw [he] at hget
      obtain ⟨k, obj, hk, hrest⟩ := ih hget
      exact ⟨k, obj, Nat.lt_succ_of_lt hk, hrest⟩
    | some x =>
      rw [stateAt_succ hx] at hget
      rcases step_records (sound_stateAt sha256 run n) hget with ⟨r0, hold, hr⟩ | hnew
      · obtain ⟨k, obj, hk, hcap, hversion, hdigest, hlabel⟩ := ih hold
        rw [← hr.1] at hversion hdigest hlabel
        exact ⟨k, obj, Nat.lt_succ_of_lt hk, hsame hr hcap, hversion, hdigest, hlabel⟩
      · obtain ⟨r0, hr, hmakes, hok, hfresh, hmade, obj, hcur⟩ := hnew
        rw [← stateAt_succ hx] at hmade
        have hdigest := hcur.digest
        rw [sha256_stateAt] at hdigest
        refine ⟨n, obj, Nat.lt_succ_self n,
          hsame hr ⟨⟨x, hx, hmakes, hok⟩, hfresh, hmade, hcur.found⟩, ?_⟩
        rw [hr.1]
        exact ⟨hcur.version, hdigest, hcur.sensitivity⟩

lemma Current.unchanged {obj : StateObject} (hcur : Current (stateAt sha256 run n) r obj)
    (hr : (stateAt sha256 run n).find r.view.id = some r) : Unchanged sha256 run n r := by
  obtain ⟨i, hget, -⟩ := get_of_find hr
  obtain ⟨k, obj0, hk, hcap, hversion, hdigest, hlabel⟩ := exists_capturedAt hget
  obtain ⟨addr, hfound⟩ := hcur.found
  have hnow := hcur.digest
  rw [sha256_stateAt] at hnow
  exact ⟨k, obj0, addr, obj, hk, hcap, hfound, hcur.version.trans hversion.symm,
    hnow.trans hdigest.symm, hcur.sensitivity.trans hlabel.symm⟩

lemma Placed.attested {g : BundleSegment} (h : Placed (stateAt sha256 run n) owner g r) :
    Attested sha256 run n owner g r := by
  have hs := sound_stateAt sha256 run n
  obtain ⟨i, hget, hid⟩ := get_of_find h.found
  have hr : (stateAt sha256 run n).find r.view.id = some r := hid ▸ h.found
  refine ⟨h.found, ?_, ?_, ?_, ?_, hs.exists_import hr⟩
  · intro q hq
    exact (hs.ancestor hr hq).2.owner.trans h.owner
  · intro q hq
    exact (hs.ancestor hr hq).2.sensitivity
  · intro q hq horigin
    obtain ⟨hfind, hb⟩ := hs.ancestor hr hq
    obtain ⟨j, hgetq, -⟩ := get_of_find hfind
    obtain ⟨hrole, hscope⟩ := (hs.graph.shape j q hgetq).imported horigin
    exact ⟨le_trans h.role (hrole ▸ hb.role), le_trans h.scope (hscope ▸ hb.scope)⟩
  · intro q hq
    obtain ⟨obj, hcur⟩ := h.clean q hq
    exact hcur.unchanged (hs.ancestor hr hq).1

/-- In every run a compiled bundle has the texts that were asked for, each of them attested. -/
theorem provenance_sound (sha256 : List UInt8 → Digest) (run : List Input) :
    ProvenanceSound sha256 run where
  compiled n owner spec a hn hok := by
    obtain ⟨b, hb, hfaithful, hreq⟩ :=
      (contextCompile_ends (sound_stateAt sha256 run n)).of_succeeds hok
    rw [(stateAt_succ hn).trans hb]
    refine ⟨hreq, fun g hg => ?_, hfaithful.bytes, fun g hg => (hfaithful.slices g hg).2⟩
    obtain ⟨r, hr⟩ := hfaithful.placed g hg
    exact ⟨r, hr.attested⟩
  refused n owner spec a hn hok := by
    have he := (contextCompile_ends (sound_stateAt sha256 run n)).of_fails hok
    rw [(stateAt_succ hn).trans he]
  acyclic n r := (sound_stateAt sha256 run n).acyclic r
  resolved n i r hget p hp := by
    have hs := sound_stateAt sha256 run n
    obtain ⟨j, q, hq, hid, -⟩ := hs.graph.parents i r hget p hp
    exact ⟨q, hid ▸ hs.find hq⟩

end Runs

/-! ## A text derived from user input -/

def Around.controller : Around where
  env := .panel none .nil
  ownerCell := fun _ => Cell.create ⟨2, 1⟩

def objectCall (c : Call) (freshOid : Uuid) : Input :=
  .outside fun store => store.happen (.call c (.panel none freshOid))

def derivedText (role : UInt32) : List Input :=
  [objectCall (.create twoBytes) ⟨1, 1⟩,
    objectCall (.create { twoBytes with parentOids := [⟨1, 1⟩] }) ⟨1, 2⟩,
    objectCall (.sealObject ⟨1, 1⟩) .nil, objectCall (.sealObject ⟨1, 2⟩) .nil,
    .load ⟨2, 1⟩ ⟨1, 1⟩ .userInput .controller, .derive ⟨2, 1⟩ ⟨1, 2⟩ [1] .controller,
    .compile ⟨2, 1⟩ [⟨2, role, 0⟩] .controller]

/-- What is derived from user input is compiled as a user's text, and not as the system's. -/
theorem provenance_sound_user : ProvenanceSound id (derivedText 1) ∧
      (stateAt id (derivedText 1) 7).out = ⟨[⟨2, 0, 2, 1, 0, [1, 2]⟩], [1, 2]⟩ ∧
      (stateAt id (derivedText 3) 6).succeeds (.compile ⟨2, 1⟩ [⟨2, 3, 0⟩] .controller) = false :=
  ⟨provenance_sound id (derivedText 1), by decide +kernel, by decide +kernel⟩

/-! ## Identifiers of records -/

/-- What stands under an identifier that is given out already is what stood there before. -/
def State.Keeps (s s' : State) : Prop :=
  Sound s → Sound s' ∧ s.sequence ≤ s'.sequence ∧
    ∀ id r, s'.find id = some r → id ≤ s.sequence → ∃ r₀, s.find id = some r₀ ∧ SameRecord r r₀

instance : IsPreorder State State.Keeps where
  refl s hs := ⟨hs, UInt64.le_refl _, fun _ r hr _ => ⟨r, hr, rfl, rfl⟩⟩
  trans s s' s'' h h' hs := by
    obtain ⟨hs', hle, hsame⟩ := h hs
    obtain ⟨hs'', hle', hsame'⟩ := h' hs'
    refine ⟨hs'', UInt64.le_trans hle hle', fun id r hr hid => ?_⟩
    obtain ⟨r', hr', hview, hparents⟩ := hsame' id r hr (UInt64.le_trans hid hle)
    obtain ⟨r₀, hr₀, hview₀, hparents₀⟩ := hsame id r' hr' hid
    exact ⟨r₀, hr₀, hview.trans hview₀, hparents.trans hparents₀⟩

lemma step_keeps (s : State) (x : Input) : s.Keeps (s.step x) := by
  intro hs
  refine ⟨hs.turn (step_turn hs x), ?_⟩
  cases step_turn hs x with
  | keep records sequence hash =>
    rw [sequence]
    refine ⟨UInt64.le_refl _, fun id r hr _ => ⟨r, ?_, rfl, rfl⟩⟩
    rw [State.find, records] at hr
    exact hr
  | make owner source origin parents r₁ call ok created =>
    have hlt : s.sequence < r₁.view.id := created.id ▸ sequence_lt created.room
    rw [created.next]
    refine ⟨UInt64.le_of_lt hlt, fun id r hr hid => ?_⟩
    obtain ⟨i, hget, rfl⟩ := get_of_find hr
    obtain ⟨r₀, hr₀, rfl⟩ := get_countReferences hget
    rcases of_get_set hr₀ with ⟨-, ⟨⟩⟩ | ⟨-, hr₀⟩
    · exact absurd hlt (UInt64.not_lt.mpr hid)
    · exact ⟨r₀, hs.find hr₀, rfl, rfl⟩
  | destroy r₁ gone =>
    rw [gone.next]
    refine ⟨UInt64.le_refl _, fun id r hr _ => ?_⟩
    obtain ⟨i, hget, rfl⟩ := get_of_find hr
    obtain ⟨r₀, hr₀, rfl⟩ := get_countReferences hget
    exact ⟨r₀, hs.find (ne_of_get_set_none hr₀).2, rfl, rfl⟩

/-- A record that is found has an exact count of the records derived from it, and under its
identifier there was never any other record: once it is destroyed, the identifier is gone for
good. -/
theorem record_identifier_permanent (sha256 : List UInt8 → Digest) (run : List Input) {m n : Nat}
    (hm : m ≤ n) {id : UInt64} {r : Record} (hr : (stateAt sha256 run n).find id = some r) :
    r.references = children (stateAt sha256 run n).records id ∧
      (id ≤ (stateAt sha256 run m).sequence →
        ∃ r₀, (stateAt sha256 run m).find id = some r₀ ∧ r.view = r₀.view ∧
        r.parents = r₀.parents) := by
  have hkeeps : (stateAt sha256 run m).Keeps (stateAt sha256 run n) :=
    Run.after_within State.step step_keeps hm
  refine ⟨?_, (hkeeps (sound_stateAt sha256 run m)).2.2 id r hr⟩
  obtain ⟨i, hget, rfl⟩ := get_of_find hr
  exact (sound_stateAt sha256 run n).counted i r hget

/-- The user input that was imported first, after a text has been derived from it. -/
theorem record_identifier_permanent_derived : ∃ r,
    (stateAt id (derivedText 1) 6).find 1 = some r ∧ r.references = 1 ∧
      ∃ r₀, (stateAt id (derivedText 1) 5).find 1 = some r₀ ∧ r.view = r₀.view ∧
      r.parents = r₀.parents := by
  obtain ⟨r, hr, href⟩ : ∃ r, (stateAt id (derivedText 1) 6).find 1 = some r ∧
      r.references = 1 := by
    decide +kernel
  exact ⟨r, hr, href,
    (record_identifier_permanent id (derivedText 1) (by decide) hr).2 (by decide +kernel)⟩

end Anunix.Context
