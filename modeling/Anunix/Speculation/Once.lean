import Anunix.Object.Gate
import Anunix.Speculation.Records

/-!
# Predictions are published at most once

Runs of the speculation calls with anything happening to the object store in between. Every
successful commit publishes the result of an earlier prediction on an origin that is still what it
was when the prediction was made, and no prediction is published twice; every other commit leaves
all objects as they were. A commit closes its record when the caller may commit it and the action
has a size that can match one: an action that is empty or too long is refused before the record is
looked up.
-/

namespace Anunix.Speculation
open Fallible Object

/-! ## Runs -/

def State.boot (sha256 : List UInt8 → Digest) : State where
  store := Store.boot sha256
  records := List.replicate speculationMax none
  reservedBytes := 0

inductive Input where
  | event (e : Event)
  | prepare (req : Request) (a : Around)
  | get (id : Uuid) (a : Around)
  | commit (id : Uuid) (actual : List UInt8) (a : Around)
  | discard (id : Uuid) (a : Around)
  | release (id : Uuid) (a : Around)

def Input.exec : Input → SProg Unit
  | .event e => modify fun s => { s with store := s.store.happen e }
  | .prepare req a => Functor.discard (Speculation.prepare a req)
  | .get id a => Functor.discard (Speculation.get a id)
  | .commit id actual a => Speculation.commit a id actual
  | .discard id a => Speculation.discard a id
  | .release id a => Speculation.release a id

def State.step (s : State) (x : Input) : State :=
  final x.exec s

def State.succeeds (s : State) (x : Input) : Bool :=
  (outcome x.exec s).isOk

def stateAt (sha256 : List UInt8 → Digest) (run : List Input) (n : Nat) : State :=
  Run.after State.step (State.boot sha256) run n

/-! ## One step -/

variable {x : Input} {i : Nat} {r : Record} {a : Around} {actual : List UInt8}

section Step

variable {s s' : State} {id : Uuid}

def Fills (s : State) (x : Input) (i : Nat) (r : Record) : Prop :=
  ∃ req a addr obj id, x = .prepare req a ∧ s.succeeds x = true ∧
    Reserved a req s i addr obj id (s.step x) ∧
    r = req.record id obj (s.store.sha256 (schemaBytes obj ++ obj.payload.bytes))

/-- What the records are after an input: aged, with one slot filled, closed or freed. -/
inductive Turn (s : State) (x : Input) (s' : State) : Prop where
  | keep (records : s'.records = s.records) (reserved : s'.reservedBytes = s.reservedBytes)
  | age (now : UInt64) (records : s'.records = (s.expire now).records)
    (reserved : s'.reservedBytes = (s.expire now).reservedBytes)
  | fill (req : Request) (a : Around) (slot addr : Nat) (obj : StateObject) (id : Uuid)
    (call : x = .prepare req a) (ok : s.succeeds x = true)
    (reserves : Reserved a req s slot addr obj id s')
  | close (now : UInt64) (i : Nat) (state : SpeculationState) (reason : Option Err)
    (past : state ≠ .prepared)
    (records : s'.records = ((s.expire now).close i state reason).records)
    (reserved : s'.reservedBytes = ((s.expire now).close i state reason).reservedBytes)
  | drop (i : Nat) (reason : Option Err)
      (records : s'.records = (s.close i .discarded reason).records)
    (reserved : s'.reservedBytes = (s.close i .discarded reason).reservedBytes)
  | free (t : State) (i : Nat) (before : t = s ∨ ∃ reason, t = s.close i .discarded reason)
    (past : ∀ r, Slots.get t.records i = some r → r.view.state ≠ .prepared)
    (records : s'.records = t.records.set i none) (reserved : s'.reservedBytes = t.reservedBytes)

structure Steps (s : State) (x : Input) (s' : State) : Prop where
  turn : Turn s x s'
  sha256 : s'.store.sha256 = s.store.sha256

lemma removeRecord_steps {free : Bool} :
    Leaves (removeRecord a id free) s (Steps s x) := by
  refine .mono removeRecord_ends ?_ ?_
  · rintro _ s' ⟨i, r, hl, rfl⟩
    obtain ⟨hget, -⟩ := lookup_eq_some hl
    cases free with
    | false =>
      by_cases hp : r.view.state = .prepared
      · simp only [hp]
        exact ⟨.drop i _ rfl rfl, congrArg Store.sha256 close_store⟩
      · simp only [hp]
        exact ⟨.keep rfl rfl, rfl⟩
    | true =>
      by_cases hp : r.view.state = .prepared
      · simp only [hp]
        refine ⟨.free _ i (.inr ⟨_, rfl⟩) (fun r' hr' => ?_) rfl rfl,
          congrArg Store.sha256 close_store⟩
        rw [get_close, if_pos rfl, hget] at hr'
        cases hr'
        nofun
      · simp only [hp]
        refine ⟨.free s i (.inl rfl) (fun r' hr' => ?_) rfl rfl, rfl⟩
        cases hget.symm.trans hr'
        exact hp
  · rintro _ s' rfl
    exact ⟨.keep rfl rfl, rfl⟩

lemma happen_sha256 (s : Store) (e : Event) : (s.happen e).sha256 = s.sha256 := by
  cases e with
  | outside change => rfl
  | call c env =>
    cases step_records s (c, env) with
    | same quiet still => exact still.sha256
    | begins _ _ _ _ _ _ _ next => exact (congrArg Store.sha256 next :)
    | votes _ _ _ next => exact (congrArg Store.sha256 next :)
    | destroys _ next => exact (congrArg Store.sha256 next :)

lemma step_steps (s : State) (x : Input) : Steps s x (s.step x) := by
  cases x with
  | event e => exact ⟨.keep rfl rfl, happen_sha256 s.store e⟩
  | prepare req a =>
    cases hs : s.succeeds (.prepare req a) with
    | true =>
      obtain ⟨id, slot, addr, obj, hres⟩ := (Ends.discard (.mono prepare_ends
        (fun id _ h => (⟨id, h⟩ : ∃ id slot addr obj, Reserved a req s slot addr obj id _))
        fun _ _ h => h)).of_succeeds hs
      refine ⟨.fill req a slot addr obj id rfl hs hres, ?_⟩
      rw [show s.step (.prepare req a) = _ from hres.next]
      exact congrArg Store.sha256 expire_store
    | false =>
      have hf : s.step (.prepare req a) = s ∨ s.step (.prepare req a) = s.expire (a.clock 1) :=
        (Ends.discard (.post prepare_ends fun _ _ _ => trivial)).of_fails hs
      rcases hf with hf | hf
      · exact ⟨.keep (congrArg State.records hf) (congrArg State.reservedBytes hf), by rw [hf]⟩
      · exact ⟨.age _ (congrArg State.records hf) (congrArg State.reservedBytes hf), by
          rw [hf, expire_store]⟩
  | get id a =>
    have hage : Steps s (.get id a) (s.expire (a.clock 0)) :=
      ⟨.age _ rfl rfl, congrArg Store.sha256 expire_store⟩
    refine Ends.final (.bind (.bind (.modify ?_)))
    refine .get_bind (.orThrow_bind (fun _ => hage) fun _ _ => ?_)
    exact .ofExcept_bind (fun _ _ => hage) fun _ _ => hage
  | commit id actual a =>
    refine Ends.final (.mono commit_ends ?_ ?_)
    · rintro _ s' ⟨i, r, addr, obj, hc⟩
      exact ⟨.close (a.clock 0) i .committed none (by decide) (by rw [hc.next]) (by rw [hc.next]),
        hc.store.sha256⟩
    · rintro _ s' ⟨hrec, ⟨-, rfl⟩ | hsettled⟩
      · exact ⟨.keep rfl rfl, rfl⟩
      · refine ⟨?_, hrec.sha256⟩
        cases hsettled with
        | refused next why =>
          exact .age _ (congrArg State.records next) (congrArg State.reservedBytes next)
        | @closed i r state reason found past next =>
          exact .close (a.clock 0) i state reason past (by rw [next]) (by rw [next])
  | discard id a => exact removeRecord_steps.final
  | release id a => exact removeRecord_steps.final

lemma Accounts.congr (ha : Accounts s) (hr : s'.records = s.records)
    (hb : s'.reservedBytes = s.reservedBytes) : Accounts s' :=
  ⟨hr ▸ ha.slots, by rw [hr, hb]; exact ha.sum, hb ▸ ha.bound⟩

lemma Accounts.turn (ha : Accounts s) (ht : Turn s x s') : Accounts s' := by
  cases ht with
  | keep records reserved => exact ha.congr records reserved
  | age now records reserved => exact ha.expire.congr records reserved
  | fill req a slot addr obj id call ok reserves =>
    rw [reserves.next]
    exact ha.expire.fill reserves.free rfl reserves.room
  | close now i state reason past records reserved =>
    exact (ha.expire.close past).congr records reserved
  | drop i reason records reserved => exact (ha.close (by decide)).congr records reserved
  | free t i before past records reserved =>
    have hat : Accounts t := by
      rcases before with rfl | ⟨reason, rfl⟩
      · exact ha
      · exact ha.close (by decide)
    exact (hat.free past).congr records reserved

lemma get_expire_prepared {now : UInt64} (ha : Accounts s)
    (hget : Slots.get (s.expire now).records i = some r) (hp : r.view.state = .prepared) :
    Slots.get s.records i = some r := by
  rw [get_expire ha.slots] at hget
  obtain ⟨r0, hr0, rfl⟩ := Option.map_eq_some_iff.mp hget
  rw [(aged_prepared hp).1]
  exact hr0

lemma get_close_prepared {state : SpeculationState} {reason : Option Err} {j : Nat}
    (past : state ≠ .prepared) (hget : Slots.get (s.close j state reason).records i = some r)
    (hp : r.view.state = .prepared) :
    Slots.get s.records i = some r := by
  rw [get_close] at hget
  split at hget
  · obtain ⟨r0, -, rfl⟩ := Option.map_eq_some_iff.mp hget
    exact absurd hp past
  · exact hget

/-- The step lemma of the slots: what is prepared was prepared, or has just been filled in. -/
lemma step_prepared (ha : Accounts s) (hget : Slots.get (s.step x).records i = some r)
    (hp : r.view.state = .prepared) : Slots.get s.records i = some r ∨ Fills s x i r := by
  cases (step_steps s x).turn with
  | keep records reserved => exact .inl (records ▸ hget)
  | age now records reserved =>
    rw [records] at hget
    exact .inl (get_expire_prepared ha hget hp)
  | fill req a slot addr obj id call ok reserves =>
    have hget' := hget
    rw [reserves.next] at hget'
    rcases Slots.of_get_set hget' with ⟨rfl, hr⟩ | ⟨-, hget'⟩
    · exact .inr ⟨req, a, addr, obj, id, call, ok, reserves, (Option.some.inj hr).symm⟩
    · exact .inl (get_expire_prepared ha hget' hp)
  | close now j state reason past records reserved =>
    rw [records] at hget
    exact .inl (get_expire_prepared ha (get_close_prepared past hget hp) hp)
  | drop j reason records reserved =>
    rw [records] at hget
    exact .inl (get_close_prepared (by decide) hget hp)
  | free t j before past records reserved =>
    rw [records] at hget
    obtain ⟨-, hat⟩ := Slots.ne_of_get_set_none hget
    rcases before with rfl | ⟨reason, rfl⟩
    · exact .inl hat
    · exact .inl (get_close_prepared (by decide) hat hp)

end Step

/-! ## Runs -/

/-- The successful commit at `n` publishes the prediction made at `k`. -/
structure Published (sha256 : List UInt8 → Digest) (run : List Input) (k n : Nat)
    (actual : List UInt8) (a : Around) : Prop where
  before : k < n
  /-- The prediction was of this action, and its time is not over at either reading of the clock. -/
  predicted : ∃ req a₀, run[k]? = some (.prepare req a₀) ∧
    (stateAt sha256 run k).succeeds (.prepare req a₀) = true ∧ actual = req.action ∧
    a.clock 0 < req.expiresAt ∧ a.clock 1 < req.expiresAt ∧
    -- The origin is what it was, and its live payload becomes the predicted result.
    ∃ addr₀ obj₀ addr obj, (stateAt sha256 run k).store.lookup req.origin = some (addr₀, obj₀) ∧
      (stateAt sha256 run n).store.lookup req.origin = some (addr, obj) ∧
      obj.version = obj₀.version ∧ obj.objectType = obj₀.objectType ∧
      obj.sensitivity = obj₀.sensitivity ∧
      sha256 (schemaBytes obj ++ obj.payload.bytes) =
      sha256 (schemaBytes obj₀ ++ obj₀.payload.bytes) ∧
      (Function.Injective sha256 → schemaBytes obj = schemaBytes obj₀ ∧
        obj.payload.bytes = obj₀.payload.bytes) ∧
      (stateAt sha256 run (n + 1)).store.objects = (stateAt sha256 run n).store.objects.set addr
        { obj with
          payload := req.result.replacement, version := obj.version + 1,
          contentHash := contentHashOf sha256 req.result.replacement }

structure SpeculationSound (sha256 : List UInt8 → Digest) (run : List Input) : Prop where
  reserved : ∀ n, (stateAt sha256 run n).reservedBytes.toNat =
      Slots.total Record.reserved (stateAt sha256 run n).records ∧
    (stateAt sha256 run n).reservedBytes.toNat ≤ bytesMax.toNat
  /-- Every successful commit publishes a prediction, and different commits different ones. -/
  publishes : ∃ source : Nat → Nat,
    (∀ n id actual a, run[n]? = some (.commit id actual a) →
      (stateAt sha256 run n).succeeds (.commit id actual a) = true →
      Published sha256 run (source n) n actual a) ∧
    ∀ n m id id' actual actual' a a', run[n]? = some (.commit id actual a) →
      (stateAt sha256 run n).succeeds (.commit id actual a) = true →
      run[m]? = some (.commit id' actual' a') →
      (stateAt sha256 run m).succeeds (.commit id' actual' a') = true → source n = source m → n = m
  refuses : ∀ n id actual a, run[n]? = some (.commit id actual a) →
    (stateAt sha256 run n).succeeds (.commit id actual a) = false →
    (stateAt sha256 run (n + 1)).store.objects = (stateAt sha256 run n).store.objects
  /-- A commit by a caller who may commit the record leaves it closed, if the action has a valid
  size. -/
  closes : ∀ n id actual a i r, run[n]? = some (.commit id actual a) → actual ≠ [] →
    actual.length ≤ actionMax → (stateAt sha256 run n).lookup id = some (i, r) →
    callerCheck a.env r.view.owner = .ok () →
    ∃ r', Slots.get (stateAt sha256 run (n + 1)).records i = some r' ∧ r'.view.id = id ∧
      r'.view.state ≠ .prepared

section Runs

variable {sha256 : List UInt8 → Digest} {run : List Input} {n k : Nat} {id : Uuid}

lemma stateAt_succ (h : run[n]? = some x) :
    stateAt sha256 run (n + 1) = (stateAt sha256 run n).step x :=
  Run.after_succ State.step h

lemma accounts_stateAt (sha256 : List UInt8 → Digest) (run : List Input) (n : Nat) :
    Accounts (stateAt sha256 run n) := by
  refine Run.after_invariant State.step ?_ (fun s x ha => ha.turn (step_steps s x).turn) n
  exact ⟨List.length_replicate, (Slots.total_replicate_none speculationMax).symm, Nat.zero_le _⟩

lemma sha256_stateAt (sha256 : List UInt8 → Digest) (run : List Input) (n : Nat) :
    (stateAt sha256 run n).store.sha256 = sha256 :=
  Run.after_invariant (I := fun s : State => s.store.sha256 = sha256) State.step rfl
    (fun s x => (step_steps s x).sha256.trans) n

/-- The `k`-th input has put a record into a slot, where it has stayed prepared ever since. -/
structure HeldSince (sha256 : List UInt8 → Digest) (run : List Input) (k n i : Nat) (r : Record) :
    Prop where
  before : k < n
  filled : ∃ x, run[k]? = some x ∧ Fills (stateAt sha256 run k) x i r
  stays : ∀ m, k < m → m ≤ n → Slots.get (stateAt sha256 run m).records i = some r

lemma HeldSince.succ (h : HeldSince sha256 run k n i r)
    (hget : Slots.get (stateAt sha256 run (n + 1)).records i = some r) :
    HeldSince sha256 run k (n + 1) i r := by
  refine ⟨Nat.lt_succ_of_lt h.before, h.filled, fun m hkm hmn => ?_⟩
  rcases Nat.le_succ_iff.mp hmn with hmn | rfl
  · exact h.stays m hkm hmn
  · exact hget

lemma exists_heldSince (hget : Slots.get (stateAt sha256 run n).records i = some r)
    (hp : r.view.state = .prepared) : ∃ k, HeldSince sha256 run k n i r := by
  induction n with
  | zero =>
    exact absurd ((Slots.get_replicate_none speculationMax).symm.trans hget) nofun
  | succ n ih =>
    cases hx : run[n]? with
    | none =>
      have he : stateAt sha256 run (n + 1) = stateAt sha256 run n :=
        Run.after_succ_none State.step hx
      obtain ⟨k, hk⟩ := ih (he ▸ hget)
      exact ⟨k, hk.succ hget⟩
    | some x =>
      have hnext := hget
      rw [stateAt_succ hx] at hnext
      rcases step_prepared (accounts_stateAt sha256 run n) hnext hp with hold | hfill
      · obtain ⟨k, hk⟩ := ih hold
        exact ⟨k, hk.succ hget⟩
      · refine ⟨n, Nat.lt_succ_self n, ⟨x, hx, hfill⟩, fun m hkm hmn => ?_⟩
        obtain rfl : m = n + 1 := by omega
        exact hget

/-- The successful commit at `n` finds a record that the input at `k` has prepared. -/
structure SourceOf (sha256 : List UInt8 → Digest) (run : List Input) (n : Nat) (id : Uuid)
    (actual : List UInt8) (a : Around) (k i : Nat) (r : Record) : Prop where
  commits : ∃ addr obj,
    Committed a id actual (stateAt sha256 run n) i r addr obj (stateAt sha256 run (n + 1))
  held : HeldSince sha256 run k n i r

lemma exists_source (hn : run[n]? = some (.commit id actual a))
    (hs : (stateAt sha256 run n).succeeds (.commit id actual a) = true) :
    ∃ k i r, SourceOf sha256 run n id actual a k i r := by
  obtain ⟨i, r, addr, obj, hc⟩ := commit_ends.of_succeeds hs
  have hget :=
    get_expire_prepared (accounts_stateAt sha256 run n) (lookup_eq_some hc.found).1 hc.prepared
  obtain ⟨k, hk⟩ := exists_heldSince hget hc.prepared
  exact ⟨k, i, r, ⟨addr, obj, stateAt_succ hn ▸ hc⟩, hk⟩

lemma replacement_replacement (p : Payload) : p.replacement.replacement = p.replacement := by
  cases p with
  | null n => rfl
  | buffer b =>
    by_cases hb : b.1 = []
    · simp [Payload.replacement, Payload.present, Payload.bytes, Payload.size, hb]
    · simp [Payload.replacement, Payload.present, Payload.bytes, hb]

lemma SourceOf.published (h : SourceOf sha256 run n id actual a k i r) :
    Published sha256 run k n actual a := by
  obtain ⟨addr, obj, hc⟩ := h.commits
  -- The record is the one that the prediction has put there.
  obtain ⟨x, hx, req, a0, addr0, obj0, id0, rfl, hok, hres, rfl⟩ := h.held.filled
  have hsha := sha256_stateAt sha256 run n
  have hdigest : sha256 (schemaBytes obj ++ obj.payload.bytes) =
      sha256 (schemaBytes obj0 ++ obj0.payload.bytes) := by
    have hd := hc.fits.digest
    rw [hsha, sha256_stateAt sha256 run k] at hd
    exact hd
  have hunexpired : a.clock 0 < req.expiresAt := by
    have hget := (lookup_eq_some hc.found).1
    rw [get_expire (accounts_stateAt sha256 run n).slots] at hget
    obtain ⟨r0, -, he⟩ := Option.map_eq_some_iff.mp hget
    have haged := aged_prepared (he ▸ hc.prepared)
    rw [← haged.1, he] at haged
    exact haged.2
  refine ⟨h.held.before, req, a0, hx, hok, hc.action, hunexpired, hc.unexpired, addr0, obj0, addr,
    obj, hres.found,
    hc.fits.found, hc.fits.version, hc.fits.type, hc.fits.sensitivity, hdigest, ?_, ?_⟩
  · -- The arrays in front of the payload have a fixed size.
    exact fun hinj => List.append_inj (hinj hdigest) (by simp [schemaBytes])
  · rw [hc.store.objects, hsha, Request.record, replacement_replacement]
    rfl

/-- No prediction is the source of two commits: the first one closes the record. -/
lemma SourceOf.unique {m j : Nat} {r' : Record} {id' : Uuid} {actual' : List UInt8} {a' : Around}
    (h : SourceOf sha256 run n id actual a k i r)
    (h' : SourceOf sha256 run m id' actual' a' k j r') : ¬ n < m := by
  intro hlt
  obtain ⟨x, hx, req, a0, addr0, obj0, id0, rfl, -, hres, -⟩ := h.held.filled
  obtain ⟨x', hx', req', a0', addr0', obj0', id0', rfl, -, hres', -⟩ := h'.held.filled
  cases hx.symm.trans hx'
  cases hres.free.symm.trans hres'.free
  obtain ⟨addr, obj, hc⟩ := h.commits
  obtain ⟨addr', obj', hc'⟩ := h'.commits
  have hstill := h'.held.stays (n + 1) (Nat.lt_succ_of_lt h.held.before) hlt
  have hget := (lookup_eq_some hc.found).1
  rw [hc.next, get_close, if_pos rfl, hget] at hstill
  cases hstill
  exact absurd hc'.prepared (by simp [Record.closed])

/-- In every run a prediction is published once at most, and only as it was confirmed. -/
theorem speculation_sound (sha256 : List UInt8 → Digest) (run : List Input) :
    SpeculationSound sha256 run where
  reserved n := ⟨(accounts_stateAt sha256 run n).sum, (accounts_stateAt sha256 run n).bound⟩
  publishes := by
    have hall : ∀ n, ∃ k, ∀ id actual a, run[n]? = some (.commit id actual a) →
        (stateAt sha256 run n).succeeds (.commit id actual a) = true →
        ∃ i r, SourceOf sha256 run n id actual a k i r := by
      intro n
      by_cases hc : ∃ id actual a, run[n]? = some (.commit id actual a) ∧
          (stateAt sha256 run n).succeeds (.commit id actual a) = true
      · obtain ⟨id, actual, a, hn, hs⟩ := hc
        obtain ⟨k, i, r, hk⟩ := exists_source hn hs
        refine ⟨k, fun id' actual' a' hn' _ => ?_⟩
        cases hn.symm.trans hn'
        exact ⟨i, r, hk⟩
      · exact ⟨0, fun id actual a hn hs => absurd ⟨id, actual, a, hn, hs⟩ hc⟩
    choose source hsource using hall
    refine ⟨source, fun n id actual a hn hs => ?_, ?_⟩
    · obtain ⟨i, r, hk⟩ := hsource n id actual a hn hs
      exact hk.published
    · intro n m id id' actual actual' a a' hn hs hm hs' he
      obtain ⟨i, r, hk⟩ := hsource n id actual a hn hs
      obtain ⟨j, r', hk'⟩ := hsource m id' actual' a' hm hs'
      rw [← he] at hk'
      rcases Nat.lt_trichotomy n m with hlt | rfl | hlt
      · exact absurd hlt (hk.unique hk')
      · rfl
      · exact absurd hlt (hk'.unique hk)
  refuses n id actual a hn hs := by
    have hf := commit_ends.of_fails hs
    rw [stateAt_succ hn]
    exact hf.1.objects
  closes n id actual a i r hn hne hlen hl hcaller := by
    rw [stateAt_succ hn]
    have hl' :
        ((stateAt sha256 run n).expire (a.clock 0)).lookup id = some (i, r.aged (a.clock 0)) := by
      rw [lookup_expire (accounts_stateAt sha256 run n).slots, hl]
      rfl
    obtain ⟨hget, hid⟩ := lookup_eq_some hl'
    refine Ends.final (P := fun t : State => ∃ r', Slots.get t.records i = some r' ∧
      r'.view.id = id ∧ r'.view.state ≠ .prepared) (Ends.mono commit_ends ?_ ?_)
    · rintro _ s' ⟨i', r', addr, obj, hc⟩
      cases hl'.symm.trans hc.found
      refine ⟨(r.aged (a.clock 0)).closed .committed none, ?_, hid, by simp [Record.closed]⟩
      rw [hc.next, get_close, if_pos rfl, hget]
      rfl
    · rintro _ s' ⟨-, ⟨hbad, -⟩ | hsettled⟩
      · rcases hbad with hbad | hbad
        · exact absurd hbad hne
        · exact absurd hbad (Nat.not_lt.mpr hlen)
      · cases hsettled with
        | refused next why =>
          refine ⟨r.aged (a.clock 0), next ▸ hget, hid, ?_⟩
          exact why i (r.aged (a.clock 0)) hl' (by rw [aged_owner]; exact hcaller)
        | @closed i' r' state reason found past next =>
          cases hl'.symm.trans found
          refine ⟨(r.aged (a.clock 0)).closed state reason, ?_, hid, past⟩
          rw [next, get_close, if_pos rfl, hget]
          rfl

end Runs

/-! ## A prediction, and an attempt without an action -/

def Around.quiet : Around where
  env := .panel none ⟨1, 1⟩
  clock := fun _ => 1
  allocs := fun _ => true
  seed := (0, 0, 0)

def firstId : Uuid := Uuid.generate 0 0 0

def sevenToFive : Request where
  owner := ⟨2, 1⟩
  origin := ⟨1, 1⟩
  action := [7]
  result := .buffer (.ofList [5])
  expiresAt := 10

def predicted (actual : List UInt8) : List Input :=
  [.event (.call (.create twoBytes) (.panel none ⟨1, 1⟩)), .prepare sevenToFive .quiet,
    .commit firstId actual .quiet]

/-- A prediction that matches is published. -/
theorem speculation_sound_match : SpeculationSound id (predicted [7]) ∧
      (stateAt id (predicted [7]) 2).store.liveAt 0 = some (.buffer (.ofList [1, 2]), 1, [1, 2]) ∧
      (stateAt id (predicted [7]) 3).store.liveAt 0 = some (.buffer (.ofList [5]), 2, [5]) :=
  ⟨speculation_sound id (predicted [7]), by decide +kernel, by decide +kernel⟩

def ClosesAlways (sha256 : List UInt8 → Digest) (run : List Input) : Prop :=
  ∀ n id actual a i r, run[n]? = some (.commit id actual a) →
    (stateAt sha256 run n).lookup id = some (i, r) → callerCheck a.env r.view.owner = .ok () →
    ∃ r', Slots.get (stateAt sha256 run (n + 1)).records i = some r' ∧ r'.view.state ≠ .prepared

def sevenToFiveRecord : Record :=
  sevenToFive.record firstId ((Store.boot id).fresh ⟨1, 1⟩ twoBytes)
    (schemaBytes ((Store.boot id).fresh ⟨1, 1⟩ twoBytes) ++ [1, 2])

/-- An empty action is refused, and its record stays. -/
theorem empty_action_keeps_record : ¬ ClosesAlways id (predicted []) := by
  intro h
  have hbefore : (stateAt id (predicted []) 2).lookup firstId = some (0, sevenToFiveRecord) := by
    decide +kernel
  have hafter : Slots.get (stateAt id (predicted []) 3).records 0 = some sevenToFiveRecord := by
    decide +kernel
  obtain ⟨r, hr, hover⟩ := h 2 firstId [] .quiet 0 sevenToFiveRecord rfl hbefore rfl
  cases hafter.symm.trans hr
  exact hover rfl

end Anunix.Speculation
