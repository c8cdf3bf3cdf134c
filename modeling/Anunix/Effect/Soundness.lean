import Anunix.Effect.Effect

/-!
# Soundness of effect fences

What holds along every run of the machine of `Effect/Effect.lean`, whatever the interleaving.

Two preorders carry the proofs. `Fence.Evolves` says what any critical section may do to a fence:
the label only rises and a closed state is final. `World.Advances` lifts it to the table and adds
that an effect keeps its cell, sink and fence while its phase only moves forward. Every program of
the model stays within them, so `Run.after_within` compares any two points of a run. The third
ingredient is the inversion of the only step that enters `DISPATCHING` (`enters_cases`).
-/

namespace Anunix
open Fallible Keyed Run List

variable {f f' : Fence} {now : UInt64} {sink : Option Sensitivity} {w w' : World} {id : Uuid}
  {e e' : PendingEffect} {phase : EffectPhase} {v : Sensitivity} {k : Nat}

/-! ## What happens to one fence -/

structure Fence.Evolves (f f' : Fence) : Prop where
  id : f'.id = f.id
  label : f.readSensitivity ≤ f'.readSensitivity
  final : f.state.closed = true → f'.state = f.state

instance : IsPreorder Fence Fence.Evolves where
  refl f := ⟨rfl, le_rfl, fun _ => rfl⟩
  trans f g h hfg hgh := by
    refine ⟨hgh.id.trans hfg.id, hfg.label.trans hgh.label, fun hc => ?_⟩
    have hg := hfg.final hc
    exact (hgh.final (hg ▸ hc)).trans hg

instance (state : FenceState) : Frames Fence.Evolves (changeState state) := by
  constructor
  intro f
  have hrefl c : c = true → f.Evolves f := fun _ => refl_of Fence.Evolves f
  apply Ends.final
  refine .failIf_bind (hrefl _) fun hopen => ?_
  refine .failIf_bind (hrefl _) fun _ => ?_
  refine .failIf_bind (hrefl _) fun _ => ?_
  exact ⟨rfl, le_rfl, fun hc => absurd hc (by simp [hopen])⟩

instance (now : UInt64) : Frames Fence.Evolves (expire now) := by
  unfold expire
  infer_instance

instance (now : UInt64) : Frames Fence.Evolves (stateCheck now) := by
  unfold stateCheck
  infer_instance

instance (sink : Option Sensitivity) : Frames Fence.Evolves (sinkCheck sink) := by
  unfold sinkCheck
  cases sink <;> infer_instance

instance (oid : Uuid) (v : Sensitivity) :
    Frames Fence.Evolves (modify fun f => f.observe oid v : FenceOp PUnit) := by
  refine ⟨fun f => ⟨rfl, ?_, fun _ => rfl⟩⟩
  show _ ≤ (f.observe oid v).readSensitivity
  rw [Fence.observe]
  split
  · exact le_of_lt ‹_›
  · exact le_rfl

lemma Fence.observe_label (f : Fence) (oid : Uuid) (v : Sensitivity) :
    v ≤ (f.observe oid v).readSensitivity := by
  rw [observe]
  split
  · exact le_rfl
  · exact not_lt.mp ‹_›

instance (limit : Fence → UInt32) (generation creations deadline : Fence → UInt64) :
    Frames Fence.Evolves (modify fun f => { f with
      childLimit := limit f, generation := generation f, childCreations := creations f
      expiresAt := deadline f } : FenceOp PUnit) :=
  ⟨fun _ => ⟨rfl, le_rfl, fun _ => rfl⟩⟩

instance (now epoch : UInt64) (sink : Option Sensitivity) :
    Frames Fence.Evolves (admitBody now epoch sink) := by
  unfold admitBody
  infer_instance

/-- Timing out is the one transition that no open fence refuses, not even one whose generation is
    exhausted. -/
lemma changeState_timedOut (hopen : f.state.closed = false) :
    Leaves (changeState .timedOut) f fun f' => f'.state = .timedOut := by
  refine .pass (by simp [hopen]) ?_
  refine .failIf_bind (fun h => ?_) fun _ => ?_
  · obtain hs : FenceState.timedOut = f.state := by simpa using h
    rw [← hs] at hopen
    exact absurd hopen (by decide)
  · refine .failIf_bind (fun h => ?_) fun _ => rfl
    rw [Bool.and_eq_true] at h
    exact absurd h.2 (by decide)

lemma expire_ok {u} (h : expire now f = .ok u f') (hopen : f'.state.closed = false) :
    f' = f ∧ (f.expiresAt = 0 ∨ now < f.expiresAt) := by
  simp only [expire, run_bind_eq_ok] at h
  obtain ⟨_, _, ⟨rfl, rfl⟩, h⟩ := h
  split at h
  · rename_i hdue
    simp only [run_bind_eq_ok] at h
    obtain ⟨r, f1, hr, -, rfl⟩ := h
    simp only [Bool.and_eq_true, Bool.not_eq_true'] at hdue
    rw [final_of_attempt hr, (changeState_timedOut hdue.1.1).final] at hopen
    exact absurd hopen (by decide)
  · rename_i hdue
    obtain ⟨-, rfl⟩ := run_pure_eq_ok.mp h
    simpa [hopen, imp_iff_not_or] using hdue

/-- The label may flow to a sink of the given ceiling; without a sink only public data may. -/
def Sensitivity.Flows (v : Sensitivity) : Option Sensitivity → Prop
  | none => v = .pub
  | some ceiling => v ≤ ceiling

lemma Sensitivity.Flows.mono {v' : Sensitivity} {sink} (h : v' ≤ v) (hf : v.Flows sink) :
    v'.Flows sink := by
  cases sink with
  | none =>
    obtain rfl : v = .pub := hf
    cases v' with
    | pub => rfl
    | _ => exact absurd h (by decide)
  | some ceiling => exact le_trans h hf

/-- What a fence must be like for an effect to pass at time `now` to a sink. -/
structure Fence.Admits (f : Fence) (now : UInt64) (sink : Option Sensitivity) : Prop where
  running : f.state = .running
  deadline : f.expiresAt = 0 ∨ now < f.expiresAt
  flows : f.readSensitivity.Flows sink

lemma stateCheck_ok {u} (h : stateCheck now f = .ok u f') :
    f'.state = .running ∧ (f'.expiresAt = 0 ∨ now < f'.expiresAt) := by
  simp only [stateCheck, run_bind_eq_ok, run_failIf_eq_ok] at h
  obtain ⟨_, f1, he, _, _, ⟨rfl, rfl⟩, _, _, ⟨hheld, rfl⟩, hopen, rfl⟩ := h
  obtain ⟨rfl, hd⟩ := expire_ok he hopen
  refine ⟨?_, hd⟩
  cases hs : f'.state with
  | running => rfl
  | _ => simp [hs, FenceState.closed] at hheld hopen

lemma sinkCheck_ok {u} (h : sinkCheck sink f = .ok u f') :
    f' = f ∧ f.readSensitivity.Flows sink := by
  simp only [sinkCheck, run_bind_eq_ok] at h
  obtain ⟨_, _, ⟨rfl, rfl⟩, h⟩ := h
  cases sink
  all_goals
    obtain ⟨hc, rfl⟩ := run_failIf_eq_ok.mp h
    exact ⟨rfl, by simpa [Sensitivity.Flows] using hc⟩

lemma admitBody_ok {epoch : UInt64} {u} (h : admitBody now epoch sink f = .ok u f') :
    f'.Admits now sink := by
  simp only [admitBody, run_bind_eq_ok, run_failIf_eq_ok] at h
  obtain ⟨_, _, ⟨rfl, rfl⟩, _, _, ⟨-, rfl⟩, _, f1, hs, hk⟩ := h
  obtain ⟨rfl, hflow⟩ := sinkCheck_ok hk
  obtain ⟨hrun, hd⟩ := stateCheck_ok hs
  exact ⟨hrun, hd, hflow⟩

/-! ## What happens to the world -/

/-- Rank of a phase along `PREPARED → DISPATCHING → {COMMITTED, RESTORED, UNKNOWN}`. -/
def EffectPhase.rank : EffectPhase → Nat
  | .prepared => 0
  | .dispatching => 1
  | .committed | .restored | .unknown => 2

structure PendingEffect.Leads (e e' : PendingEffect) : Prop where
  fixed : { e' with phase := e.phase } = e
  phase : e'.phase = e.phase ∨ e.phase.rank < e'.phase.rank

instance : IsPreorder PendingEffect PendingEffect.Leads where
  refl e := ⟨rfl, .inl rfl⟩
  trans e1 e2 e3 h h' := by
    refine ⟨?_, ?_⟩
    · rw [← h.fixed, ← h'.fixed]
    · rcases h.phase with hp | hp
      · rw [← hp]
        exact h'.phase
      · rcases h'.phase with hp' | hp'
        · exact .inr (hp' ▸ hp)
        · exact .inr (hp.trans hp')

def World.FencesEvolve (w w' : World) : Prop :=
  ∀ id f, lookup Fence.id w.fences id = some f →
    ∃ f', lookup Fence.id w'.fences id = some f' ∧ f.Evolves f'

def World.EffectsLead (w w' : World) : Prop :=
  ∀ (k : Nat) (e : PendingEffect), w.effects[k]? = some e → ∃ e',
    w'.effects[k]? = some e' ∧ e.Leads e'

structure World.Advances (w w' : World) : Prop where
  fences : w.FencesEvolve w'
  effects : w.EffectsLead w'

structure World.Quiet (w w' : World) : Prop where
  fences : w.FencesEvolve w'
  effects : w'.effects = w.effects

lemma World.FencesEvolve.trans {w1 w2 w3 : World} (h : w1.FencesEvolve w2)
    (h' : w2.FencesEvolve w3) : w1.FencesEvolve w3 := by
  intro id f hf
  obtain ⟨f2, hf2, e⟩ := h id f hf
  obtain ⟨f3, hf3, e'⟩ := h' id f2 hf2
  exact ⟨f3, hf3, trans_of Fence.Evolves e e'⟩

lemma World.FencesEvolve.of_eq (h : w'.fences = w.fences) : w.FencesEvolve w' := by
  intro id f hf
  exact ⟨f, h ▸ hf, refl_of Fence.Evolves f⟩

instance : IsPreorder World World.Quiet where
  refl _ := ⟨.of_eq rfl, rfl⟩
  trans _ _ _ h h' := ⟨h.fences.trans h'.fences, h'.effects.trans h.effects⟩

instance : IsPreorder World World.Advances where
  refl _ := ⟨.of_eq rfl, fun k e he => ⟨e, he, refl_of PendingEffect.Leads e⟩⟩
  trans _ _ _ h h' := by
    refine ⟨h.fences.trans h'.fences, fun k e he => ?_⟩
    obtain ⟨e2, he2, l⟩ := h.effects k e he
    obtain ⟨e3, he3, l'⟩ := h'.effects k e2 he2
    exact ⟨e3, he3, trans_of PendingEffect.Leads l l'⟩

lemma World.Quiet.advances (h : w.Quiet w') : w.Advances w' := by
  refine ⟨h.fences, fun k e he => ⟨e, ?_, refl_of PendingEffect.Leads e⟩⟩
  rw [h.effects]
  exact he

lemma World.FencesEvolve.update (hf : lookup Fence.id w.fences id = some f) (he : f.Evolves f') :
    w.FencesEvolve { w with fences := update Fence.id w.fences f' } := by
  intro id' g hg
  obtain rfl := lookup_key hf
  by_cases hid : f'.id = id'
  · subst hid
    rw [he.id, hf] at hg
    cases hg
    exact ⟨f', lookup_update_self (he.id ▸ hf), he⟩
  · exact ⟨g, (lookup_update_of_ne hid).trans hg, refl_of Fence.Evolves g⟩

instance {α : Type} {id : Uuid} {body : FenceOp α} [h : Frames Fence.Evolves body] :
    Frames World.Quiet (locked id body) := by
  constructor
  intro w
  cases hf : lookup Fence.id w.fences id with
  | none =>
    have e : final (locked id body) w = w := by simp [final, locked, hf]
    rw [e]
    exact refl_of World.Quiet w
  | some f =>
    have e : final (locked id body) w =
        { w with fences := update Fence.id w.fences (final body f) } := by
      cases hb : body f <;> simp [final, locked, hf, hb]
    rw [e]
    exact ⟨.update hf (h.within f), rfl⟩

lemma locked_ok {α : Type} {body : FenceOp α} {a : α} [hbody : Frames Fence.Evolves body]
    (h : locked id body w = .ok a w') :
    ∃ f f', body f = .ok a f' ∧ w' = { w with fences := update Fence.id w.fences f' } ∧
      lookup Fence.id w'.fences id = some f' := by
  cases hf : lookup Fence.id w.fences id with
  | none => simp [locked, hf] at h
  | some f =>
    cases hb : body f with
    | error e f' => simp [locked, hf, hb] at h
    | ok a' f' =>
      simp only [locked, hf, hb] at h
      obtain ⟨rfl, rfl⟩ := h
      have hid : f'.id = id := by
        have he := hbody.within f
        rw [final_of_ok hb] at he
        exact he.id.trans (lookup_key hf)
      subst hid
      exact ⟨f, f', hb, rfl, lookup_update_self hf⟩

/-! ## The quiet programs -/

instance (active : Option Uuid) (id : Uuid) : Frames World.Quiet (fenceCreate active id) := by
  have hadd :
    Frames World.Quiet (modify fun w => { w with fences := w.fences ++ [Fence.create id] } :
      Kernel PUnit) := by
    refine ⟨fun w => ⟨fun id' f hf => ⟨f, ?_, refl_of Fence.Evolves f⟩, rfl⟩⟩
    show lookup Fence.id (w.fences ++ [Fence.create id]) id' = some f
    rw [lookup_concat, hf]
    rfl
  unfold fenceCreate
  infer_instance

instance (cells : World → CellStore) :
    Frames World.Quiet (modify fun w => { w with cells := cells w } : Kernel PUnit) :=
  ⟨fun _ => ⟨.of_eq rfl, rfl⟩⟩

instance (cell : Cell) : Frames World.Quiet (fenceCheck cell) := by
  unfold fenceCheck
  infer_instance

instance (active : Option Uuid) (oid : Uuid) (v : Sensitivity) :
    Frames World.Quiet (fenceObserveRead active oid v) := by
  unfold fenceObserveRead
  cases active <;> infer_instance

instance (sur : Surroundings) (sink : Option Nat) (oid : Uuid) :
    Frames World.Quiet (effectCheckObject sur sink oid) := by
  unfold effectCheckObject sinkCheckSend
  cases sink <;> infer_instance

set_option synthInstance.maxSize 100000 in
instance (active : Option Uuid) (sur : Surroundings) (cid : Uuid) (sink : Option Nat) (oid : Uuid) :
    Frames World.Quiet (effectCheckAuthority active sur cid sink oid) := by
  unfold effectCheckAuthority fenceCheckSink
  infer_instance

instance (effect : PendingEffect) : Frames World.Quiet (fenceAdmit effect) := by
  unfold fenceAdmit
  infer_instance

/-! ## One step -/

/-- The cell of an effect is registered, and if it is bound to a fence, the fence admits the effect
    at this moment. -/
def World.Cleared (w : World) (e : PendingEffect) : Prop :=
  ∃ cell, w.cells.lookup e.cell = some cell ∧
    (cell.effectFenceId ≠ .nil →
      ∃ f, lookup Fence.id w.fences cell.effectFenceId = some f ∧
        f.Admits w.now (e.sink.map w.sinks))

inductive World.Change (w w' : World) : Prop where
  | quiet :
    w.Quiet w' →
    Change w w'
  | prepared (e : PendingEffect) :
    w.FencesEvolve w' →
    e.phase = .prepared →
    w'.effects = w.effects ++ [e] →
    Change w w'
  | dispatched (k : Nat) (e : PendingEffect) :
    w.FencesEvolve w' →
    w.effects[k]? = some e →
    e.phase = .prepared →
    w'.effects = w.effects.set k { e with phase := .dispatching } →
    w'.Cleared e →
    Change w w'
  | settled (k : Nat) (e : PendingEffect) (phase : EffectPhase) :
    w.FencesEvolve w' →
    w.effects[k]? = some e →
    e.phase = .dispatching →
    phase.rank = 2 →
    w'.effects = w.effects.set k { e with phase := phase } →
    Change w w'

@[refl]
lemma World.Change.refl (w : World) : w.Change w := .quiet (refl_of World.Quiet w)

instance {w : World} : Covered (w.Change w) :=
  ⟨.refl w⟩

lemma fenceAdmit_ok {u} (h : fenceAdmit e w = .ok u w') : w'.cells = w.cells ∧
      (e.fenceId ≠ .nil → ∃ f, lookup Fence.id w'.fences e.fenceId = some f ∧
        f.Admits w'.now (e.sink.map w'.sinks)) := by
  simp only [fenceAdmit, run_bind_eq_ok] at h
  obtain ⟨_, _, ⟨rfl, rfl⟩, h⟩ := h
  split at h
  · rename_i hnil
    obtain ⟨-, rfl⟩ := run_failIf_eq_ok.mp h
    exact ⟨rfl, absurd hnil⟩
  · obtain ⟨f, f', hb, rfl, hf'⟩ := locked_ok h
    exact ⟨rfl, fun _ => ⟨f', hf', admitBody_ok hb⟩⟩

lemma effectPrepare_change (active : Option Uuid) (sur : Surroundings) (cid : Uuid)
    (sink : Option Nat) (oid : Uuid) (w : World) :
    w.Change (final (effectPrepare active sur cid sink oid) w) := by
  apply Ends.final
  apply Ends.bind
  refine .of_within Frames.within ?_ fun _ _ => .quiet
  intro _ w1 _ h1
  refine .orThrow_bind (fun _ => .quiet h1) fun owner _ => ?_
  apply Ends.bind
  refine .of_within Frames.within ?_ fun _ _ h2 =>
    .quiet (trans_of World.Quiet h1 h2)
  rintro ⟨fenceId, fenceEpoch⟩ w2 _ h2
  have h := trans_of World.Quiet h1 h2
  refine .failIf_bind (fun _ => .quiet h) fun _ => ?_
  exact .prepared _ (h.fences.trans (.of_eq rfl)) rfl (congrArg (· ++ [_]) h.effects)

lemma effectMarkDispatching_change (active : Option Uuid) (sur : Surroundings) (k : Nat)
    (w : World) : w.Change (final (effectMarkDispatching active sur k) w) := by
  apply Ends.final
  refine .fetch fun e he => ?_
  refine .guard fun hphase => ?_
  apply Ends.bind
  refine .of_within Frames.within ?_ fun _ _ => .quiet
  intro _ w1 _ h1
  refine .orThrow_bind (fun _ => .quiet h1) fun cell hcell => ?_
  refine .failIf_bind (fun _ => .quiet h1) fun _ => ?_
  refine .failIf_bind (fun _ => .quiet h1) fun hsame => ?_
  apply Ends.bind
  refine .of_within Frames.within ?_ fun _ _ h2 => .quiet (trans_of World.Quiet h1 h2)
  intro _ w2 hadmit h2
  have h := trans_of World.Quiet h1 h2
  obtain ⟨hcells, hfence⟩ := fenceAdmit_ok hadmit
  refine .dispatched k e (h.fences.trans (.of_eq rfl)) he (by simpa using hphase) ?_ ?_
  · exact congrArg (set · k _) h.effects
  · refine ⟨cell, hcells ▸ hcell, fun hbound => ?_⟩
    obtain hid : cell.effectFenceId = e.fenceId := by simpa using hsame
    rw [hid] at hbound ⊢
    exact hfence hbound

lemma effectTransition_change (hphase : phase.rank = 2) (k : Nat) (w : World) :
    w.Change (final (effectTransition k phase) w) := by
  apply Ends.final
  refine .fetch fun e he => ?_
  refine .guard fun htable => ?_
  refine .settled k e phase (.of_eq rfl) he ?_ hphase rfl
  -- the table has no other way into a phase of rank two
  cases phase with
  | prepared => exact absurd hphase (by decide)
  | dispatching => exact absurd hphase (by decide)
  | _ =>
    cases hp : e.phase with
    | dispatching => rfl
    | _ => simp [hp, effectTransitions] at htable

set_option synthInstance.maxSize 100000 in
lemma step_change (w : World) (op : EffectOp) : w.Change (w.step op) := by
  unfold World.step EffectOp.exec
  cases op with
  | prepare active sur cid sink oid => exact effectPrepare_change active sur cid sink oid w
  | markDispatching active sur k => exact effectMarkDispatching_change active sur k w
  | commit k => exact effectTransition_change rfl k w
  | restore k => exact effectTransition_change rfl k w
  | markUnknown k => exact effectTransition_change rfl k w
  | clock now => exact .quiet ⟨.of_eq rfl, rfl⟩
  | registerSink addr ceiling => exact .quiet ⟨.of_eq rfl, rfl⟩
  | setCells cells => exact .quiet ⟨.of_eq rfl, rfl⟩
  | create active id => exact .quiet (Frames.within _)
  | _ =>
    -- the text of every other call shows that it is quiet
    simp only [fenceGet, fenceBind, fenceTransition, fenceSetExecutionLease, fenceCreateChild,
      reserveChild, fenceHold, fenceCancel, requestState, requestBody, soReadPayload]
    exact .quiet (Frames.within _)

lemma World.EffectsLead.set (he : w.effects[k]? = some e) (hlt : e.phase.rank < phase.rank)
    (h : w'.effects = w.effects.set k { e with phase := phase }) : w.EffectsLead w' := by
  intro j e' he'
  rw [h]
  by_cases hj : k = j
  · subst hj
    cases he.symm.trans he'
    obtain ⟨hk, -⟩ := List.getElem?_eq_some_iff.mp he
    exact ⟨_, getElem?_set_self hk, rfl, .inr hlt⟩
  · exact ⟨e', by rw [getElem?_set_ne hj, he'], refl_of PendingEffect.Leads e'⟩

lemma World.Change.advances (h : w.Change w') : w.Advances w' := by
  cases h with
  | quiet h => exact h.advances
  | prepared e hf _ heff =>
    refine ⟨hf, fun k e' he' => ⟨e', ?_, refl_of PendingEffect.Leads e'⟩⟩
    obtain ⟨hk, -⟩ := List.getElem?_eq_some_iff.mp he'
    rw [heff, getElem?_append_left hk, he']
  | dispatched k e hf he hp heff _ => exact ⟨hf, .set he (by rw [hp]; decide) heff⟩
  | settled k e phase hf he hp hr heff => exact ⟨hf, .set he (by rw [hp, hr]; decide) heff⟩

/-- A step after which an effect is in `DISPATCHING` that was not there before had it cleared. -/
lemma World.Change.cleared (h : w.Change w') (he' : w'.effects[k]? = some e')
    (hp' : e'.phase = .dispatching) (hnew : ∀ e, w.effects[k]? = some e → e.phase ≠ .dispatching) :
    w'.Cleared e' := by
  have hset : ∀ {j a}, w'.effects = w.effects.set j a → e' = a := by
    intro j a heff
    rw [heff, getElem?_set] at he'
    split at he'
    · split at he'
      · exact (Option.some.inj he').symm
      · cases he'
    · exact absurd hp' (hnew e' he')
  cases h with
  | quiet h =>
    rw [h.effects] at he'
    exact absurd hp' (hnew e' he')
  | prepared e _ hp heff =>
    rw [heff] at he'
    rcases Nat.lt_or_ge k w.effects.length with hk | hk
    · rw [getElem?_append_left hk] at he'
      exact absurd hp' (hnew e' he')
    · rw [getElem?_append_right hk, getElem?_singleton] at he'
      split at he'
      · cases he'
        exact absurd hp' (by simp [hp])
      · cases he'
  | dispatched j e _ he hp heff hclear => exact hset heff ▸ hclear
  | settled j e phase _ he hp hr heff =>
    rw [hset heff] at hp'
    exact absurd hr (by simp [show phase = .dispatching from hp', EffectPhase.rank])

/-! ## Reads -/

/-- In this world the input is a payload read that hands out data with label `v` to a cell bound to
    the fence `id`. -/
def World.Observes (w : World) (op : EffectOp) (id : Uuid) (v : Sensitivity) : Prop :=
  ∃ cid cell obj mode offset len bytes w',
    op = .read (some cid) obj mode offset len ∧
    w.cells.lookup cid = some cell ∧ cell.effectFenceId = id ∧
    soReadPayload (some cid) obj mode offset len w = .ok bytes w' ∧ bytes ≠ [] ∧
    v = obj.sensitivity

lemma World.Observes.label {op : EffectOp} (h : w.Observes op id v) (hid : id ≠ .nil) :
    ∃ f, lookup Fence.id (w.step op).fences id = some f ∧ v ≤ f.readSensitivity := by
  obtain ⟨cid, cell, obj, mode, offset, len, bytes, w', rfl, hcell, rfl, hread, hne, rfl⟩ := h
  have hobs : fenceObserveRead (some cid) obj.oid obj.sensitivity w = .ok ⟨⟩ w' := by
    simp only [soReadPayload, run_bind_eq_ok, run_failIf_eq_ok] at hread
    obtain ⟨_, _, ⟨-, rfl⟩, h⟩ := hread
    split at h
    · obtain ⟨rfl, -⟩ := run_pure_eq_ok.mp h
      exact absurd rfl hne
    · simp only [run_bind_eq_ok, run_failIf_eq_ok] at h
      obtain ⟨_, _, ⟨-, rfl⟩, _, _, hobs, -, rfl⟩ := h
      exact hobs
  have hstep : w.step (.read (some cid) obj mode offset len) = w' := by
    apply final_of_ok
    exact run_bind_eq_ok.mpr ⟨bytes, w', hread, rfl⟩
  simp only [fenceObserveRead, run_bind_eq_ok, run_orThrow_eq_ok] at hobs
  obtain ⟨_, _, ⟨rfl, rfl⟩, _, _, ⟨hcell', rfl⟩, hobs⟩ := hobs
  cases hcell.symm.trans hcell'
  rw [if_neg hid] at hobs
  simp only [run_bind_eq_ok, run_failIf_eq_ok] at hobs
  obtain ⟨_, _, ⟨-, rfl⟩, hobs⟩ := hobs
  obtain ⟨f, f', hb, -, hf'⟩ := locked_ok hobs
  obtain rfl := run_modify_eq_ok.mp hb
  exact ⟨_, hstep ▸ hf', f.observe_label _ _⟩

/-! ## Whole runs -/

def Enters (run : Nat → World) (n k : Nat) (e : PendingEffect) : Prop :=
  (run (n + 1)).effects[k]? = some e ∧ e.phase = .dispatching ∧
    ∀ e₀, (run n).effects[k]? = some e₀ → e₀.phase ≠ .dispatching

structure FenceSound (ops : List EffectOp) (run : Nat → World) : Prop where
  /-- An effect of a bound cell enters `DISPATCHING` only under a running fence before its deadline,
      which was closed at no earlier moment, and towards a sink that takes every label observed
      under the fence so far. -/
  cleared : ∀ n k e, Enters run n k e →
    ∃ cell, (run (n + 1)).cells.lookup e.cell = some cell ∧
      (cell.effectFenceId ≠ .nil →
        ∃ f, lookup Fence.id (run (n + 1)).fences cell.effectFenceId = some f ∧
          f.state = .running ∧
          (f.expiresAt = 0 ∨ (run (n + 1)).now < f.expiresAt) ∧
          (∀ m g, m ≤ n → lookup Fence.id (run m).fences cell.effectFenceId = some g →
            g.state.closed = false) ∧
          ∀ m op v, m < n → ops[m]? = some op → (run m).Observes op cell.effectFenceId v →
            v.Flows (e.sink.map (run (n + 1)).sinks))
  closed : ∀ m n id f, m ≤ n → lookup Fence.id (run m).fences id = some f →
    f.state.closed = true →
      ∃ g, lookup Fence.id (run n).fences id = some g ∧ g.state = f.state
  once : ∀ m n k e e', Enters run m k e → Enters run n k e' → m = n
  settled : ∀ (m n k : Nat) (e : PendingEffect), m ≤ n → (run m).effects[k]? = some e →
    (e.phase = .committed ∨ e.phase = .restored ∨ e.phase = .unknown) →
      ∃ e', (run n).effects[k]? = some e' ∧ e'.phase = e.phase

section Runs

variable {w0 : World} {ops : List EffectOp} {m n : Nat}

lemma after_advances (h : m ≤ n) :
    (after World.step w0 ops m).Advances (after World.step w0 ops n) :=
  after_within World.step (fun w op => (step_change w op).advances) h

lemma after_closed (h : m ≤ n) (hf : lookup Fence.id (after World.step w0 ops m).fences id = some f)
    (hc : f.state.closed = true) :
    ∃ g, lookup Fence.id (after World.step w0 ops n).fences id = some g ∧ g.state = f.state := by
  obtain ⟨g, hg, he⟩ := (after_advances h).fences id f hf
  exact ⟨g, hg, he.final hc⟩

lemma Enters.isOp (h : Enters (after World.step w0 ops) n k e) : ∃ op, ops[n]? = some op := by
  cases hop : ops[n]? with
  | some op => exact ⟨op, rfl⟩
  | none =>
    obtain ⟨he, hp, hnew⟩ := h
    rw [after_succ_none World.step hop] at he
    exact absurd hp (hnew e he)

lemma Enters.cleared (h : Enters (after World.step w0 ops) n k e) :
    (after World.step w0 ops (n + 1)).Cleared e := by
  obtain ⟨op, hop⟩ := h.isOp
  obtain ⟨he, hp, hnew⟩ := h
  have hc : (after World.step w0 ops n).Change (after World.step w0 ops (n + 1)) := by
    rw [after_succ World.step hop]
    exact step_change _ op
  exact hc.cleared he hp hnew

lemma Enters.not_lt (h : Enters (after World.step w0 ops) m k e)
    (h' : Enters (after World.step w0 ops) n k e') : ¬ m < n := by
  intro hlt
  obtain ⟨he, hp, -⟩ := h
  obtain ⟨he', hp', hnew⟩ := h'
  obtain ⟨e1, he1, l1⟩ := (after_advances hlt).effects k e he
  obtain ⟨e2, he2, l2⟩ := (after_advances n.le_succ).effects k e1 he1
  cases he'.symm.trans he2
  rcases l1.phase with h1 | h1
  · exact hnew e1 he1 (h1.trans hp)
  · rcases l2.phase with h2 | h2
    · rw [← h2, hp, hp'] at h1
      exact absurd h1 (by decide)
    · have := h1.trans h2
      rw [hp, hp'] at this
      exact absurd this (by decide)

end Runs

/-- **Fences hold in every run**: a bound effect is dispatched as its fence allows, and once at
most. -/
theorem effectFence_sound (cells : CellStore) (sinks : Nat → Sensitivity) (now : UInt64)
    (ops : List EffectOp) : FenceSound ops (after World.step (World.boot cells sinks now) ops) where
  cleared := by
    intro n k e h
    obtain ⟨cell, hcell, hadmits⟩ := h.cleared
    refine ⟨cell, hcell, fun hbound => ?_⟩
    obtain ⟨f, hf, ha⟩ := hadmits hbound
    refine ⟨f, hf, ha.running, ha.deadline, ?_, ?_⟩
    · intro m g hm hg
      cases hc : g.state.closed with
      | false => rfl
      | true =>
        obtain ⟨f', hf', hs⟩ := after_closed (Nat.le_succ_of_le hm) hg hc
        cases hf.symm.trans hf'
        rw [ha.running] at hs
        rw [← hs] at hc
        exact absurd hc (by decide)
    · intro m op v hm hop hobs
      obtain ⟨g, hg, hv⟩ := hobs.label hbound
      rw [← after_succ World.step hop] at hg
      obtain ⟨f', hf', hev⟩ := (after_advances (Nat.le_succ_of_le hm)).fences _ g hg
      cases hf.symm.trans hf'
      exact ha.flows.mono (hv.trans hev.label)
  closed := fun m n id f => after_closed
  once := by
    intro m n k e e' h h'
    have h₁ := h.not_lt h'
    have h₂ := h'.not_lt h
    omega
  settled := by
    intro m n k e h he hp
    obtain ⟨e', he', l⟩ := (after_advances h).effects k e he
    refine ⟨e', he', ?_⟩
    rcases l.phase with hl | hl
    · exact hl
    · -- nothing ranks above a settled phase
      have h₁ : e.phase.rank = 2 := by rcases hp with hp | hp | hp <;> rw [hp] <;> rfl
      have h₂ : e'.phase.rank ≤ 2 := by cases e'.phase <;> decide
      omega

def effectfulCell : Cell :=
  { Cell.create ⟨0, 7⟩ with
    execution := { (Cell.create ⟨0, 7⟩).execution with allowSideEffects := true } }

def openSurroundings : Surroundings where
  identity := .ok ()
  branch := .ok ()
  object := fun _ => none
  memory := true

def readThenDispatch : List EffectOp :=
  [ .create none ⟨0, 1⟩,
    .bind none ⟨0, 7⟩ ⟨0, 1⟩,
    .prepare none openSurroundings ⟨0, 7⟩ (some 3) .nil,
    .read (some ⟨0, 7⟩) ⟨⟨0, 5⟩, false, .internal, [42]⟩ .read 0 1,
    .markDispatching none openSurroundings 0 ]

/-- A cell that read what its sink may see dispatches its effect. -/
theorem effectFence_sound_readThenDispatch :
    Enters (after World.step (World.boot [effectfulCell] (fun _ => .confidential) 0)
      readThenDispatch) 4 0 ⟨⟨0, 7⟩, some 3, .nil, .dispatching, ⟨0, 1⟩, 1⟩ ∧
      FenceSound readThenDispatch
      (after World.step
        (World.boot [effectfulCell] (fun _ => .confidential) 0) readThenDispatch) := by
  refine ⟨⟨by decide, rfl, ?_⟩, effectFence_sound _ _ _ _⟩
  intro e₀ h
  have h₀ : some e₀ = some ⟨⟨0, 7⟩, some 3, .nil, .prepared, ⟨0, 1⟩, 1⟩ := by
    rw [← h]
    decide
  cases h₀
  decide

end Anunix
