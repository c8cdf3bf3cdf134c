import Anunix.Object.Isolation

/-!
# Sealed objects

A seal makes the payload of an object immutable. Writes are refused by the state the object is in,
not by its history: a sealed object that is deleted is no longer sealed, and a handle that was
opened for writing before the seal can write to it again. So sealed contents last exactly as long as
nobody deletes a sealed object under a writable handle, and no write elsewhere strays.
-/

namespace Anunix.Object
open Fallible Function

/-- The call deletes a sealed object that some handle is still open on for writing. -/
def Store.Exposes (s : Store) (c : Call × Env) : Prop :=
  ∃ oid force i obj h, c.1 = .delete oid force ∧ s.lookup oid = some (i, obj) ∧
    obj.state = .sealed ∧ s.Writes h i

/-- No write of the run leaves its buffer, and no sealed object is deleted under a writable
handle. -/
def Guarded : Store → List (Call × Env) → Prop
  | _, [] => True
  | s, c :: run => s.strays c = false ∧ ¬ s.Exposes c ∧ Guarded (s.step c) run

/-- Once an object was sealed, its payload, version and content hash stay as they were at that
    moment. -/
def SealedImmutable (s : Store) (run : List (Call × Env)) : Prop :=
  ∀ n m oid env i obj, run[n]? = some (.sealObject oid, env) →
    (s.after run n).succeeds (.sealObject oid, env) = true →
    (s.after run n).lookup oid = some (i, obj) → n < m → (s.after run m).liveAt i = some obj.live

/-- An object that no call can write to: it has no stage and is sealed, or it was deleted and no
    handle is open on it for writing. -/
def Store.Frozen (s : Store) (i : Nat) (live : Payload × UInt64 × Digest) : Prop :=
  ∃ obj, s.objects[i]? = some obj ∧ obj.live = live ∧ obj.staged = none ∧
    (obj.state = .sealed ∨ obj.state = .deleted ∧ ∀ h, ¬ s.Writes h i)

variable {s : Store} {c : Call × Env} {i : Nat} {live : Payload × UInt64 × Digest}

section Step

variable {h : Nat}

lemma not_exposes (hc : ∀ oid force, c.1 ≠ .delete oid force) : ¬ s.Exposes c := by
  rintro ⟨oid, force, _, _, _, he, -⟩
  exact hc oid force he

lemma step_handles (hopen : ∀ oid mode, c.1 ≠ .openAs oid mode h) (hclose : c.1 ≠ .close h) :
    (s.step c).handles h = s.handles h := by
  obtain ⟨x, env⟩ := c
  have ended := Ends.final (x := x.exec env) (s := s) (P := fun t => t.handles h = s.handles h)
  cases x with
  | openAs oid mode h' =>
    have hne : h ≠ h' := fun e => hopen oid mode (e ▸ rfl)
    refine ended (.mono soOpen_ends ?_ ?_)
    · rintro _ _ ⟨_, _, -, -, -, rfl⟩
      exact update_of_ne hne _ _
    · rintro _ _ rfl
      exact update_of_ne hne _ _
  | close h' =>
    have hne : h ≠ h' := fun e => hclose (e ▸ rfl)
    exact update_of_ne hne _ _
  | reviewBegin h' spec =>
    refine ended (.call epistemicBegin_ends ?_ fun _ _ e => e ▸ rfl)
    rintro _ _ ⟨_, _, _, _, _, -, -, -, -, -, -, rfl⟩
    rfl
  | reviewVote id evidence approve =>
    refine ended (.call epistemicVote_ends ?_ ?_)
    · rintro _ _ ⟨_, _, _, _, _, -, rfl⟩
      rfl
    · rintro _ _ (rfl | ⟨_, _, _, _, -, -, rfl⟩)
      · rfl
      · rfl
  | reviewDestroy id =>
    refine ended (.mono epistemicDestroy_ends ?_ fun _ _ e => e ▸ rfl)
    rintro _ _ rfl
    rfl
  | _ => exact congrFun (step_rest rfl).handles h

lemma step_writes (hw : (s.step c).Writes h i) :
    s.Writes h i ∨ ∃ obj, s.objects[i]? = some obj ∧ obj.state = .active := by
  by_cases hopen : ∃ oid mode, c.1 = .openAs oid mode h
  · obtain ⟨x, env⟩ := c
    obtain ⟨oid, mode, rfl⟩ := hopen
    have he : Leaves (soOpen env oid mode h) s
        fun t => t.Writes h i → ∃ obj, s.objects[i]? = some obj ∧ obj.state = .active := by
      refine .mono soOpen_ends ?_ ?_
      · rintro _ _ ⟨addr, obj, hl, hstate, -, rfl⟩ ⟨ha, hmode⟩
        simp only [Store.setHandle, update_self] at ha hmode
        cases ha
        rcases hstate with hactive | ⟨-, hread⟩
        · exact ⟨obj, (lookup_eq_some hl).2.1, hactive⟩
        · exact absurd hread hmode
      · rintro _ _ rfl ⟨ha, -⟩
        simp only [Store.setHandle, update_self] at ha
        cases ha
    exact .inr (Ends.final he hw)
  · by_cases hclose : c.1 = .close h
    · obtain ⟨x, env⟩ := c
      obtain rfl : x = .close h := hclose
      have ha : ((s.setHandle h { s.handles h with obj := none }).handles h).obj = some i := hw.1
      simp only [Store.setHandle, update_self] at ha
      cases ha
    · have e := step_handles (s := s) (fun oid mode he => hopen ⟨oid, mode, he⟩) hclose
      exact .inl ⟨e ▸ hw.1, e ▸ hw.2⟩

/-- No call writes to a frozen object, and deleting it keeps it frozen unless that exposes it. -/
lemma Store.Frozen.step (hf : s.Frozen i live) (hn : s.strays c = false) (he : ¬ s.Exposes c) :
    (s.step c).Frozen i live := by
  obtain ⟨obj, ho, rfl, hstaged, hstate⟩ := hf
  -- A deleted object gets no new writer: only active objects are opened for writing.
  have hwriters : obj.state = .deleted → (∀ h, ¬ s.Writes h i) → ∀ h, ¬ (s.step c).Writes h i := by
    intro hd hno h hw
    rcases step_writes hw with hw | ⟨obj', ho', hactive⟩
    · exact hno h hw
    · cases ho.symm.trans ho'
      rw [hd] at hactive
      cases hactive
  obtain ⟨obj', ho', htouch⟩ := (step_tracks hn).touches i obj ho
  cases htouch with
  | keep _ => exact ⟨obj, ho', rfl, hstaged, hstate.imp id fun hd => ⟨hd.1, hwriters hd.1 hd.2⟩⟩
  | label _ level =>
    exact ⟨_, ho', rfl, hstaged, hstate.imp id fun hd => ⟨hd.1, hwriters hd.1 hd.2⟩⟩
  | sealing _ _ active =>
    rcases hstate with hs | ⟨hd, -⟩
    · rw [hs] at active
      cases active
    · rw [hd] at active
      cases active
  | delete _ _ call found =>
    have hno : ∀ h, ¬ s.Writes h i := by
      rcases hstate with hs | ⟨-, hno⟩
      · intro h hw
        exact he ⟨_, _, i, obj, h, call, found, hs, hw⟩
      · exact hno
    refine ⟨_, ho', rfl, hstaged, .inr ⟨rfl, fun h hw => ?_⟩⟩
    rcases step_writes hw with hw | ⟨obj', hobj', hactive⟩
    · exact hno h hw
    · cases ho.symm.trans hobj'
      rcases hstate with hs | ⟨hd, -⟩
      · rw [hs] at hactive
        cases hactive
      · rw [hd] at hactive
        cases hactive
  | assign writes unsealed =>
    rcases hstate with hs | ⟨-, hno⟩
    · exact absurd hs unsealed
    · exact absurd writes (hno _)
  | stage _ _ unsealed _ =>
    rcases hstate with hs | ⟨hd, -⟩
    · simp [StateObject.closed, hs] at unsealed
    · simp [StateObject.closed, hd] at unsealed
  | review _ staged => exact nomatch hstaged.symm.trans staged
  | resolve _ staged => exact nomatch hstaged.symm.trans staged

end Step

section Runs

variable {run : List (Call × Env)} {n m : Nat}

lemma Guarded.at (hg : Guarded s run) (hc : run[n]? = some c) :
    (s.after run n).strays c = false ∧ ¬ (s.after run n).Exposes c := by
  induction run generalizing s n with
  | nil => cases hc
  | cons c' run ih =>
    cases n with
    | zero =>
      cases hc
      exact ⟨hg.1, hg.2.1⟩
    | succ n => exact ih hg.2.2 hc

lemma Guarded.frozen (hg : Guarded s run) (hf : (s.after run n).Frozen i live) (h : n ≤ m) :
    (s.after run m).Frozen i live :=
  Run.after_from Store.step (I := fun _ s' => s'.Frozen i live) h hf (fun _ _ ih => ih)
    fun _ _ _ _ hc ih => ih.step (hg.at hc).1 (hg.at hc).2

end Runs

/-- A sealed object does not change in a run that stays in its buffers and deletes no sealed object
under a writable handle. -/
theorem sealed_immutable (s : Store) (run : List (Call × Env)) (h : Guarded s run) :
    SealedImmutable s run := by
  intro n m oid env i obj hc hs hl hnm
  obtain ⟨addr, obj', hl', ho, hstaged, -, he⟩ := soSeal_ends.of_succeeds hs
  cases hl.symm.trans hl'
  have hf : (s.after run (n + 1)).Frozen i obj.live := by
    rw [(after_step hc).trans he]
    exact ⟨_, getElem?_setObject_self ho, rfl, hstaged, .inl rfl⟩
  obtain ⟨obj', ho', hlive, -⟩ := h.frozen hf hnm
  rw [Store.liveAt, ho', Option.map_some, hlive]

def sealDelete (between : Call) : List (Call × Env) :=
  [(.create twoBytes, .trusted id), (.openAs ⟨1, 1⟩ .readwrite 0, .trusted id),
    (.sealObject ⟨1, 1⟩, .trusted id), (between, .trusted id), (.delete ⟨1, 1⟩ true, .trusted id),
    (.write 0 0 (.ofList [9]), .trusted id)]

lemma sealDelete_unheld (h : Nat) :
    (((Store.boot id).after (sealDelete (.close 0)) 4).handles h).obj = none := by
  cases h with
  | zero => decide +kernel
  | succ h =>
    rfl

/-- With its handle closed, a sealed object is deleted and not changed. -/
theorem sealed_immutable_closed :
    Guarded (.boot id) (sealDelete (.close 0)) ∧
    SealedImmutable (.boot id) (sealDelete (.close 0)) := by
  have h : Guarded (.boot id) (sealDelete (.close 0)) := by
    refine ⟨by decide +kernel, not_exposes nofun, by decide +kernel, not_exposes nofun,
      by decide +kernel, not_exposes nofun, by decide +kernel, not_exposes nofun, by
      decide +kernel, ?_, by decide +kernel, not_exposes nofun, trivial⟩
    rintro ⟨oid, force, i, obj, h, -, -, -, hobj, -⟩
    exact nomatch (sealDelete_unheld h).symm.trans hobj
  exact ⟨h, sealed_immutable _ _ h⟩

/-- With the handle left open it writes to the deleted object, which the seal no longer protects. -/
theorem sealed_deleted_written :
    let run := sealDelete (.setSensitivity ⟨1, 1⟩ .pub)
    (((Store.boot id).after run 6).handles 0).obj = some 0 ∧ ¬ SealedImmutable (.boot id) run := by
  refine ⟨by decide +kernel, fun h => ?_⟩
  have hl := h 2 6 ⟨1, 1⟩ (.trusted id) 0
    ((Store.boot id).fresh ⟨1, 1⟩ twoBytes) rfl (by decide +kernel) (by decide +kernel) (by decide)
  exact absurd hl (by decide +kernel)

end Anunix.Object
