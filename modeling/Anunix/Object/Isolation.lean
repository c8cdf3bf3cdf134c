import Anunix.Lib.Run
import Anunix.Object.Runs

/-!
# Staged mutations are isolated and atomic

While an object is staged its live part stands still and its shadow collects the writes; a stage is
then published whole or dropped whole, and a batch resolves all of its members or none.

All of this is about runs in which no write overruns its buffer. `anx_so_write_payload` adds offset
and length in 64 bits before it compares the sum with the size of the payload, so a sum that wraps
around passes as a small one and the copy goes to an address outside of the buffer. A sum close to
`2^64` gets a block that is too small for it.
-/

namespace Anunix.Object
open Fallible List Option

/-! ## Points of a run -/

def Store.after (s : Store) (run : List (Call × Env)) (n : Nat) : Store :=
  Run.after Store.step s run n

def Orderly : Store → List (Call × Env) → Prop
  | _, [] => True
  | s, c :: run => s.strays c = false ∧ Orderly (s.step c) run

instance : (s : Store) → (run : List (Call × Env)) → Decidable (Orderly s run)
  | _, [] => inferInstanceAs (Decidable True)
  | s, c :: run =>
    have := instDecidableOrderly (s.step c) run
    inferInstanceAs (Decidable (_ ∧ _))

/-- What readers see of an object: payload with its size, version, content hash. -/
def StateObject.live (obj : StateObject) : Payload × UInt64 × Digest :=
  (obj.payload, obj.version, obj.contentHash)

def Store.liveAt (s : Store) (i : Nat) : Option (Payload × UInt64 × Digest) :=
  (s.objects[i]?).map StateObject.live

def Store.shadowAt (s : Store) (i : Nat) : Option Payload :=
  (s.objects[i]?).bind fun obj => obj.staged.map StagedMutation.shadow

def StagedDuring (s : Store) (run : List (Call × Env)) (i m n : Nat) : Prop :=
  ∀ k, m ≤ k → k ≤ n → (s.after run k).shadowAt i ≠ none

def built (i : Nat) : Store → List (Call × Env) → Payload → Payload
  | _, [], p => p
  | s, c :: calls, p => built i (s.step c) calls (s.written i c p)

/-- The stage of an object was published, or dropped without a trace in the object. -/
def Store.ResolvedAt (s s' : Store) (commit : Bool) (i : Nat) : Prop :=
  ∃ obj stage, s.objects[i]? = some obj ∧ obj.staged = some stage ∧
    s'.objects[i]? = some (if commit then
      { obj with
        payload := stage.shadow, version := obj.version + 1,
        contentHash := contentHashOf s.sha256 stage.shadow, staged := none }
      else { obj with staged := none }) ∧
    (commit = true → (obj.version + 1).toNat = obj.version.toNat + 1)

structure Isolated (s : Store) (run : List (Call × Env)) : Prop where
  live : ∀ i m n, m ≤ n → StagedDuring s run i m n →
    (s.after run n).liveAt i = (s.after run m).liveAt i
  shadow : ∀ i m n, m ≤ n → StagedDuring s run i m n → (s.after run n).shadowAt i =
    ((s.after run m).shadowAt i).map (built i (s.after run m) ((run.take n).drop m))
  /-- A stage starts as a copy of the live payload and leaves that alone. -/
  opens : ∀ n h cell env, run[n]? = some (.stage h cell, env) →
    (s.after run n).succeeds (.stage h cell, env) = true →
    ∃ i obj, (s.after run n).Writes h i ∧ (s.after run n).objects[i]? = some obj ∧
      (s.after run (n + 1)).liveAt i = some obj.live ∧
      (s.after run (n + 1)).shadowAt i = some (if obj.payload.present then obj.payload else .empty)
  /-- A commit publishes exactly what the writes since staging have made of that copy, under the
      next version. -/
  publishes : ∀ i m n h cell env c handles h' obj,
    run[m]? = some (.stage h cell, env) → (s.after run m).succeeds (.stage h cell, env) = true →
    ((s.after run m).handles h).obj = some i → (s.after run m).objects[i]? = some obj →
    m < n → StagedDuring s run i (m + 1) n →
    run[n]? = some c → c.1.resolves = some (true, handles) → (s.after run n).succeeds c = true →
    h' ∈ handles → ((s.after run n).handles h').obj = some i →
    let shadow := built i (s.after run (m + 1)) ((run.take n).drop (m + 1))
      (if obj.payload.present then obj.payload else .empty)
    (s.after run (n + 1)).liveAt i =
        some (shadow, obj.version + 1, contentHashOf (s.after run n).sha256 shadow) ∧
      (obj.version + 1).toNat = obj.version.toNat + 1
  /-- A commit or abort, single or batched, resolves every object it lists and touches no other. -/
  resolves : ∀ n c commit handles, run[n]? = some c → c.1.resolves = some (commit, handles) →
    (s.after run n).succeeds c = true →
    (∀ h ∈ handles, ∃ i, (s.after run n).Writes h i ∧
      (s.after run n).ResolvedAt (s.after run (n + 1)) commit i) ∧
    ∀ i, (∀ h ∈ handles, ((s.after run n).handles h).obj ≠ some i) →
      (s.after run (n + 1)).objects[i]? = (s.after run n).objects[i]?
  /-- One that fails, for whatever member and reason, leaves every object and every stage as it
  was. -/
  refuses : ∀ n c commit handles, run[n]? = some c → c.1.resolves = some (commit, handles) →
    (s.after run n).succeeds c = false →
    (s.after run (n + 1)).objects = (s.after run n).objects

/-! ## One step -/

variable {s : Store} {c : Call × Env} {i : Nat}

section Step

variable {obj obj' : StateObject} {st st' : StagedMutation}

lemma staged_resolved (h : obj.staged = some st) (commit : Bool) :
    (obj.resolved s.sha256 commit).staged = none := by
  simp only [StateObject.resolved, h]
  split <;> rfl

lemma Touch.staged (h : Touch s c i obj obj') (hst : obj.staged = some st)
    (hst' : obj'.staged = some st') :
    obj'.live = obj.live ∧ st'.shadow = s.written i c st.shadow := by
  cases h with
  | keep quiet =>
    cases hst.symm.trans hst'
    exact ⟨rfl, by rw [quiet]; rfl⟩
  | label quiet level =>
    cases hst.symm.trans hst'
    exact ⟨rfl, by rw [quiet]; rfl⟩
  | sealing _ unstaged => exact nomatch unstaged.symm.trans hst
  | delete _ unstaged => exact nomatch unstaged.symm.trans hst
  | assign writes unsealed =>
    simp only [StateObject.assign, StateObject.target, hst] at hst' ⊢
    cases hst'
    exact ⟨rfl, rfl⟩
  | stage _ _ _ unstaged => exact nomatch unstaged.symm.trans hst
  | review quiet staged id =>
    cases staged.symm.trans hst
    cases hst'
    exact ⟨rfl, by rw [quiet]; rfl⟩
  | resolve _ staged commit =>
    rw [staged_resolved staged] at hst'
    cases hst'

lemma shadowAt_eq_some {p : Payload} :
    s.shadowAt i = some p ↔ ∃ obj st, s.objects[i]? = some obj ∧ obj.staged = some st ∧
    st.shadow = p := by
  simp only [Store.shadowAt, bind_eq_some_iff, map_eq_some_iff]
  constructor
  · rintro ⟨obj, ho, st, hst, hp⟩
    exact ⟨obj, st, ho, hst, hp⟩
  · rintro ⟨obj, st, ho, hst, hp⟩
    exact ⟨obj, ho, st, hst, hp⟩

lemma step_staged (hn : s.strays c = false) (hs : s.shadowAt i ≠ none)
    (hs' : (s.step c).shadowAt i ≠ none) :
    (s.step c).liveAt i = s.liveAt i ∧
    (s.step c).shadowAt i = (s.shadowAt i).map (s.written i c) := by
  obtain ⟨p, hp⟩ := ne_none_iff_exists'.mp hs
  obtain ⟨p', hp'⟩ := ne_none_iff_exists'.mp hs'
  obtain ⟨obj, st, ho, hst, rfl⟩ := shadowAt_eq_some.mp hp
  obtain ⟨obj', st', ho', hst', rfl⟩ := shadowAt_eq_some.mp hp'
  obtain ⟨obj'', ho'', htouch⟩ := (step_tracks hn).touches i obj ho
  cases ho'.symm.trans ho''
  obtain ⟨hlive, hshadow⟩ := htouch.staged hst hst'
  rw [hp, hp', hshadow]
  exact ⟨by simp [Store.liveAt, ho, ho', hlive], rfl⟩

end Step

/-! ## Runs -/

section Runs

variable {run : List (Call × Env)} {m n : Nat}

lemma after_step (h : run[n]? = some c) : s.after run (n + 1) = (s.after run n).step c :=
  Run.after_succ Store.step h

lemma built_concat (s : Store) (calls : List (Call × Env)) (c : Call × Env) (p : Payload) :
    built i s (calls ++ [c]) p = (calls.foldl Store.step s).written i c (built i s calls p) := by
  induction calls generalizing s p with
  | nil => rfl
  | cons c' calls ih => exact ih (s.step c') _

lemma foldl_between (h : m ≤ n) :
    ((run.take n).drop m).foldl Store.step (s.after run m) = s.after run n := by
  have hsplit : run.take m ++ (run.take n).drop m = run.take n := by
    have e : (run.take n).take m = run.take m := by rw [take_take, Nat.min_eq_left h]
    rw [← e, take_append_drop]
  rw [Store.after, Store.after, Run.after, Run.after, ← foldl_append, hsplit]

lemma between_succ (h : m ≤ n) (hc : run[n]? = some c) :
    (run.take (n + 1)).drop m = (run.take n).drop m ++ [c] := by
  have hlen := (List.getElem?_eq_some_iff.mp hc).1
  rw [List.take_add_one, hc, toList_some, List.drop_append_of_le_length]
  rw [List.length_take]
  omega

lemma between_of_none (hc : run[n]? = none) : run.take (n + 1) = run.take n := by
  rw [List.take_add_one, hc, toList_none, append_nil]

lemma Orderly.calm (ho : Orderly s run) (hc : run[n]? = some c) :
    (s.after run n).strays c = false := by
  induction run generalizing s n with
  | nil => cases hc
  | cons c' run ih =>
    cases n with
    | zero =>
      cases hc
      exact ho.1
    | succ n => exact ih ho.2 hc

lemma Orderly.staged (ho : Orderly s run) (h : m ≤ n) (hst : StagedDuring s run i m n) :
    (s.after run n).liveAt i = (s.after run m).liveAt i ∧ (s.after run n).shadowAt i =
        ((s.after run m).shadowAt i).map (built i (s.after run m) ((run.take n).drop m)) := by
  induction h with
  | refl =>
    have hnil : (run.take m).drop m = [] := drop_eq_nil_of_le (length_take_le _ _)
    rw [hnil]
    refine ⟨rfl, ?_⟩
    cases (s.after run m).shadowAt i <;> rfl
  | @step n h ih =>
    obtain ⟨hlive, hshadow⟩ := ih fun k hk hkn => hst k hk (Nat.le_succ_of_le hkn)
    cases hc : run[n]? with
    | none =>
      have he : s.after run (n + 1) = s.after run n := Run.after_succ_none Store.step hc
      rw [he, between_of_none hc]
      exact ⟨hlive, hshadow⟩
    | some c =>
      have hat := hst n h (Nat.le_succ n)
      have hnext := hst (n + 1) (Nat.le_succ_of_le h) (Nat.le_refl _)
      rw [after_step hc] at hnext ⊢
      obtain ⟨hlive', hshadow'⟩ := step_staged (ho.calm hc) hat hnext
      refine ⟨hlive'.trans hlive, ?_⟩
      rw [hshadow', hshadow, between_succ h hc, Option.map_map]
      congr 1
      funext p
      rw [built_concat, foldl_between h]
      rfl

end Runs

/-! ## Opening and resolving -/

section Resolve

variable {s' : Store} {env : Env} {h : Nat} {Q : Unit → Store → Prop} {handles : List Nat}
  {commit : Bool}

lemma step_resolves (hc : c.1.resolves = some (commit, handles)) (hs : s.succeeds c = true) :
    (∀ h ∈ handles, ∃ i, s.Writes h i ∧ s.ResolvedAt (s.step c) commit i) ∧
      ∀ i, (∀ h ∈ handles, (s.handles h).obj ≠ some i) →
      (s.step c).objects[i]? = s.objects[i]? := by
  obtain ⟨targets, hl, hall, hb⟩ := (resolves_ends hc).of_succeeds hs
  constructor
  · intro h hh
    obtain ⟨t, ht, hw, ho⟩ := hl.opened h hh
    obtain ⟨⟨stage, hstage⟩, hchecked⟩ := hall t ht
    refine ⟨t.1, hw, t.2, stage, ho, hstage, ?_, fun hc => ?_⟩
    · refine (hb.member t ht).trans ?_
      simp only [StateObject.resolved, hstage]
      rfl
    · obtain ⟨s1, _, -, hpub, -⟩ := hchecked hc
      exact toNat_succ_of_ne hpub.room
  · intro i hi
    apply hb.other i
    intro hm
    obtain ⟨t, ht, rfl⟩ := mem_map.mp hm
    obtain ⟨h, hh, hw, -⟩ := hl.listed t ht
    exact hi h hh hw.1

lemma step_opens {cell : Uuid} (hs : s.succeeds (.stage h cell, env) = true) :
    ∃ i obj, s.Writes h i ∧ s.objects[i]? = some obj ∧
      (s.step (.stage h cell, env)).liveAt i = some obj.live ∧
      (s.step (.stage h cell, env)).shadowAt i =
        some (if obj.payload.present then obj.payload else .empty) := by
  obtain ⟨addr, obj, hw, ho, -, -, he⟩ := objectStage_ends.of_succeeds hs
  have he : s.step (.stage h cell, env) = _ := he
  refine ⟨addr, obj, hw, ho, ?_, ?_⟩
  · rw [he, Store.liveAt, getElem?_setObject_self ho]
    rfl
  · rw [he, Store.shadowAt, getElem?_setObject_self ho]
    rfl

end Resolve

/-- A stage is neither seen nor disturbed by others until it is committed. -/
theorem stages_isolated (s : Store) (run : List (Call × Env)) (h : Orderly s run) :
    Isolated s run where
  live i m n hmn hst := (h.staged hmn hst).1
  shadow i m n hmn hst := (h.staged hmn hst).2
  opens n hd cell env hc hs := by
    rw [after_step hc]
    exact step_opens hs
  publishes i m n hd cell env c handles h' obj hm hs hi hobj hmn hst hn hr hc hh hi' := by
    -- The stage opens on `i` with a copy of the live payload.
    obtain ⟨i1, obj1, hw1, ho1, hlive1, hshadow1⟩ := step_opens hs
    cases hi.symm.trans hw1.1
    cases hobj.symm.trans ho1
    rw [← after_step hm] at hlive1 hshadow1
    -- Up to the commit the live part stands still and the shadow collects the writes.
    obtain ⟨hlive, hshadow⟩ := h.staged hmn hst
    rw [hlive1] at hlive
    rw [hshadow1] at hshadow
    -- The commit resolves the object that its handle refers to.
    obtain ⟨hall, -⟩ := step_resolves hr hc
    obtain ⟨i2, hw2, obj2, stage, ho2, hstage, hnext, hver⟩ := hall h' hh
    cases hi'.symm.trans hw2.1
    rw [Store.liveAt, ho2, map_some, some.injEq] at hlive
    have hversion : obj2.version = obj.version := congrArg (fun l => l.2.1) hlive
    have hshadow2 : (s.after run n).shadowAt i = some stage.shadow :=
      shadowAt_eq_some.mpr ⟨obj2, stage, ho2, hstage, rfl⟩
    obtain hsame := some.inj (hshadow2.symm.trans hshadow)
    rw [after_step hn, Store.liveAt, hnext]
    refine ⟨?_, hversion ▸ hver rfl⟩
    simp only [hversion, hsame]
    rfl
  resolves n c commit handles hc hr hs := by
    rw [after_step hc]
    exact step_resolves hr hs
  refuses n c commit handles hc hr hs := by
    rw [after_step hc]
    exact ((resolves_ends hr).of_fails hs).objects

/-! ## A staged write, and one that strays -/

def Env.trusted (stray : List StateObject → List StateObject) : Env where
  current := none
  cells := []
  identity := fun _ => .error .enoent
  scope := fun _ => .error .enoent
  fence := fun _ => .error .enoent
  branch := fun _ => .error .enoent
  observe := fun _ _ => .ok ()
  alloc := true
  junk := fun _ => 0
  freshOid := ⟨1, 1⟩
  stray := stray

def Buffer.ofList (bytes : List UInt8) (h : bytes.length ≤ 2 ^ 43 - 8 := by decide) : Buffer :=
  ⟨bytes, by omega, by
    have hlen : (UInt64.ofNat bytes.length).toNat = bytes.length := Nat.mod_eq_of_lt (by omega)
    exact hlen.ge.trans (le_allocBytes (hlen.le.trans h))⟩

def twoBytes : CreateParams where
  objectType := .byteData
  schemaUri := none
  schemaVersion := none
  payload := .buffer (Buffer.ofList [1, 2])
  parentOids := []
  creatorCell := .nil
  sensitivity := .pub

def stagedWrite (env : Env) (offset : UInt64) (data : Buffer) : List (Call × Env) :=
  [(.create twoBytes, env), (.openAs ⟨1, 1⟩ .readwrite 0, env), (.stage 0 .nil, env),
    (.write 0 offset data, env), (.commit 0, env)]

/-- A write behind the end of the shadow shows after the commit only. -/
theorem stages_isolated_append :
    let run := stagedWrite (.trusted id) 2 (.ofList [3])
    Orderly (.boot id) run ∧ Isolated (.boot id) run ∧
      ((Store.boot id).after run 4).liveAt 0 = some (.buffer (.ofList [1, 2]), 1, [1, 2]) ∧
      ((Store.boot id).after run 5).liveAt 0 =
      some (.buffer (.ofList [1, 2, 3]), 2, [1, 2, 3]) := by
  have h : Orderly (.boot id) (stagedWrite (.trusted id) 2 (.ofList [3])) := by decide +kernel
  exact ⟨h, stages_isolated _ _ h, by decide +kernel, by decide +kernel⟩

/-- The live payload two bytes long in the 32-byte slot right below the slot of the shadow: a copy
    to 32 bytes in front of the shadow overwrites it. -/
def slotBelow (objects : List StateObject) : List StateObject :=
  objects.modify 0 fun obj => { obj with payload := .buffer (.ofList [9, 9]) }

/-- A write of 32 bytes at offset `2^64 - 32` of a staged object: the sum is zero, so no buffer is
    grown, and the copy starts 32 bytes in front of the shadow. -/
theorem stray_write_reaches_live :
    let run := stagedWrite (.trusted slotBelow) 0xFFFFFFFFFFFFFFE0 (.ofList (replicate 32 9))
    (Payload.buffer (.ofList [1, 2])).write 0xFFFFFFFFFFFFFFE0 (.ofList (replicate 32 9))
        (fun _ => 0) = none ∧
      ¬ Isolated (.boot id) run := by
  refine ⟨by decide +kernel, fun h => ?_⟩
  have hst : StagedDuring (.boot id)
      (stagedWrite (.trusted slotBelow) 0xFFFFFFFFFFFFFFE0 (.ofList (replicate 32 9))) 0 3 4 := by
    intro k hk hk'
    obtain rfl | rfl : k = 3 ∨ k = 4 := by omega
    · decide +kernel
    · decide +kernel
  exact absurd (h.live 0 3 4 (by decide) hst) (by decide +kernel)

end Anunix.Object
