import Anunix.Lib.Run
import Anunix.View.Transfer

/-!
# Runs of resource views

What the views are for is an abstract store: identifiers, and the bytes of each. Only an insertion,
a clone and a release change it; compaction and moves do not. Along every run, whatever the page
allocator answers, the pools hold that store (`views_keep_bytes`).
-/

namespace Anunix.View

open Fallible Slots

variable {sha256 : List UInt8 → List UInt8} {expected : Expected} {s s' : Views}

/-! ## Reads -/

def rangeOf (b : List UInt8) (offset size : Nat) : Except Err (List UInt8) :=
  if b.length < offset ∨ b.length - offset < size then .error .einval else
    .ok ((b.drop offset).take size)

lemma viewRead_eq (h : s.Sound sha256 expected) {id i j : Nat} {p : Pool} {a : Alias}
    {b : List UInt8} (hfind : s.findAlias id = some (i, p, j, a)) (hb : expected id = some b)
    (c : Caller) (offset size : Nat) : outcome (viewRead sha256 c id offset size) s =
      if c.current.any (· ≠ p.owner) then .error .eperm else rangeOf b offset size := by
  obtain ⟨hp, ha, rfl⟩ := Views.findAlias_eq hfind
  obtain ⟨r, hr, hrecord, hlive, hbytes⟩ := h.record hp ha
  rw [hb] at hbytes
  cases hbytes
  have hlen : (p.bytes s.mem r).length = r.size := Region.length_load
  apply Ends.outcome
  apply Ends.get_bind
  rw [hfind]
  refine .orThrow_bind (fun hnone => nomatch hnone) fun x hx => ?_
  cases hx
  dsimp only
  rw [hrecord]
  by_cases hother : c.current.any (· ≠ p.owner) = true
  · have hdenied : authorized c p false = .error .eperm := by
      unfold authorized
      rw [if_pos hother]
    rw [if_pos hother, hdenied]
    exact .ofExcept_bind (fun e he => by cases he; rfl) fun _ hok => by cases hok
  · have hallowed : authorized c p false = .ok ⟨⟩ := by
      unfold authorized
      rw [if_neg hother]
      rfl
    rw [if_neg hother, hallowed]
    unfold rangeOf
    rw [hlen]
    refine .failIf_bind (fun hout => ?_) fun hin => ?_
    · rw [if_pos (of_decide_eq_true hout)]
    · have hrange := of_decide_eq_false hin
      rw [if_neg hrange]
      -- the digest is that of the bytes expected
      have hdigest : recordDigest sha256 s.mem p.pages r.offset r.size = r.digest := by
        rw [(h.holds i p hp).digest a.record r hr hlive, recordDigest, copyOut, Paged.copyOut_eq]
        rfl
      refine .pass (decide_eq_false (not_not.mpr hdigest)) ?_
      rw [copyOut, Paged.copyOut_eq, Region.load_part (b := r.size) (by omega)]
      rfl

lemma viewRead_final (c : Caller) (id offset size : Nat) :
    final (viewRead sha256 c id offset size) s = s := by
  refine Ends.final (P := (· = s)) ?_
  refine .fetch fun x _ => ?_
  refine .lift fun _ _ => ?_
  refine .guard fun _ => ?_
  exact .guard fun _ => rfl

/-! ## Runs -/

/-- The calls. What the page allocator answers comes with the calls that ask it. -/
inductive Call where
  | create (owner : Uuid) (capacity : Nat) (known memory : Bool)
  | destroy (pool : Nat)
  | insert (pool : Nat) (data : List UInt8) (grants : List (Option Nat))
  | clone (view : Nat)
  | release (view : Nat)
  | read (view offset size : Nat)
  | compact (pool minimumDeadBytes headroomPages : Nat) (grants : List (Option Nat))
  | move (view pool headroomPages : Nat) (grants : List (Option Nat))

inductive Reply where
  | done
  | pool (id : Nat)
  | view (id : Nat)
  | bytes (data : List UInt8)
  deriving DecidableEq, Repr

variable (sha256) in
def Call.run (c : Caller) : Call → Prog Reply
  | .create owner capacity known memory => Reply.pool <$> poolCreate c owner capacity known memory
  | .destroy id => (fun _ => Reply.done) <$> poolDestroy c id
  | .insert id data grants => Reply.view <$> viewInsert sha256 c id data grants
  | .clone id => Reply.view <$> viewClone c id
  | .release id => (fun _ => Reply.done) <$> viewRelease c id
  | .read id offset size => Reply.bytes <$> viewRead sha256 c id offset size
  | .compact id dead headroom grants =>
    (fun _ => Reply.done) <$> poolCompact sha256 c id dead headroom grants
  | .move id pool headroom grants =>
    (fun _ => Reply.done) <$> viewMove sha256 c id pool headroom grants

/-- The abstract store after a call that succeeded. -/
def Expected.after (expected : Expected) : Call → Reply → Expected
  | .insert _ data _, .view id => Function.update expected id (some data)
  | .clone old, .view id => Function.update expected id (expected old)
  | .release id, _ => Function.update expected id none
  | _, _ => expected

structure World where
  views : Views
  expected : Expected

/-- What happens next: a call, or the rest of the kernel writes to pages that are not held here. -/
inductive Input where
  | call (c : Caller) (call : Call)
  | elsewhere (mem : Nat → Nat → UInt8)

variable (sha256) in
def World.step (w : World) : Input → World
  | .call c call =>
    match call.run sha256 c w.views with
    | .ok reply views => ⟨views, w.expected.after call reply⟩
    | .error _ views => ⟨views, w.expected⟩
  | .elsewhere mem =>
    ⟨{ w.views with mem := fun x => if x ∈ w.views.held then w.views.mem x else mem x }, w.expected⟩

def World.start (mem : Nat → Nat → UInt8) : World :=
  ⟨⟨mem, ∅, List.replicate poolsMax none, 0⟩, fun _ => none⟩

variable (sha256) in
def worldAt (mem : Nat → Nat → UInt8) (inputs : List Input) (n : Nat) : World :=
  Run.after (World.step sha256) (World.start mem) inputs n

lemma Call.run_ends (h : s.Sound sha256 expected) (c : Caller) (call : Call) :
    Ends (call.run sha256 c) s
      (fun reply s' => s'.Sound sha256 (expected.after call reply) ∧ ∀ id, reply = .view id →
        s.sequence < id)
      fun _ s' => s.Same s' := by
  cases call with
  | create owner capacity known memory =>
    apply Ends.map
    exact (poolCreate_ends h c owner capacity known memory).post
      fun _ _ hs => ⟨hs, fun _ hr => nomatch hr⟩
  | destroy id =>
    apply Ends.map
    exact (poolDestroy_ends h c id).post fun _ _ hs => ⟨hs, fun _ hr => nomatch hr⟩
  | insert id data grants =>
    apply Ends.map
    refine (viewInsert_ends h c id data grants).post fun n _ hs => ⟨hs.2, fun x hr => ?_⟩
    cases hr
    exact hs.1
  | clone id =>
    apply Ends.map
    refine (viewClone_ends h c id).post fun n _ hs => ⟨hs.2, fun x hr => ?_⟩
    cases hr
    exact hs.1
  | release id =>
    apply Ends.map
    exact (viewRelease_ends h c id).post fun _ _ hs => ⟨hs, fun _ hr => nomatch hr⟩
  | read id offset size =>
    apply Ends.map
    have hsame : Atomic (viewRead sha256 c id offset size) s (fun _ s' => s' = s) :=
      .of_final (viewRead_final c id offset size)
    refine hsame.mono (fun _ s' hs => ⟨?_, fun _ hr => nomatch hr⟩) fun _ s' hs => ?_
    · rw [hs]
      exact h
    · rw [hs]
  | compact id dead headroom grants =>
    apply Ends.map
    exact (poolCompact_ends h c id dead headroom grants).post
      fun _ _ hs => ⟨hs, fun _ hr => nomatch hr⟩
  | move id pool headroom grants =>
    apply Ends.map
    exact (viewMove_ends h c id pool headroom grants).post
      fun _ _ hs => ⟨hs, fun _ hr => nomatch hr⟩

lemma sound_start (mem : Nat → Nat → UInt8) :
    (World.start mem).views.Sound sha256 fun _ => none := by
  have hnone : ∀ i p, get (List.replicate poolsMax (none : Option Pool)) i ≠ some p := by
    intro i p hp
    rw [get_replicate_none] at hp
    cases hp
  refine ⟨fun i p hp => absurd hp (hnone i p), fun i p hp => absurd hp (hnone i p), ?_, ?_,
    fun x hx => nomatch hx⟩
  · refine ⟨fun i p hp => absurd hp (hnone i p), fun i _ p _ _ hp => absurd hp (hnone i p),
      fun x => ?_⟩
    refine ⟨fun hx => absurd hx (Finset.notMem_empty x), fun hx => ?_⟩
    obtain ⟨i, p, hp, -⟩ := hx
    exact absurd hp (hnone i p)
  · refine ⟨fun i p hp => absurd hp (hnone i p), fun i _ p _ _ hp => absurd hp (hnone i p),
      fun x => ?_⟩
    refine Iff.intro (fun hx => nomatch hx) fun hx => ?_
    obtain ⟨i, p, hp, -⟩ := hx
    exact absurd hp (hnone i p)

lemma World.step_sound {w : World} (h : w.views.Sound sha256 w.expected) (input : Input) :
    (w.step sha256 input).views.Sound sha256 (w.step sha256 input).expected := by
  cases input with
  | call c call =>
    have hends := Call.run_ends h c call
    cases hrun : call.run sha256 c w.views with
    | ok reply views =>
      rw [World.step, hrun]
      exact (hends.of_ok hrun).1
    | error e views =>
      rw [World.step, hrun]
      exact h.of_same (hends.of_error hrun)
  | elsewhere mem =>
    apply h.of_same
    exact ⟨rfl, rfl, rfl, fun x hx => if_pos hx⟩

/-! ## The views hold the abstract store -/

lemma Views.Sound.exists_findAlias (h : s.Sound sha256 expected) {id : Nat} :
    (expected id).isSome = true ↔ ∃ i p j a, s.findAlias id = some (i, p, j, a) := by
  constructor
  · intro hsome
    obtain ⟨i, p, hp, hmem⟩ := (h.ids.covers id).mp hsome
    obtain ⟨a, ha, hid⟩ := Pool.mem_aliasIds.mp hmem
    exact Views.exists_findAlias hp ha hid
  · intro hfound
    obtain ⟨i, p, j, a, hfind⟩ := hfound
    obtain ⟨hp, ha, hid⟩ := Views.findAlias_eq hfind
    apply h.ids.mem hp
    exact Pool.mem_aliasIds.mpr ⟨a, mem_reduceOption.mpr ⟨j, ha⟩, hid⟩

/-- In every run a view reads as the bytes it was made of, for its owner and the kernel only. -/
theorem views_keep_bytes (sha256 : List UInt8 → List UInt8) (mem : Nat → Nat → UInt8)
    (inputs : List Input) (n : Nat) : let w := worldAt sha256 mem inputs n
    (∀ id b, w.expected id = some b → ∃ owner, ∀ c offset size,
      outcome (viewRead sha256 c id offset size) w.views =
        if c.current.any (· ≠ owner) then .error .eperm else rangeOf b offset size) ∧
    (∀ id, (w.expected id).isSome = true ↔ ∃ i p j a, w.views.findAlias id = some (i, p, j, a)) ∧
    (∀ i p, get w.views.pools i = some p →
      (∀ k r, get p.records k = some r → r.refs = (p.aliasList k).length) ∧
      (∀ k r, get p.records k = some r → r.refs ≠ 0 → r.offset + r.size ≤ p.tail) ∧
      (∀ k l r q, k ≠ l → get p.records k = some r → get p.records l = some q →
        r.refs ≠ 0 → q.refs ≠ 0 → r.offset + r.size ≤ q.offset ∨ q.offset + q.size ≤ r.offset) ∧
      p.pages.length = (p.tail + pageSize - 1) / pageSize) ∧
    (∀ x, x ∈ w.views.held ↔ ∃ i p, get w.views.pools i = some p ∧ x ∈ p.pages) ∧
    (∀ c call, Ends (Call.run sha256 c call) w.views
      (fun reply _ => ∀ id, reply = .view id → w.expected id = none)
      fun _ s' => w.views.Same s') := by
  intro w
  have h : w.views.Sound sha256 w.expected :=
    Run.after_invariant (World.step sha256) (I := fun w => w.views.Sound sha256 w.expected)
      (sound_start mem) (fun _ input h => World.step_sound h input) n
  refine ⟨?_, fun id => h.exists_findAlias, ?_, h.pages.covers, ?_⟩
  · intro id b hb
    obtain ⟨i, p, j, a, hfind⟩ := h.exists_findAlias.mp (Option.isSome_of_mem hb)
    exact ⟨p.owner, viewRead_eq h hfind hb⟩
  · intro i p hp
    have hlaid := h.laid i p hp
    exact ⟨hlaid.refs, hlaid.inside, hlaid.apart, hlaid.pageCount⟩
  · intro c call
    refine (Call.run_ends h c call).post fun reply _ hs id hreply => ?_
    have hnew := hs.2 id hreply
    cases hlive : w.expected id with
    | none => rfl
    | some b =>
      have hle := h.below id (Option.isSome_of_mem hlive)
      omega

end Anunix.View
