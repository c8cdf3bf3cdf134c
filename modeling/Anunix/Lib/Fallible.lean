import Mathlib

/-!
# Fallible programs

C functions report errors by returning a code, and the caller tests it. Pure ones are modelled in
`Except ε`, stateful ones in `EStateM ε σ`, where an error keeps the state reached so far, as a C
function that returns early does.

This file holds the guards such programs are written with (`failIf`, `orThrow`, `attempt`),
inversion lemmas for the programs that succeed, and the judgement `Within R x`, with one rule per
program former, for what every run of a program keeps whether it succeeds or fails. `Frames R x` is
the same judgement as a class, for programs whose text shows that they keep it. `Ends` follows one
run from a known state where the outcome depends on it.
-/

namespace Fallible

universe u

variable {ε σ α β : Type u} {x : EStateM ε σ α} {f : α → Except ε β} {R : σ → σ → Prop} {u : PUnit}
  {c : Bool}

/-- Leave with `e` when the condition holds: `if (b) return e;`. -/
def failIf {m : Type u → Type u} [Monad m] [MonadExceptOf ε m] (b : Bool) (e : ε) : m PUnit :=
  if b then throw e else pure ⟨⟩

/-- Leave with `e` when a pointer is null. -/
def orThrow {m : Type u → Type u} [Monad m] [MonadExceptOf ε m] (o : Option α) (e : ε) : m α :=
  match o with
  | some a => pure a
  | none => throw e

/-- Run a program and hand its return code to the caller: `ret = f();`. -/
def attempt (x : EStateM ε σ α) : EStateM ε σ (Except ε α) := fun s =>
  match x s with
  | .ok a s' => .ok (.ok a) s'
  | .error e s' => .ok (.error e) s'

/-- Run a program on a part of a larger state, which `put` writes back. -/
def zoom {τ : Type u} (view : σ → τ) (put : σ → τ → σ) (x : EStateM ε τ α) :
    EStateM ε σ α := fun s =>
  match x (view s) with
  | .ok a t => .ok a (put s t)
  | .error e t => .error e (put s t)

/-! ## Pure programs -/

lemma bind_eq_ok {x : Except ε α} {b : β} : (x >>= f) = .ok b ↔ ∃ a, x = .ok a ∧ f a = .ok b := by
  cases x <;> simp [bind, Except.bind]

lemma failIf_eq_ok {b : Bool} {e : ε} : (failIf b e : Except ε PUnit) = .ok u ↔ b = false := by
  cases b with
  | false => simp [failIf, pure, Except.pure]
  | true => simp [failIf]

lemma orThrow_eq_ok {o : Option α} {e : ε} {a : α} : (orThrow o e : Except ε α) = .ok a ↔
    o = some a := by
  cases o with
  | none => simp [orThrow]
  | some a' => simp [orThrow, pure, Except.pure]

lemma exists_ok_of_mapM {l : List α} {bs : List β} (h : l.mapM f = .ok bs) :
    ∀ a ∈ l, ∃ b, f a = .ok b := by
  induction l generalizing bs with
  | nil => exact nofun
  | cons c l ih =>
    rw [List.mapM_cons] at h
    obtain ⟨b, hb, h⟩ := bind_eq_ok.mp h
    obtain ⟨rest, hrest, -⟩ := bind_eq_ok.mp h
    exact List.forall_mem_cons.mpr ⟨⟨b, hb⟩, ih hrest⟩

/-! ## Stateful programs -/

section Stateful

variable {x : EStateM ε σ α} {f : α → EStateM ε σ β} {s s' : σ} {a : α} {b : β}

lemma run_pure_eq_ok {a' : α} : (pure a : EStateM ε σ α) s = .ok a' s' ↔ a' = a ∧ s' = s := by
  simp [pure, EStateM.pure, eq_comm]

lemma run_bind_eq_ok : (x >>= f) s = .ok b s' ↔ ∃ a s1, x s = .ok a s1 ∧ f a s1 = .ok b s' := by
  cases h : x s with
  | ok a s1 =>
    simp only [bind, EStateM.bind, h]
    refine ⟨fun hf => ⟨a, s1, rfl, hf⟩, ?_⟩
    rintro ⟨_, _, ⟨⟩, hf⟩
    exact hf
  | error e s1 => simp [bind, EStateM.bind, h]

lemma run_modify_eq_ok {g : σ → σ} : (modify g : EStateM ε σ PUnit) s = .ok u s' ↔ s' = g s := by
  simp [modify, modifyGet, MonadStateOf.modifyGet, EStateM.modifyGet, eq_comm]

lemma run_failIf_eq_ok {e : ε} : (failIf c e : EStateM ε σ PUnit) s = .ok u s' ↔
    c = false ∧ s' = s := by
  cases c with
  | false => simp [failIf, pure, EStateM.pure, eq_comm]
  | true => simp [failIf, throw, throwThe, MonadExceptOf.throw, EStateM.throw]

lemma run_orThrow_eq_ok {o : Option α} {e : ε} :
    (orThrow o e : EStateM ε σ α) s = .ok a s' ↔ o = some a ∧ s' = s := by
  cases o with
  | none => simp [orThrow, throw, throwThe, MonadExceptOf.throw, EStateM.throw]
  | some a' => simp [orThrow, pure, EStateM.pure, eq_comm]

end Stateful

def final (x : EStateM ε σ α) (s : σ) : σ :=
  match x s with
  | .ok _ s' => s'
  | .error _ s' => s'

lemma final_of_ok {s s' a} (h : x s = .ok a s') : final x s = s' := by
  simp [final, h]

lemma final_of_attempt {s s' r} (h : attempt x s = .ok r s') : s' = final x s := by
  cases hr : x s <;> simp_all [attempt, final]

def outcome (x : EStateM ε σ α) (s : σ) : Except ε α :=
  match x s with
  | .ok a _ => .ok a
  | .error e _ => .error e

lemma exists_ok_of_outcome {s : σ} (h : (outcome x s).isOk = true) : ∃ a s', x s = .ok a s' := by
  cases hr : x s with
  | ok a s' => exact ⟨a, s', rfl⟩
  | error e s' => simp [outcome, hr, Except.toBool] at h

/-- Every run of the program, successful or not, relates the state before to the state after. -/
def Within (R : σ → σ → Prop) (x : EStateM ε σ α) : Prop :=
  ∀ s, R s (final x s)

lemma Within.modify {g : σ → σ} (h : ∀ s, R s (g s)) : Within R (modify g : EStateM ε σ PUnit) :=
  h

lemma Within.attempt (hx : Within R x) : Within R (attempt x) := by
  intro s
  have h := hx s
  cases hr : x s <;> simpa [final, Fallible.attempt, hr] using h

/-! ### Programs within a preorder

One rule per program former. A program is shown to stay within a preorder by showing it of the
assignments it makes. -/

section Within

variable {R : σ → σ → Prop} [IsPreorder σ R] {x : EStateM ε σ α} {f : α → EStateM ε σ β}

lemma Within.pure (a : α) : Within R (Pure.pure a : EStateM ε σ α) :=
  refl_of R

lemma Within.get : Within R (MonadState.get : EStateM ε σ σ) :=
  refl_of R

lemma Within.failIf (c : Bool) (e : ε) : Within R (failIf c e : EStateM ε σ PUnit) := by
  intro s
  cases c <;> exact refl_of R s

lemma Within.orThrow (o : Option α) (e : ε) : Within R (orThrow o e : EStateM ε σ α) := by
  intro s
  cases o <;> exact refl_of R s

lemma Within.ofExcept (r : Except ε α) : Within R (MonadExcept.ofExcept r : EStateM ε σ α) := by
  intro s
  cases r <;> exact refl_of R s

lemma Within.bind (hx : Within R x) (hf : ∀ a, Within R (f a)) : Within R (x >>= f) := by
  intro s
  have h1 := hx s
  cases h : x s with
  | error e s1 => simpa [final, Bind.bind, EStateM.bind, h] using h1
  | ok a s1 =>
    have h2 := hf a s1
    rw [final_of_ok h] at h1
    have e : final (x >>= f) s = final (f a) s1 := by simp [final, Bind.bind, EStateM.bind, h]
    rw [e]
    exact trans_of R h1 h2

lemma Within.forM {f : α → EStateM ε σ PUnit} (l : List α) (hf : ∀ a ∈ l, Within R (f a)) :
    Within R (l.forM f) := by
  induction l with
  | nil => exact Within.pure PUnit.unit
  | cons a l ih =>
    refine Within.bind (hf a List.mem_cons_self) fun _ => ih fun a ha => ?_
    exact hf a (List.mem_cons_of_mem _ ha)

lemma Within.throw (e : ε) : Within R (throw e : EStateM ε σ α) :=
  refl_of R

end Within

/-! ### Frames that are read off

The rules of `Within` as instances: a program made of parts that are within a preorder is found to
be. -/

class Frames (R : σ → σ → Prop) (x : EStateM ε σ α) : Prop where
  within : Within R x

section Frames

variable {R : σ → σ → Prop} {x y : EStateM ε σ α} {f : α → EStateM ε σ β}

instance [hx : Frames R x] : Frames R (attempt x) := ⟨hx.within.attempt⟩

instance {c : Prop} [Decidable c] [hx : Frames R x] [hy : Frames R y] :
    Frames R (if c then x else y) := by
  split
  · exact hx
  · exact hy

variable [IsPreorder σ R]

instance (a : α) : Frames R (Pure.pure a : EStateM ε σ α) := ⟨.pure a⟩

instance : Frames R (MonadState.get : EStateM ε σ σ) := ⟨.get⟩

instance (c : Bool) (e : ε) : Frames R (failIf c e : EStateM ε σ PUnit) := ⟨.failIf c e⟩

instance (o : Option α) (e : ε) : Frames R (orThrow o e : EStateM ε σ α) := ⟨.orThrow o e⟩

instance (r : Except ε α) : Frames R (MonadExcept.ofExcept r : EStateM ε σ α) := ⟨.ofExcept r⟩

instance (e : ε) : Frames R (throw e : EStateM ε σ α) := ⟨.throw e⟩

instance [hx : Frames R x] [hf : ∀ a, Frames R (f a)] : Frames R (x >>= f) :=
  ⟨hx.within.bind fun a => (hf a).within⟩

instance {k : Except ε α → EStateM ε σ β} [hx : Frames R x] [∀ e, Frames R (k (.error e))]
    [∀ a, Frames R (k (.ok a))] : Frames R (attempt x >>= k) :=
  ⟨.bind hx.within.attempt fun r => by cases r <;> exact Frames.within⟩

instance {g : α → β} [hx : Frames R x] : Frames R (g <$> x) := by
  rw [map_eq_pure_bind]
  infer_instance

end Frames

/-! ### What one run ends in

`Ends x s Q E` follows a single run from a known state, with one postcondition for success and one
for failure. -/

/-- Started in `s`, the program succeeds in `Q` or fails in `E`. -/
def Ends (x : EStateM ε σ α) (s : σ) (Q : α → σ → Prop) (E : ε → σ → Prop) : Prop :=
  match x s with
  | .ok a s' => Q a s'
  | .error e s' => E e s'

/-- Started in `s`, the program succeeds in `Q`. -/
abbrev Succeeds (x : EStateM ε σ α) (s : σ) (Q : α → σ → Prop) : Prop :=
  Ends x s Q fun _ _ => False

/-- However the program ends, it leaves a state in `P`. -/
abbrev Leaves (x : EStateM ε σ α) (s : σ) (P : σ → Prop) : Prop :=
  Ends x s (fun _ => P) fun _ => P

/-- A failure leaves the state as it was. -/
abbrev Atomic (x : EStateM ε σ α) (s : σ) (Q : α → σ → Prop) : Prop :=
  Ends x s Q fun _ s' => s' = s

section Ends

variable {x : EStateM ε σ α} {f : α → EStateM ε σ β} {s : σ} {E : ε → σ → Prop} {Q : α → σ → Prop}
  {T : β → σ → Prop} {P : σ → Prop} {e : ε} {k : PUnit → EStateM ε σ β} {r : Except ε α}
  {E' : ε → σ → Prop} {g : σ → σ} {o : Option α}

lemma Ends.bind (h : Ends x s (fun a s' => Ends (f a) s' T E) E) :
    Ends (x >>= f) s T E := by
  cases hx : x s <;> simpa [Ends, Bind.bind, EStateM.bind, hx] using h

lemma Ends.get_bind {k : σ → EStateM ε σ β} (h : Ends (k s) s T E) :
    Ends (MonadState.get >>= k) s T E :=
  h

lemma Ends.modify_bind (h : Ends (k ⟨⟩) (g s) T E) :
    Ends (modify g >>= k) s T E :=
  h

lemma Ends.modify {Q : PUnit → σ → Prop} (h : Q ⟨⟩ (g s)) : Ends (modify g) s Q E :=
  h

lemma Ends.zoom {τ : Type u} {view : σ → τ} {put : σ → τ → σ} {y : EStateM ε τ α}
    (h : Ends y (view s) (fun a t => Q a (put s t)) fun e t => E e (put s t)) :
    Ends (zoom view put y) s Q E := by
  cases hy : y (view s) <;> simpa [Ends, Fallible.zoom, hy] using h

lemma Ends.discard (h : Ends x s (fun _ => P) E) : Ends (discard x) s (fun _ => P) E :=
  Ends.bind h

lemma Ends.map {g : α → β} (h : Ends x s (fun a => T (g a)) E) : Ends (g <$> x) s T E := by
  cases hr : x s <;> simpa [Ends, Functor.map, EStateM.map, hr] using h

lemma Ends.throw (h : E e s) : Ends (throw e) s Q E :=
  h

lemma Ends.failIf_bind (herr : c = true → E e s)
    (hok : c = false → Ends (k ⟨⟩) s T E) : Ends (Fallible.failIf c e >>= k) s T E := by
  cases c with
  | false => exact hok rfl
  | true => exact herr rfl

lemma Ends.pass (hc : c = false) (h : Ends (k ⟨⟩) s T E) :
    Ends (Fallible.failIf c e >>= k) s T E :=
  Ends.failIf_bind (fun hfail => absurd (hc.symm.trans hfail) nofun) fun _ => h

lemma Ends.orThrow_bind (herr : o = none → E e s)
    (hok : ∀ a, o = some a → Ends (f a) s T E) : Ends (Fallible.orThrow o e >>= f) s T E := by
  cases o with
  | none => exact herr rfl
  | some a => exact hok a rfl

lemma Ends.ofExcept_bind (herr : ∀ e, r = .error e → E e s)
    (hok : ∀ a, r = .ok a → Ends (f a) s T E) : Ends (MonadExcept.ofExcept r >>= f) s T E := by
  cases r with
  | error e => exact herr e rfl
  | ok a => exact hok a rfl

/-! The same three rules where a failure is covered by what is known of the state: it is the state
the run started in, or nothing is claimed of it. -/

class Covered (p : Prop) : Prop where
  holds : p

instance : Covered True :=
  ⟨trivial⟩

instance {a : σ} : Covered (a = a) :=
  ⟨rfl⟩

instance {a : σ} {p : Prop} : Covered (a = a ∨ p) :=
  ⟨.inl rfl⟩

instance {R : σ → σ → Prop} [IsPreorder σ R] : Covered (R s s) :=
  ⟨refl_of R s⟩

lemma Ends.guard [herr : Covered (E e s)] (hok : c = false → Ends (k ⟨⟩) s T E) :
    Ends (Fallible.failIf c e >>= k) s T E :=
  Ends.failIf_bind (fun _ => herr.holds) hok

lemma Ends.fetch [herr : Covered (E e s)] (hok : ∀ a, o = some a → Ends (f a) s T E) :
    Ends (Fallible.orThrow o e >>= f) s T E :=
  Ends.orThrow_bind (fun _ => herr.holds) hok

lemma Ends.lift [herr : ∀ e, Covered (E e s)] (hok : ∀ a, r = .ok a → Ends (f a) s T E) :
    Ends (MonadExcept.ofExcept r >>= f) s T E :=
  Ends.ofExcept_bind (fun e _ => (herr e).holds) hok

lemma Ends.attempt {Q : Except ε α → σ → Prop}
    (h : Ends x s (fun a => Q (.ok a)) fun e => Q (.error e)) :
    Ends (Fallible.attempt x) s Q E := by
  cases hx : x s <;> simpa [Ends, Fallible.attempt, hx] using h

lemma Ends.attempt_bind {k : Except ε α → EStateM ε σ β}
    (h : Ends x s (fun a s' => Ends (k (.ok a)) s' T E) fun e s' => Ends (k (.error e)) s' T E) :
    Ends (Fallible.attempt x >>= k) s T E :=
  Ends.bind (Ends.attempt h)

lemma Ends.mono {Q' : α → σ → Prop} (h : Ends x s Q E) (hok : ∀ a s', Q a s' → Q' a s')
    (herr : ∀ e s', E e s' → E' e s') : Ends x s Q' E' := by
  unfold Ends at h ⊢
  cases hx : x s with
  | ok a s1 =>
    rw [hx] at h
    exact hok a s1 h
  | error e s1 =>
    rw [hx] at h
    exact herr e s1 h

lemma Ends.call (h : Ends x s Q E) (hok : ∀ a s', Q a s' → Ends (f a) s' T E')
    (herr : ∀ e s', E e s' → E' e s') : Ends (x >>= f) s T E' :=
  Ends.bind (h.mono hok herr)

/-! Where failures stay what they are, only the rest of the program is left to follow. -/

lemma Ends.post {Q' : α → σ → Prop} (h : Ends x s Q E) (hok : ∀ a s', Q a s' → Q' a s') :
    Ends x s Q' E :=
  h.mono hok fun _ _ he => he

lemma Ends.next (h : Ends x s Q E) (hok : ∀ a s', Q a s' → Ends (f a) s' T E) :
    Ends (x >>= f) s T E :=
  h.call hok fun _ _ he => he

lemma Succeeds.post {Q' : α → σ → Prop} (h : Succeeds x s Q) (hok : ∀ a s', Q a s' → Q' a s') :
    Ends x s Q' E :=
  h.mono hok fun _ _ hfail => hfail.elim

lemma Succeeds.next (h : Succeeds x s Q) (hok : ∀ a s', Q a s' → Ends (f a) s' T E) :
    Ends (x >>= f) s T E :=
  h.call hok fun _ _ hfail => hfail.elim

/-- A counted loop, by an invariant indexed by the rounds made. -/
lemma Ends.forM_range' {f : Nat → EStateM ε σ PUnit} {a n : Nat} {I : Nat → σ → Prop}
    (hinit : I a s)
    (hstep : ∀ k s, a ≤ k → k < a + n → I k s → Ends (f k) s (fun _ => I (k + 1)) E) :
    Ends ((List.range' a n).forM f) s (fun _ => I (a + n)) E := by
  induction n generalizing a s with
  | zero => exact hinit
  | succ n ih =>
    refine (hstep a s (Nat.le_refl a) (by omega) hinit).next fun _ s' hs' => ?_
    have hrest := ih hs' fun k t hk hkn => hstep k t (by omega) (by omega)
    rwa [show a + 1 + n = a + (n + 1) by omega] at hrest

lemma Ends.of_within {R : σ → σ → Prop} (hx : Within R x)
    (hok : ∀ a s', x s = .ok a s' → R s s' → Q a s')
    (herr : ∀ e s', R s s' → E e s') : Ends x s Q E := by
  have h := hx s
  cases hr : x s with
  | ok a s' =>
    rw [final_of_ok hr] at h
    simpa [Ends, hr] using hok a s' hr h
  | error e s' =>
    have he : final x s = s' := by simp [final, hr]
    rw [he] at h
    simpa [Ends, hr] using herr e s' h

lemma Ends.both {P : Except ε α → σ → Prop}
    (h : Ends x s (fun a => P (.ok a)) fun e => P (.error e)) :
    P (Fallible.outcome x s) (Fallible.final x s) := by
  cases hr : x s <;> simpa [Ends, Fallible.outcome, Fallible.final, hr] using h

lemma Ends.outcome (h : Ends x s (fun a _ => .ok a = r) fun e _ => .error e = r) :
    outcome x s = r :=
  Ends.both (P := fun o _ => o = r) h

lemma Ends.run {r : EStateM.Result ε σ α}
    (h : Ends x s (fun a s' => .ok a s' = r) fun e s' => .error e s' = r) : x s = r := by
  cases hr : x s <;> simpa [Ends, hr] using h

lemma Ends.of_final (h : P (Fallible.final x s)) : Leaves x s P := by
  cases hr : x s <;> simpa [Ends, Fallible.final, hr] using h

lemma Ends.and_final (h : Ends x s Q E) (hP : P (Fallible.final x s)) :
    Ends x s (fun a s' => Q a s' ∧ P s') fun e s' => E e s' ∧ P s' := by
  cases hr : x s
  all_goals
    simp only [Ends, hr] at h ⊢
    exact ⟨h, by simpa [Fallible.final, hr] using hP⟩

lemma Ends.final (h : Leaves x s P) : P (final x s) :=
  Ends.both (P := fun _ => P) h

lemma Ends.of_ok {a : α} {s' : σ} (h : Ends x s Q E) (hr : x s = .ok a s') : Q a s' := by
  simpa [Ends, hr] using h

lemma Ends.of_error {s' : σ} (h : Ends x s Q E) (hr : x s = .error e s') : E e s' := by
  simpa [Ends, hr] using h

lemma Ends.of_isOk (h : Ends x s Q E) (hok : (Fallible.outcome x s).isOk = true) :
    ∃ a, Fallible.outcome x s = .ok a ∧ Q a (Fallible.final x s) := by
  revert hok
  apply Ends.both (P := fun r t => r.isOk = true → ∃ a, r = .ok a ∧ Q a t)
  exact h.mono (fun a _ hq _ => ⟨a, rfl, hq⟩) fun _ _ _ hok => absurd hok Bool.false_ne_true

lemma Ends.of_succeeds {y : EStateM ε σ PUnit} {Q : PUnit → σ → Prop} (h : Ends y s Q E)
    (hok : (Fallible.outcome y s).isOk = true) : Q ⟨⟩ (Fallible.final y s) := by
  obtain ⟨_, -, hq⟩ := h.of_isOk hok
  exact hq

lemma Ends.of_not_isOk (h : Ends x s Q E) (hok : (Fallible.outcome x s).isOk = false) :
    ∃ e, Fallible.outcome x s = .error e ∧ E e (Fallible.final x s) := by
  revert hok
  apply Ends.both (P := fun r t => r.isOk = false → ∃ e, r = .error e ∧ E e t)
  exact h.mono (fun _ _ _ hok => absurd hok.symm Bool.false_ne_true) fun e _ he _ => ⟨e, rfl, he⟩

lemma Ends.of_fails (h : Ends x s Q fun _ => P) (hok : (Fallible.outcome x s).isOk = false) :
    P (Fallible.final x s) := by
  obtain ⟨_, -, hp⟩ := h.of_not_isOk hok
  exact hp

end Ends

end Fallible
