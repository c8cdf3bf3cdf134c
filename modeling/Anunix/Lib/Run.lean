import Mathlib

/-!
# Runs of a state machine

A machine is a step function `σ → ι → σ`; a run is a list of inputs, and `after step s ops n` is the
state after its first `n` inputs. What one step keeps, a run keeps (`after_from`): `after_invariant`
for properties of a state, `after_within` for preorders between an earlier and a later state,
`after_related` for a relation between the runs of two machines over the same inputs.
-/

namespace Run

variable {σ ι : Type*} (step : σ → ι → σ) {s : σ} {ops : List ι} {i : ι} {n m : Nat} {I : σ → Prop}

def after (s : σ) (ops : List ι) (n : Nat) : σ :=
  (ops.take n).foldl step s

lemma after_succ (h : ops[n]? = some i) :
    after step s ops (n + 1) = step (after step s ops n) i := by
  rw [after, List.take_add_one, h, List.foldl_append]
  rfl

lemma after_succ_none (h : ops[n]? = none) : after step s ops (n + 1) = after step s ops n := by
  rw [after, List.take_add_one, h, Option.toList_none, List.append_nil]
  rfl

/-- What the inputs from `m` to `n` keep; it may depend on the position. -/
lemma after_from {I : Nat → σ → Prop} (h : m ≤ n) (hinit : I m (after step s ops m))
    (hnone : ∀ j, ops[j]? = none → I j (after step s ops j) → I (j + 1) (after step s ops j))
    (hstep : ∀ j i, m ≤ j → j < n → ops[j]? = some i → I j (after step s ops j) →
      I (j + 1) (step (after step s ops j) i)) : I n (after step s ops n) := by
  induction h with
  | refl => exact hinit
  | @step n hn ih =>
    have hI := ih fun j i hj hjn => hstep j i hj (Nat.lt_succ_of_lt hjn)
    cases hop : ops[n]? with
    | none =>
      rw [after_succ_none step hop]
      exact hnone n hop hI
    | some i =>
      rw [after_succ step hop]
      exact hstep n i hn (Nat.lt_succ_self n) hop hI

lemma after_within {R : σ → σ → Prop} [IsPreorder σ R] (hstep : ∀ s i, R s (step s i))
    (h : m ≤ n) : R (after step s ops m) (after step s ops n) :=
  after_from step h (refl_of R _) (fun _ _ hR => hR)
    fun _ i _ _ _ hR => trans_of R hR (hstep _ i)

/-- What the steps from `m` to `n` keep is the same at both. -/
lemma after_keeps {β : Type*} {f : σ → β} (h : m ≤ n)
    (hstep : ∀ j i, m ≤ j → j < n → ops[j]? = some i →
      f (step (after step s ops j) i) = f (after step s ops j)) :
    f (after step s ops n) = f (after step s ops m) :=
  after_from step (I := fun _ s' => f s' = f (after step s ops m)) h rfl (fun _ _ hf => hf)
    fun j i hj hjn hop => (hstep j i hj hjn hop).trans

/-- Something never happens before `n`, or there is a last time. -/
lemma never_or_last (P : Nat → Prop) (n : Nat) :
    (∀ k < n, ¬ P k) ∨ ∃ k < n, P k ∧ ∀ j, k < j → j < n → ¬ P j := by
  classical
  by_cases h : ∃ k, k < n ∧ P k
  · obtain ⟨k, hk⟩ := h
    obtain ⟨hlt, hP⟩ := Nat.findGreatest_spec (P := fun k => k < n ∧ P k) (Nat.le_of_lt hk.1) hk
    refine .inr ⟨_, hlt, hP, fun j hj hjn hP => ?_⟩
    exact Nat.findGreatest_is_greatest hj (Nat.le_of_lt hjn) ⟨hjn, hP⟩
  · exact .inl fun k hk hP => h ⟨k, hk, hP⟩

/-- Two machines stay related when every input of the run keeps them so. -/
lemma after_related {τ : Type*} (step' : τ → ι → τ) {t : τ} {R : σ → τ → Prop} (hinit : R s t)
    (hstep : ∀ n i, ops[n]? = some i → R (after step s ops n) (after step' t ops n) →
      R (step (after step s ops n) i) (step' (after step' t ops n) i))
    (n : Nat) : R (after step s ops n) (after step' t ops n) := by
  refine after_from step (I := fun n s' => R s' (after step' t ops n)) (Nat.zero_le n) hinit
    (fun j hop hR => ?_) fun j i _ _ hop hR => ?_
  · rw [after_succ_none step' hop]
    exact hR
  · rw [after_succ step' hop]
    exact hstep j i hop hR

/-- What every input of the run keeps. -/
lemma after_kept (hinit : I s)
    (hstep : ∀ n i, ops[n]? = some i → I (after step s ops n) → I (step (after step s ops n) i))
    (n : Nat) : I (after step s ops n) :=
  after_from step (Nat.zero_le n) hinit (fun _ _ hI => hI) fun n i _ _ => hstep n i

lemma after_invariant (hinit : I s) (hstep : ∀ s i, I s → I (step s i)) (n : Nat) :
    I (after step s ops n) :=
  after_kept step hinit (fun _ i _ => hstep _ i) n

end Run
