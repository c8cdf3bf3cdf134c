import Anunix.Exposure.Conservation

/-!
# Soundness of the exposure ledgers

The second half of the argument about exposure: the only step that calls a provider has looked at
every ledger of the chain. Together with what every step keeps (`Exposure/Conservation.lean`) this
gives the statement about whole runs.
-/

namespace Anunix
open Fallible
open Anunix (load)

variable {s : System} {id : Uuid}

/-! ## Provider calls -/

lemma System.apply_calls (s : System) (r : Except Err Registry) : (s.apply r).calls = s.calls := by
  cases r <;> rfl

lemma step_calls {op : ExposureOp} (h : (s.step op).calls = id :: s.calls) :
    ∃ caller checks mark r, dispatchEnter s.toRegistry caller id checks mark = .ok r := by
  have hself : s.calls ≠ id :: s.calls := (List.cons_ne_self id s.calls).symm
  cases op with
  | enter caller id' checks mark =>
    simp only [System.step] at h
    cases hr : dispatchEnter s.toRegistry caller id' checks mark with
    | error e =>
      rw [hr] at h
      exact absurd h hself
    | ok reg =>
      rw [hr] at h
      obtain rfl : id' = id := (List.cons.inj h).1
      exact ⟨caller, checks, mark, reg, hr⟩
  | settle id' confirmed =>
    simp only [System.step] at h
    cases hf : operationFind s.operations id' with
    | none =>
      rw [hf] at h
      exact absurd h hself
    | some op =>
      rw [hf] at h
      simp only at h
      split at h <;> exact absurd h hself
  | _ => exact absurd ((System.apply_calls s _).symm.trans h) hself

/-- **Exposure is conserved** in every state of every run from boot, and no provider is called twice
for an operation or under a ledger that was ever revoked. -/
theorem exposure_conserved (ops : List ExposureOp) (n : Nat) :
    let run := Run.after System.step System.boot ops
    (∀ b ∈ (run n).budgets,
      chain (run n).budgets b.id = b.id :: chain (run n).budgets b.parent ∧
      b.reserved.toNat = load (run n).budgets EffectPhase.pending (run n).operations b.id ∧
      b.uncertain.toNat = load (run n).budgets EffectPhase.ambiguous (run n).operations b.id ∧
      b.committed.toNat = spent (run n).commitments b.id ∧
      b.reserved.toNat + b.committed.toNat + b.uncertain.toNat ≤ b.limit.toNat) ∧
    chain (run n).budgets 0 = [] ∧
    (run n).calls.Nodup ∧
    ∀ id, (run (n + 1)).calls = id :: (run n).calls →
      ∃ op, operationFind (run n).operations id = some op ∧
        ∀ m b, m ≤ n → b ∈ (run m).budgets → b.id ∈ chain (run n).budgets op.exposureLedger →
          b.revoked = false := by
  intro run
  have hkeeps {m k : Nat} (hm : m ≤ k) : (run m).Keeps (run k) :=
    Run.after_within System.step System.step_keeps hm
  have hsound (k : Nat) : Sound (run k) := (hkeeps (Nat.zero_le k) Sound.boot).1
  have h := hsound n
  refine ⟨fun b hb => ?_, h.tree.chain_zero, h.roster.callsOnce, fun id hid => ?_⟩
  · have hbal := h.balanced b hb
    exact ⟨h.tree.chain_cons hb, hbal.reserved, hbal.uncertain, hbal.committed, hbal.bound⟩
  · have hop : ∃ op, ops[n]? = some op := by
      cases hop : ops[n]? with
      | some op => exact ⟨op, rfl⟩
      | none =>
        rw [show run (n + 1) = run n from Run.after_succ_none System.step hop] at hid
        exact absurd hid.symm (List.cons_ne_self id _)
    obtain ⟨o, ho⟩ := hop
    rw [show run (n + 1) = (run n).step o from Run.after_succ System.step ho] at hid
    obtain ⟨caller, checks, mark, r, hr⟩ := step_calls hid
    obtain ⟨op, hf, -, hclean, -⟩ := dispatchEnter_ok hr
    refine ⟨op, hf, fun m b hm hb hchain => ?_⟩
    -- the ledger is still there, and would still be revoked
    obtain ⟨c, hc, hcid⟩ := mem_chain hchain
    have hle : c.id.toNat ≤ (run m).budgetSequence.toNat := by
      rw [hcid]
      exact ((hsound m).tree.drawn b hb).2
    obtain ⟨b', hb', hid', hrev⟩ := (hkeeps hm (hsound m)).2.ledgers c hc hle
    have hsame : b' = b := by
      have h₁ := (hsound m).tree.find_mem hb
      have h₂ := (hsound m).tree.find_mem hb'
      rw [hid', hcid] at h₂
      exact Option.some.inj (h₂.symm.trans h₁)
    cases hb'' : b.revoked with
    | false => rfl
    | true =>
      have := hclean c hc (hcid ▸ hchain)
      rw [hrev (hsame ▸ hb'')] at this
      exact this

def commitWhileInFlight : List ExposureOp :=
  [ .create none [Cell.create ⟨0, 7⟩] ⟨0, 7⟩ 0 10 true,
    .create none [Cell.create ⟨0, 7⟩] ⟨0, 7⟩ 1 8 true,
    .prepareBudgeted none ⟨0, 7⟩ (.ok ()) 2 5,
    .enter (some ⟨0, 7⟩) (operationId 1) (.ok ()) (.ok ()),
    .prepareBudgeted none ⟨0, 7⟩ (.ok ()) 2 3,
    .settle (operationId 1) true,
    .enter (some ⟨0, 7⟩) (operationId 2) (.ok ()) (.ok ()) ]

/-- One operation commits while another one is in flight. -/
theorem exposure_conserved_commitWhileInFlight :
    (∃ b ∈ (Run.after System.step System.boot commitWhileInFlight 6).budgets,
      b.id = 1 ∧ b.reserved = 3 ∧ b.committed = 5 ∧ b.uncertain = 0) ∧
    ∃ op, operationFind (Run.after System.step System.boot commitWhileInFlight 6).operations
        (operationId 2) = some op ∧
      ∀ m b, m ≤ 6 → b ∈ (Run.after System.step System.boot commitWhileInFlight m).budgets →
        b.id ∈ chain (Run.after System.step System.boot commitWhileInFlight 6).budgets
          op.exposureLedger → b.revoked = false :=
  ⟨by decide, (exposure_conserved commitWhileInFlight 6).2.2.2 (operationId 2) (by decide)⟩

/-- In every state of every run from boot, the ledgers form a forest whose counters of children and
operations are exact, and an operation with a provider running is dispatching. No identifier of a
ledger is given out twice, and a ledger once revoked stays so for as long as it lives. -/
theorem ledger_forest_exact (ops : List ExposureOp) (n : Nat) :
    let run := Run.after System.step System.boot ops
    ((run n).budgets.map Ledger.id).Nodup ∧
    (∀ b ∈ (run n).budgets,
      (b.parent = 0 ∨ ∃ p ∈ (run n).budgets, p.id = b.parent ∧ b.depth.toNat = p.depth.toNat + 1) ∧
      b.depth.toNat < exposureDepth ∧
      b.children.toNat = ((run n).budgets.map Ledger.parent).count b.id ∧
      b.operations.toNat = ((run n).operations.map Operation.exposureLedger).count b.id) ∧
    (∀ op ∈ (run n).operations,
      (op.exposureLedger = 0 ∨ ∃ b ∈ (run n).budgets, b.id = op.exposureLedger) ∧
      (op.id ∈ (run n).running → op.phase = .dispatching)) ∧
    (run n).running.Nodup ∧
    ∀ m ≤ n, ∀ c ∈ (run n).budgets, c.id.toNat ≤ (run m).budgetSequence.toNat →
      ∃ b ∈ (run m).budgets, b.id = c.id ∧ (b.revoked = true → c.revoked = true) := by
  intro run
  have hkeeps {m k : Nat} (hm : m ≤ k) : (run m).Keeps (run k) :=
    Run.after_within System.step System.step_keeps hm
  have hsound (k : Nat) : Sound (run k) := (hkeeps (Nat.zero_le k) Sound.boot).1
  obtain ⟨htree, hcounted, hbooked, hroster, -, -⟩ := hsound n
  refine ⟨htree.nodup, fun b hb => ?_, fun op hop => ?_, hroster.runningOnce, fun m hm => ?_⟩
  · exact ⟨htree.link b hb, htree.depth b hb, hcounted b hb, hbooked.count b hb⟩
  · exact ⟨hbooked.ledger op hop, hroster.running op hop⟩
  · exact (hkeeps hm (hsound m)).2.ledgers

end Anunix
