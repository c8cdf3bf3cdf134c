import Mathlib

/-!
# Kahn's algorithm

Nodes are settled one at a time. A counter for each node says how many of the edges into it come
from nodes that are not settled yet; a node whose counter is zero is next. All nodes are settled in
the end exactly when no path leads from a node back to it.
-/

namespace Kahn
open List

variable {α : Type*} [DecidableEq α]

/-- Take one from a counter, which has to be positive. -/
def dec (c : α → Nat) (b : α) : Option (α → Nat) :=
  if c b = 0 then none else some (Function.update c b (c b - 1))

/-- Take the edges out of a node from the counters. -/
def release (a : α) (edges : List (α × α)) (c : α → Nat) : Option (α → Nat) :=
  edges.foldlM (fun c e => if e.1 = a then dec c e.2 else some c) c

/-- Up to `n` rounds; `none` when a counter would go below zero. -/
def settle (nodes : List α) (edges : List (α × α)) : Nat → List α → (α → Nat) → Option Bool
  | 0, _, _ => some true
  | n + 1, done, c =>
    match nodes.find? fun a => a ∉ done ∧ c a = 0 with
    | none => some false
    | some a => (release a edges c).bind (settle nodes edges n (a :: done))

def indegree (edges : List (α × α)) (c : α → Nat) : α → Nat :=
  edges.foldl (fun c e => Function.update c e.2 (c e.2 + 1)) c

def run (nodes : List α) (edges : List (α × α)) : Option Bool :=
  settle nodes edges nodes.length [] (indegree edges fun _ => 0)

def Step (edges : List (α × α)) (a b : α) : Prop :=
  (a, b) ∈ edges

/-- The edges into a node from nodes that are not settled. -/
def pending (edges : List (α × α)) (done : List α) (b : α) : Nat :=
  edges.countP fun e => e.1 ∉ done ∧ e.2 = b

def between (edges : List (α × α)) (a b : α) : Nat :=
  edges.countP fun e => e.1 = a ∧ e.2 = b

variable {nodes done : List α} {edges : List (α × α)} {c : α → Nat} {a b : α} {n : Nat}

lemma indegree_eq : indegree edges c b = c b + pending edges [] b := by
  induction edges generalizing c with
  | nil => rfl
  | cons e edges ih =>
    have hstep : indegree (e :: edges) c = indegree edges (Function.update c e.2 (c e.2 + 1)) := rfl
    rw [hstep, ih, pending, pending]
    by_cases hb : b = e.2
    · subst hb
      simp
      omega
    · simp [hb, Ne.symm hb]

lemma between_cons {e : α × α} :
    between (e :: edges) a b = between edges a b + if e.1 = a ∧ e.2 = b then 1 else 0 := by
  simp [between, countP_cons]

lemma release_add (f : α → Nat) : release a edges (fun b => f b + between edges a b) = some f := by
  induction edges with
  | nil => rfl
  | cons e edges ih =>
    simp only [release, between_cons] at ih ⊢
    rw [foldlM_cons, ← ih]
    by_cases he : e.1 = a
    · have hdec :
        dec (fun b => f b + (between edges a b + if e.1 = a ∧ e.2 = b then 1 else 0)) e.2 =
          some fun b => f b + between edges a b := by
        rw [dec, if_neg (by simp [he])]
        refine congrArg some (funext fun b => ?_)
        by_cases hb : b = e.2
        · simp [hb, he]
        · simp [hb, Ne.symm hb]
      rw [if_pos he, hdec]
      rfl
    · simp [he]

/-- Settling a node takes its edges from what is pending. -/
lemma release_pending (ha : a ∉ done) :
    release a edges (pending edges done) = some (pending edges (a :: done)) := by
  have hsplit : ∀ b, pending edges done b = pending edges (a :: done) b + between edges a b := by
    intro b
    induction edges with
    | nil => rfl
    | cons e edges ih =>
      simp only [pending, between, countP_cons] at ih ⊢
      rw [ih]
      by_cases he : e.1 = a
      · subst he
        simp [ha, Nat.add_assoc]
      · simp [he]
        omega
  rw [funext hsplit, release_add]

/-- Either every node is settled, or a node that is not has a node that is not before it. -/
lemma settle_eq (hnodes : ∀ e ∈ edges, e.1 ∈ nodes) (hdone : ∀ a ∈ done, Acc (Step edges) a)
    (hnd : nodes.Nodup) (hnodup : done.Nodup) (hsub : done ⊆ nodes)
    (hlen : done.length + n = nodes.length) :
    ∃ r, settle nodes edges n done (pending edges done) = some r ∧
      (r = true ↔ ∀ a ∈ nodes, Acc (Step edges) a) := by
  induction n generalizing done with
  | zero =>
    refine ⟨true, rfl, iff_of_true rfl fun a ha => hdone a ?_⟩
    exact ((subperm_of_subset hnodup hsub).perm_of_length_le (Nat.le_of_eq hlen.symm)).mem_iff.mpr
      ha
  | succ n ih =>
    rw [settle]
    split
    · rename_i hfind
      refine ⟨false, rfl, iff_of_false nofun fun hacc => ?_⟩
      have hstuck : ∀ a, Acc (Step edges) a → a ∈ nodes → a ∈ done := by
        intro a ha
        induction ha with
        | intro a _ ihacc =>
          intro hmem
          by_contra hout
          have hpos : pending edges done a ≠ 0 := fun hzero =>
            find?_eq_none.mp hfind a hmem (by simp [hout, hzero])
          obtain ⟨e, he, hbefore⟩ := countP_pos_iff.mp (Nat.pos_of_ne_zero hpos)
          obtain ⟨hout', rfl⟩ := of_decide_eq_true hbefore
          exact hout' (ihacc e.1 he (hnodes e he))
      have hle := (subperm_of_subset hnd fun a ha => hstuck a (hacc a ha) ha).length_le
      omega
    · rename_i a hfind
      obtain ⟨hout, hzero⟩ : a ∉ done ∧ pending edges done a = 0 := by simpa using find?_some hfind
      rw [release_pending hout]
      have hacc : Acc (Step edges) a := by
        refine ⟨a, fun b hb => hdone b ?_⟩
        by_contra hbout
        exact countP_eq_zero.mp hzero (b, a) hb (by simp [hbout])
      refine ih (forall_mem_cons.mpr ⟨hacc, hdone⟩) (nodup_cons.mpr ⟨hout, hnodup⟩)
        (cons_subset.mpr ⟨mem_of_find?_eq_some hfind, hsub⟩) ?_
      rw [length_cons]
      omega

omit [DecidableEq α] in
lemma not_cycle {R : α → α → Prop} (h : Acc R a) : ¬ Relation.TransGen R a a := by
  induction h with
  | intro a _ ih =>
    intro hcycle
    obtain ⟨b, hab, hba⟩ := Relation.TransGen.tail'_iff.mp hcycle
    exact ih b hba (.head' hba hab)

/-- Kahn's algorithm answers, and its answer says whether there is a cycle. -/
theorem run_eq (hnd : nodes.Nodup) (hnodes : ∀ e ∈ edges, e.1 ∈ nodes ∧ e.2 ∈ nodes) :
    ∃ r, run nodes edges = some r ∧ (r = true ↔ ∀ a, ¬ Relation.TransGen (Step edges) a a) := by
  have hstart : (indegree edges fun _ => 0) = pending edges [] := funext fun b => by
    rw [indegree_eq, Nat.zero_add]
  obtain ⟨r, hr, hiff⟩ := settle_eq (fun e he => (hnodes e he).1) (by simp) hnd nodup_nil
    (nil_subset nodes) (Nat.zero_add _)
  refine ⟨r, by rw [run, hstart, hr], hiff.trans ⟨fun h a hcycle => ?_, fun h a ha => ?_⟩⟩
  · obtain ⟨b, hab, -⟩ := Relation.TransGen.head'_iff.mp hcycle
    exact not_cycle (h a (hnodes _ hab).1) hcycle
  · have : IsStrictOrder α (Relation.TransGen (Step edges)) :=
      { irrefl := h, trans := fun _ _ _ => .trans }
    have hwf : {a | a ∈ nodes}.WellFoundedOn (Relation.TransGen (Step edges)) :=
      (finite_toSet nodes).wellFoundedOn
    exact hwf.induction ha fun b _ ih => ⟨b, fun c hc => ih c (hnodes _ hc).1 (.single hc)⟩

end Kahn
