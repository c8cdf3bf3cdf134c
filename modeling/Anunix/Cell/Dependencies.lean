import Anunix.Error
import Anunix.Lib.Fallible
import Anunix.Uuid

/-!
# Dependencies of cells

C `anx_cell_add_dependency` and its cycle check (`kernel/core/exec/cell.c`). The check walks the
predecessors of the new one with a stack of 64 identifiers and no record of those it has seen;
predecessors that do not fit on the stack are not looked at. Where the cells along each chain have
no more than 64 predecessors together, all of them fit, and no cell becomes its own predecessor.
-/

namespace Anunix.Cells
open Fallible Relation List

/-- The predecessors of each registered cell (C `dep_cids`). -/
abbrev Graph := Uuid → Option (List Uuid)

/-- Most predecessors of a cell (C `ANX_MAX_CELL_DEPS`). -/
def maxCellDeps : Nat := 16

/-- Entries of C `visit_stack`. -/
def visitStack : Nat := maxCellDeps * 4

/-- Push predecessors as long as there is room; the top of the stack comes first. -/
def push (deps stack : List Uuid) : List Uuid :=
  (deps.take (visitStack - stack.length)).reverse ++ stack

/-- Whether the walk of C `dep_creates_cycle` comes to `cell`. One that is not over after `fuel`
rounds has not returned: its call adds nothing, as if it had come there. -/
def walk (g : Graph) (cell : Uuid) : Nat → List Uuid → Bool
  | 0, _ => true
  | _ + 1, [] => false
  | fuel + 1, cur :: stack =>
    if cur = cell then true else walk g cell fuel (push ((g cur).getD []) stack)

/-- C `dep_creates_cycle`. -/
def depCreatesCycle (g : Graph) (fuel : Nat) (cell prereq : Uuid) (deps : List Uuid) : Bool :=
  if prereq = cell then true else walk g cell fuel (push deps [])

/-- The graph with a predecessor more (C `anx_cell_add_dependency`). -/
def addDependency (g : Graph) (fuel : Nat) (cell prereq : Uuid) : Except Err Graph := do
  let own := (g cell).getD []
  failIf (cell = prereq) Err.einval
  failIf (maxCellDeps ≤ own.length) Err.enomem
  failIf (prereq ∈ own) Err.einval
  let deps ← orThrow (g prereq) Err.enoent
  failIf (depCreatesCycle g fuel cell prereq deps) Err.einval
  return Function.update g cell (some (own ++ [prereq]))

/-- A call: the cell, its new predecessor and the rounds its walk is given. -/
abbrev Call := Uuid × Uuid × Nat

def step (g : Graph) (c : Call) : Graph :=
  match addDependency g c.2.2 c.1 c.2.1 with
  | .ok g' => g'
  | .error _ => g

def registered (cids : List Uuid) : Graph := fun cid =>
  if cid ∈ cids then some [] else none

/-! ## Acyclicity -/

def Graph.Dep (g : Graph) (x y : Uuid) : Prop :=
  y ∈ (g x).getD []

def Graph.Acyclic (g : Graph) : Prop :=
  ∀ x, ¬ TransGen g.Dep x x

/-- On every chain from the cell the predecessors of all cells, and `k` more, fit on the stack. -/
def Graph.Slim (g : Graph) (k : Nat) (x : Uuid) : Prop :=
  ∀ path, IsChain g.Dep (x :: path) →
    ((x :: path).map fun y => ((g y).getD []).length).sum + k ≤ visitStack

/-- The cell has room for another predecessor, and this is a new one. -/
def Graph.Open (g : Graph) (cell prereq : Uuid) : Prop :=
  cell ≠ prereq ∧ ((g cell).getD []).length < maxCellDeps ∧ prereq ∉ (g cell).getD []

def SlimFrom : Graph → List Call → Prop
  | _, [] => True
  | g, c :: calls => (g.Open c.1 c.2.1 → g.Slim 0 c.2.1) ∧ SlimFrom (step g c) calls

section Walk

variable {g : Graph} {cell prereq : Uuid} {fuel : Nat} {stack deps : List Uuid}

lemma mem_push {x : Uuid} (h : stack.length + deps.length ≤ visitStack) :
    x ∈ push deps stack ↔ x ∈ deps ∨ x ∈ stack := by
  rw [push, take_of_length_le (by omega), mem_append, mem_reverse]

/-- The predecessors of a slim cell have those of the cell above them. -/
lemma Graph.Slim.of_deps {k : Nat} {x : Uuid} (deps : List Uuid) (hdeps : (g x).getD [] = deps)
    (hk : deps.length + k ≤ visitStack) (h : ∀ y ∈ deps, g.Slim (deps.length + k) y) :
    g.Slim k x := by
  intro path hpath
  rw [map_cons, sum_cons, hdeps]
  cases path with
  | nil => exact hk
  | cons y path =>
    obtain ⟨hdep, hpath⟩ := isChain_cons_cons.mp hpath
    have hrest := h y (hdeps ▸ hdep) path hpath
    omega

/-- Every cell on the stack has room for what its chains need, above what lies below it. -/
def Held (g : Graph) : List Uuid → Prop
  | [] => True
  | x :: stack => g.Slim stack.length x ∧ Held g stack

lemma Graph.Slim.room {k : Nat} {x : Uuid} (h : g.Slim k x) :
    k + ((g x).getD []).length ≤ visitStack := by
  have hself := h [] (.singleton x)
  rw [map_singleton, sum_singleton] at hself
  omega

lemma Held.append {l : List Uuid} {cur : Uuid} (hslim : g.Slim stack.length cur) (h : Held g stack)
    (hl : ∀ y ∈ l, g.Dep cur y) (hlen : l.length ≤ ((g cur).getD []).length) :
    Held g (l ++ stack) := by
  induction l with
  | nil => exact h
  | cons y l ih =>
    rw [length_cons] at hlen
    refine ⟨fun path hpath => ?_, ih (forall_mem_cons.mp hl).2 (by omega)⟩
    -- The chain is one of the cell popped, whose other predecessors lie below this one.
    have hchain := hslim (y :: path) (.cons_cons (hl y mem_cons_self) hpath)
    rw [map_cons, sum_cons] at hchain
    show _ + (l ++ stack).length ≤ visitStack
    rw [length_append]
    omega

lemma Held.push {cur : Uuid} (h : Held g (cur :: stack)) :
    Held g (push ((g cur).getD []) stack) := by
  have hroom := h.1.room
  rw [Cells.push, take_of_length_le (by omega)]
  exact .append h.1 h.2 (fun y hy => mem_reverse.mp hy) (by rw [length_reverse])

/-- A walk that has room and does not come to the cell has followed every path. -/
lemma not_reaches (h : walk g cell fuel stack = false) (hheld : Held g stack) :
    ∀ x ∈ stack, ¬ ReflTransGen g.Dep x cell := by
  induction fuel generalizing stack with
  | zero => cases h
  | succ fuel ih =>
    cases stack with
    | nil => exact nofun
    | cons cur stack =>
      rw [walk] at h
      split at h
      · cases h
      · rename_i hne
        have hfit := hheld.1.room
        have hrest := ih h hheld.push
        refine forall_mem_cons.mpr ⟨fun hpath => ?_,
          fun x hx => hrest x ((mem_push hfit).mpr (.inr hx))⟩
        rcases hpath.cases_head with heq | ⟨y, hdep, hpath⟩
        · exact hne heq
        · exact hrest y ((mem_push hfit).mpr (.inl hdep)) hpath

/-- A path in the graph with one more edge is there without it, or leads over it. -/
lemma path_of_update {own : List Uuid} (hown : (g cell).getD [] = own) {x y : Uuid}
    (h : TransGen (Graph.Dep (Function.update g cell (some (own ++ [prereq])))) x y) :
    TransGen g.Dep x y ∨ ReflTransGen g.Dep x cell ∧ ReflTransGen g.Dep prereq y := by
  have edge {x y : Uuid} (h : Graph.Dep (Function.update g cell (some (own ++ [prereq]))) x y) :
      g.Dep x y ∨ x = cell ∧ y = prereq := by
    unfold Graph.Dep at h ⊢
    by_cases hx : x = cell
    · subst hx
      rw [Function.update_self, Option.getD_some, mem_append, mem_singleton] at h
      rw [hown]
      exact h.imp_right fun heq => ⟨rfl, heq⟩
    · rw [Function.update_of_ne hx] at h
      exact .inl h
  induction h with
  | single h =>
    rcases edge h with h | ⟨rfl, rfl⟩
    · exact .inl (.single h)
    · exact .inr ⟨.refl, .refl⟩
  | tail _ h ih =>
    rcases edge h with h | ⟨rfl, rfl⟩
    · exact ih.imp (·.tail h) fun hpath => ⟨hpath.1, hpath.2.tail h⟩
    · refine .inr ⟨?_, .refl⟩
      rcases ih with hpath | hpath
      · exact hpath.to_reflTransGen
      · exact hpath.1

lemma depCreatesCycle_eq (h : g prereq = some deps) :
    depCreatesCycle g fuel cell prereq deps = walk g cell (fuel + 1) [prereq] := by
  rw [depCreatesCycle, walk, h, Option.getD_some]

lemma Graph.Acyclic.step (h : g.Acyclic) {c : Call} (hslim : g.Open c.1 c.2.1 → g.Slim 0 c.2.1) :
    (step g c).Acyclic := by
  obtain ⟨cell, prereq, fuel⟩ := c
  rw [Cells.step]
  cases hadd : addDependency g fuel cell prereq with
  | error e => exact h
  | ok g' =>
    simp only [addDependency, bind_eq_ok, failIf_eq_ok, orThrow_eq_ok] at hadd
    obtain ⟨_, hself, _, hfull, _, hnew, deps, hdeps, _, hcycle, hg'⟩ := hadd
    cases hg'
    rw [depCreatesCycle_eq hdeps] at hcycle
    have hheld : Held g [prereq] :=
      ⟨hslim ⟨by simpa using hself, by simpa using hfull, by simpa using hnew⟩, trivial⟩
    have hnot := not_reaches (by simpa using hcycle) hheld prereq (mem_singleton_self prereq)
    intro x hx
    rcases path_of_update rfl hx with hx | ⟨hcell, hpre⟩
    · exact h x hx
    · exact hnot (hpre.trans hcell)

lemma acyclic_registered (cids : List Uuid) : (registered cids).Acyclic := by
  have edgeless (x y : Uuid) : ¬ (registered cids).Dep x y := by
    rw [Graph.Dep, registered]
    split <;> exact not_mem_nil
  intro x hx
  cases hx with
  | single h => exact edgeless _ _ h
  | tail _ h => exact edgeless _ _ h

end Walk

/-! ## Every sequence of calls -/

/-- No cell becomes its own predecessor where the chains of the graph are slim. -/
theorem dependencies_acyclic (cids : List Uuid) (calls : List Call)
    (h : SlimFrom (registered cids) calls) : (calls.foldl step (registered cids)).Acyclic := by
  have hfrom := acyclic_registered cids
  generalize registered cids = g at h hfrom
  induction calls generalizing g with
  | nil => exact hfrom
  | cons c calls ih => exact ih _ h.2 (hfrom.step h.1)

def numbered (n : Nat) : Uuid := ⟨0, .ofNat n⟩

def fan (cell : Nat) (prereqs : List Nat) : List Call :=
  prereqs.map fun prereq => (numbered cell, numbered prereq, 100)

/-- A ring of three is not closed. -/
theorem dependencies_acyclic_chain :
    ((fan 0 [1] ++ fan 1 [2] ++ fan 2 [0]).foldl step
      (registered ([0, 1, 2].map numbered))).Acyclic :=
  dependencies_acyclic _ _
    ⟨fun _ => .of_deps [] (by decide +kernel) (by decide) (by simp),
      fun _ => .of_deps [] (by decide +kernel) (by decide) (by simp),
      fun _ => .of_deps [numbered 1] (by decide +kernel) (by decide) (forall_mem_singleton.mpr
        (.of_deps [numbered 2] (by decide +kernel) (by decide) (forall_mem_singleton.mpr
          (.of_deps [] (by decide +kernel) (by decide) (by simp))))), trivial⟩

def wide : List Call :=
  (range' 1 4).flatMap (fan · (range' 11 15)) ++ fan 5 (range' 11 4) ++
    (range' 1 4).flatMap (fun n => fan n [n + 1]) ++ fan 5 [0] ++ fan 0 [1]

/-- The walk from the first cell of the chain has no room left for the last predecessor of the last
one. -/
theorem dependencies_cyclic :
    ¬ (wide.foldl step (registered ((range 26).map numbered))).Acyclic := by
  intro h
  have edges : ∀ e ∈ [(0, 1), (1, 2), (2, 3), (3, 4), (4, 5), (5, 0)],
      (wide.foldl step (registered ((range 26).map numbered))).Dep (numbered e.1)
      (numbered e.2) := by
    unfold Graph.Dep
    decide +kernel
  simp only [forall_mem_cons] at edges
  obtain ⟨h0, h1, h2, h3, h4, h5, -⟩ := edges
  exact h _ (.head h0 (.head h1 (.head h2 (.head h3 (.head h4 (.single h5))))))

end Anunix.Cells
