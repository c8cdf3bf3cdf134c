import Anunix.Capability.Capability
import Anunix.Lib.Mask
import Anunix.Lib.Run

/-!
# Authority is never amplified

Runs of the capability calls in which holders write the public declarations as they like. Every
installation stays below the ceiling it was made under: the ceiling that trusted code gave to the
capability itself, or the authority that the incumbent had at the time of the promotion. `Chain`
follows the promotions back to the capability that was installed under its own ceiling.
-/

namespace Anunix.Capability
open Fallible List

/-- Every right of `x` is a right of `y`. -/
def Below (x y : UInt32) : Prop :=
  Mask.members x.toBitVec ⊆ Mask.members y.toBitVec

lemma below_of_and_not {x y : UInt32} (h : x &&& ~~~y = 0) : Below x y := by
  apply Mask.and_not_eq_zero.mp
  have hbits := congrArg UInt32.toBitVec h
  simpa using hbits

lemma Below.trans {x y z : UInt32} (h : Below x y) (h' : Below y z) : Below x z :=
  Finset.Subset.trans h h'

lemma zero_below (x : UInt32) : Below 0 x := by
  intro i hi
  simp at hi

/-! ## Grants -/

def Entry.grant (e : Entry) : UInt32 × UInt32 :=
  (e.rootCeiling, e.installedAuthority)

def State.grants (s : State) : List (UInt32 × UInt32) :=
  s.entries.map Entry.grant

def State.grant (s : State) (c : Nat) : UInt32 × UInt32 :=
  s.grants[c]?.getD (0, 0)

def State.ceiling (s : State) (c : Nat) : UInt32 :=
  (s.grant c).1

/-- The authority that was recorded when a capability was installed. -/
def State.authority (s : State) (c : Nat) : UInt32 :=
  (s.grant c).2

section Grants

variable {s s' : State} {entries : List Entry} {c : Nat} {e : Entry} {f : Entry → Entry}
  {g : UInt32 × UInt32}

lemma grants_modify_keep (h : ∀ e, (f e).grant = e.grant) :
    (entries.modify c f).map Entry.grant = entries.map Entry.grant := by
  apply ext_getElem?
  intro i
  rw [getElem?_map, getElem?_map, getElem?_modify]
  cases entries[i]? with
  | none => rfl
  | some e =>
    by_cases hi : c = i
    · simp [hi, h]
    · simp [hi]

lemma grants_modify (he : entries[c]? = some e) :
    (entries.modify c f).map Entry.grant = (entries.map Entry.grant).set c (f e).grant := by
  rw [modify_eq_set_getElem?, he]
  exact map_set

lemma setCap_grants {g : Declaration → Declaration} : (s.setCap c g).grants = s.grants :=
  grants_modify_keep fun _ => rfl

lemma entries_of_entryFor (h : s.entryFor c = some e) : s.entries[c]? = some e :=
  (Option.filter_eq_some_iff.mp h).1

lemma ceiling_of_entry (h : s.entries[c]? = some e) : s.ceiling c = e.rootCeiling := by
  simp [State.ceiling, State.grant, State.grants, h, Entry.grant]

lemma authority_of_entry (h : s.entries[c]? = some e) : s.authority c = e.installedAuthority := by
  simp [State.authority, State.grant, State.grants, h, Entry.grant]

lemma grant_of_set (he : s.entries[c]? = some e) (h : s'.grants = s.grants.set c g) :
    s'.grant c = g := by
  have hlt : c < s.grants.length := by
    rw [State.grants, length_map]
    exact (List.getElem?_eq_some_iff.mp he).1
  rw [State.grant, h, getElem?_set_self hlt]
  rfl

lemma grant_of_set_ne {c' : Nat} (hc : c' ≠ c) (h : s'.grants = s.grants.set c' g) :
    s'.grant c = s.grant c := by
  rw [State.grant, State.grant, h, getElem?_set_ne hc]

lemma grant_of_append (h : s'.grants = s.grants ++ [(0, 0)]) : s'.grant c = s.grant c := by
  rw [State.grant, State.grant, h, getElem?_append]
  split
  · rfl
  · have hnone : s.grants[c]? = none := getElem?_eq_none (by omega)
    rw [hnone]
    cases c - s.grants.length <;> rfl

end Grants

/-! ## What the calls do -/

structure Installed (a : Around) (c : Nat) (ceiling : UInt32) (s : State) (e : Entry) (s' : State) :
    Prop where
  entry : s.entries[c]? = some e
  below : Below e.cap.requiredAuthority ceiling
  /-- A cell that asks for it has every right itself. -/
  caller : ∀ active, a.current = some active → ∃ cell, a.cells.lookup active = some cell ∧
    Below e.cap.requiredAuthority (permissions cell)
  next : s'.grants = s.grants.set c (e.rootCeiling, e.cap.requiredAuthority)

section Calls

variable {s : State} {a : Around} {c i : Nat} {ceiling : UInt32} {cap : Declaration}
  {new : CapStatus}

lemma checkAuthority_ok (h : checkAuthority a cap ceiling = .ok ()) :
    Below cap.requiredAuthority ceiling ∧
      ∀ active, a.current = some active → ∃ cell, a.cells.lookup active = some cell ∧
        Below cap.requiredAuthority (permissions cell) := by
  obtain ⟨_, -, h⟩ := bind_eq_ok.mp h
  obtain ⟨_, hbelow, h⟩ := bind_eq_ok.mp h
  have hbelow := failIf_eq_ok.mp hbelow
  simp only [decide_eq_false_iff_not, not_not] at hbelow
  refine ⟨below_of_and_not hbelow, fun active hactive => ?_⟩
  rw [hactive] at h
  obtain ⟨cell, hcell, h⟩ := bind_eq_ok.mp h
  have hown := failIf_eq_ok.mp h
  simp only [Bool.not_eq_false', Bool.and_eq_true, decide_eq_true_eq] at hown
  exact ⟨cell, orThrow_eq_ok.mp hcell, below_of_and_not hown.2⟩

lemma capTransitionTo_ends : Atomic (capTransitionTo a i c new) s
      (fun _ s' => s' = s.setCap c fun cap => { cap with status := new }) := by
  refine .get_bind (.fetch fun e _ => .guard fun _ => ?_)
  exact .lift fun _ _ => .modify rfl

lemma doInstall_ends :
    Atomic (doInstall a c ceiling) s (fun _ s' => ∃ e, Installed a c ceiling s e s') := by
  refine .get_bind (.fetch fun e he => ?_)
  refine .lift fun _ _ => .lift fun _ _ => ?_
  refine .lift fun _ hauth => .lift fun _ _ => ?_
  refine .bind (.guard fun _ => .bind (.modify ?_))
  refine .attempt_bind (.mono capTransitionTo_ends ?_ ?_)
  · rintro _ s1 rfl
    obtain ⟨hbelow, hcaller⟩ := checkAuthority_ok hauth
    have hentry := entries_of_entryFor he
    refine .modify ⟨e, hentry, hbelow, hcaller, ?_⟩
    -- The status was written before the grant is recorded.
    have hnow :
      (s.entries.modify c fun e => { e with cap := { e.cap with status := .installed } })[c]? =
        some { e with cap := { e.cap with status := .installed } } := by
      rw [getElem?_modify, hentry]
      simp
    have hsame : (s.setCap c fun cap => { cap with status := .installed }).grants = s.grants :=
      setCap_grants
    refine (grants_modify hnow).trans ?_
    exact congrArg (set · c (e.rootCeiling, e.cap.requiredAuthority)) hsame
  · rintro err s1 rfl
    refine .bind (.modify (.throw ?_))
    simp [Keyed.erase]

lemma capInstall_ends :
    Atomic (capInstall a c) s (fun _ s' => ∃ e, Installed a c (s.ceiling c) s e s') := by
  refine .get_bind (.fetch fun e he => .guard fun _ => ?_)
  refine .guard fun _ => ?_
  rw [ceiling_of_entry (entries_of_entryFor he)]
  exact doInstall_ends

lemma capInstallGated_ends {trial : Trial} {tried : UInt32} :
    Atomic (capInstallGated a c trial tried) s
      (fun _ s' => ∃ e i, s.lookup e.cap.supersedesOid = some i ∧
        Installed a c (s.authority i) s e s') := by
  refine .get_bind (.fetch fun e he => .guard fun _ => ?_)
  refine .guard fun _ => .fetch fun i hi => ?_
  refine .fetch fun incumbent _ => .guard fun _ => ?_
  refine .fetch fun entry hentry => .lift fun _ _ => ?_
  refine .guard fun _ => ?_
  rw [← authority_of_entry (entries_of_entryFor hentry)]
  refine .post doInstall_ends ?_
  rintro _ s' ⟨e', h⟩
  cases he.symm.trans h.entry
  exact ⟨e, i, hi, h⟩

lemma capSetAuthorityCeiling_ends : Atomic (capSetAuthorityCeiling a c ceiling) s
      (fun _ s' => a.current = none ∧ ∃ e, s.entries[c]? = some e ∧
        s'.grants = s.grants.set c (ceiling, e.installedAuthority)) := by
  refine .get_bind (.fetch fun e he => .guard fun _ => ?_)
  refine .guard fun htrusted => .modify ⟨?_, e, entries_of_entryFor he, ?_⟩
  · simp only [Bool.or_eq_false_iff, Option.isSome_eq_false_iff,
      Option.isNone_iff_eq_none] at htrusted
    exact htrusted.1.1
  · exact grants_modify (entries_of_entryFor he)

lemma capCreate_ends {name version : List UInt8} :
    Atomic (capCreate a name version) s (fun _ s' => s'.grants = s.grants ++ [(0, 0)]) := by
  refine .guard fun _ => .lift fun oid _ => ?_
  show (s.entries ++ [_]).map Entry.grant = _
  rw [map_append]
  rfl

lemma capUninstall_grants :
    Leaves (capUninstall a c) s fun s' => s'.grants = s.grants := by
  refine .get_bind (.fetch fun e _ => .lift fun _ _ => ?_)
  refine .guard fun _ => ?_
  split
  · exact .bind (.modify (.modify setCap_grants))
  · rfl

lemma capValidate_grants :
    Leaves (capValidate a c) s fun s' => s'.grants = s.grants := by
  refine .get_bind (.fetch fun e _ => .guard fun _ => ?_)
  refine .lift fun _ _ => ?_
  split
  · exact .bind (.modify (.throw setCap_grants))
  · refine .call capTransitionTo_ends ?_ ?_
    · rintro _ s1 rfl
      refine .bind (.modify (.mono capTransitionTo_ends ?_ ?_))
      · rintro _ s2 rfl
        rw [setCap_grants, setCap_grants, setCap_grants]
      · rintro _ s2 rfl
        rw [setCap_grants, setCap_grants]
    · rintro _ s1 rfl
      rfl

end Calls

/-! ## Runs -/

/-- A call, a holder writing a declaration, or a change of the engine registry. -/
inductive Input where
  | create (name version : List UInt8) (a : Around)
  | edit (c : Nat) (f : Declaration → Declaration)
  | engines (change : List Engine → List Engine)
  | ceiling (c : Nat) (u : UInt32) (a : Around)
  | transition (c : Nat) (new : CapStatus) (a : Around)
  | validate (c : Nat) (a : Around)
  | install (c : Nat) (a : Around)
  | gated (c : Nat) (trial : Trial) (tried : UInt32) (a : Around)
  | uninstall (c : Nat) (a : Around)

def Input.exec : Input → KProg Unit
  | .create name version a => discard (capCreate a name version)
  | .edit c f => modify fun s => s.setCap c f
  | .engines change => modify fun s => { s with engines := change s.engines }
  | .ceiling c u a => capSetAuthorityCeiling a c u
  | .transition c new a => capTransitionTo a 0 c new
  | .validate c a => capValidate a c
  | .install c a => capInstall a c
  | .gated c trial tried a => capInstallGated a c trial tried
  | .uninstall c a => capUninstall a c

def State.step (s : State) (x : Input) : State :=
  final x.exec s

def State.succeeds (s : State) (x : Input) : Bool :=
  (outcome x.exec s).isOk

def stateAt (hash : Uuid → Nat) (run : List Input) (n : Nat) : State :=
  Run.after State.step ⟨hash, [], []⟩ run n

/-- The input installs a capability, in one way or the other. -/
inductive Input.Installs (c : Nat) (a : Around) : Input → Prop where
  | root : Installs c a (.install c a)
  | promotion (trial : Trial) (tried : UInt32) : Installs c a (.gated c trial tried a)

def InstalledAt (hash : Uuid → Nat) (run : List Input) (k c : Nat) : Prop :=
  ∃ x a, run[k]? = some x ∧ x.Installs c a ∧ (stateAt hash run k).succeeds x = true

/-- The last installation of a capability among the first `n` inputs. -/
structure LastInstall (hash : Uuid → Nat) (run : List Input) (n c k : Nat) : Prop where
  before : k < n
  installed : InstalledAt hash run k c
  last : ∀ j, k < j → j < n → ¬ InstalledAt hash run j c

/-- The `j`-th input is trusted code giving a ceiling to a capability. -/
def GivenAt (hash : Uuid → Nat) (run : List Input) (j c : Nat) (u : UInt32) : Prop :=
  ∃ a, run[j]? = some (.ceiling c u a) ∧ a.current = none ∧
    (stateAt hash run j).succeeds (.ceiling c u a) = true

/-- The ceiling that trusted code gave last among the first `n` inputs, or none. -/
def Given (hash : Uuid → Nat) (run : List Input) (n c : Nat) (u : UInt32) : Prop :=
  (∃ j < n, GivenAt hash run j c u ∧ ∀ i, j < i → i < n → ∀ v, ¬ GivenAt hash run i c v) ∨
    (u = 0 ∧ ∀ j < n, ∀ v, ¬ GivenAt hash run j c v)

def Incumbent (s : State) (c i : Nat) : Prop :=
  ∃ e, s.entries[c]? = some e ∧ s.lookup e.cap.supersedesOid = some i

/-- The promotions that lead from a capability after `n` inputs back to the capability `r` that was
    installed under its own ceiling `u`. A capability that was never installed is its own root. -/
inductive Chain (hash : Uuid → Nat) (run : List Input) : Nat → Nat → Nat → UInt32 → Prop where
  | never {n c : Nat} {u : UInt32} (new : ∀ k < n, ¬ InstalledAt hash run k c)
      (given : Given hash run n c u) :
    Chain hash run n c c u
  | root {n c k : Nat} {u : UInt32} {a : Around} (last : LastInstall hash run n c k)
    (call : run[k]? = some (.install c a)) (given : Given hash run k c u) : Chain hash run n c c u
  | promoted {n c k i r : Nat} {u : UInt32} {trial : Trial} {tried : UInt32} {a : Around}
    (last : LastInstall hash run n c k) (call : run[k]? = some (.gated c trial tried a))
    (incumbent : Incumbent (stateAt hash run k) c i) (chain : Chain hash run k i r u) :
    Chain hash run n c r u

structure AuthoritySound (hash : Uuid → Nat) (run : List Input) : Prop where
  /-- A promoted capability has no more authority than its incumbent had at the promotion. -/
  promoted : ∀ n c k trial tried a, LastInstall hash run n c k →
    run[k]? = some (.gated c trial tried a) → ∃ i, Incumbent (stateAt hash run k) c i ∧
      Below ((stateAt hash run n).authority c) ((stateAt hash run k).authority i)
  /-- Along the whole chain it has no more than the ceiling of the root. -/
  bounded : ∀ n c, ∃ r u, Chain hash run n c r u ∧ Below ((stateAt hash run n).authority c) u
  /-- What a cell has installed is within its own permissions. -/
  caller : ∀ n x c a active, run[n]? = some x → x.Installs c a → (stateAt hash run n).succeeds x =
    true → a.current = some active → ∃ cell, a.cells.lookup active = some cell ∧
      Below ((stateAt hash run (n + 1)).authority c) (permissions cell)
  refused : ∀ n x c a, run[n]? = some x → x.Installs c a → (stateAt hash run n).succeeds x = false →
    stateAt hash run (n + 1) = stateAt hash run n

/-! ## One step -/

inductive Turn (s : State) (x : Input) (s' : State) : Prop where
  | keep (grants : s'.grants = s.grants)
  | create (grants : s'.grants = s.grants ++ [(0, 0)])
  | give (c : Nat) (u : UInt32) (a : Around) (e : Entry) (call : x = .ceiling c u a)
    (ok : s.succeeds x = true) (trusted : a.current = none) (entry : s.entries[c]? = some e)
    (grants : s'.grants = s.grants.set c (u, e.installedAuthority))
  | root (c : Nat) (a : Around) (e : Entry) (call : x = .install c a) (ok : s.succeeds x = true)
    (installs : Installed a c (s.ceiling c) s e s')
  | promote (c : Nat) (trial : Trial) (tried : UInt32) (a : Around) (e : Entry) (i : Nat)
    (call : x = .gated c trial tried a) (ok : s.succeeds x = true)
    (incumbent : s.lookup e.cap.supersedesOid = some i)
    (installs : Installed a c (s.authority i) s e s')

section Step

variable {s s' : State} {x : Input} {c : Nat} {a : Around}

lemma Turn.of_atomic {Q : Unit → State → Prop} (h : Atomic x.exec s Q)
    (hQ : ∀ s', s.succeeds x = true → Q () s' → Turn s x s') : Turn s x (s.step x) := by
  cases hok : s.succeeds x with
  | true => exact hQ _ hok (h.of_succeeds hok)
  | false => exact .keep (congrArg State.grants (h.of_fails hok))

lemma step_turn (s : State) (x : Input) : Turn s x (s.step x) := by
  cases x with
  | create name version a =>
    exact .of_atomic (.discard capCreate_ends) fun _ _ => .create
  | edit c f => exact .keep setCap_grants
  | engines change => exact .keep rfl
  | ceiling c u a =>
    refine .of_atomic capSetAuthorityCeiling_ends ?_
    rintro s' hok ⟨htrusted, e, he, hgrants⟩
    exact .give c u a e rfl hok htrusted he hgrants
  | transition c new a =>
    refine .of_atomic capTransitionTo_ends ?_
    rintro s' hok rfl
    exact .keep setCap_grants
  | validate c a => exact .keep capValidate_grants.final
  | install c a =>
    refine .of_atomic capInstall_ends ?_
    rintro s' hok ⟨e, hi⟩
    exact .root c a e rfl hok hi
  | gated c trial tried a =>
    refine .of_atomic capInstallGated_ends ?_
    rintro s' hok ⟨e, i, hi, hinst⟩
    exact .promote c trial tried a e i rfl hok hi hinst
  | uninstall c a => exact .keep capUninstall_grants.final

lemma Installed.recorded {ceiling : UInt32} {e : Entry} (h : Installed a c ceiling s e s') :
    s'.authority c = e.cap.requiredAuthority ∧ s'.ceiling c = s.ceiling c := by
  have hnow := grant_of_set h.entry h.next
  rw [ceiling_of_entry h.entry]
  exact ⟨congrArg Prod.snd hnow, congrArg Prod.fst hnow⟩

lemma Turn.grant (ht : Turn s x s') (c : Nat) : s'.grant c = s.grant c ∨
    (∃ u a, x = .ceiling c u a ∧ a.current = none ∧ s.succeeds x = true ∧
      s'.grant c = (u, s.authority c)) ∨
    ∃ a, x.Installs c a ∧ s.succeeds x = true ∧ s'.ceiling c = s.ceiling c := by
  cases ht with
  | keep grants => exact .inl (by rw [State.grant, State.grant, grants])
  | create grants => exact .inl (grant_of_append grants)
  | give c' u a e call ok trusted entry grants =>
    by_cases hc : c' = c
    · subst hc
      refine .inr (.inl ⟨u, a, call, trusted, ok, ?_⟩)
      rw [grant_of_set entry grants, authority_of_entry entry]
    · exact .inl (grant_of_set_ne hc grants)
  | root c' a e call ok installs =>
    by_cases hc : c' = c
    · subst hc
      exact .inr (.inr ⟨a, call ▸ .root, ok, installs.recorded.2⟩)
    · exact .inl (grant_of_set_ne hc installs.next)
  | promote c' trial tried a e i call ok incumbent installs =>
    by_cases hc : c' = c
    · subst hc
      exact .inr (.inr ⟨a, call ▸ .promotion trial tried, ok, installs.recorded.2⟩)
    · exact .inl (grant_of_set_ne hc installs.next)

end Step

section Runs

variable {hash : Uuid → Nat} {run : List Input} {n c k : Nat} {x : Input} {a : Around}

lemma stateAt_succ (h : run[n]? = some x) :
    stateAt hash run (n + 1) = (stateAt hash run n).step x :=
  Run.after_succ State.step h

/-- The run lemma of the recorded authority: it stays what it was between installations. -/
lemma authority_stateAt (hk : k ≤ n) (hnot : ∀ j, k ≤ j → j < n → ¬ InstalledAt hash run j c) :
    (stateAt hash run n).authority c = (stateAt hash run k).authority c := by
  refine Run.after_keeps State.step (f := fun s => s.authority c) hk fun j x hkj hjn hx => ?_
  rcases (step_turn _ x).grant c with h | ⟨u, a, -, -, -, h⟩ | ⟨a, hinst, hok, -⟩
  · exact congrArg Prod.snd h
  · exact (congrArg Prod.snd h :)
  · exact (hnot j hkj hjn ⟨x, a, hx, hinst, hok⟩).elim

/-- The run lemma of the ceilings: it stays what it was while trusted code gives none. -/
lemma ceiling_stateAt (hk : k ≤ n) (hnot : ∀ j, k ≤ j → j < n → ¬ ∃ u, GivenAt hash run j c u) :
    (stateAt hash run n).ceiling c = (stateAt hash run k).ceiling c := by
  refine Run.after_keeps State.step (f := fun s => s.ceiling c) hk fun j x hkj hjn hx => ?_
  rcases (step_turn _ x).grant c with h | ⟨u, a, rfl, htrusted, hok, -⟩ | ⟨a, -, -, h⟩
  · exact congrArg Prod.fst h
  · exact (hnot j hkj hjn ⟨u, a, hx, htrusted, hok⟩).elim
  · exact h

lemma given_stateAt (hash : Uuid → Nat) (run : List Input) (n c : Nat) :
    Given hash run n c ((stateAt hash run n).ceiling c) := by
  rcases Run.never_or_last (fun j => ∃ u, GivenAt hash run j c u) n
    with hnever | ⟨k, hk, ⟨u, hgiven⟩, hlast⟩
  · refine .inr ⟨?_, fun j hj u hu => hnever j hj ⟨u, hu⟩⟩
    rw [ceiling_stateAt (Nat.zero_le n) fun j _ => hnever j]
    rfl
  · have ⟨a, hx, _, hok⟩ := hgiven
    obtain ⟨-, e, he, hgrants⟩ := capSetAuthorityCeiling_ends.of_succeeds hok
    have hnow : (stateAt hash run n).ceiling c = u := by
      rw [ceiling_stateAt hk hlast, stateAt_succ hx]
      exact congrArg Prod.fst (grant_of_set he hgrants)
    rw [hnow]
    exact .inl ⟨k, hk, hgiven, fun i hki hin v hv => hlast i hki hin ⟨v, hv⟩⟩

lemma installed_promoted {trial : Trial} {tried : UInt32}
    (hx : run[k]? = some (.gated c trial tried a))
    (hok : (stateAt hash run k).succeeds (.gated c trial tried a) = true) :
    ∃ i, Incumbent (stateAt hash run k) c i ∧
      Below ((stateAt hash run (k + 1)).authority c) ((stateAt hash run k).authority i) := by
  obtain ⟨e, i, hi, h⟩ := capInstallGated_ends.of_succeeds hok
  refine ⟨i, ⟨e, h.entry, hi⟩, ?_⟩
  rw [stateAt_succ hx]
  exact h.recorded.1 ▸ h.below

lemma LastInstall.authority (h : LastInstall hash run n c k) :
    (stateAt hash run n).authority c = (stateAt hash run (k + 1)).authority c :=
  authority_stateAt h.before h.last

lemma LastInstall.succeeds (h : LastInstall hash run n c k) (hx : run[k]? = some x) :
    (stateAt hash run k).succeeds x = true := by
  obtain ⟨x', a, hx', -, hok⟩ := h.installed
  cases hx'.symm.trans hx
  exact hok

/-- By induction on the number of inputs: a promotion looks at an earlier state. -/
lemma exists_chain (hash : Uuid → Nat) (run : List Input) (n c : Nat) :
    ∃ r u, Chain hash run n c r u ∧ Below ((stateAt hash run n).authority c) u := by
  induction n using Nat.strong_induction_on generalizing c with
  | _ n ih =>
    rcases Run.never_or_last (fun k => InstalledAt hash run k c) n
      with hnever | ⟨k, hlt, hat, hlast⟩
    · have h0 : (stateAt hash run n).authority c = (stateAt hash run 0).authority c :=
        authority_stateAt (Nat.zero_le n) fun j _ => hnever j
      refine ⟨c, _, .never hnever (given_stateAt hash run n c), ?_⟩
      rw [h0]
      exact zero_below _
    · have hk : LastInstall hash run n c k := ⟨hlt, hat, hlast⟩
      rw [hk.authority]
      obtain ⟨x, a, hx, hinst, hok⟩ := hk.installed
      cases hinst with
      | root =>
        refine ⟨c, _, .root hk hx (given_stateAt hash run k c), ?_⟩
        obtain ⟨e, h⟩ := capInstall_ends.of_succeeds hok
        rw [stateAt_succ hx]
        exact h.recorded.1 ▸ h.below
      | promotion trial tried =>
        obtain ⟨i, hincumbent, hbelow⟩ := installed_promoted hx hok
        obtain ⟨r, u, hchain, hroot⟩ := ih k hk.before i
        exact ⟨r, u, .promoted hk hx hincumbent hchain, hbelow.trans hroot⟩

/-- Whatever the declarations say, no run of the capability calls amplifies authority. -/
theorem authority_sound (hash : Uuid → Nat) (run : List Input) : AuthoritySound hash run where
  promoted n c k trial tried a hlast hx := by
    rw [hlast.authority]
    exact installed_promoted hx (hlast.succeeds hx)
  bounded n c := exists_chain hash run n c
  caller n x c a active hx hinst hok hactive := by
    rw [stateAt_succ hx]
    cases hinst with
    | root =>
      obtain ⟨e, h⟩ := capInstall_ends.of_succeeds hok
      exact h.recorded.1 ▸ h.caller active hactive
    | promotion trial tried =>
      obtain ⟨e, i, -, h⟩ := capInstallGated_ends.of_succeeds hok
      exact h.recorded.1 ▸ h.caller active hactive
  refused n x c a hx hinst hok := by
    rw [stateAt_succ hx]
    cases hinst with
    | root => exact capInstall_ends.of_fails hok
    | promotion trial tried => exact capInstallGated_ends.of_fails hok

end Runs

end Anunix.Capability
