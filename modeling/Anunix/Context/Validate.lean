import Anunix.Context.Graph

/-!
# Validation

A record that passes `validate` has only ancestors whose source objects are what they were when they
were captured. The recursion skips the slots it has seen, so the argument carries `Vouched`:
whatever is marked as seen has current ancestors. The depth that `create` allows is enough for the
recursion to reach them all (`validate_fuel`).
-/

namespace Anunix.Context
open Fallible Object List

/-- The source of a record is what it was when it was captured. -/
structure Current (s : State) (r : Record) (obj : StateObject) : Prop where
  found : ∃ addr, s.store.lookup r.view.source = some (addr, obj)
  present : obj.payload.present = true
  version : obj.version = r.view.version
  size : obj.payload.size = r.view.size
  sensitivity : obj.sensitivity = r.view.sensitivity
  digest : s.store.sha256 obj.payload.bytes = r.view.digest

def Clean (s : State) (r : Record) : Prop :=
  ∀ q, s.Ancestor r q → ∃ obj, Current s q obj

def Vouched (s : State) (seen : BitVec 32) : Prop :=
  ∀ r, s.find r.view.id = some r → seen.getLsbD r.slot = true → Clean s r

section Validate

variable {s : State} {a : Around} {r q : Record} {obj : StateObject} {seen seen' : BitVec 32}
  {capture : Bool} {fuel : Nat}

/-! ## The source of one record -/

lemma sourceCurrent_ok (h : s.sourceCurrent a r capture = .ok obj) :
    (∃ addr, s.store.lookup r.view.source = some (addr, obj)) ∧ r.admissible obj = true ∧
      (∀ x ∈ obj.parentOids.zip r.parents, s.admitsParent obj x.1 x.2 = true) ∧
      (capture = false → r.stale s.store.sha256 obj = false) := by
  obtain ⟨⟨addr, obj'⟩, hfound, h⟩ := bind_eq_ok.mp h
  obtain ⟨_, hadm, h⟩ := bind_eq_ok.mp h
  obtain ⟨_, hpar, h⟩ := bind_eq_ok.mp h
  obtain ⟨_, -, h⟩ := bind_eq_ok.mp h
  obtain ⟨_, hstale, h⟩ := bind_eq_ok.mp h
  obtain ⟨_, -, h⟩ := bind_eq_ok.mp h
  cases h
  refine ⟨⟨addr, orThrow_eq_ok.mp hfound⟩, by simpa using failIf_eq_ok.mp hadm, ?_, ?_⟩
  · intro x hx
    have hall := failIf_eq_ok.mp hpar
    rw [any_eq_false] at hall
    simpa using hall x hx
  · simpa using failIf_eq_ok.mp hstale

lemma current_of_sourceCurrent (h : s.sourceCurrent a r false = .ok obj) : Current s r obj := by
  obtain ⟨hfound, hadm, -, hstale⟩ := sourceCurrent_ok h
  have hfresh := hstale rfl
  simp only [Record.stale, Bool.or_eq_false_iff, decide_eq_false_iff_not, not_not] at hfresh
  simp only [Record.admissible, Bool.and_eq_true] at hadm
  exact ⟨hfound, hadm.1.1.1.2, hfresh.1.1.1, hfresh.1.1.2, hfresh.1.2, hfresh.2⟩

/-! ## The recursion -/

lemma vouched_foldlM {l : List UInt64}
    (hval : ∀ r seen seen', s.find r.view.id = some r → Vouched s seen →
      s.validate a fuel r seen = .ok seen' → Vouched s seen' ∧ Clean s r)
    (hseen : Vouched s seen)
    (h : l.foldlM (fun seen p => do
      let parent ← orThrow (s.find p) Err.enoent
      s.validate a fuel parent seen) seen = Except.ok seen') :
    Vouched s seen' ∧ ∀ p ∈ l, ∀ q, s.find p = some q → Clean s q := by
  induction l generalizing seen with
  | nil =>
    cases h
    exact ⟨hseen, nofun⟩
  | cons p l ih =>
    obtain ⟨seen1, hp, h⟩ := bind_eq_ok.mp h
    obtain ⟨r, hr, hp⟩ := bind_eq_ok.mp hp
    have hr := orThrow_eq_ok.mp hr
    obtain ⟨i, -, hid⟩ := get_of_find hr
    obtain ⟨hseen1, hclean⟩ := hval r seen seen1 (hid ▸ hr) hseen hp
    obtain ⟨hseen', hrest⟩ := ih hseen1 h
    refine ⟨hseen', fun p' hp' q hq => ?_⟩
    rcases mem_cons.mp hp' with rfl | hp'
    · cases hr.symm.trans hq
      exact hclean
    · exact hrest p' hp' q hq

/-- What `validate` passes is clean, and so is everything it has marked. -/
lemma validate_clean (hs : Sound s) (hr : s.find r.view.id = some r) (hseen : Vouched s seen)
    (h : s.validate a fuel r seen = .ok seen') : Vouched s seen' ∧ Clean s r := by
  induction fuel generalizing r seen seen' with
  | zero => cases h
  | succ fuel ih =>
    rw [State.validate] at h
    split at h
    · rename_i hmarked
      cases h
      exact ⟨hseen, hseen r hr hmarked⟩
    · obtain ⟨_, -, h⟩ := bind_eq_ok.mp h
      obtain ⟨seen1, hloop, h⟩ := bind_eq_ok.mp h
      obtain ⟨obj, hsource, h⟩ := bind_eq_ok.mp h
      cases h
      obtain ⟨hseen1, hparents⟩ := vouched_foldlM (fun r seen seen' => ih) hseen hloop
      have hclean : Clean s r := by
        intro q hq
        rcases Relation.ReflTransGen.cases_head hq with rfl | ⟨p, ⟨-, id, hid, hp⟩, hpq⟩
        · exact ⟨obj, current_of_sourceCurrent hsource⟩
        · exact hparents id hid p hp q hpq
      refine ⟨fun q hq hmarked => ?_, hclean⟩
      obtain ⟨i, hget, -⟩ := get_of_find hr
      obtain ⟨j, hgetq, -⟩ := get_of_find hq
      have hi := hs.graph.slot i r hget
      have hlt : r.slot < 32 := by
        have := Slots.lt_of_get hget
        rw [hs.graph.slots] at this
        rw [hi]
        exact this
      rw [BitVec.getLsbD_or, Mask.getLsbD_single hlt, Bool.or_eq_true, decide_eq_true_eq] at hmarked
      rcases hmarked with hmarked | hslot
      · exact hseen1 q hq hmarked
      · -- Only one record stands in a slot.
        rw [← hs.graph.slot j q hgetq, hslot, hi] at hgetq
        cases hget.symm.trans hgetq
        exact hclean

lemma vouched_zero : Vouched s 0#32 := by
  intro r _ h
  simp at h

/-- Any two bounds above the depth of a record give the same answer. -/
theorem validate_fuel (hs : Sound s) (hr : s.find r.view.id = some r) {m n : Nat} (hm : r.depth < m)
    (hn : r.depth < n) : s.validate a m r seen = s.validate a n r seen := by
  induction m generalizing n r seen with
  | zero => cases hm
  | succ m ih =>
    cases n with
    | zero => cases hn
    | succ n =>
      -- The two loops agree at every parent, which is less deep.
      have hloop : ∀ (l : List UInt64) (seen : BitVec 32), (∀ p ∈ l, p ∈ r.parents) →
          l.foldlM (fun seen p => do
            let parent ← orThrow (s.find p) Err.enoent
            s.validate a m parent seen) seen =
          l.foldlM (fun seen p => do
            let parent ← orThrow (s.find p) Err.enoent
            s.validate a n parent seen) seen := by
        intro l
        induction l with
        | nil => exact fun _ _ => rfl
        | cons p l ihl =>
          intro seen hl
          obtain ⟨i, hget, -⟩ := get_of_find hr
          obtain ⟨j, q, hq, hid, -, hd⟩ := hs.graph.parents i r hget p (hl p mem_cons_self)
          have hfind : s.find p = some q := hid ▸ hs.find hq
          have hstep : ∀ seen, s.validate a m q seen = s.validate a n q seen :=
            fun seen => ih (hs.find hq) (by omega) (by omega)
          rw [foldlM_cons, foldlM_cons, hfind]
          simp only [orThrow, pure_bind, hstep]
          exact bind_congr fun seen => ihl seen fun p hp => hl p (mem_cons_of_mem _ hp)
      rw [State.validate, State.validate, hloop r.parents seen fun _ hp => hp]

end Validate

end Anunix.Context
