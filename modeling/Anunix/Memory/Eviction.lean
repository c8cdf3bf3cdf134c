import Anunix.Memory.Memplane

/-!
# The victim of an eviction

`anx_memplane_evict` demotes the first of its candidates by `Entry.rank`, whatever their order in
the list (`evict_best`): no two candidates have the same rank, and the loop over them is
`List.argmin`.
-/

namespace Anunix.Memory
open Fallible Route List

/-- The place of an entry among the candidates: the higher score comes first, then the smaller
identifier. -/
def Entry.rank (e : Entry) : ℤ ×ₗ ℕ ×ₗ ℕ :=
  toLex (-e.score, toLex (e.oid.hi.toNat, e.oid.lo.toNat))

/-- What the first loop of `anx_memplane_evict` and the checks in front of it let through. -/
structure Plane.Pool (s : Plane) (candidates : List Uuid) (tier : MemTier) : Prop where
  nonempty : candidates ≠ []
  limit : candidates.length ≤ evictionCandidatesMax
  tier : tier = .l0 ∨ tier = .l1 ∨ tier = .l3
  distinct : candidates.Nodup
  admitted : ∀ oid ∈ candidates, (s.lookup oid).isSome = true

def Plane.eligible (s : Plane) (needed : Uuid → Bool) (candidates : List Uuid) (tier : MemTier) :
    List Entry :=
  (candidates.filterMap s.lookup).filter (Entry.evictable needed tier)

def Plane.evicted (s : Plane) (v : Entry) (tier : MemTier) : Plane :=
  s.write { v with tierMask := v.tierMask &&& ~~~tierBit tier }

variable {needed : Uuid → Bool} {s : Plane} {tier : MemTier} {candidates others : List Uuid}
  {e v : Entry}

lemma oid_of_rank (h : e.rank = v.rank) : e.oid = v.oid := by
  obtain ⟨-, hoid⟩ := Prod.mk.inj (toLex.injective h)
  obtain ⟨hhi, hlo⟩ := Prod.mk.inj (toLex.injective hoid)
  obtain ⟨⟨_, _⟩, _⟩ := e
  obtain ⟨⟨_, _⟩, _⟩ := v
  exact congrArg₂ Uuid.mk (UInt64.toNat_inj.mp hhi) (UInt64.toNat_inj.mp hlo)

/-- A later candidate takes the place of the victim so far when its rank is smaller. -/
lemma foldl_better (l : List Entry) : l.foldl better none = l.argmin Entry.rank := by
  suffices hstep : better = argAux fun e v => e.rank < v.rank by rw [hstep]; rfl
  funext victim e
  cases victim with
  | none => rfl
  | some v =>
    refine if_congr ?_ rfl rfl
    have hne :
        e.oid ≠ v.oid ↔ ¬ (e.oid.hi.toNat = v.oid.hi.toNat ∧ e.oid.lo.toNat = v.oid.lo.toNat) := by
      rw [UInt64.toNat_inj, UInt64.toNat_inj, ← Uuid.mk.injEq]
    rw [hne]
    simp only [Entry.rank, Uuid.before, Prod.Lex.toLex_lt_toLex, Bool.or_eq_true, Bool.and_eq_true,
      decide_eq_true_eq, UInt64.lt_iff_toNat_lt, UInt64.le_iff_toNat_le, ← UInt64.toNat_inj]
    omega

lemma gather_admitted {seen : List Uuid} (hnew : (seen ++ candidates).Nodup)
    (hadmitted : ∀ oid ∈ candidates, (s.lookup oid).isSome = true) :
    s.gather seen candidates = .ok (candidates.filterMap s.lookup) := by
  induction candidates generalizing seen with
  | nil => rfl
  | cons oid rest ih =>
    have hnew := perm_middle.nodup_iff.mp hnew
    have hfirst : oid ∉ seen := fun h => (nodup_cons.mp hnew).1 (mem_append_left rest h)
    obtain ⟨hsome, hadmitted⟩ := forall_mem_cons.mp hadmitted
    obtain ⟨e, he⟩ := Option.isSome_iff_exists.mp hsome
    rw [filterMap_cons_some he, Plane.gather, he, ih hnew hadmitted, decide_eq_false hfirst]
    rfl

lemma mem_eligible : e ∈ s.eligible needed candidates tier ↔
    e.oid ∈ candidates ∧ s.lookup e.oid = some e ∧ e.evictable needed tier = true := by
  rw [Plane.eligible, mem_filter, mem_filterMap, ← and_assoc]
  refine and_congr_left fun _ => ⟨?_, fun h => ⟨e.oid, h⟩⟩
  rintro ⟨oid, hmem, he⟩
  obtain rfl : e.oid = oid := Keyed.lookup_key he
  exact ⟨hmem, he⟩

/-- The loop finds the one candidate that comes before all others. -/
lemma argmin_eligible : v ∈ (s.eligible needed candidates tier).argmin Entry.rank ↔
    v ∈ s.eligible needed candidates tier ∧ ∀ e ∈ s.eligible needed candidates tier,
    v.rank ≤ e.rank := by
  refine ⟨fun hv => ⟨argmin_mem hv, fun e he => le_of_mem_argmin he hv⟩, fun ⟨hv, hfirst⟩ => ?_⟩
  have hsome : (s.eligible needed candidates tier).argmin Entry.rank ≠ none :=
    fun hnone => ne_nil_of_mem hv (argmin_eq_none.mp hnone)
  obtain ⟨w, hw⟩ := Option.ne_none_iff_exists'.mp hsome
  have hoid := oid_of_rank (le_antisymm (hfirst w (argmin_mem hw)) (le_of_mem_argmin hv hw))
  have hlook := (mem_eligible.mp hv).2.1
  rw [hoid, (mem_eligible.mp (argmin_mem hw)).2.1] at hlook
  exact hw.trans hlook

lemma demote_eligible (hv : v ∈ s.eligible needed candidates tier) :
    Succeeds (demote needed none v.oid (some tier)) s fun _ s' => s' = s.evicted v tier := by
  obtain ⟨-, hlook, hevict⟩ := mem_eligible.mp hv
  simp only [Entry.evictable, Bool.and_eq_true, Bool.not_eq_true', decide_eq_true_eq] at hevict
  obtain ⟨⟨-, hfree⟩, hidle⟩ := hevict
  refine .pass rfl (.orThrow_bind (fun hnone => ?_) fun e he => ?_)
  · cases hlook.symm.trans hnone
  · cases hlook.symm.trans he
    refine .pass (by rw [hidle, Bool.and_false]) (.pass (decide_eq_false (not_not.mpr hfree)) ?_)
    exact rfl

lemma evict_eq (hpool : s.Pool candidates tier) : evict needed none candidates (some tier) s =
    match (s.eligible needed candidates tier).argmin Entry.rank with
    | some v => .ok v.oid (s.evicted v tier)
    | none => .error .enoent s := by
  apply Ends.run
  refine .pass rfl (.pass ?_ (.pass ?_ ?_))
  · have := hpool.limit
    simpa [hpool.nonempty] using this
  · obtain h | h | h := hpool.tier <;> simp [h]
  have hgather : s.gather [] candidates = _ := gather_admitted hpool.distinct hpool.admitted
  refine .ofExcept_bind (fun e herr => ?_) fun entries hentries => ?_
  · cases hgather.symm.trans herr
  · cases hgather.symm.trans hentries
    rw [foldl_better]
    refine .orThrow_bind (fun hnone => ?_) fun v hv => ?_
    · rw [Plane.eligible, hnone]
    · rw [Plane.eligible, hv]
      refine (demote_eligible (argmin_mem hv)).next fun _ s' hs' => ?_
      rw [hs']
      rfl

lemma evict_atomic (caller : Option Uuid) (candidates : List Uuid) (tier : Option MemTier) :
    Atomic (evict needed caller candidates tier) s fun _ _ => True := by
  refine .guard fun _ => .guard fun _ => .guard fun _ => .fetch
    fun tier _ => .lift fun entries _ => ?_
  refine .fetch fun v _ => .bind ?_
  refine .guard fun _ => .fetch fun e _ => .fetch fun tier _ => .guard fun _ => .guard fun _ => ?_
  trivial

/-- **The first candidate is evicted**, in whatever order the candidates come. A call that is
refused, for whatever reason, changes nothing. -/
theorem evict_best (s : Plane) (needed : Uuid → Bool) (candidates : List Uuid) (tier : MemTier)
    (hpool : s.Pool candidates tier) :
    Ends (evict needed none candidates (some tier)) s
      (fun oid s' => ∃ v ∈ s.eligible needed candidates tier,
        (∀ e ∈ s.eligible needed candidates tier, v.rank ≤ e.rank) ∧ oid = v.oid ∧
        s' = s.evicted v tier)
      (fun err s' => err = .enoent ∧ s' = s ∧ s.eligible needed candidates tier = []) ∧
    (∀ others, candidates.Perm others →
      evict needed none others (some tier) s = evict needed none candidates (some tier) s) ∧
    ∀ caller others tier', Atomic (evict needed caller others tier') s fun _ _ => True := by
  refine ⟨?_, fun others hperm => ?_, evict_atomic⟩
  · rw [Ends, evict_eq hpool]
    cases hv : (s.eligible needed candidates tier).argmin Entry.rank with
    | none => exact ⟨rfl, rfl, argmin_eq_none.mp hv⟩
    | some v =>
      obtain ⟨hmem, hfirst⟩ := argmin_eligible.mp hv
      exact ⟨v, hmem, hfirst, rfl, rfl⟩
  · have hothers : s.Pool others tier :=
      ⟨fun hnil => hpool.nonempty (hnil ▸ hperm).eq_nil, hperm.length_eq ▸ hpool.limit, hpool.tier,
        hperm.nodup hpool.distinct, fun oid ho => hpool.admitted oid (hperm.mem_iff.mpr ho)⟩
    have hsame : ∀ e, e ∈ s.eligible needed others tier ↔
        e ∈ s.eligible needed candidates tier := by
      intro e
      rw [mem_eligible, mem_eligible, hperm.mem_iff]
    have hfirst : (s.eligible needed others tier).argmin Entry.rank =
        (s.eligible needed candidates tier).argmin Entry.rank := by
      refine Option.ext fun v => ?_
      rw [← Option.mem_def, ← Option.mem_def, argmin_eligible, argmin_eligible]
      simp only [hsame]
    rw [evict_eq hothers, evict_eq hpool, hfirst]

def tiedPlane : Plane where
  entries := [.admitted ⟨0, 2⟩ .cacheable 8 none, .admitted ⟨0, 1⟩ .cacheable 8 none]
  cells _ := none
  validationSequence := 0

/-- Among equal scores the smaller identifier goes, whatever the order of the table. -/
theorem evict_best_tie :
    outcome (evict (fun _ => false) none [⟨0, 1⟩, ⟨0, 2⟩] (some .l1)) tiedPlane = .ok ⟨0, 1⟩ ∧
    evict (fun _ => false) none [⟨0, 2⟩, ⟨0, 1⟩] (some .l1) tiedPlane =
      evict (fun _ => false) none [⟨0, 1⟩, ⟨0, 2⟩] (some .l1) tiedPlane := by
  have hpool : tiedPlane.Pool [⟨0, 1⟩, ⟨0, 2⟩] .l1 :=
    ⟨nofun, by decide, by decide, by decide, by decide⟩
  exact ⟨by decide +kernel, (evict_best tiedPlane _ _ _ hpool).2.1 _ (.swap ..)⟩

end Anunix.Memory
