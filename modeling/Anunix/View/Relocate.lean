import Anunix.View.Layout

/-!
# Relocation of the records of a pool

The loop of `anx_resource_pool_compact` copies the live records one behind the other to new pages.
`Moved` says what it makes of the records: the live ones keep everything but their offset, and their
bytes stand at the new one; the others are gone.
-/

namespace Anunix.View
open Paged Region

section Moved

variable (mem : Nat → Nat → UInt8) (pages : List Nat) (mem' : Nat → Nat → UInt8) (dest : List Nat)

/-- The records of a table, from an offset on, with their bytes at their new place. -/
inductive Moved : Nat → List (Option Record) → List (Option Record) → Prop
  | nil (cursor : Nat) : Moved cursor [] []
  | drop {cursor : Nat} {o : Option Record} {records moved : List (Option Record)}
      (dead : ∀ r, o = some r → r.refs = 0) (rest : Moved cursor records moved) :
      Moved cursor (o :: records) (none :: moved)
  | keep {cursor : Nat} {r : Record} {records moved : List (Option Record)} (live : r.refs ≠ 0)
      (bytes : load (flat pageSize mem' dest) cursor r.size =
        load (flat pageSize mem pages) r.offset r.size)
      (rest : Moved (cursor + r.size) records moved) :
      Moved cursor (some r :: records) (some { r with offset := cursor } :: moved)

end Moved

variable {mem mem' : Nat → Nat → UInt8} {pages dest : List Nat} {cursor : Nat}
  {records moved : List (Option Record)}

section Facts

variable {i : Nat} {r q : Record}

lemma liveBytes_cons_dead {o : Option Record} (h : ∀ r, o = some r → r.refs = 0) :
    liveBytes (o :: records) = liveBytes records := by
  cases o with
  | none => simp [liveBytes, Slots.total]
  | some r => simp [liveBytes, Slots.total, h r rfl]

lemma liveBytes_cons_live (h : r.refs ≠ 0) :
    liveBytes (some r :: records) = r.size + liveBytes records := by
  simp [liveBytes, Slots.total, h]

variable (h : Moved mem pages mem' dest cursor records moved)

include h

lemma Moved.get (hq : Slots.get moved i = some q) :
    cursor ≤ q.offset ∧ q.offset + q.size ≤ cursor + liveBytes records ∧ q.refs ≠ 0 ∧
      ∃ r, Slots.get records i = some r ∧ q = { r with offset := q.offset } ∧
        load (flat pageSize mem' dest) q.offset q.size =
          load (flat pageSize mem pages) r.offset r.size := by
  induction h generalizing i with
  | nil cursor => cases hq
  | @drop cursor o records moved dead rest ih =>
    cases i with
    | zero => cases hq
    | succ i =>
      rw [liveBytes_cons_dead dead]
      exact ih hq
  | @keep cursor r records moved live bytes rest ih =>
    rw [liveBytes_cons_live live]
    cases i with
    | zero =>
      cases hq
      have hend : cursor + r.size ≤ cursor + (r.size + liveBytes records) := by omega
      exact ⟨Nat.le_refl _, hend, live, r, rfl, rfl, bytes⟩
    | succ i =>
      obtain ⟨hl, hr, hlive, hold⟩ := ih hq
      exact ⟨by omega, by omega, hlive, hold⟩

lemma Moved.exists (hr : Slots.get records i = some r)
    (hlive : r.refs ≠ 0) : ∃ q, Slots.get moved i = some q := by
  induction h generalizing i with
  | nil cursor => cases hr
  | @drop cursor o records moved dead rest ih =>
    cases i with
    | zero => exact absurd (dead r hr) hlive
    | succ i =>
      exact ih hr
  | @keep cursor u records moved live bytes rest ih =>
    cases i with
    | zero => exact ⟨_, rfl⟩
    | succ i =>
      exact ih hr

lemma Moved.apart {j : Nat} {u : Record} (hij : i < j)
    (hq : Slots.get moved i = some q) (hu : Slots.get moved j = some u) : q.Apart u := by
  induction h generalizing i j with
  | nil cursor => cases hq
  | @drop cursor o records moved dead rest ih =>
    cases i with
    | zero => cases hq
    | succ i =>
      obtain ⟨j, rfl⟩ :=
        Nat.exists_eq_succ_of_ne_zero (Nat.ne_of_gt (Nat.lt_of_le_of_lt (Nat.zero_le _) hij))
      exact ih (Nat.lt_of_succ_lt_succ hij) hq hu
  | @keep cursor r records moved live bytes rest ih =>
    obtain ⟨j, rfl⟩ :=
      Nat.exists_eq_succ_of_ne_zero (Nat.ne_of_gt (Nat.lt_of_le_of_lt (Nat.zero_le _) hij))
    cases i with
    | zero =>
      cases hq
      exact Or.inl (rest.get hu).1
    | succ i => exact ih (Nat.lt_of_succ_lt_succ hij) hq hu

lemma Moved.liveBytes_eq : liveBytes moved = liveBytes records := by
  induction h with
  | nil cursor => rfl
  | @drop cursor o records moved dead rest ih =>
    rw [liveBytes_cons_dead dead, liveBytes_cons_dead (by simp), ih]
  | @keep cursor r records moved live bytes rest ih =>
    have hkept : liveBytes (some { r with offset := cursor } :: moved) = r.size + liveBytes moved :=
      liveBytes_cons_live live
    rw [hkept, liveBytes_cons_live live, ih]

lemma Moved.of_agree {mem'' : Nat → Nat → UInt8}
    (hsrc : flat pageSize mem'' pages = flat pageSize mem pages) :
    Moved mem'' pages mem' dest cursor records moved := by
  induction h with
  | nil cursor => exact .nil cursor
  | drop dead rest ih => exact .drop dead ih
  | keep live bytes rest ih => exact .keep live (by rw [hsrc]; exact bytes) ih

end Facts

section Loop

variable {sha256 : List UInt8 → List UInt8}

/-- The loop moves all live records when their digests are those of their bytes. It writes the new
pages only, from its offset on. -/
lemma relocate_moved (hnodup : dest.Nodup) (hapart : ∀ x ∈ pages, x ∉ dest)
    (hroom : cursor + liveBytes records ≤ pageSize * dest.length)
    (hdigest : ∀ i r, Slots.get records i = some r → r.refs ≠ 0 →
      r.digest = sha256 (load (flat pageSize mem pages) r.offset r.size)) :
    ∃ mem' moved, relocate sha256 pages dest mem cursor records = (mem', some moved) ∧
      Moved mem pages mem' dest cursor records moved ∧ (∀ x, x ∉ dest → mem' x = mem x) ∧
      ∀ i < cursor, flat pageSize mem' dest i = flat pageSize mem dest i := by
  induction records generalizing mem cursor with
  | nil => exact ⟨mem, [], rfl, .nil cursor, fun _ _ => rfl, fun _ _ => rfl⟩
  | cons o records ih =>
    have hrest : ∀ i r, Slots.get records i = some r → r.refs ≠ 0 →
        r.digest = sha256 (load (flat pageSize mem pages) r.offset r.size) := by
      intro i r hr
      exact hdigest (i + 1) r (by rw [Slots.get_cons_succ, hr])
    by_cases hdead : ∀ r, o = some r → r.refs = 0
    · -- nothing to copy
      rw [liveBytes_cons_dead hdead] at hroom
      obtain ⟨mem', moved, hloop, hmoved, hother, hbelow⟩ := ih hroom hrest
      refine ⟨mem', none :: moved, ?_, .drop hdead hmoved, hother, hbelow⟩
      cases o with
      | none => simp only [relocate, hloop, Option.map_some]
      | some r => simp only [relocate, hdead r rfl, if_true, hloop, Option.map_some]
    · obtain ⟨r, rfl, hlive⟩ : ∃ r, o = some r ∧ r.refs ≠ 0 := by
        by_contra hnone
        exact hdead fun r hr => by_contra fun hne => hnone ⟨r, hr, hne⟩
      rw [liveBytes_cons_live hlive] at hroom
      -- the copy of this record
      let mem1 := copyBetween pageSize mem pages r.offset dest cursor r.size
      have hsrc : flat pageSize mem1 pages = flat pageSize mem pages :=
        flat_congr fun x hx => copyBetween_of_notMem (hapart x hx)
      have hdst : flat pageSize mem1 dest = store (flat pageSize mem dest) cursor
          (load (flat pageSize mem pages) r.offset r.size) :=
        flat_copyBetween hnodup hapart (by omega)
      have hlen : (load (flat pageSize mem pages) r.offset r.size).length = r.size := length_load
      have hcopy : load (flat pageSize mem1 dest) cursor r.size =
          load (flat pageSize mem pages) r.offset r.size := by
        rw [hdst]
        nth_rewrite 2 [← hlen]
        exact load_store_self
      have hsum : recordDigest sha256 mem1 dest cursor r.size = r.digest := by
        rw [recordDigest, copyOut, copyOut_eq, hcopy]
        exact (hdigest 0 r rfl hlive).symm
      -- the copies behind it
      obtain ⟨mem', moved, hloop, hmoved, hother, hbelow⟩ :=
        @ih mem1 (cursor + r.size) (by omega) (by rw [hsrc]; exact hrest)
      refine ⟨mem', some { r with offset := cursor } :: moved, ?_, ?_, ?_, ?_⟩
      · simp only [relocate, hlive, if_false]
        rw [if_neg (not_not.mpr hsum), hloop, Option.map_some]
      · refine .keep hlive ?_ (hmoved.of_agree hsrc.symm)
        rw [← hcopy]
        apply load_congr
        intro x _ hx
        exact hbelow x hx
      · intro x hx
        rw [hother x hx]
        exact copyBetween_of_notMem hx
      · intro x hx
        rw [hbelow x (by omega), hdst, store_of_lt hx]

end Loop

section Compacted

variable {p : Pool} {sha256 : List UInt8 → List UInt8} {expected : Expected}

def Pool.compacted (p : Pool) (dest : List Nat) (moved : List (Option Record)) : Pool :=
  { p with pages := dest, tail := liveBytes p.records, records := moved }

lemma Pool.Laid.compacted (h : p.Laid) (hmoved : Moved mem p.pages mem' dest 0 p.records moved)
    (hpages : dest.length = pagesFor (liveBytes p.records)) : (p.compacted dest moved).Laid := by
  refine ⟨hpages, Nat.le_trans h.live h.fits, ?_, ?_, ?_, ?_⟩
  · intro i q hq
    obtain ⟨-, -, -, r, hr, hsame, -⟩ := hmoved.get hq
    have hrefs : q.refs = r.refs := by
      rw [hsame]
    rw [hrefs]
    exact h.refs i r hr
  · intro i q hq _
    have hend := (hmoved.get hq).2.1
    rwa [Nat.zero_add] at hend
  · intro i j q u hij hq hu _ _
    rcases Nat.lt_or_gt_of_ne hij with hlt | hgt
    · exact hmoved.apart hlt hq hu
    · exact (hmoved.apart hgt hu hq).symm
  · exact Nat.le_of_eq hmoved.liveBytes_eq

lemma Pool.Holds.compacted (h : p.Holds sha256 expected mem) (hlaid : p.Laid)
    (hmoved : Moved mem p.pages mem' dest 0 p.records moved) :
    (p.compacted dest moved).Holds sha256 expected mem' := by
  constructor
  · intro i q hq hlive
    obtain ⟨-, -, -, r, hr, hsame, hbytes⟩ := hmoved.get hq
    have hdigest := h.digest i r hr (by rw [hsame] at hlive; exact hlive)
    have heq : q.digest = r.digest := by
      rw [hsame]
    rw [heq, hdigest]
    exact congrArg sha256 hbytes.symm
  · intro a ha
    obtain ⟨r, hr, hb⟩ := h.aliased a ha
    obtain ⟨q, hq⟩ := hmoved.exists hr (hlaid.refs_ne_zero ha hr)
    obtain ⟨-, -, -, r', hr', -, hbytes⟩ := hmoved.get hq
    rw [hr] at hr'
    cases hr'
    refine ⟨q, hq, ?_⟩
    rw [hb]
    exact congrArg some hbytes.symm

end Compacted

end Anunix.View
