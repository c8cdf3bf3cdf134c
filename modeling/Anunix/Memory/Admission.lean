import Anunix.Lib.Tally
import Anunix.Memory.Memplane

/-!
# Conservation of admission and protection of tiers

What a call can do to the plane is one of five changes (`Change`): entries are rewritten in place,
an entry is admitted and charged, an entry is deleted and its charge given back, a cell comes or
goes. Each keeps the accounts of the cells (`Plane.Sound`) and the tiers that are protected or
needed (`Plane.Keeps`).
-/

namespace Anunix.Memory
open Fallible Route Function List Tally

variable {needed : Uuid → Bool} {s s' : Plane} {e e' : Entry} {cid oid : Uuid}

/-! ## Accounts -/

def chargedBytes (entries : List Entry) (cid : Uuid) : Nat :=
  sum (fun e => e.admissionOwner = some cid) Entry.admittedBytes entries

def chargedCount (entries : List Entry) (cid : Uuid) : Nat :=
  sum (fun e => e.admissionOwner = some cid) (fun _ => 1) entries

structure Cell.Agrees (cell : Cell) (entries : List Entry) (cid : Uuid) : Prop where
  bytes : cell.memoryAdmittedBytes = chargedBytes entries cid
  count : cell.memoryAdmissionCount = chargedCount entries cid
  limit : cell.memoryAdmittedBytes ≤ cell.maxMemoryAdmissionBytes

def Entry.Placed (e : Entry) : Prop :=
  Mask.members e.protectedTiers ⊆ Mask.members e.tierMask

/-- The accounts are right, and protection is of tiers that the entries are in. -/
structure Plane.Sound (s : Plane) : Prop where
  keys : (s.entries.map Entry.oid).Nodup
  placed : ∀ e ∈ s.entries, e.Placed
  owners : ∀ e ∈ s.entries, ∀ cid, e.admissionOwner = some cid → (s.cells cid).isSome = true
  agrees : ∀ cid cell, s.cells cid = some cell → cell.Agrees s.entries cid

/-- A tier that must stay: it is protected, or a workflow needs the object. -/
def Entry.Held (needed : Uuid → Bool) (e : Entry) (tier : Nat) : Prop :=
  tier ∈ Mask.members e.tierMask ∧ (tier ∈ Mask.members e.protectedTiers ∨ needed e.oid = true)

def Plane.Keeps (needed : Uuid → Bool) (s s' : Plane) : Prop :=
  ∀ e ∈ s.entries, ∀ tier, e.Held needed tier →
    ∃ e' ∈ s'.entries, e'.oid = e.oid ∧ tier ∈ Mask.members e'.tierMask

/-! ## What a call can change -/

structure Entry.Kept (needed : Uuid → Bool) (e e' : Entry) : Prop where
  oid : e'.oid = e.oid
  bytes : e'.admittedBytes = e.admittedBytes
  owner : e'.admissionOwner = e.admissionOwner
  placed : e.Placed → e'.Placed
  tiers : ∀ tier, e.Held needed tier → tier ∈ Mask.members e'.tierMask

lemma Entry.Kept.refl (e : Entry) : e.Kept needed e :=
  ⟨rfl, rfl, rfl, id, fun _ h => h.1⟩

lemma Entry.Kept.of_eq (hoid : e'.oid = e.oid) (hbytes : e'.admittedBytes = e.admittedBytes)
    (howner : e'.admissionOwner = e.admissionOwner) (hmask : e'.tierMask = e.tierMask)
    (hprotected : e'.protectedTiers = e.protectedTiers) : e.Kept needed e' := by
  refine ⟨hoid, hbytes, howner, fun h => ?_, fun tier h => ?_⟩
  · unfold Entry.Placed
    rw [hmask, hprotected]
    exact h
  · rw [hmask]
    exact h.1

inductive Change (needed : Uuid → Bool) (s s' : Plane) : Prop
  | rewrite (entries : List.Forall₂ (Entry.Kept needed) s.entries s'.entries)
      (cells : s'.cells = s.cells)
  | enter (e : Entry) (fresh : s.lookup e.oid = none) (placed : e.Placed)
      (entries : s'.entries = e :: s.entries) (free : e.admissionOwner = none → s'.cells = s.cells)
      (charged : ∀ cid, e.admissionOwner = some cid → ∃ cell, s.cells cid = some cell ∧
        cell.memoryAdmittedBytes + e.admittedBytes ≤ cell.maxMemoryAdmissionBytes ∧
        s'.cells = update s.cells cid (some { cell with
          memoryAdmittedBytes := cell.memoryAdmittedBytes + e.admittedBytes
          memoryAdmissionCount := cell.memoryAdmissionCount + 1 }))
  | delete (e : Entry) (found : s.lookup e.oid = some e) (loose : ∀ tier, ¬e.Held needed tier)
      (entries : s'.entries = Keyed.erase Entry.oid s.entries e.oid)
      (free : e.admissionOwner = none → s'.cells = s.cells)
      (refunded : ∀ cid, e.admissionOwner = some cid → ∃ cell, s.cells cid = some cell ∧
        s'.cells = update s.cells cid (some { cell with
          memoryAdmittedBytes := cell.memoryAdmittedBytes - e.admittedBytes
          memoryAdmissionCount := cell.memoryAdmissionCount - 1 }))
  | create (cid : Uuid) (limit : Nat) (fresh : s.cells cid = none)
      (entries : s'.entries = s.entries)
      (cells : s'.cells = update s.cells cid (some ⟨limit, 0, 0⟩))
  | destroy (cid : Uuid) (cell : Cell) (found : s.cells cid = some cell)
      (unused : cell.memoryAdmissionCount = 0)
      (entries : s'.entries = s.entries) (cells : s'.cells = update s.cells cid none)

lemma forall₂_kept_refl (l : List Entry) : List.Forall₂ (Entry.Kept needed) l l :=
  forall₂_same.mpr fun e _ => .refl e

@[refl]
lemma Change.refl (s : Plane) : Change needed s s :=
  .rewrite (forall₂_kept_refl s.entries) rfl

instance : Covered (Change needed s s) :=
  ⟨.refl s⟩

lemma forall₂_kept_update {l : List Entry} (hfind : Keyed.lookup Entry.oid l e'.oid = some e)
    (hkept : e.Kept needed e') :
    List.Forall₂ (Entry.Kept needed) l (Keyed.update Entry.oid l e') := by
  induction l with
  | nil => cases hfind
  | cons b l ih =>
    rw [Keyed.lookup_cons] at hfind
    rw [Keyed.update]
    by_cases hb : b.oid = e'.oid
    · rw [if_pos hb] at hfind
      cases hfind
      rw [if_pos hb]
      exact .cons hkept (forall₂_kept_refl l)
    · rw [if_neg hb] at hfind
      rw [if_neg hb]
      exact .cons (.refl b) (ih hfind)

lemma Change.write (hfind : s.lookup oid = some e) (hkept : e.Kept needed e') :
    Change needed s (s.write e') := by
  have hoid : e.oid = oid := Keyed.lookup_key hfind
  refine .rewrite (forall₂_kept_update ?_ hkept) rfl
  rw [hkept.oid, hoid]
  exact hfind

/-! ## Each change keeps the accounts -/

section Sound

variable {l l' : List Entry} {cells : Uuid → Option Cell} {cell : Cell} {o : Option Cell}

lemma chargedBytes_cons : chargedBytes (e :: l) cid =
    (if e.admissionOwner = some cid then e.admittedBytes else 0) + chargedBytes l cid := by
  unfold chargedBytes
  simp

lemma chargedCount_cons : chargedCount (e :: l) cid =
    (if e.admissionOwner = some cid then 1 else 0) + chargedCount l cid := by
  unfold chargedCount
  simp

lemma sum_kept (h : List.Forall₂ (Entry.Kept needed) l l') (cid : Uuid) :
    chargedBytes l' cid = chargedBytes l cid ∧ chargedCount l' cid = chargedCount l cid := by
  induction h with
  | nil => exact ⟨rfl, rfl⟩
  | @cons b b' l l' hb _ ih =>
    obtain ⟨hbytes, hcount⟩ := ih
    rw [chargedBytes_cons, chargedBytes_cons, chargedCount_cons, chargedCount_cons, hbytes, hcount,
      hb.owner, hb.bytes]
    exact ⟨rfl, rfl⟩

lemma map_oid_kept (h : List.Forall₂ (Entry.Kept needed) l l') :
    l'.map Entry.oid = l.map Entry.oid := by
  induction h with
  | nil => rfl
  | cons hb _ ih => rw [map_cons, map_cons, ih, hb.oid]

lemma exists_of_forall₂ {α : Type*} {R : α → α → Prop} {l l' : List α} {a : α}
    (h : List.Forall₂ R l l') (ha : a ∈ l) : ∃ b ∈ l', R a b := by
  obtain ⟨i, hi, rfl⟩ := mem_iff_getElem.mp ha
  have hi' : i < l'.length := h.length_eq ▸ hi
  exact ⟨l'[i], getElem_mem hi', h.get hi hi'⟩

lemma charged_eq_zero {f : Entry → Nat} (h : ∀ e ∈ s.entries, e.admissionOwner ≠ some cid) :
    sum (fun e => e.admissionOwner = some cid) f s.entries = 0 :=
  sum_eq_zero fun e he howner => absurd (of_decide_eq_true howner) (h e he)

lemma chargedCount_pos (he : e ∈ s.entries) (howner : e.admissionOwner = some cid) :
    0 < chargedCount s.entries cid := by
  obtain ⟨before, behind, heq⟩ := append_of_mem he
  unfold chargedCount
  rw [heq, sum_append, sum_cons, if_pos (decide_eq_true howner)]
  omega

lemma isSome_update {c c' : Uuid} (h : (cells c').isSome = true) :
    (update cells c (some cell) c').isSome = true := by
  by_cases hc : c' = c
  · subst hc
    rw [update_self]
    rfl
  · rw [update_of_ne hc]
    exact h

lemma Cell.Agrees.perm (h : cell.Agrees l cid) (hperm : l.Perm l') : cell.Agrees l' cid :=
  ⟨h.bytes.trans (sum_perm hperm), h.count.trans (sum_perm hperm), h.limit⟩

lemma Cell.agrees_cons (hnot : e.admissionOwner ≠ some cid) :
    cell.Agrees (e :: l) cid ↔ cell.Agrees l cid := by
  have hbytes : chargedBytes (e :: l) cid = chargedBytes l cid := by
    rw [chargedBytes_cons, if_neg hnot, Nat.zero_add]
  have hcount : chargedCount (e :: l) cid = chargedCount l cid := by
    rw [chargedCount_cons, if_neg hnot, Nat.zero_add]
  constructor
  · exact fun h => ⟨h.bytes.trans hbytes, h.count.trans hcount, h.limit⟩
  · exact fun h => ⟨h.bytes.trans hbytes.symm, h.count.trans hcount.symm, h.limit⟩

lemma Cell.Agrees.charge (h : cell.Agrees l cid) (howner : e.admissionOwner = some cid)
    (hfits : cell.memoryAdmittedBytes + e.admittedBytes ≤ cell.maxMemoryAdmissionBytes) :
    Cell.Agrees { cell with
      memoryAdmittedBytes := cell.memoryAdmittedBytes + e.admittedBytes
      memoryAdmissionCount := cell.memoryAdmissionCount + 1 } (e :: l) cid := by
  refine ⟨?_, ?_, hfits⟩
  · rw [chargedBytes_cons, if_pos howner, ← h.bytes]
    exact Nat.add_comm _ _
  · rw [chargedCount_cons, if_pos howner, ← h.count]
    exact Nat.add_comm _ _

lemma Cell.Agrees.refund (h : cell.Agrees (e :: l) cid) (howner : e.admissionOwner = some cid) :
    Cell.Agrees { cell with
      memoryAdmittedBytes := cell.memoryAdmittedBytes - e.admittedBytes
      memoryAdmissionCount := cell.memoryAdmissionCount - 1 } l cid := by
  refine ⟨?_, ?_, Nat.le_trans (Nat.sub_le _ _) h.limit⟩
  · rw [h.bytes, chargedBytes_cons, if_pos howner]
    exact Nat.add_sub_cancel_left _ _
  · rw [h.count, chargedCount_cons, if_pos howner]
    exact Nat.add_sub_cancel_left _ _

lemma agrees_update (hself : ∀ cell, o = some cell → cell.Agrees l cid)
    (hother : ∀ c cell, c ≠ cid → cells c = some cell → cell.Agrees l c) (c : Uuid) (cell : Cell)
    (h : update cells cid o c = some cell) : cell.Agrees l c := by
  by_cases hc : c = cid
  · subst hc
    rw [update_self] at h
    exact hself cell h
  · rw [update_of_ne hc] at h
    exact hother c cell hc h

lemma Plane.Sound.rewrite (h : s.Sound)
    (entries : List.Forall₂ (Entry.Kept needed) s.entries s'.entries)
    (cells : s'.cells = s.cells) : s'.Sound := by
  refine ⟨?_, ?_, ?_, ?_⟩
  · rw [map_oid_kept entries]
    exact h.keys
  · intro e' he'
    obtain ⟨e, he, hkept⟩ := exists_of_forall₂ entries.flip he'
    exact hkept.placed (h.placed e he)
  · intro e' he' cid howner
    obtain ⟨e, he, hkept⟩ := exists_of_forall₂ entries.flip he'
    rw [hkept.owner] at howner
    rw [cells]
    exact h.owners e he cid howner
  · intro cid cell hcell
    rw [cells] at hcell
    have hagrees := h.agrees cid cell hcell
    obtain ⟨hbytes, hcount⟩ := sum_kept entries cid
    exact ⟨hagrees.bytes.trans hbytes.symm, hagrees.count.trans hcount.symm, hagrees.limit⟩

lemma Plane.Sound.enter (h : s.Sound) (fresh : s.lookup e.oid = none) (placed : e.Placed)
    (entries : s'.entries = e :: s.entries)
    (owners : ∀ cid, (s.cells cid).isSome = true → (s'.cells cid).isSome = true)
    (owner : ∀ cid, e.admissionOwner = some cid → (s.cells cid).isSome = true)
    (agrees : ∀ cid cell, s'.cells cid = some cell → cell.Agrees (e :: s.entries) cid) :
    s'.Sound := by
  have hnew : e.oid ∉ s.entries.map Entry.oid := by
    intro hmem
    obtain ⟨b, hb, heq⟩ := mem_map.mp hmem
    have hnone := find?_eq_none.mp fresh b hb
    exact hnone (decide_eq_true heq)
  refine ⟨?_, ?_, ?_, entries ▸ agrees⟩
  · rw [entries]
    exact nodup_cons.mpr ⟨hnew, h.keys⟩
  · rw [entries]
    exact forall_mem_cons.mpr ⟨placed, h.placed⟩
  · intro b hb cid howner
    rw [entries] at hb
    exact owners cid (forall_mem_cons.mpr ⟨owner, h.owners⟩ b hb cid howner)

lemma Plane.Sound.change (h : s.Sound) (hchange : Change needed s s') : s'.Sound := by
  cases hchange with
  | rewrite entries cells => exact h.rewrite entries cells
  | enter e fresh placed entries free charged =>
    cases hown : e.admissionOwner with
    | none =>
      have hnot : ∀ cid, e.admissionOwner ≠ some cid := fun cid heq => nomatch hown.symm.trans heq
      refine h.enter fresh placed entries ?_ (fun cid heq => absurd heq (hnot cid)) ?_
      · rw [free hown]
        exact fun _ hsome => hsome
      · rw [free hown]
        exact fun cid cell hcell => (Cell.agrees_cons (hnot cid)).mpr (h.agrees cid cell hcell)
    | some payer =>
      obtain ⟨old, hold, hfits, hcells⟩ := charged payer hown
      refine h.enter fresh placed entries ?_ ?_ ?_
      · intro cid hsome
        rw [hcells]
        exact isSome_update hsome
      · intro cid howner
        rw [hown] at howner
        cases howner
        rw [hold]
        rfl
      · rw [hcells]
        refine agrees_update ?_ fun c cell hne hcell =>
          (Cell.agrees_cons fun heq => hne ?_).mpr (h.agrees c cell hcell)
        · rintro _ ⟨⟩
          exact (h.agrees payer old hold).charge hown hfits
        · exact Option.some.inj (heq.symm.trans hown)
  | delete e found loose entries free refunded =>
    have hmem : ∀ b ∈ s'.entries, b ∈ s.entries := by
      intro b hb
      rw [entries] at hb
      exact Keyed.mem_of_mem_erase hb
    refine ⟨?_, fun b hb => h.placed b (hmem b hb), ?_, ?_⟩
    · rw [entries]
      exact Keyed.nodup_erase h.keys
    · intro b hb cid howner
      have hsome := h.owners b (hmem b hb) cid howner
      cases hown : e.admissionOwner with
      | none =>
        rw [free hown]
        exact hsome
      | some payer =>
        obtain ⟨cell, -, hcells⟩ := refunded payer hown
        rw [hcells]
        exact isSome_update hsome
    · have hagrees {cid cell} hcell := (h.agrees cid cell hcell).perm (Keyed.perm_erase found)
      rw [entries]
      cases hown : e.admissionOwner with
      | none =>
        have hnot : ∀ cid, e.admissionOwner ≠ some cid := fun cid heq => nomatch hown.symm.trans heq
        rw [free hown]
        exact fun cid cell hcell => (Cell.agrees_cons (hnot cid)).mp (hagrees hcell)
      | some payer =>
        obtain ⟨old, hold, hcells⟩ := refunded payer hown
        rw [hcells]
        refine agrees_update ?_ fun c cell hne hcell =>
          (Cell.agrees_cons fun heq => hne ?_).mp (hagrees hcell)
        · rintro _ ⟨⟩
          exact (hagrees hold).refund hown
        · exact Option.some.inj (heq.symm.trans hown)
  | create cid limit fresh entries cells =>
    have hnone : ∀ e ∈ s.entries, e.admissionOwner ≠ some cid := by
      intro e he howner
      have hsome := h.owners e he cid howner
      rw [fresh] at hsome
      cases hsome
    refine ⟨entries ▸ h.keys, entries ▸ h.placed, ?_, ?_⟩
    · intro e he c howner
      rw [entries] at he
      rw [cells]
      exact isSome_update (h.owners e he c howner)
    · rw [cells, entries]
      refine agrees_update ?_ fun c cell _ => h.agrees c cell
      rintro _ ⟨⟩
      exact ⟨(charged_eq_zero hnone).symm, (charged_eq_zero hnone).symm, Nat.zero_le _⟩
  | destroy cid cell found unused entries cells =>
    refine ⟨entries ▸ h.keys, entries ▸ h.placed, ?_, ?_⟩
    · intro e he c howner
      rw [entries] at he
      have hsome := h.owners e he c howner
      have hne : c ≠ cid := by
        intro heq
        subst heq
        have hpos := chargedCount_pos he howner
        have hcount := (h.agrees c cell found).count
        omega
      rw [cells, update_of_ne hne]
      exact hsome
    · rw [cells, entries]
      exact agrees_update nofun fun c cell _ => h.agrees c cell

lemma Change.keeps (hchange : Change needed s s') : s.Keeps needed s' := by
  intro e he tier hheld
  cases hchange with
  | rewrite entries cells =>
    obtain ⟨e', he', hkept⟩ := exists_of_forall₂ entries he
    exact ⟨e', he', hkept.oid, hkept.tiers tier hheld⟩
  | enter new fresh placed entries free charged =>
    rw [entries]
    exact ⟨e, mem_cons_of_mem new he, rfl, hheld.1⟩
  | delete gone found loose entries free refunded =>
    rw [entries]
    cases mem_cons.mp ((Keyed.perm_erase found).mem_iff.mp he) with
    | inl heq =>
      rw [heq] at hheld
      exact absurd hheld (loose tier)
    | inr hmem => exact ⟨e, hmem, rfl, hheld.1⟩
  | create cid limit fresh entries cells | destroy cid cell found unused entries cells =>
    rw [entries]
    exact ⟨e, he, rfl, hheld.1⟩

end Sound

end Anunix.Memory
