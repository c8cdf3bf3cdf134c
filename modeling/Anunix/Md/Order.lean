import Anunix.Md.Assembly

/-!
# When the order of devices does not matter

An assembly comes out the same for every order of the devices, with the newest metadata, exactly if
the candidates with the highest event counter are each alone in their slot and agree on the rebuild
point, and no more candidates turn up than an array has members (`assembly_orderFree`). An older
member that comes first otherwise keeps a newer one out (`assembly_keeps_older`).
-/

namespace Anunix.Md
open Fallible List

/-- A candidate that has not failed, with the highest event counter of all such. -/
structure Top (l : List Candidate) (c : Candidate) : Prop where
  mem : c ∈ l
  sound : c.Sound
  le : ∀ c' ∈ l, c'.Sound → c'.sb.events ≤ c.sb.events

/-- The newest candidates have no rival for their slot. -/
def Alone (l : List Candidate) : Prop :=
  ∀ c, Top l c → ∀ c' ∈ l, c'.Sound → c'.sb.memberIndex = c.sb.memberIndex → c' = c

/-- The newest candidates agree on the rebuild point, and so do all when no event was ever
counted. -/
def Agree (l : List Candidate) : Prop :=
  ∀ c, Top l c → (∀ c', Top l c' → c'.sb.resyncOffset = c.sb.resyncOffset) ∧
    (c.sb.events = 0 → ∀ c' ∈ l, c'.sb.resyncOffset = c.sb.resyncOffset)

/-- Some order of the candidates gives an array that can run: a stripe needs a candidate of one
event counter for every slot, a mirror one that has not failed. -/
def Startable (level count : UInt32) (l : List Candidate) : Prop :=
  match Level.ofCode level with
  | .raid0 => ∃ e, ∀ i < count.toNat, ∃ c ∈ l, c.Sound ∧ c.sb.memberIndex.toNat = i ∧
      c.sb.events = e
  | .raid1 => ∃ c ∈ l, c.Sound

/-- The assembly comes out the same whatever the order, and what it keeps has the highest event
counter of the candidates that have not failed. -/
structure OrderFree (m : Machine) (l : List Candidate) : Prop where
  same : ∀ l', l'.Perm l → assemblyOf m l' = assemblyOf m l
  newest : ∀ l', l'.Perm l → ∀ v, assemblyOf m l' = .ok v → ∀ i d s e, v.slot i = some (d, s, e) →
    ∃ c ∈ l, c.Sound ∧ c.dev = d ∧ c.sb.events = e ∧ ∀ c' ∈ l, c'.Sound → c'.sb.events ≤ e

section Order

variable {m : Machine} {level count : UInt32} {sectors : UInt64} {l l' : List Candidate} {i : Nat}
  {c c' : Candidate} {f : Nat → Candidate}

lemma exists_top (h : c ∈ l) (hs : c.Sound) : ∃ c', Top l c' := by
  obtain ⟨t, ⟨hmem, hsound⟩, hmax⟩ := Set.exists_max_image {c | c ∈ l ∧ c.Sound}
    (fun c => c.sb.events.toNat) (l.finite_toSet.subset fun _ h => h.1) ⟨c, h, hs⟩
  exact ⟨t, hmem, hsound, fun c' hc' hs' => UInt64.le_iff_toNat_le.mpr (hmax c' ⟨hc', hs'⟩)⟩

lemma Top.perm (h : Top l c) (hp : l'.Perm l) : Top l' c :=
  ⟨hp.mem_iff.mpr h.mem, h.sound, fun c' hc' => h.le c' (hp.mem_iff.mp hc')⟩

lemma Described.events_eq (h : Described level count sectors l) (ht : Top l c)
    (hfirst : firstFor (group l) i = some c) : (gathered l).events = c.sb.events := by
  obtain ⟨ref, arr, -, hplaced, hgathered⟩ := h.placed
  rw [hgathered]
  show arr.events = c.sb.events
  apply UInt64.le_antisymm
  · rcases hplaced.newest with ⟨hzero, -⟩ | ⟨j, c', hfirst', hevents, -⟩
    · rw [hzero]
      exact UInt64.zero_le
    · obtain ⟨hmem, hsound, -⟩ := firstFor_eq_some hfirst'
      rw [← hevents]
      exact ht.le c' (mem_of_mem_take hmem) hsound
  · exact hplaced.le i c hfirst

lemma Alone.takes (h : Alone l) (ht : Top l c) (hp : l'.Perm l) (hlen : l.length ≤ maxMembers) :
    firstFor (group l') c.sb.memberIndex.toNat = some c := by
  have hgroup : group l' = l' := take_of_length_le (hp.length_eq ▸ hlen)
  rw [hgroup]
  cases hfirst : firstFor l' c.sb.memberIndex.toNat with
  | none =>
    have hno := find?_eq_none.mp hfirst c (hp.mem_iff.mpr ht.mem)
    exact absurd (Candidate.fits_iff.mpr ⟨ht.sound, rfl⟩) hno
  | some c' =>
    obtain ⟨hmem, hsound, hindex⟩ := firstFor_eq_some hfirst
    rw [h c ht c' (hp.mem_iff.mp hmem) hsound (UInt32.toNat_inj.mp hindex)]

lemma Alone.slot_eq_some (h : Alone l) (hd : Described level count sectors l) (hp : l'.Perm l)
    (hlen : l.length ≤ maxMembers) {x : DevId × MemberState × UInt64} :
    (gathered l').view.slot i = some x ↔ ∃ c, Top l c ∧ c.sb.memberIndex.toNat = i ∧
      x = (c.dev, MemberState.ofCode c.sb.memberState, c.sb.events) := by
  have hd' := hd.perm hp
  rw [hd'.slot_eq_some]
  constructor
  · rintro ⟨c, hfirst, hevents, hx⟩
    obtain ⟨hmem, hsound, hindex⟩ := firstFor_eq_some hfirst
    have hmem : c ∈ l := hp.mem_iff.mp (mem_of_mem_take hmem)
    obtain ⟨t, ht⟩ := exists_top hmem hsound
    have htop := hd'.events_eq (ht.perm hp) (h.takes ht hp hlen)
    refine ⟨c, ⟨hmem, hsound, fun c' hc' hs' => ?_⟩, hindex, hx⟩
    rw [hevents, htop]
    exact ht.le c' hc' hs'
  · rintro ⟨c, ht, rfl, hx⟩
    have hfirst := h.takes ht hp hlen
    exact ⟨c, hfirst, (hd'.events_eq (ht.perm hp) hfirst).symm, hx⟩

lemma Alone.resync_eq (h : Alone l) (hagree : Agree l) (hd : Described level count sectors l)
    (hp : l'.Perm l) (hlen : l.length ≤ maxMembers) (ht : Top l c) :
    (gathered l').resyncOffset = c.sb.resyncOffset := by
  have hd' := hd.perm hp
  have hevents := hd'.events_eq (ht.perm hp) (h.takes ht hp hlen)
  obtain ⟨ref, arr, hhead, hplaced, hgathered⟩ := hd'.placed
  rw [hgathered] at hevents ⊢
  have hevents : arr.events = c.sb.events := hevents
  show arr.resyncOffset = c.sb.resyncOffset
  obtain ⟨htops, hall⟩ := hagree c ht
  rcases hplaced.newest with ⟨hzero, hresync⟩ | ⟨j, c', hfirst, heq, hresync⟩
  · rw [hresync]
    exact hall (hevents.symm.trans hzero) ref (hp.mem_iff.mp (mem_of_mem_head? hhead))
  · obtain ⟨hmem, hsound, -⟩ := firstFor_eq_some hfirst
    rw [← hresync]
    refine htops c' ⟨hp.mem_iff.mp (mem_of_mem_take hmem), hsound, fun c'' hc'' hs'' => ?_⟩
    rw [heq, hevents]
    exact ht.le c'' hc'' hs''

section

variable (hd : Described level count sectors l)
include hd

/-- Too few members in every order if no order can start the array. -/
lemma Described.refused_of_not_startable
    (hno : ¬ Startable level count l) (hp : l'.Perm l) : (gathered l').refused := by
  by_contra hgo
  have hd' := hd.perm hp
  rw [hd'.refused_iff] at hgo
  obtain ⟨hstripe, hsome⟩ := not_or.mp hgo
  have hslot : ∀ {i x}, (gathered l').view.slot i = some x →
      ∃ c ∈ l, c.Sound ∧ c.sb.memberIndex.toNat = i ∧ c.sb.events = (gathered l').events := by
    intro i x hx
    obtain ⟨c, hfirst, hevents, -⟩ := hd'.slot_eq_some.mp hx
    obtain ⟨hmem, hsound, hindex⟩ := firstFor_eq_some hfirst
    exact ⟨c, hp.mem_iff.mp (mem_of_mem_take hmem), hsound, hindex, hevents⟩
  apply hno
  unfold Startable
  cases hlevel : Level.ofCode level with
  | raid0 =>
    refine ⟨(gathered l').events, fun i hi => ?_⟩
    cases hx : (gathered l').view.slot i with
    | none => exact absurd ⟨hlevel, i, hi, hx⟩ hstripe
    | some x => exact hslot hx
  | raid1 =>
    obtain ⟨i, hi⟩ := not_forall.mp hsome
    obtain ⟨-, hx⟩ := Classical.not_imp.mp hi
    obtain ⟨x, hx⟩ := Option.ne_none_iff_exists'.mp hx
    obtain ⟨c, hc, hsound, -⟩ := hslot hx
    exact ⟨c, hc, hsound⟩

/-- The condition is enough, on any machine. -/
lemma Described.orderFree
    (h : Startable level count l → l.length ≤ maxMembers ∧ Alone l ∧ Agree l) : OrderFree m l := by
  by_cases hstart : Startable level count l
  · obtain ⟨hlen, halone, hagree⟩ := h hstart
    refine ⟨fun l' hp => ?_, fun l' hp v hv i d s e hx => ?_⟩
    · have hd' := hd.perm hp
      have hslots : (gathered l').view.slot = (gathered l).view.slot := by
        funext i
        apply Option.ext
        intro x
        rw [halone.slot_eq_some hd hp hlen, halone.slot_eq_some hd (.refl l) hlen]
      have hrefused : (gathered l').refused ↔ (gathered l).refused := by
        rw [hd'.refused_iff, hd.refused_iff, hslots]
      have hsectors : (gathered l').arraySectors = (gathered l).arraySectors :=
        hd'.geometry.2.2.trans hd.geometry.2.2.symm
      rw [assemblyOf_eq m hd'.nonempty, assemblyOf_eq m hd.nonempty, hsectors]
      simp only [hrefused]
      split
      · rfl
      split
      · rfl
      rename_i hgo
      have hview : (gathered l').view = (gathered l).view := by
        rw [hd.refused_iff] at hgo
        obtain ⟨-, hsome⟩ := not_or.mp hgo
        obtain ⟨i, hi⟩ := not_forall.mp hsome
        obtain ⟨-, hx⟩ := Classical.not_imp.mp hi
        obtain ⟨x, hx⟩ := Option.ne_none_iff_exists'.mp hx
        obtain ⟨c, ht, -⟩ := (halone.slot_eq_some hd (.refl l) hlen).mp hx
        have hevents : (gathered l').events = (gathered l).events :=
          (hd'.events_eq (ht.perm hp) (halone.takes ht hp hlen)).trans
            (hd.events_eq ht (halone.takes ht (.refl l) hlen)).symm
        have hresync : (gathered l').resyncOffset = (gathered l).resyncOffset :=
          (halone.resync_eq hagree hd hp hlen ht).trans
            (halone.resync_eq hagree hd (.refl l) hlen ht).symm
        show View.mk _ (gathered l').events (gathered l').resyncOffset =
          View.mk _ (gathered l).events (gathered l).resyncOffset
        rw [hevents, hresync]
        exact congrArg (View.mk · _ _) hslots
      rw [hview]
    · have hd' := hd.perm hp
      rw [assemblyOf_eq m hd'.nonempty] at hv
      split at hv
      · cases hv
      split at hv
      · cases hv
      split at hv
      · cases hv
      split at hv
      · cases hv
      injection hv with hv
      rw [← hv] at hx
      obtain ⟨c, ht, -, heq⟩ := (halone.slot_eq_some hd hp hlen).mp hx
      cases heq
      exact ⟨c, ht.mem, ht.sound, rfl, rfl, ht.le⟩
  · have hrefused : ∀ l', l'.Perm l → assemblyOf m l' =
        if freeArray m.arrays = none then .error .efull else .error .enodev := by
      intro l' hp
      rw [assemblyOf_eq m (hd.perm hp).nonempty, if_pos (hd.refused_of_not_startable hstart hp)]
    refine ⟨fun l' hp => ?_, fun l' hp v hv => ?_⟩
    · rw [hrefused l' hp, hrefused l (.refl l)]
    · rw [hrefused l' hp] at hv
      split at hv
      · cases hv
      · cases hv

/-! ## The condition is needed -/

lemma Described.cover
    (hf : ∀ i < count.toNat, f i ∈ l ∧ (f i).Sound ∧ (f i).sb.memberIndex.toNat = i) :
    ∃ l', l'.Perm l ∧ ∀ i < count.toNat, firstFor (group l') i = some (f i) := by
  have hinj : ∀ i ∈ range count.toNat, ∀ j ∈ range count.toNat, f i = f j → i = j := by
    intro i hi j hj heq
    have hi := (hf i (mem_range.mp hi)).2.2
    rw [heq] at hi
    exact hi.symm.trans (hf j (mem_range.mp hj)).2.2
  have hnodup : ((range count.toNat).map f).Nodup := List.Nodup.map_on hinj nodup_range
  have hsub : (range count.toNat).map f ⊆ l := by
    intro c hc
    obtain ⟨i, hi, rfl⟩ := mem_map.mp hc
    exact (hf i (mem_range.mp hi)).1
  obtain ⟨p, hp, hsublist⟩ := subperm_of_subset hnodup hsub
  obtain ⟨rest, hrest⟩ := hsublist.exists_perm_append
  refine ⟨(range count.toNat).map f ++ rest, (hrest.trans (hp.append_right rest)).symm,
    fun i hi => ?_⟩
  have hcount : count.toNat ≤ maxMembers := by
    obtain ⟨c, hc⟩ := exists_mem_of_ne_nil l hd.nonempty
    obtain ⟨tail, hvalid⟩ := hd.valid c hc
    rw [← hd.count c hc]
    exact hvalid.count.2
  have hmem : f i ∈ (range count.toNat).map f := mem_map.mpr ⟨i, mem_range.mpr hi, rfl⟩
  have hprefix : firstFor ((range count.toNat).map f) i = some (f i) := by
    cases hfirst : firstFor ((range count.toNat).map f) i with
    | none =>
      have hno := find?_eq_none.mp hfirst (f i) hmem
      exact absurd (Candidate.fits_iff.mpr (hf i hi).2) hno
    | some c =>
      obtain ⟨hc, -, hindex⟩ := firstFor_eq_some hfirst
      obtain ⟨j, hj, rfl⟩ := mem_map.mp hc
      rw [(hf j (mem_range.mp hj)).2.2] at hindex
      rw [hindex]
  have hlen : ((range count.toNat).map f).length ≤ maxMembers := by
    rw [length_map, length_range]
    exact hcount
  rw [firstFor] at hprefix
  rw [firstFor, group, take_append, take_of_length_le hlen, find?_append, hprefix]
  rfl

lemma Described.slot_of_cover {e : UInt64}
    (hf : ∀ i < count.toNat, firstFor (group l) i = some (f i) ∧ (f i).sb.events = e)
    (hi : i < count.toNat) : (gathered l).view.slot i =
      some ((f i).dev, MemberState.ofCode (f i).sb.memberState, (f i).sb.events) := by
  refine hd.slot_eq_some.mpr ⟨f i, (hf i hi).1, ?_, rfl⟩
  obtain ⟨ref, arr, -, hplaced, hgathered⟩ := hd.placed
  rw [hgathered]
  show (f i).sb.events = arr.events
  rcases hplaced.newest with ⟨hzero, -⟩ | ⟨j, c, hfirst, hevents, -⟩
  · have hle := hplaced.le i (f i) (hf i hi).1
    rw [hzero] at hle ⊢
    exact UInt64.le_antisymm hle UInt64.zero_le
  · obtain ⟨hmem, -, hindex⟩ := firstFor_eq_some hfirst
    have hj : j < count.toNat := by
      rw [← hindex]
      exact hd.index_lt (mem_of_mem_take hmem)
    rw [(hf j hj).1, Option.some.injEq] at hfirst
    rw [← hevents, ← hfirst, (hf i hi).2, (hf j hj).2]

/-- The machine has a slot of the table and of the registry for an array with sectors. -/
structure Room (m : Machine) (sectors : UInt64) : Prop where
  table : freeArray m.arrays ≠ none
  registry : freeSlot m.devs ≠ none
  sectors : sectors ≠ 0

lemma Described.ok_of_room (hroom : Room m sectors)
    (hgo : ¬ (gathered l).refused) : assemblyOf m l = .ok (gathered l).view := by
  have hpos : (gathered l).arraySectors ≠ 0 := by
    rw [hd.geometry.2.2]
    exact hroom.sectors
  rw [assemblyOf_eq m hd.nonempty, if_neg hroom.table, if_neg hgo, if_neg hpos,
    if_neg hroom.registry]

end

lemma exists_cons_perm (h : c ∈ l) : ∃ rest, (c :: rest).Perm l := by
  obtain ⟨s, t, rfl⟩ := append_of_mem h
  exact ⟨s ++ t, perm_middle.symm⟩

lemma firstFor_cons (hs : c.Sound) (rest : List Candidate) :
    firstFor (group (c :: rest)) c.sb.memberIndex.toNat = some c :=
  find?_cons_of_pos (Candidate.fits_iff.mpr ⟨hs, rfl⟩)

/-- Every newest candidate is kept in some order, if the outcome is always the newest. -/
lemma Described.starts_with (hd : Described level count sectors l) (hroom : Room m sectors)
    (hfree : OrderFree m l) (hstart : Startable level count l) (ht : Top l c) :
    ∃ l', l'.Perm l ∧ ¬ (gathered l').refused ∧ (gathered l').view.slot c.sb.memberIndex.toNat =
      some (c.dev, MemberState.ofCode c.sb.memberState, c.sb.events) := by
  unfold Startable at hstart
  cases hlevel : Level.ofCode level with
  | raid1 =>
    obtain ⟨rest, hp⟩ := exists_cons_perm ht.mem
    have hd' := hd.perm hp
    have hfirst := firstFor_cons ht.sound rest
    have hslot := hd'.slot_eq_some.mpr ⟨c, hfirst, (hd'.events_eq (ht.perm hp) hfirst).symm, rfl⟩
    refine ⟨c :: rest, hp, ?_, hslot⟩
    rw [hd'.refused_iff, hlevel]
    rintro (⟨hno, -⟩ | hall)
    · cases hno
    · rw [hall _ (hd.index_lt ht.mem)] at hslot
      cases hslot
  | raid0 =>
    rw [hlevel] at hstart
    obtain ⟨e, hcover⟩ := hstart
    -- an order that starts the array with any set of members of one event counter
    have hrun : ∀ f : Nat → Candidate, (∀ i < count.toNat, f i ∈ l ∧ (f i).Sound ∧
        (f i).sb.memberIndex.toNat = i ∧ (f i).sb.events = e) →
        ∃ l', l'.Perm l ∧ ¬ (gathered l').refused ∧ ∀ i < count.toNat, (gathered l').view.slot i =
          some ((f i).dev, MemberState.ofCode (f i).sb.memberState, (f i).sb.events) := by
      intro f hf
      obtain ⟨l', hp, hfirst⟩ := hd.cover fun i hi => ⟨(hf i hi).1, (hf i hi).2.1, (hf i hi).2.2.1⟩
      have hd' := hd.perm hp
      have hslot : ∀ i < count.toNat, (gathered l').view.slot i =
          some ((f i).dev, MemberState.ofCode (f i).sb.memberState, (f i).sb.events) := fun i hi =>
        hd'.slot_of_cover (fun j hj => ⟨hfirst j hj, (hf j hj).2.2.2⟩) hi
      refine ⟨l', hp, ?_, hslot⟩
      rw [hd'.refused_iff]
      rintro (⟨-, i, hi, hnone⟩ | hall)
      · rw [hslot i hi] at hnone
        cases hnone
      · have hnone := hall _ (hd.index_lt ht.mem)
        rw [hslot _ (hd.index_lt ht.mem)] at hnone
        cases hnone
    have hlt := hd.index_lt ht.mem
    have : Nonempty Candidate := ⟨c⟩
    choose! f hf using hcover
    have hevents : c.sb.events = e := by
      obtain ⟨l0, hp0, hgo0, hslot0⟩ := hrun f hf
      have hok := (hd.perm hp0).ok_of_room hroom hgo0
      obtain ⟨c0, -, -, -, heq, hle⟩ := hfree.newest l0 hp0 _ hok _ _ _ _ (hslot0 _ hlt)
      obtain ⟨hmem, hsound, -, he⟩ := hf _ hlt
      have hge := ht.le _ hmem hsound
      have hle := hle c ht.mem ht.sound
      rw [he] at hge hle
      exact UInt64.le_antisymm hle hge
    obtain ⟨l', hp, hgo, hslot⟩ := hrun
      (fun i => if i = c.sb.memberIndex.toNat then c else f i) fun i hi => by
        by_cases hic : i = c.sb.memberIndex.toNat
        · rw [if_pos hic]
          exact ⟨ht.mem, ht.sound, hic.symm, hevents⟩
        · rw [if_neg hic]
          exact hf i hi
    have hself := hslot _ hlt
    rw [if_pos rfl] at hself
    exact ⟨l', hp, hgo, hself⟩

lemma Described.takes (hd : Described level count sectors l) (hnodup : (l.map Candidate.dev).Nodup)
    (hroom : Room m sectors) (hfree : OrderFree m l) (hstart : Startable level count l)
    (ht : Top l c) (hp : l'.Perm l) :
    ¬ (gathered l').refused ∧ firstFor (group l') c.sb.memberIndex.toNat = some c := by
  obtain ⟨l1, hp1, hgo1, hslot1⟩ := hd.starts_with hroom hfree hstart ht
  have hd' := hd.perm hp
  have hok : assemblyOf m l' = .ok (gathered l1).view := by
    rw [hfree.same l' hp, ← hfree.same l1 hp1]
    exact (hd.perm hp1).ok_of_room hroom hgo1
  have hgo : ¬ (gathered l').refused := by
    intro hrefused
    rw [assemblyOf_eq m hd'.nonempty, if_neg hroom.table, if_pos hrefused] at hok
    cases hok
  refine ⟨hgo, ?_⟩
  rw [hd'.ok_of_room hroom hgo] at hok
  injection hok with hview
  rw [← hview] at hslot1
  obtain ⟨c0, hfirst, -, heq⟩ := hd'.slot_eq_some.mp hslot1
  have hmem : c0 ∈ l := hp.mem_iff.mp (mem_of_mem_take (firstFor_eq_some hfirst).1)
  have hdev : c.dev = c0.dev := congrArg Prod.fst heq
  rw [hfirst, inj_on_of_nodup_map hnodup hmem ht.mem hdev.symm]

lemma foldl_place_resync {arr : MdArray} (h : ∀ c ∈ l, c.Sound → c.sb.events ≤ arr.events) :
    (l.foldl MdArray.place arr).resyncOffset = arr.resyncOffset := by
  induction l generalizing arr with
  | nil => rfl
  | cons c l ih =>
    have hkeep :
        (arr.place c).resyncOffset = arr.resyncOffset ∧ (arr.place c).events = arr.events := by
      unfold MdArray.place
      dsimp only
      split
      · exact ⟨rfl, rfl⟩
      split
      · exact ⟨rfl, rfl⟩
      split
      · exact ⟨rfl, rfl⟩
      rename_i hsound
      split
      · rename_i hgt
        exact absurd hgt (UInt64.not_lt.mpr (h c mem_cons_self hsound))
      · exact ⟨rfl, rfl⟩
    rw [foldl_cons, ih, hkeep.1]
    intro c' hc' hs'
    rw [hkeep.2]
    exact h c' (mem_cons_of_mem _ hc') hs'

lemma Described.resync_cons {rest : List Candidate} (hd : Described level count sectors (c :: rest))
    (h : Top (c :: rest) c ∨ ∀ c' ∈ c :: rest, c'.Sound → c'.sb.events = 0) :
    (gathered (c :: rest)).resyncOffset = c.sb.resyncOffset := by
  show ((c :: rest.take (maxMembers - 1)).foldl MdArray.place (arrayOf c.sb)).resyncOffset = _
  have hsub : ∀ c' ∈ rest.take (maxMembers - 1), c' ∈ c :: rest := fun c' hc' =>
    mem_cons_of_mem _ (mem_of_mem_take hc')
  rcases h with ht | hzero
  · -- the first candidate sets counter and rebuild point
    have hin : ¬ (arrayOf c.sb).memberCount ≤ c.sb.memberIndex := by
      apply Nat.not_le.mpr
      show _ < c.sb.memberCount.toNat
      rw [hd.count c mem_cons_self]
      exact hd.index_lt mem_cons_self
    have hstate : ¬ c.sb.memberState = MemberState.faulty.code := ht.sound
    have hfirst : ((arrayOf c.sb).place c).resyncOffset = c.sb.resyncOffset ∧
        ((arrayOf c.sb).place c).events = c.sb.events := by
      have hblank : ¬ ((arrayOf c.sb).members c.sb.memberIndex.toNat).dev.isSome = true :=
        Bool.false_ne_true
      rw [MdArray.place, if_neg hin, if_neg hblank, if_neg hstate]
      dsimp only
      split
      · exact ⟨rfl, rfl⟩
      · rename_i hle
        exact ⟨rfl, UInt64.le_antisymm UInt64.zero_le (UInt64.not_lt.mp hle)⟩
    rw [foldl_cons, foldl_place_resync, hfirst.1]
    intro c' hc' hs'
    rw [hfirst.2]
    exact ht.le c' (hsub c' hc') hs'
  · rw [foldl_place_resync]
    · rfl
    · intro c' hc' hs'
      have hmem : c' ∈ c :: rest := by
        rcases mem_cons.mp hc' with rfl | hc'
        · exact mem_cons_self
        · exact hsub c' hc'
      rw [hzero c' hmem hs']
      exact UInt64.zero_le

lemma Startable.exists_top (h : Startable level count l) (hd : Described level count sectors l) :
    ∃ c, Top l c := by
  unfold Startable at h
  split at h
  · obtain ⟨e, hcover⟩ := h
    obtain ⟨c0, hc0⟩ := exists_mem_of_ne_nil l hd.nonempty
    obtain ⟨c, hc, hs, -⟩ := hcover 0 (Nat.zero_lt_of_lt (hd.index_lt hc0))
    exact Md.exists_top hc hs
  · obtain ⟨c, hc, hs⟩ := h
    exact Md.exists_top hc hs

lemma OrderFree.condition (hfree : OrderFree m l) (hd : Described level count sectors l)
    (hnodup : (l.map Candidate.dev).Nodup) (hroom : Room m sectors)
    (hstart : Startable level count l) : l.length ≤ maxMembers ∧ Alone l ∧ Agree l := by
  have hview : ∀ {c l'}, Top l c → l'.Perm l → assemblyOf m l = .ok (gathered l').view := by
    intro c l' ht hp
    rw [← hfree.same l' hp]
    exact (hd.perm hp).ok_of_room hroom (hd.takes hnodup hroom hfree hstart ht hp).1
  have hresync : ∀ {c l1 l2}, Top l c → l1.Perm l → l2.Perm l →
      (gathered l1).resyncOffset = (gathered l2).resyncOffset := by
    intro c l1 l2 ht hp1 hp2
    have heq := (hview ht hp1).symm.trans (hview ht hp2)
    injection heq with heq
    exact congrArg View.resyncOffset heq
  refine ⟨?_, fun c ht c' hc' hs' hindex => ?_,
    fun c ht => ⟨fun c' ht' => ?_, fun hzero c' hc' => ?_⟩⟩
  · -- with one candidate too many, a newest one that comes last is not even looked at
    by_contra hlong
    obtain ⟨c, ht⟩ := hstart.exists_top hd
    obtain ⟨rest, hp⟩ := exists_cons_perm ht.mem
    have hlast : (rest ++ [c]).Perm l := perm_append_singleton c rest |>.trans hp
    have hfirst := firstFor_eq_some (hd.takes hnodup hroom hfree hstart ht hlast).2
    have hlen : maxMembers ≤ rest.length := by
      have hlen := hp.length_eq
      rw [length_cons] at hlen
      omega
    have hmem : c ∈ rest := by
      have hmem := hfirst.1
      rw [group, take_append_of_le_length hlen] at hmem
      exact mem_of_mem_take hmem
    have hnodup : ((c :: rest).map Candidate.dev).Nodup :=
      (hp.map Candidate.dev).nodup_iff.mpr hnodup
    rw [map_cons, nodup_cons] at hnodup
    exact hnodup.1 (mem_map_of_mem hmem)
  · obtain ⟨rest, hp⟩ := exists_cons_perm hc'
    have hfirst := (hd.takes hnodup hroom hfree hstart ht hp).2
    rw [← hindex, firstFor_cons hs' rest] at hfirst
    injection hfirst
  · obtain ⟨rest, hp⟩ := exists_cons_perm ht.mem
    obtain ⟨rest', hp'⟩ := exists_cons_perm ht'.mem
    rw [← (hd.perm hp).resync_cons (.inl (ht.perm hp)),
      ← (hd.perm hp').resync_cons (.inl (ht'.perm hp'))]
    exact hresync ht hp' hp
  · obtain ⟨rest, hp⟩ := exists_cons_perm ht.mem
    obtain ⟨rest', hp'⟩ := exists_cons_perm hc'
    have hall : ∀ x ∈ c' :: rest', x.Sound → x.sb.events = 0 := by
      intro x hx hs
      have hle := ht.le x (hp'.mem_iff.mp hx) hs
      rw [hzero] at hle
      exact UInt64.le_antisymm hle UInt64.zero_le
    rw [← (hd.perm hp).resync_cons (.inl (ht.perm hp)), ← (hd.perm hp').resync_cons (.inr hall)]
    exact hresync ht hp' hp

/-- The order in which drives are found does not matter if the members agree, and only then. -/
theorem assembly_orderFree (hd : Described level count sectors l)
    (hnodup : (l.map Candidate.dev).Nodup) :
    ((Startable level count l → l.length ≤ maxMembers ∧ Alone l ∧ Agree l) → OrderFree m l) ∧
    (Room m sectors → OrderFree m l → Startable level count l → l.length ≤ maxMembers ∧
      Alone l ∧ Agree l) :=
  ⟨hd.orderFree, fun hroom hfree => hfree.condition hd hnodup hroom⟩

end Order

/-! ## A drive that comes back -/

def twoWay (d : DevId) (events : UInt64) : MdArray :=
  { MdArray.blank with
    used := true, level := .raid1, memberCount := 2, memberSectors := 10,
    arraySectors := 10, events, members := fun _ => ⟨some d, 9, .active, events⟩ }

def mirrorCandidate (d : DevId) (i : Nat) (events : UInt64) : Candidate :=
  ⟨d, (twoWay d events).superOf i⟩

lemma described_mirror {l : List (DevId × Nat × UInt64)} (hl : l ≠ []) (hi : ∀ x ∈ l, x.2.1 < 2) :
    Described Level.raid1.code 2 10 (l.map fun x => mirrorCandidate x.1 x.2.1 x.2.2) where
  nonempty := fun h => hl (map_eq_nil_iff.mp h)
  valid := by
    intro c hc
    obtain ⟨x, hx, rfl⟩ := mem_map.mp hc
    have hcount : (twoWay x.1 x.2.2).memberCount.toNat ≤ maxMembers := by
      show 2 ≤ 8
      decide
    exact ⟨(twoWay x.1 x.2.2).tailMeta, MdArray.superOf_valid hcount (hi x hx)⟩
  level := by
    intro c hc
    obtain ⟨x, -, rfl⟩ := mem_map.mp hc
    rfl
  count := by
    intro c hc
    obtain ⟨x, -, rfl⟩ := mem_map.mp hc
    rfl
  sectors := by
    intro c hc
    obtain ⟨x, -, rfl⟩ := mem_map.mp hc
    rfl

/-- A member whose event count is behind does not make the order matter. -/
theorem assembly_orderFree_behind :
    OrderFree (Machine.fresh 2 20) [mirrorCandidate 0 0 7, mirrorCandidate 1 1 5] := by
  have hd : Described Level.raid1.code 2 10 [mirrorCandidate 0 0 7, mirrorCandidate 1 1 5] :=
    described_mirror (cons_ne_nil (0, 0, 7) [(1, 1, 5)]) (by decide)
  refine (assembly_orderFree hd (by decide)).1 fun _ => ⟨by decide, ?_, ?_⟩
  · intro c ht c' hc' _ hindex
    rcases mem_pair.mp ht.mem with rfl | rfl
    · rcases mem_pair.mp hc' with rfl | rfl
      · rfl
      · exact absurd hindex (by decide)
    · exact absurd (ht.le _ mem_cons_self (by decide)) (by decide)
  · intro c ht
    have hzero : ∀ c' ∈ [mirrorCandidate 0 0 7, mirrorCandidate 1 1 5], c'.sb.resyncOffset = 0 := by
      intro c' hc'
      rcases mem_pair.mp hc' with rfl | rfl <;> rfl
    have hall : ∀ c' ∈ [mirrorCandidate 0 0 7, mirrorCandidate 1 1 5],
        c'.sb.resyncOffset = c.sb.resyncOffset :=
        fun c' hc' => (hzero c' hc').trans (hzero c ht.mem).symm
    exact ⟨fun c' ht' => hall c' ht'.mem, fun _ => hall⟩

/-- A replaced drive that comes back first takes its slot from the newer one, and the array runs on
the older metadata. -/
theorem assembly_keeps_older :
    Described Level.raid1.code 2 10 [mirrorCandidate 0 0 5, mirrorCandidate 1 0 7] ∧
    (assemblyOf (Machine.fresh 2 20) [mirrorCandidate 0 0 5, mirrorCandidate 1 0 7]).toOption.map
      (fun v => (v.slot 0, v.events)) = some (some (0, .active, 5), 5) ∧
    (assemblyOf (Machine.fresh 2 20) [mirrorCandidate 1 0 7, mirrorCandidate 0 0 5]).toOption.map
      (fun v => (v.slot 0, v.events)) = some (some (1, .active, 7), 7) ∧
    ¬ OrderFree (Machine.fresh 2 20) [mirrorCandidate 0 0 5, mirrorCandidate 1 0 7] := by
  refine ⟨described_mirror (cons_ne_nil (0, 0, 5) [(1, 0, 7)]) (by decide), by decide +kernel,
    by decide +kernel, fun hfree => ?_⟩
  have hsame := hfree.same [mirrorCandidate 1 0 7, mirrorCandidate 0 0 5] (.swap _ _ [])
  exact absurd (congrArg (fun r => r.toOption.map View.events) hsame) (by decide +kernel)

end Anunix.Md
