import Anunix.Speculation.Publish

/-!
# What a speculation call does to the records

Closing and expiring seen at a single slot of the record array, the accounting of the reserved bytes
(`Accounts`), and what each call ends in.
-/

namespace Anunix.Speculation
open Fallible Object Slots List Option

/-! ## Slots -/

variable {s : State} {i : Nat} {r : Record} {state : SpeculationState} {reason : Option Err}
  {now : UInt64}

section Slots

variable {j : Nat}

/-- What `expire` makes of a record. -/
def Record.aged (now : UInt64) (r : Record) : Record :=
  if r.overdue now then r.closed .expired (some .etimedout) else r

lemma aged_aged (now : UInt64) (r : Record) : (r.aged now).aged now = r.aged now := by
  by_cases h : r.overdue now = true
  · have he : r.aged now = r.closed .expired (some .etimedout) := if_pos h
    rw [he]
    exact if_neg (by simp [Record.overdue, Record.closed])
  · have he : r.aged now = r := if_neg h
    rw [he, he]

lemma aged_id (now : UInt64) (r : Record) : (r.aged now).view.id = r.view.id := by
  unfold Record.aged
  split <;> rfl

lemma aged_owner (now : UInt64) (r : Record) : (r.aged now).view.owner = r.view.owner := by
  unfold Record.aged
  split <;> rfl

lemma aged_prepared (h : (r.aged now).view.state = .prepared) :
    r.aged now = r ∧ now < r.view.expiresAt := by
  unfold Record.aged at h ⊢
  split at h
  · cases h
  · rename_i hno
    rw [if_neg hno]
    simpa [Record.overdue, h] using hno

lemma close_store : (s.close i state reason).store = s.store := by
  unfold State.close
  split <;> rfl

lemma length_close : (s.close i state reason).records.length = s.records.length := by
  unfold State.close
  split
  · exact length_set
  · rfl

lemma get_close : Slots.get (s.close i state reason).records j =
    if j = i then (Slots.get s.records i).map fun r => r.closed state reason
    else Slots.get s.records j := by
  unfold State.close
  cases hr : Slots.get s.records i with
  | none =>
    by_cases hj : j = i
    · simp [hj, hr]
    · simp [hj]
  | some r =>
    by_cases hj : j = i
    · subst hj
      simp [get_set_self (lt_of_get hr)]
    · simp [hj, get_set_of_ne hj]

/-- One turn of the loop of `expire`. -/
def State.age (s : State) (now : UInt64) (i : Nat) : State :=
  if (Slots.get s.records i).any fun r => r.overdue now then
    s.close i .expired (some .etimedout) else s

lemma expire_eq (s : State) (now : UInt64) :
    s.expire now = (range speculationMax).foldl (fun s i => s.age now i) s := by
  unfold State.expire
  rfl

lemma age_store : (s.age now i).store = s.store := by
  unfold State.age
  split
  · exact close_store
  · rfl

lemma length_age : (s.age now i).records.length = s.records.length := by
  unfold State.age
  split
  · exact length_close
  · rfl

lemma get_age : Slots.get (s.age now i).records j =
    if j = i then (Slots.get s.records i).map (Record.aged now) else Slots.get s.records j := by
  unfold State.age
  cases hr : Slots.get s.records i with
  | none =>
    by_cases hj : j = i
    · simp [hj, hr]
    · simp [hj]
  | some r =>
    by_cases ho : r.overdue now = true
    · simp only [any_some, ho, if_true, get_close, hr, map_some, Record.aged]
    · by_cases hj : j = i
      · simp [hj, hr, ho, Record.aged]
      · simp [hj, ho]

lemma foldl_age_store (l : List Nat) (s : State) :
    (l.foldl (fun s i => s.age now i) s).store = s.store := by
  induction l generalizing s with
  | nil => rfl
  | cons i l ih => exact (ih _).trans age_store

lemma foldl_age_length (l : List Nat) (s : State) :
    (l.foldl (fun s i => s.age now i) s).records.length = s.records.length := by
  induction l generalizing s with
  | nil => rfl
  | cons i l ih => exact (ih _).trans length_age

lemma get_foldl_age (l : List Nat) (s : State) (j : Nat) :
    Slots.get (l.foldl (fun s i => s.age now i) s).records j =
      if j ∈ l then (Slots.get s.records j).map (Record.aged now) else Slots.get s.records j := by
  induction l generalizing s with
  | nil => rfl
  | cons i l ih =>
    rw [foldl_cons, ih, get_age]
    by_cases hj : j = i
    · subst hj
      have htwice : (Slots.get s.records j).map (Record.aged now ∘ Record.aged now) =
          (Slots.get s.records j).map (Record.aged now) :=
        congrArg (Option.map · (Slots.get s.records j)) (funext fun r => aged_aged now r)
      by_cases hm : j ∈ l
      · simp [htwice]
      · simp [hm]
    · simp [hj]

@[simp]
lemma expire_store : (s.expire now).store = s.store := by
  rw [expire_eq]
  exact foldl_age_store _ s

@[simp]
lemma length_expire : (s.expire now).records.length = s.records.length := by
  rw [expire_eq]
  exact foldl_age_length _ s

lemma get_expire (hlen : s.records.length = speculationMax) (j : Nat) :
    Slots.get (s.expire now).records j = (Slots.get s.records j).map (Record.aged now) := by
  rw [expire_eq, get_foldl_age]
  split
  · rfl
  · rename_i hj
    have hnone : Slots.get s.records j = none := by
      cases hr : Slots.get s.records j with
      | none => rfl
      | some r => exact absurd (mem_range.mpr (hlen ▸ lt_of_get hr)) hj
    rw [hnone]
    rfl

lemma lookup_expire (hlen : s.records.length = speculationMax) (id : Uuid) :
    (s.expire now).lookup id = (s.lookup id).map fun p => (p.1, p.2.aged now) := by
  have hrecords : (s.expire now).records = s.records.map (Option.map (Record.aged now)) := by
    apply ext_getElem?
    intro j
    rw [getElem?_map]
    rcases Nat.lt_or_ge j s.records.length with hj | hj
    · have hget : Slots.get (s.expire now).records j = _ := get_expire hlen j
      have hj' : j < (s.expire now).records.length := by rw [length_expire]; exact hj
      rw [Slots.get, Slots.get, getElem?_eq_getElem hj', getElem?_eq_getElem hj, join_some] at hget
      rw [getElem?_eq_getElem hj', getElem?_eq_getElem hj, hget]
      rfl
    · rw [getElem?_eq_none hj, getElem?_eq_none (by rw [length_expire]; exact hj)]
      rfl
  have hany : (fun o : Option Record => Option.any (fun r => decide (r.view.id = id))
      (Option.map (Record.aged now) o)) = Option.any fun r => decide (r.view.id = id) := by
    funext o
    cases o with
    | none => rfl
    | some r => simp [aged_id]
  unfold State.lookup Slots.firstWith
  rw [hrecords, findIdx?_map]
  show (findIdx? (fun o => Option.any _ (Option.map (Record.aged now) o)) s.records).bind _ = _
  rw [hany]
  cases findIdx? (Option.any fun r : Record => decide (r.view.id = id)) s.records with
  | none => rfl
  | some i =>
    rw [← hrecords, bind_some, bind_some, get_expire hlen]
    cases Slots.get s.records i <;> rfl

lemma lookup_eq_some {id : Uuid} (h : s.lookup id = some (i, r)) :
    Slots.get s.records i = some r ∧ r.view.id = id := by
  obtain ⟨hget, hid⟩ := firstWith_eq_some h
  exact ⟨hget, by simpa using hid⟩

end Slots

/-! ## Accounting -/

def Record.reserved (r : Record) : Nat :=
  if r.view.state = .prepared then r.view.resultSize.toNat else 0

structure Accounts (s : State) : Prop where
  slots : s.records.length = speculationMax
  sum : s.reservedBytes.toNat = total Record.reserved s.records
  bound : s.reservedBytes.toNat ≤ bytesMax.toNat

section Accounts

lemma reserved_closed (h : state ≠ .prepared) : (r.closed state reason).reserved = 0 :=
  if_neg h

section

variable (ha : Accounts s)
include ha

lemma Accounts.close (h : state ≠ .prepared) : Accounts (s.close i state reason) := by
  have hslots := @length_close s i state reason
  rw [ha.slots] at hslots
  unfold State.close at hslots ⊢
  cases hr : Slots.get s.records i with
  | none => exact ha
  | some r =>
    rw [hr] at hslots
    have hset := total_set (o := some (r.closed state reason)) (f := Record.reserved) (lt_of_get hr)
    rw [hr, elim_some, elim_some, reserved_closed h] at hset
    have hsum := ha.sum
    have hbound := ha.bound
    by_cases hp : r.view.state = .prepared
    · have hres : r.reserved = r.view.resultSize.toNat := if_pos hp
      have hsub : (s.reservedBytes - r.view.resultSize).toNat =
          s.reservedBytes.toNat - r.view.resultSize.toNat := by
        apply UInt64.toNat_sub_of_le
        rw [UInt64.le_iff_toNat_le]
        omega
      simp only [if_pos hp] at ⊢
      exact ⟨hslots, by simp only [hsub]; omega, by simp only [hsub]; omega⟩
    · have hres : r.reserved = 0 := if_neg hp
      simp only [if_neg hp] at ⊢
      exact ⟨hslots, by simp only; omega, hbound⟩

lemma Accounts.expire : Accounts (s.expire now) := by
  rw [expire_eq]
  generalize range speculationMax = l
  induction l generalizing s with
  | nil => exact ha
  | cons i l ih =>
    have hage : Accounts (s.age now i) := by
      unfold State.age
      split
      · exact ha.close nofun
      · exact ha
    exact ih hage

lemma Accounts.fill (hfree : firstFree s.records = some i)
    (hp : r.view.state = .prepared) (hroom : ¬ bytesMax - s.reservedBytes < r.view.resultSize) :
    Accounts { s with
      records := s.records.set i (some r),
      reservedBytes := s.reservedBytes + r.view.resultSize } := by
  obtain ⟨hlt, hnone⟩ := firstFree_eq_some hfree
  have hset := total_set (o := some r) (f := Record.reserved) hlt
  have hres : r.reserved = r.view.resultSize.toNat := if_pos hp
  rw [hnone, elim_none, elim_some] at hset
  have hbound := ha.bound
  have hsub : (bytesMax - s.reservedBytes).toNat = bytesMax.toNat - s.reservedBytes.toNat := by
    apply UInt64.toNat_sub_of_le
    exact UInt64.le_iff_toNat_le.mpr hbound
  rw [UInt64.lt_iff_toNat_lt] at hroom
  have hmax : bytesMax.toNat = 16777216 := rfl
  have hadd : (s.reservedBytes + r.view.resultSize).toNat =
      s.reservedBytes.toNat + r.view.resultSize.toNat := by
    rw [UInt64.toNat_add]
    omega
  have hsum := ha.sum
  refine ⟨length_set.trans ha.slots, ?_, ?_⟩
  · simp only [hadd]
    omega
  · simp only [hadd]
    omega

lemma Accounts.free (hr : ∀ r, Slots.get s.records i = some r → r.view.state ≠ .prepared) :
    Accounts { s with records := s.records.set i none } := by
  refine ⟨length_set.trans ha.slots, ?_, ha.bound⟩
  cases hget : Slots.get s.records i with
  | none =>
    rcases Nat.lt_or_ge i s.records.length with hlt | hge
    · have hset := total_set (o := none) (f := Record.reserved) hlt
      rw [hget] at hset
      rw [ha.sum]
      exact hset.symm
    · rw [set_eq_of_length_le hge]
      exact ha.sum
  | some r =>
    have hset := total_set (o := none) (f := Record.reserved) (lt_of_get hget)
    have hres : r.reserved = 0 := if_neg (hr r hget)
    rw [hget, elim_some, hres] at hset
    rw [ha.sum]
    exact hset.symm

end

end Accounts

/-! ## Calls -/

section Calls

variable {s' : State} {a : Around} {req : Request} {id : Uuid} {actual : List UInt8}

lemma setHandle_restore (s : Store) (h : Nat) (x y : Handle) :
    ((s.setHandle h x).setHandle h y).setHandle h (s.handles h) = s := by
  simp [Store.setHandle]

/-- A prepared prediction: the object it is about, the slot it has taken, and the state
afterwards. -/
structure Reserved (a : Around) (req : Request) (s : State) (slot addr : Nat) (obj : StateObject)
    (id : Uuid) (s' : State) : Prop where
  wellFormed : req.wellFormed (a.clock 0) = true
  found : s.store.lookup req.origin = some (addr, obj)
  free : firstFree (s.expire (a.clock 1)).records = some slot
  room : ¬ bytesMax - (s.expire (a.clock 1)).reservedBytes < req.result.size
  next : s' =
    { s.expire (a.clock 1) with
      records := (s.expire (a.clock 1)).records.set slot
        (some (req.record id obj (s.store.sha256 (schemaBytes obj ++ obj.payload.bytes))))
      reservedBytes := (s.expire (a.clock 1)).reservedBytes + req.result.size }

lemma prepare_ends :
    Ends (prepare a req) s (fun id s' => ∃ slot addr obj, Reserved a req s slot addr obj id s')
      (fun _ s' => s' = s ∨ s' = s.expire (a.clock 1)) := by
  refine .guard fun hwf => ?_
  refine .lift fun _ _ => ?_
  refine .fetch fun owner _ => ?_
  refine .guard fun _ => ?_
  refine .bind (.zoom (withHandle_ends (.call soOpen_ends ?_ ?_)))
  · rintro _ t ⟨addr, obj, hl, -, -, rfl⟩
    have hl' : s.store.lookup req.origin = some (addr, obj) := hl
    have hobj := (Object.lookup_eq_some hl').2.1
    have hheld : Store.held ((s.store.setHandle 0 ⟨none, .read, 0⟩).setHandle 0
        ⟨some addr, .read, obj.version⟩) 0 = some (addr, obj) :=
      held_eq_some.mpr ⟨by simp [Store.setHandle], hobj⟩
    refine heldObject_ends hheld ?_
    rw [setHandle_restore]
    refine .guard fun _ => ?_
    refine .get_bind (.lift fun digest hd => ?_)
    obtain ⟨-, rfl⟩ := originDigest_eq_ok hd
    refine .orThrow_bind (fun _ => .inr rfl) fun slot hslot => ?_
    refine .failIf_bind (fun _ => .inr rfl) fun hroom => ?_
    refine .failIf_bind (fun _ => .inr rfl) fun _ => ?_
    refine .failIf_bind (fun _ => .inr rfl) fun _ => ?_
    refine .bind (.modify ⟨slot, addr, obj, by simpa using hwf, hl', hslot, ?_, rfl⟩)
    simp only [Bool.or_eq_false_iff, decide_eq_false_iff_not] at hroom
    exact hroom.2
  · rintro _ t rfl
    rw [setHandle_restore]
    exact .inl rfl

structure Committed (a : Around) (id : Uuid) (actual : List UInt8) (s : State) (i : Nat)
    (r : Record) (addr : Nat) (obj : StateObject) (s' : State) : Prop where
  found : (s.expire (a.clock 0)).lookup id = some (i, r)
  prepared : r.view.state = .prepared
  action : actual = r.action
  unexpired : a.clock 1 < r.view.expiresAt
  fits : r.Fits s.store addr obj
  store :
    OnlyRecords (s.store.setObject addr (obj.mutate s.store.sha256 r.result.replacement)) s'.store
  next : s' = { (s.expire (a.clock 0)).close i .committed none with store := s'.store }

/-- A commit that was refused, apart from its effect on the store: the caller may not commit the
    record, it is closed already, or it is closed now. -/
inductive Settled (a : Around) (id : Uuid) (s s' : State) : Prop where
  | refused (next : s' = s.expire (a.clock 0))
    (why : ∀ i r, (s.expire (a.clock 0)).lookup id = some (i, r) →
      callerCheck a.env r.view.owner = .ok () → r.view.state ≠ .prepared)
  | closed {i : Nat} {r : Record} (state : SpeculationState) (reason : Option Err)
    (found : (s.expire (a.clock 0)).lookup id = some (i, r)) (past : state ≠ .prepared)
    (next : s' = { (s.expire (a.clock 0)).close i state reason with store := s'.store })

lemma close_withStore (store : Store) :
    State.close { s with store := store } i state reason =
      { s.close i state reason with store := store } := by
  unfold State.close
  dsimp only
  split <;> rfl

lemma matchAndPublish_ends (hcaller : callerCheck a.env r.view.owner = .ok ()) :
    Ends (matchAndPublish a r actual) s
      (fun _ s' => actual = r.action ∧ a.clock 1 < r.view.expiresAt ∧ ∃ addr obj,
        r.Fits s.store addr obj ∧
        OnlyRecords (s.store.setObject addr (obj.mutate s.store.sha256 r.result.replacement))
        s'.store ∧ s' = { s with store := s'.store })
      (fun _ s' => OnlyRecords s.store s'.store ∧ s' = { s with store := s'.store }) := by
  refine .failIf_bind (fun _ => ⟨refl_of OnlyRecords _, rfl⟩) fun haction => ?_
  refine Ends.zoom (Ends.mono (publish_ends hcaller) ?_ ?_)
  · rintro _ t ⟨htime, addr, obj, hfits, hrec⟩
    exact ⟨by simpa using haction, htime, addr, obj, hfits, hrec, rfl⟩
  · intro _ t hrec
    exact ⟨hrec, rfl⟩

lemma commit_ends : Ends (commit a id actual) s
      (fun _ s' => ∃ i r addr obj, Committed a id actual s i r addr obj s')
      (fun _ s' => OnlyRecords s.store s'.store ∧
        ((actual = [] ∨ actionMax < actual.length) ∧ s' = s ∨ Settled a id s s')) := by
  refine .failIf_bind
    (fun hbad => ⟨refl_of OnlyRecords _, .inl ⟨by simpa using hbad, rfl⟩⟩) fun _ => ?_
  have hkeep : OnlyRecords s.store (s.expire (a.clock 0)).store := by
    rw [expire_store]
    exact refl_of OnlyRecords _
  refine .orThrow_bind (fun hnone => ⟨hkeep, .inr (.refused rfl ?_)⟩) fun target ht => ?_
  · intro i r hf
    rw [hnone] at hf
    cases hf
  obtain ⟨i, r⟩ := target
  refine .ofExcept_bind (fun _ hdeny => ⟨hkeep, .inr (.refused rfl ?_)⟩) fun _ hcaller => ?_
  · intro i' r' hf hok
    cases ht.symm.trans hf
    rw [hdeny] at hok
    cases hok
  refine .failIf_bind (fun hclosed => ⟨hkeep, .inr (.refused rfl ?_)⟩) fun hprepared => ?_
  · intro i' r' hf _
    cases ht.symm.trans hf
    simpa using hclosed
  refine .attempt_bind (.mono (matchAndPublish_ends hcaller) ?_ ?_)
  · rintro _ t ⟨haction, htime, addr, obj, hfits, hrec, hnext⟩
    refine .modify ⟨i, r, addr, obj, ht, by simpa using hprepared, haction, htime, ?_, ?_, ?_⟩
    · rw [expire_store] at hfits
      exact hfits
    · rw [close_store]
      rw [expire_store] at hrec
      exact hrec
    · rw [hnext, close_withStore]
  · rintro e t ⟨hrec, hnext⟩
    refine .bind (.modify (.throw ⟨?_, .inr ?_⟩))
    · rw [close_store]
      rw [expire_store] at hrec
      exact hrec
    · have hover :
          (if e = .etimedout then SpeculationState.expired else .discarded) ≠ .prepared := by
        split <;> nofun
      refine .closed _ (some e) ht hover ?_
      rw [hnext, close_withStore]

lemma removeRecord_ends {free : Bool} :
    Atomic (removeRecord a id free) s
      (fun _ s' => ∃ i r, s.lookup id = some (i, r) ∧
        let t := if r.view.state = .prepared then s.close i .discarded (some .ecanceled) else s
        s' = if free then { t with records := t.records.set i none } else t) := by
  refine .get_bind (.fetch fun target ht => ?_)
  obtain ⟨i, r⟩ := target
  refine .lift fun _ _ => ?_
  by_cases hp : r.view.state = .prepared
  · rw [if_pos hp]
    cases free with
    | true => exact .modify ⟨i, r, ht, by simp only [hp, if_true]⟩
    | false => exact ⟨i, r, ht, by simp only [hp]; rfl⟩
  · rw [if_neg hp]
    cases free with
    | true => exact .modify ⟨i, r, ht, by simp only [hp, if_false, if_true]⟩
    | false => exact ⟨i, r, ht, by simp only [hp]; rfl⟩

end Calls

end Anunix.Speculation
