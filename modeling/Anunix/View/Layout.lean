import Anunix.View.ResourceView

/-!
# The layout of a pool

What every pool keeps: its live records lie apart from each other before its tail, its pages are
those its tail needs, and the reference count of a record is the number of its aliases
(`Pool.Laid`). Against a memory, each alias stands for the bytes expected of it (`Pool.Holds`). What
a pool holds depends only on its bytes before the tail.
-/

namespace Anunix.View
open Slots Region Option

abbrev Expected := Nat → Option (List UInt8)

def Pool.aliasIds (p : Pool) : List Nat :=
  p.aliases.reduceOption.map Alias.id

def Pool.flat (p : Pool) (mem : Nat → Nat → UInt8) : Nat → UInt8 :=
  Paged.flat pageSize mem p.pages

def Pool.bytes (p : Pool) (mem : Nat → Nat → UInt8) (r : Record) : List UInt8 :=
  load (p.flat mem) r.offset r.size

/-- What a record adds to `liveBytes`. -/
def Record.liveSize (r : Record) : Nat :=
  if r.refs ≠ 0 then r.size else 0

def Record.Apart (r q : Record) : Prop :=
  r.offset + r.size ≤ q.offset ∨ q.offset + q.size ≤ r.offset

structure Pool.Laid (p : Pool) : Prop where
  pageCount : p.pages.length = pagesFor p.tail
  fits : p.tail ≤ p.capacity * pageSize
  refs : ∀ i r, get p.records i = some r → r.refs = (p.aliasList i).length
  inside : ∀ i r, get p.records i = some r → r.refs ≠ 0 → r.offset + r.size ≤ p.tail
  apart : ∀ i j r q, i ≠ j → get p.records i = some r → get p.records j = some q →
    r.refs ≠ 0 → q.refs ≠ 0 → r.Apart q
  live : liveBytes p.records ≤ p.tail

structure Pool.Holds (sha256 : List UInt8 → List UInt8) (expected : Expected)
    (mem : Nat → Nat → UInt8) (p : Pool) : Prop where
  digest : ∀ i r, get p.records i = some r → r.refs ≠ 0 → r.digest = sha256 (p.bytes mem r)
  aliased : ∀ a ∈ p.aliases.reduceOption, ∃ r, get p.records a.record = some r ∧
    expected a.id = some (p.bytes mem r)

/-! ## Pages for bytes -/

lemma le_pagesFor (n : Nat) : n ≤ pageSize * pagesFor n := by
  unfold pagesFor pageSize
  omega

lemma pagesFor_mono {m n : Nat} (h : m ≤ n) : pagesFor m ≤ pagesFor n := by
  unfold pagesFor pageSize
  omega

variable {p : Pool} {sha256 : List UInt8 → List UInt8} {expected expected' : Expected}
  {mem mem' : Nat → Nat → UInt8} {r : Record} {i : Nat} {a : Alias}

section Pools

lemma Pool.Laid.tail_le (h : p.Laid) : p.tail ≤ pageSize * p.pages.length := by
  rw [h.pageCount]
  exact le_pagesFor p.tail

lemma Pool.mem_aliasIds {x : Nat} : x ∈ p.aliasIds ↔ ∃ a ∈ p.aliases.reduceOption, a.id = x :=
  List.mem_map

lemma Pool.Laid.refs_ne_zero (h : p.Laid) (ha : a ∈ p.aliases.reduceOption)
    (hr : get p.records a.record = some r) : r.refs ≠ 0 := by
  rw [h.refs a.record r hr]
  have hmem : a ∈ p.aliasList a.record := List.mem_filter.mpr ⟨ha, decide_eq_true rfl⟩
  exact Nat.pos_iff_ne_zero.mp (List.length_pos_of_mem hmem)

lemma Pool.Laid.bytes_congr (h : p.Laid) (hr : get p.records i = some r) (hlive : r.refs ≠ 0)
    {flat : Nat → UInt8} (hflat : ∀ k < p.tail, flat k = p.flat mem k) :
    load flat r.offset r.size = p.bytes mem r := by
  apply load_congr
  intro k _ hk
  have hinside := h.inside i r hr hlive
  exact hflat k (by omega)

/-- What a pool holds depends on its bytes before the tail. -/
lemma Pool.Holds.of_agree (h : p.Holds sha256 expected mem) (hlaid : p.Laid)
    (hflat : ∀ i < p.tail, p.flat mem' i = p.flat mem i)
    (hexpected : ∀ x ∈ p.aliasIds, expected' x = expected x) : p.Holds sha256 expected' mem' := by
  constructor
  · intro i r hr hlive
    rw [Pool.bytes, hlaid.bytes_congr hr hlive hflat]
    exact h.digest i r hr hlive
  · intro a ha
    obtain ⟨r, hr, hb⟩ := h.aliased a ha
    refine ⟨r, hr, ?_⟩
    rw [Pool.bytes, hlaid.bytes_congr hr (hlaid.refs_ne_zero ha hr) hflat,
      hexpected a.id (Pool.mem_aliasIds.mpr ⟨a, ha, rfl⟩)]
    exact hb

lemma Pool.flat_congr (h : ∀ x ∈ p.pages, mem' x = mem x) : p.flat mem' = p.flat mem :=
  Paged.flat_congr h

/-! ## Another record in a slot -/

section Slot

variable {p' : Pool} {o : Option Record}

lemma liveBytes_set {t : List (Option Record)} (hlt : i < t.length) :
    liveBytes (t.set i o) + (get t i).elim 0 Record.liveSize =
    liveBytes t + o.elim 0 Record.liveSize :=
  total_set hlt

lemma Pool.Laid.set (h : p.Laid) (hrecords : p'.records = p.records.set i o)
    (hpages : p'.pages.length = pagesFor p'.tail) (hfits : p'.tail ≤ p'.capacity * pageSize)
    (htail : p.tail ≤ p'.tail)
    (hother : ∀ k, k ≠ i → (p'.aliasList k).length = (p.aliasList k).length)
    (hrefs : ∀ r, o = some r → r.refs = (p'.aliasList i).length)
    (hnew : ∀ r, o = some r → r.refs ≠ 0 → r.offset + r.size ≤ p'.tail ∧
      ∀ k q, k ≠ i → get p.records k = some q → q.refs ≠ 0 → r.Apart q)
    (hlive : liveBytes (p.records.set i o) ≤ p'.tail) : p'.Laid := by
  refine ⟨hpages, hfits, ?_, ?_, ?_, hrecords ▸ hlive⟩
  · intro k q hq
    rw [hrecords] at hq
    rcases of_get_set hq with ⟨rfl, ho⟩ | ⟨hk, hq⟩
    · exact hrefs q ho
    · exact (h.refs k q hq).trans (hother k hk).symm
  · intro k q hq hne
    rw [hrecords] at hq
    rcases of_get_set hq with ⟨rfl, ho⟩ | ⟨-, hq⟩
    · exact (hnew q ho hne).1
    · exact (h.inside k q hq hne).trans htail
  · intro k l q u hkl hq hu hne hne'
    rw [hrecords] at hq hu
    rcases of_get_set hq with ⟨rfl, ho⟩ | ⟨-, hq'⟩
    · rw [get_set_of_ne hkl.symm] at hu
      exact (hnew q ho hne).2 l u hkl.symm hu hne'
    · rcases of_get_set hu with ⟨rfl, ho⟩ | ⟨-, hu'⟩
      · exact Or.symm ((hnew u ho hne').2 k q hkl hq' hne)
      · exact h.apart k l q u hkl hq' hu' hne hne'

lemma Pool.Holds.set (h : p.Holds sha256 expected mem) (hlaid : p.Laid) (hlt : i < p.records.length)
    (hrecords : p'.records = p.records.set i o)
    (hbytes : ∀ k q, k ≠ i → get p.records k = some q → q.refs ≠ 0 →
      p'.bytes mem' q = p.bytes mem q)
    (hnew : ∀ r, o = some r → r.refs ≠ 0 → r.digest = sha256 (p'.bytes mem' r))
    (halias : ∀ a ∈ p'.aliases.reduceOption,
      (a ∈ p.aliases.reduceOption ∧ a.record ≠ i ∧ expected' a.id = expected a.id) ∨
        a.record = i ∧ ∃ r, o = some r ∧ expected' a.id = some (p'.bytes mem' r)) :
    p'.Holds sha256 expected' mem' := by
  constructor
  · intro k q hq hne
    rw [hrecords] at hq
    rcases of_get_set hq with ⟨rfl, ho⟩ | ⟨hk, hq⟩
    · exact hnew q ho hne
    · rw [hbytes k q hk hq hne]
      exact h.digest k q hq hne
  · intro a ha
    rw [hrecords]
    rcases halias a ha with ⟨hold, hk, hid⟩ | ⟨hk, r, rfl, hid⟩
    · obtain ⟨q, hq, hb⟩ := h.aliased a hold
      refine ⟨q, by rw [get_set_of_ne hk, hq], ?_⟩
      rw [hid, hb, hbytes a.record q hk hq (hlaid.refs_ne_zero hold hq)]
    · exact ⟨r, by rw [hk, get_set_self hlt], hid⟩

end Slot

/-! ## Reference counts -/

lemma length_filter_cons (b : Alias) (l : List Alias) (k : Nat) :
    ((b :: l).filter fun a => a.record = k).length =
      (if k = b.record then 1 else 0) + (l.filter fun a => a.record = k).length := by
  by_cases hk : k = b.record
  · simp [hk, Nat.add_comm]
  · simp [hk, Ne.symm hk]

variable {t : List (Option Alias)}

lemma Pool.Laid.setRefs (h : p.Laid) (hr : get p.records i = some r) {n : Nat}
    (hlive : n ≠ 0 → r.refs ≠ 0)
    (hcount : ∀ k, (t.reduceOption.filter fun a => a.record = k).length =
      if k = i then n else (p.aliasList k).length) :
    { p with aliases := t, records := p.records.set i (some { r with refs := n }) }.Laid := by
  refine h.set rfl h.pageCount h.fits (Nat.le_refl _)
    (fun k hk => (hcount k).trans (if_neg hk)) ?_ ?_ ?_
  · rintro _ ⟨⟩
    exact ((hcount i).trans (if_pos rfl)).symm
  · rintro _ ⟨⟩ hne
    exact ⟨h.inside i r hr (hlive hne), fun k q hk hq => h.apart i k r q hk.symm hr hq (hlive hne)⟩
  · -- a record that comes to an end only takes bytes away
    have hle : Record.liveSize { r with refs := n } ≤ r.liveSize := by
      unfold Record.liveSize
      by_cases hn : n = 0
      · simp [hn]
      · simp [hn, hlive hn]
    have htotal := liveBytes_set (o := some { r with refs := n }) (lt_of_get hr)
    rw [hr, elim_some, elim_some] at htotal
    exact Nat.le_trans (by omega) h.live

lemma Pool.Holds.setRefs (h : p.Holds sha256 expected mem) (hlaid : p.Laid)
    (hr : get p.records i = some r) {n : Nat} (hlive : n ≠ 0 → r.refs ≠ 0)
    (halias : ∀ a ∈ t.reduceOption, (a ∈ p.aliases.reduceOption ∧ expected' a.id = expected a.id) ∨
      a.record = i ∧ expected' a.id = some (p.bytes mem r)) :
    { p with aliases := t, records := p.records.set i (some { r with refs := n }) }.Holds sha256
    expected' mem := by
  refine h.set hlaid (lt_of_get hr) rfl (fun _ _ _ _ _ => rfl) ?_ fun a ha => ?_
  · rintro _ ⟨⟩ hne
    exact h.digest i r hr (hlive hne)
  · rcases halias a ha with ⟨hold, hid⟩ | ⟨hk, hid⟩
    · by_cases hk : a.record = i
      · obtain ⟨q, hq, hb⟩ := h.aliased a hold
        rw [hk, hr] at hq
        cases hq
        exact Or.inr ⟨hk, _, rfl, hid.trans hb⟩
      · exact Or.inl ⟨hold, hk, hid⟩
    · exact Or.inr ⟨hk, _, rfl, hid⟩

end Pools

/-! ## Aliases in free slots -/

section Places

variable {t : List (Option Alias)} {as : List Alias}

lemma perm_place (h : 0 < t.countP isNone) :
    (place t a).reduceOption.Perm (a :: t.reduceOption) := by
  obtain ⟨i, hi⟩ := exists_firstFree h
  obtain ⟨hlt, hnone⟩ := firstFree_eq_some hi
  unfold place
  rw [hi]
  exact perm_fill hlt hnone

lemma length_place : (place t a).length = t.length := by
  unfold place
  split
  · exact List.length_set
  · rfl

lemma countP_place (h : 0 < t.countP isNone) : (place t a).countP isNone + 1 = t.countP isNone := by
  have hbefore := length_reduceOption_add (t := t)
  have hafter := length_reduceOption_add (t := place t a)
  rw [length_place, (perm_place h).length_eq, List.length_cons] at hafter
  omega

lemma perm_places (h : as.length ≤ t.countP isNone) :
    (as.foldl place t).reduceOption.Perm (as ++ t.reduceOption) := by
  induction as generalizing t with
  | nil => exact List.Perm.refl _
  | cons a as ih =>
    rw [List.length_cons] at h
    have hfree : 0 < t.countP isNone := by omega
    have hcount := countP_place (a := a) hfree
    have hrest : (as.foldl place (place t a)).reduceOption.Perm (as ++ (place t a).reduceOption) :=
      ih (by omega)
    have hhead : (as ++ (place t a).reduceOption).Perm (as ++ a :: t.reduceOption) :=
      (perm_place hfree).append_left as
    exact (hrest.trans hhead).trans List.perm_middle

end Places

/-! ## A record more -/

section Including

variable {as : List Alias} {fresh : List Nat} {data : List UInt8}

lemma Pool.Holds.aliasList_eq_nil (h : p.Holds sha256 expected mem)
    (hnone : get p.records i = none) : p.aliasList i = [] := by
  apply List.filter_eq_nil_iff.mpr
  intro a ha hrec
  obtain ⟨r, hr, -⟩ := h.aliased a ha
  rw [of_decide_eq_true hrec, hnone] at hr
  cases hr

section

variable (hroom : as.length ≤ p.aliases.countP isNone)
include hroom

lemma Pool.perm_including :
    (p.including fresh i r as).aliases.reduceOption.Perm
    (as.map (Alias.onto i) ++ p.aliases.reduceOption) :=
  perm_places (by rwa [List.length_map])

lemma Pool.aliasIds_including :
    (p.including fresh i r as).aliasIds.Perm (as.map Alias.id ++ p.aliasIds) := by
  have hperm : (p.including fresh i r as).aliasIds.Perm
      ((as.map (Alias.onto i) ++ p.aliases.reduceOption).map Alias.id) :=
    (Pool.perm_including hroom).map Alias.id
  rwa [List.map_append, List.map_map] at hperm

lemma Pool.length_aliasList_including (k : Nat) : ((p.including fresh i r as).aliasList k).length =
      (if k = i then as.length else 0) + (p.aliasList k).length := by
  have hperm : ((p.including fresh i r as).aliasList k).length =
      ((as.map (Alias.onto i) ++ p.aliases.reduceOption).filter fun a => a.record = k).length :=
    ((Pool.perm_including hroom).filter _).length_eq
  rw [hperm, List.filter_append, List.length_append]
  congr 1
  by_cases hk : k = i
  · subst hk
    rw [if_pos rfl, List.filter_eq_self.mpr, List.length_map]
    intro a ha
    obtain ⟨b, -, rfl⟩ := List.mem_map.mp ha
    exact decide_eq_true rfl
  · rw [if_neg hk, List.filter_eq_nil_iff.mpr, List.length_nil]
    intro a ha
    obtain ⟨b, -, rfl⟩ := List.mem_map.mp ha
    exact fun hrec => hk (of_decide_eq_true hrec).symm

end

lemma Pool.Laid.including (h : p.Laid) (hlt : i < p.records.length) (hnone : p.aliasList i = [])
    (hrefs : as.length = r.refs) (hroom : as.length ≤ p.aliases.countP isNone)
    (hpages : fresh.length = pagesFor (p.tail + r.size) - p.pages.length)
    (hfits : r.size ≤ p.capacity * pageSize - p.tail) : (p.including fresh i r as).Laid := by
  refine h.set rfl ?_ ?_ (Nat.le_add_right _ _) ?_ ?_ ?_ ?_
  · have hle := pagesFor_mono (Nat.le_add_right p.tail r.size)
    have hcount := h.pageCount
    change (p.pages ++ fresh).length = pagesFor (p.tail + r.size)
    rw [List.length_append]
    omega
  · have hold := h.fits
    change p.tail + r.size ≤ p.capacity * pageSize
    omega
  · intro k hk
    rw [Pool.length_aliasList_including hroom k, if_neg hk, Nat.zero_add]
  · rintro _ ⟨⟩
    rw [Pool.length_aliasList_including hroom i, if_pos rfl, hnone]
    exact hrefs.symm
  · -- the new record starts where the others end
    rintro _ ⟨⟩ _
    exact ⟨Nat.le_refl _, fun k q _ hq hne => .inr (h.inside k q hq hne)⟩
  · have hle : Record.liveSize { r with offset := p.tail } ≤ r.size := by
      unfold Record.liveSize
      split
      · exact Nat.le_refl _
      · exact Nat.zero_le _
    have htotal := liveBytes_set (o := some { r with offset := p.tail }) hlt
    rw [elim_some] at htotal
    have hold := h.live
    change liveBytes (p.records.set i (some { r with offset := p.tail })) ≤ p.tail + r.size
    omega

lemma Pool.Laid.behind_tail (h : p.Laid) {mem1 : Nat → Nat → UInt8}
    (hstore : Paged.flat pageSize mem' (p.pages ++ fresh) =
      store (Paged.flat pageSize mem1 (p.pages ++ fresh)) p.tail data)
    (hmem : ∀ x ∈ p.pages, mem1 x = mem x) :
    (∀ k < p.tail, Paged.flat pageSize mem' (p.pages ++ fresh) k = p.flat mem k) ∧
      load (Paged.flat pageSize mem' (p.pages ++ fresh)) p.tail data.length = data := by
  constructor
  · intro k hk
    rw [hstore, store_of_lt hk, Paged.flat_append fresh (Nat.lt_of_lt_of_le hk h.tail_le)]
    exact congrFun (Paged.flat_congr hmem) k
  · rw [hstore]
    exact load_store_self

/-- A pool with a record more holds its bytes and those it held before, if the bytes before its tail
are left alone and the record's bytes stand behind it. -/
lemma Pool.Holds.including (h : p.Holds sha256 expected mem) (hlaid : p.Laid)
    (hlt : i < p.records.length) (hroom : as.length ≤ p.aliases.countP isNone)
    (hnone : p.aliasList i = [])
    (hflat : ∀ k < p.tail, Paged.flat pageSize mem' (p.pages ++ fresh) k = p.flat mem k)
    (hdata : load (Paged.flat pageSize mem' (p.pages ++ fresh)) p.tail r.size = data)
    (hdigest : r.digest = sha256 data) (hnew : ∀ a ∈ as, expected' a.id = some data)
    (hold : ∀ x ∈ p.aliasIds, expected' x = expected x) :
    (p.including fresh i r as).Holds sha256 expected' mem' := by
  refine h.set hlaid hlt rfl (fun k q _ hq hne => hlaid.bytes_congr hq hne hflat) ?_ fun a ha => ?_
  · rintro _ ⟨⟩ _
    rw [← hdata] at hdigest
    exact hdigest
  · cases List.mem_append.mp ((Pool.perm_including hroom).mem_iff.mp ha) with
    | inl hmoved =>
      obtain ⟨b, hb, rfl⟩ := List.mem_map.mp hmoved
      exact Or.inr ⟨rfl, _, rfl, (hnew b hb).trans (congrArg some hdata.symm)⟩
    | inr hthere =>
      refine Or.inl ⟨hthere, fun heq => ?_, hold a.id (Pool.mem_aliasIds.mpr ⟨a, hthere, rfl⟩)⟩
      have hmem : a ∈ p.aliasList i := List.mem_filter.mpr ⟨hthere, decide_eq_true heq⟩
      rw [hnone] at hmem
      cases hmem

end Including

/-! ## A record less -/

section Without

lemma Pool.reduceOption_without :
    (p.without i).aliases.reduceOption = p.aliases.reduceOption.filter fun a => a.record ≠ i :=
  reduceOption_map_filter

lemma Pool.aliasList_without {k : Nat} (hk : k ≠ i) :
    (p.without i).aliasList k = p.aliasList k := by
  unfold Pool.aliasList
  rw [Pool.reduceOption_without, List.filter_filter]
  apply List.filter_congr
  intro a _
  by_cases ha : a.record = k
  · simp [ha, hk]
  · simp [ha]

lemma Pool.Laid.without (h : p.Laid) (hlt : i < p.records.length) : (p.without i).Laid := by
  refine h.set rfl h.pageCount h.fits (Nat.le_refl _)
    (fun k hk => by rw [Pool.aliasList_without hk]) nofun nofun ?_
  have htotal := liveBytes_set (o := none) hlt
  rw [elim_none] at htotal
  exact Nat.le_trans (by omega) h.live

/-- The records that stay lie apart from the one that goes, so its bytes may be overwritten. -/
lemma Pool.Holds.without (h : p.Holds sha256 expected mem) (hlaid : p.Laid)
    (hr : get p.records i = some r) (hlive : r.refs ≠ 0)
    (hflat : ∀ k, k < r.offset ∨ r.offset + r.size ≤ k → k < p.tail → p.flat mem' k = p.flat mem k)
    (hexpected : ∀ a ∈ p.aliases.reduceOption, a.record ≠ i → expected' a.id = expected a.id) :
    (p.without i).Holds sha256 expected' mem' := by
  refine h.set hlaid (lt_of_get hr) rfl (fun k q hk hq hne => ?_) nofun fun a ha => ?_
  · apply load_congr
    intro x hl hx
    have hinside := hlaid.inside k q hq hne
    have hapart := hlaid.apart k i q r hk hq hr hne hlive
    unfold Record.Apart at hapart
    exact hflat x (by omega) (by omega)
  · rw [Pool.reduceOption_without] at ha
    obtain ⟨hmem, hrec⟩ := List.mem_filter.mp ha
    have hne : a.record ≠ i := of_decide_eq_true hrec
    exact Or.inl ⟨hmem, hne, hexpected a hmem hne⟩

end Without

end Anunix.View
