import Anunix.View.Calls

/-!
# Insertion, compaction and moves

The calls that take pages and write them. A record that comes into a pool, new or from another pool,
is put behind the tail (`Views.Sound.include`).
-/

namespace Anunix.View

open Fallible Paged Slots List Region

variable {sha256 : List UInt8 → List UInt8} {expected expected' : Expected} {s s1 s' : Views}
  {record i : Nat} {fresh : List Nat} {r : Record} {as : List Alias}

section Include

variable {slot : Nat} {pool p : Pool} {data : List UInt8}

lemma Views.Sound.include (h : s.Sound sha256 expected) (hp : get s.pools slot = some pool)
    (hpools : s'.pools = s.pools.set slot (some (pool.including fresh record r as)))
    (hlt : record < pool.records.length) (hfree : get pool.records record = none)
    (hrefs : as.length = r.refs) (hroom : as.length ≤ pool.aliases.countP Option.isNone)
    (hcount : fresh.length = pagesFor (pool.tail + r.size) - pool.pages.length)
    (hfits : r.size ≤ pool.capacity * pageSize - pool.tail) (hnodup : fresh.Nodup)
    (hfresh : ∀ x ∈ fresh, x ∉ s.held) (hheld : ∀ x, x ∈ s'.held ↔ x ∈ s.held ∨ x ∈ fresh)
    (hmem : ∀ x ∈ s.held, x ∉ pool.pages → s'.mem x = s.mem x)
    (hflat : ∀ k < pool.tail, flat pageSize s'.mem (pool.pages ++ fresh) k = pool.flat s.mem k)
    (hdata : load (flat pageSize s'.mem (pool.pages ++ fresh)) pool.tail r.size = data)
    (hdigest : r.digest = sha256 data) (hids : (as.map Alias.id).Nodup)
    (hout : ∀ x ∈ as.map Alias.id, expected x = none) (hnew : ∀ a ∈ as, expected' a.id = some data)
    (hold : ∀ x, x ∉ as.map Alias.id → expected' x = expected x)
    (hbelow : ∀ x, (expected' x).isSome = true → x ≤ s'.sequence) : s'.Sound sha256 expected' := by
  have hholds := h.holds slot pool hp
  have hlaid := h.laid slot pool hp
  have hnone := hholds.aliasList_eq_nil hfree
  -- an alias that is there is not one of the new ones
  have hthere : ∀ x, (expected x).isSome = true → expected' x = expected x := by
    intro x hx
    apply hold
    intro hmem
    rw [hout x hmem] at hx
    cases hx
  refine h.replace hpools ?_ ?_ ?_ ?_ hbelow
  · intro p hp'
    cases hp'
    refine ⟨hlaid.including hlt hnone hrefs hroom hcount hfits,
      hholds.including hlaid hlt hroom hnone hflat hdata hdigest hnew fun x hx => ?_⟩
    exact hthere x (h.ids.mem hp hx)
  · intro i p hi hp'
    exact h.others hp hmem (fun x hx _ => hthere x hx) hi hp'
  · exact h.pages.grow hp perm_append_comm hnodup hfresh hheld
  · refine h.ids.grow hp (Pool.aliasIds_including hroom) hids ?_ fun x => ?_
    · intro x hx hsome
      rw [hout x hx] at hsome
      cases hsome
    · by_cases hx : x ∈ as.map Alias.id
      · obtain ⟨a, ha, rfl⟩ := mem_map.mp hx
        rw [hnew a ha]
        exact ⟨fun _ => Or.inr hx, fun _ => rfl⟩
      · rw [hold x hx]
        exact ⟨Or.inl, fun hor => hor.resolve_right hx⟩

section

variable (hg : Grown s fresh s1) (h : s.Sound sha256 expected) (hp : get s.pools i = some p)
include hg h hp

lemma Grown.mem_pages : ∀ x ∈ p.pages, s1.mem x = s.mem x := by
  intro x hx
  exact hg.mem x fun hnew => hg.new x hnew (h.pages.mem hp hx)

lemma Grown.nodup_pages : (p.pages ++ fresh).Nodup :=
  (h.pages.nodup i p hp).append hg.nodup fun x hx hnew => hg.new x hnew (h.pages.mem hp hx)

end

lemma Pool.Laid.end_le (h : pool.Laid) {n : Nat}
    (hcount : fresh.length = pagesFor (pool.tail + n) - pool.pages.length) :
    pool.tail + n ≤ pageSize * (pool.pages ++ fresh).length := by
  have hmono := pagesFor_mono (Nat.le_add_right pool.tail n)
  have hpages := h.pageCount
  have htotal : pool.pages.length + fresh.length = pagesFor (pool.tail + n) := by omega
  rw [length_append, htotal]
  exact le_pagesFor (pool.tail + n)

end Include

/-! ## Insertion -/

lemma viewInsert_ends (h : s.Sound sha256 expected) (c : Caller) (id : Nat) (data : List UInt8)
    (grants : List (Option Nat)) : Ends (viewInsert sha256 c id data grants) s
      (fun n s' => s.sequence < n ∧ s'.Sound sha256 (Function.update expected n (some data)))
      fun _ s' => s.Same s' := by
  refine .guard fun _ => ?_
  refine .fetch fun ⟨slot, pool⟩ hfind => ?_
  refine .lift fun _ _ => ?_
  refine .fetch fun record hrecord => ?_
  refine .guard fun halias => ?_
  refine .guard fun _ => ?_
  refine .guard fun hfits => ?_
  refine allocated (fun _ _ => rfl) fun fresh s1 hg hcount => ?_
  obtain ⟨hp, -⟩ := firstWith_eq_some hfind
  obtain ⟨hlt, hfree⟩ := firstFree_eq_some hrecord
  have hlaid := h.laid slot pool hp
  have hsize : data.length ≤ pool.capacity * pageSize - pool.tail :=
    Nat.le_of_not_lt (of_decide_eq_false hfits)
  have hend := hlaid.end_le hcount
  obtain ⟨hbefore, hbehind⟩ :=
    hlaid.behind_tail (flat_copyIn (hg.nodup_pages h hp) hend) (hg.mem_pages h hp)
  have hfresh : ∀ x, (expected x).isSome = true → x ≠ s.sequence + 2 := by
    intro x hx heq
    have hle := h.below x hx
    omega
  have hroom : 0 < pool.aliases.countP Option.isNone := by
    cases hslot : firstFree pool.aliases with
    | none =>
      rw [hslot] at halias
      cases halias
    | some i => exact countP_pos_of_firstFree hslot
  refine ⟨Nat.lt_add_of_pos_right Nat.two_pos, ?_⟩
  rw [← hg.sequence] at hfresh ⊢
  have hpools : (s1.insertRecord sha256 slot pool fresh record data).pools =
      s.pools.set slot (some (pool.including fresh record
        ⟨s1.sequence + 1, pool.tail, data.length, 1,
          recordDigest sha256 (copyIn s1.mem (pool.pages ++ fresh)
          pool.tail data) (pool.pages ++ fresh) pool.tail data.length⟩
          [⟨s1.sequence + 2, record⟩])) := by
    rw [← hg.pools]
    rfl
  refine h.include hp hpools hlt hfree rfl hroom hcount hsize hg.nodup hg.new hg.held ?_ hbefore
    hbehind ?_ (nodup_singleton _) ?_ ?_ ?_ ?_
  · intro x hx hout
    have hnew : x ∉ fresh := fun hmem => hg.new x hmem hx
    change Paged.copyIn pageSize s1.mem (pool.pages ++ fresh) pool.tail data x = s.mem x
    rw [copyIn_of_notMem (by rw [mem_append, not_or]; exact ⟨hout, hnew⟩), hg.mem x hnew]
  · change sha256 (Paged.copyOut pageSize _ (pool.pages ++ fresh) pool.tail data.length) =
      sha256 data
    rw [copyOut_eq]
    exact congrArg sha256 hbehind
  · intro x hx
    rw [mem_singleton.mp hx]
    cases hnone : expected (s1.sequence + 2) with
    | none => rfl
    | some b => exact absurd rfl (hfresh _ (by rw [hnone]; rfl))
  · intro a ha
    rw [mem_singleton.mp ha]
    exact Function.update_self _ _ _
  · intro x hx
    exact Function.update_of_ne (fun heq => hx (mem_singleton.mpr heq)) _ _
  · intro x hx
    change x ≤ s1.sequence + 2
    by_cases hnew : x = s1.sequence + 2
    · exact Nat.le_of_eq hnew
    · rw [Function.update_of_ne hnew] at hx
      have hle := h.below x hx
      rw [hg.sequence]
      omega

/-! ## Compaction -/

lemma poolCompact_ends (h : s.Sound sha256 expected) (c : Caller)
    (id minimumDeadBytes headroomPages : Nat) (grants : List (Option Nat)) :
    Ends (poolCompact sha256 c id minimumDeadBytes headroomPages grants) s
      (fun _ s' => s'.Sound sha256 expected) fun _ s' => s.Same s' := by
  refine .guard fun _ => ?_
  refine .guard fun _ => ?_
  refine .fetch fun ⟨slot, pool⟩ hfind => ?_
  refine .guard fun _ => ?_
  refine .guard fun _ => ?_
  refine allocated (fun _ _ => rfl) fun dest s1 hg hcount => ?_
  apply Ends.get_bind
  obtain ⟨hp, -⟩ := firstWith_eq_some hfind
  have hlaid := h.laid slot pool hp
  have hapart : ∀ x ∈ pool.pages, x ∉ dest := fun x hx hnew => hg.new x hnew (h.pages.mem hp hx)
  -- what the pool holds, seen after the allocation
  have hsame : pool.flat s1.mem = pool.flat s.mem := Pool.flat_congr (hg.mem_pages h hp)
  have hholds : pool.Holds sha256 expected s1.mem :=
    (h.holds slot pool hp).of_agree hlaid (fun k _ => by rw [hsame]) fun _ _ => rfl
  have hroom : 0 + liveBytes pool.records ≤ pageSize * dest.length := by
    rw [Nat.zero_add, hcount]
    exact le_pagesFor _
  obtain ⟨mem', moved, hloop, hmoved, hother, -⟩ :=
    relocate_moved hg.nodup hapart hroom hholds.digest
  rw [hloop]
  let s2 : Views := { s1 with mem := mem' }
  have hkept : ∀ x, x ∉ pool.pages → (s2.freePages pool.pages).mem x = mem' x :=
    fun x => mem_freePages pool.pages
  have hpools : (s2.commitCompact slot pool dest moved).pools =
      s.pools.set slot (some (pool.compacted dest moved)) := by
    rw [← hg.pools]
    rfl
  refine h.replace hpools ?_ ?_ ?_ ?_ ?_
  · intro p hp'
    cases hp'
    have hlaid' := hlaid.compacted hmoved hcount
    refine ⟨hlaid', (hholds.compacted hlaid hmoved).of_agree hlaid' (fun k _ => ?_) fun _ _ => rfl⟩
    have hflat : (pool.compacted dest moved).flat (s2.freePages pool.pages).mem =
        (pool.compacted dest moved).flat mem' :=
      Pool.flat_congr fun x hx => hkept x fun hold => hapart x hold hx
    exact congrFun hflat k
  · intro i p hi hp'
    refine h.others hp (fun x hx hout => ?_) (fun _ _ _ => rfl) hi hp'
    have hnew : x ∉ dest := fun hmem => hg.new x hmem hx
    change (s2.freePages pool.pages).mem x = s.mem x
    rw [hkept x hout, hother x hnew, hg.mem x hnew]
  · refine h.pages.set (lt_of_get hp) hp hg.nodup (fun x hx => .inr (hg.new x hx)) fun x => ?_
    change x ∈ (s2.freePages pool.pages).held ↔ x ∈ s.held ∧ x ∉ pool.pages ∨ x ∈ dest
    rw [held_freePages]
    rw [hg.held x]
    constructor
    · rintro ⟨hold | hnew, hout⟩
      · exact .inl ⟨hold, hout⟩
      · exact .inr hnew
    · rintro (⟨hold, hout⟩ | hnew)
      · exact ⟨.inl hold, hout⟩
      · exact ⟨.inr hnew, fun hold => hapart x hold hnew⟩
  · exact h.ids.keep hp rfl
  · intro x hx
    change x ≤ (s2.freePages pool.pages).sequence
    rw [sequence_freePages]
    rw [hg.sequence]
    exact h.below x hx

/-! ## Moves -/

section Move

variable {k x : Nat} {source destination : Pool} {sourceRecord : Nat}

def Expected.without (expected : Expected) (as : List Alias) : Expected := fun x =>
  if x ∈ as.map Alias.id then none else expected x

lemma Expected.without_of_mem (h : x ∈ as.map Alias.id) : expected.without as x = none :=
  if_pos h

lemma Expected.without_of_notMem (h : x ∉ as.map Alias.id) : expected.without as x = expected x :=
  if_neg h

lemma Pool.perm_without (p : Pool) (n : Nat) :
    p.aliasIds.Perm ((p.aliasList n).map Alias.id ++ (p.without n).aliasIds) := by
  have hsplit :
      (p.aliasList n ++ (p.without n).aliases.reduceOption).Perm p.aliases.reduceOption := by
    rw [Pool.reduceOption_without]
    have hnot : (fun a : Alias => decide (a.record ≠ n)) = fun a => !decide (a.record = n) := by
      funext a
      exact decide_not
    rw [hnot]
    exact filter_append_perm _ _
  have hmap := hsplit.symm.map Alias.id
  rwa [map_append] at hmap

/-- The memory once a record is copied behind the tail of another pool and its old bytes are set to
zero. -/
structure MovedBytes (s : Views) (source destination : Pool) (fresh : List Nat) (r : Record)
    (mem' : Nat → Nat → UInt8) : Prop where
  kept : ∀ k, k < r.offset ∨ r.offset + r.size ≤ k → source.flat mem' k = source.flat s.mem k
  before : ∀ k < destination.tail, destination.flat mem' k = destination.flat s.mem k
  copied : load (flat pageSize mem' (destination.pages ++ fresh)) destination.tail r.size =
    source.bytes s.mem r
  others : ∀ x, x ∉ source.pages → x ∉ destination.pages → x ∉ fresh → mem' x = s.mem x

def copied (mem : Nat → Nat → UInt8) (source destination : Pool) (fresh : List Nat) (r : Record) :
    Nat → Nat → UInt8 :=
  copyBetween pageSize mem source.pages r.offset
    (destination.pages ++ fresh) destination.tail r.size

section Copy

variable (h : s.Sound sha256 expected) (hi : get s.pools i = some source)
  (hk : get s.pools k = some destination) (hik : i ≠ k) (hg : Grown s fresh s1)

include h hi hk hik hg

lemma source_notMem : ∀ x ∈ source.pages, x ∉ destination.pages ++ fresh := by
  intro x hx hmem
  cases mem_append.mp hmem with
  | inl hdest => exact h.pages.apart i k source destination hik hi hk x hx hdest
  | inr hnew => exact hg.new x hnew (h.pages.mem hi hx)

lemma flat_copied
    (hend : destination.tail + r.size ≤ pageSize * (destination.pages ++ fresh).length) :
    flat pageSize (copied s1.mem source destination fresh r) (destination.pages ++ fresh) =
      store (flat pageSize s1.mem (destination.pages ++ fresh)) destination.tail
      (source.bytes s.mem r) := by
  have hread : load (flat pageSize s1.mem source.pages) r.offset r.size = source.bytes s.mem r := by
    unfold Pool.bytes Pool.flat
    rw [flat_congr (hg.mem_pages h hi)]
  rw [← hread]
  exact flat_copyBetween (hg.nodup_pages h hk) (source_notMem h hi hk hik hg) hend

variable (hr : get source.records sourceRecord = some r) (hlive : r.refs ≠ 0)
include hr hlive

lemma movedBytes
    (hend : destination.tail + r.size ≤ pageSize * (destination.pages ++ fresh).length) :
    MovedBytes s source destination fresh r
      (zeroRange (copied s1.mem source destination fresh r) source.pages r.offset r.size) := by
  have hsrc := source_notMem h hi hk hik hg
  have hlaid := h.laid i source hi
  have hlen : (source.bytes s.mem r).length = r.size := length_load
  have hflat := flat_copied h hi hk hik hg hend
  obtain ⟨hbefore, hbehind⟩ := (h.laid k destination hk).behind_tail hflat (hg.mem_pages h hk)
  -- the zeros are written to the pages of the source only
  have hzero :
    ∀ x, x ∉ source.pages → zeroRange (copied s1.mem source destination fresh r) source.pages
      r.offset r.size x = copied s1.mem source destination fresh r x :=
    fun x => copyIn_of_notMem
  have hdest : flat pageSize (zeroRange (copied s1.mem source destination fresh r) source.pages
      r.offset r.size) (destination.pages ++ fresh) =
      flat pageSize (copied s1.mem source destination fresh r) (destination.pages ++ fresh) :=
    flat_congr fun x hx => hzero x fun hold => hsrc x hold hx
  constructor
  · intro n hn
    have hstay : source.flat (copied s1.mem source destination fresh r) = source.flat s.mem :=
      Pool.flat_congr fun x hx => by
        rw [copied, copyBetween_of_notMem (hsrc x hx), hg.mem_pages h hi x hx]
    have hinside := hlaid.inside sourceRecord r hr hlive
    have htail := hlaid.tail_le
    unfold zeroRange copyIn Pool.flat
    rw [flat_copyIn (h.pages.nodup i source hi) (by rw [length_replicate]; omega),
      store_of_disjoint (by rw [length_replicate]; exact hn)]
    exact congrFun hstay n
  · intro n hn
    have hin : n < pageSize * destination.pages.length :=
      Nat.lt_of_lt_of_le hn (h.laid k destination hk).tail_le
    unfold Pool.flat
    rw [← flat_append fresh hin, hdest]
    exact hbefore n hn
  · rw [hdest, ← hlen]
    exact hbehind
  · intro x hs hd hf
    rw [hzero x hs, copied, copyBetween_of_notMem (by rw [mem_append, not_or]; exact ⟨hd, hf⟩),
      hg.mem x hf]

/-- With the record taken out of its pool, and not yet in the other, everything else is as
expected. -/
lemma Views.Sound.takeOut {mem' : Nat → Nat → UInt8}
    (hm : MovedBytes s source destination fresh r mem') :
    Views.Sound sha256 (expected.without (source.aliasList sourceRecord))
      ⟨mem', s.held, s.pools.set i (some (source.without sourceRecord)), s.sequence⟩ := by
  have hlaid := h.laid i source hi
  have hperm := source.perm_without sourceRecord
  have hdisjoint := disjoint_of_nodup_append (hperm.nodup_iff.mp (h.ids.nodup i source hi))
  have hmoved : ∀ x ∈ (source.aliasList sourceRecord).map Alias.id, x ∈ source.aliasIds :=
    fun x hx => hperm.mem_iff.mpr (mem_append_left _ hx)
  refine h.replace rfl ?_ ?_ (h.pages.keep hi rfl) ?_ ?_
  · intro p hp
    cases hp
    refine ⟨hlaid.without (lt_of_get hr),
      (h.holds i source hi).without hlaid hr hlive (fun n hn _ => hm.kept n hn) fun a ha hne => ?_⟩
    apply Expected.without_of_notMem
    intro hmem
    apply hdisjoint hmem
    refine Pool.mem_aliasIds.mpr ⟨a, ?_, rfl⟩
    rw [Pool.reduceOption_without]
    exact mem_filter.mpr ⟨ha, decide_eq_true hne⟩
  · intro n p hn hp
    refine (h.holds n p hp).of_agree (h.laid n p hp) (fun x hx => ?_) fun x hx => ?_
    · by_cases hnk : n = k
      · subst hnk
        rw [hk] at hp
        cases hp
        exact hm.before x hx
      · -- a third pool
        have hflat : p.flat mem' = p.flat s.mem := Pool.flat_congr fun y hy =>
          hm.others y (h.pages.apart n i p source hn hp hi y hy)
            (h.pages.apart n k p destination hnk hp hk y hy)
            fun hnew => hg.new y hnew (h.pages.mem hp hy)
        exact congrFun hflat x
    · apply Expected.without_of_notMem
      exact fun hmem => h.ids.apart n i p source hn hp hi x hx (hmoved x hmem)
  · refine h.ids.shrink hi hperm fun x => ?_
    by_cases hx : x ∈ (source.aliasList sourceRecord).map Alias.id
    · rw [Expected.without_of_mem hx]
      exact ⟨Bool.noConfusion, fun hand => absurd hx hand.2⟩
    · rw [Expected.without_of_notMem hx]
      exact ⟨fun hsome => ⟨hsome, hx⟩, And.left⟩
  · intro x hx
    by_cases hmem : x ∈ (source.aliasList sourceRecord).map Alias.id
    · rw [Expected.without_of_mem hmem] at hx
      cases hx
    · rw [Expected.without_of_notMem hmem] at hx
      exact h.below x hx

lemma Views.Sound.commitMove (hsource : source.record sourceRecord = r)
    (hrecord : firstFree destination.records = some record)
    (hroom : r.refs ≤ destination.aliases.countP Option.isNone)
    (hcount : fresh.length = pagesFor (destination.tail + r.size) - destination.pages.length)
    (hfits : r.size ≤ destination.capacity * pageSize - destination.tail) :
    Views.Sound sha256 expected
    (Views.commitMove { s1 with mem := copied s1.mem source destination fresh r }
      i k source destination fresh sourceRecord record) := by
  have hlaid := h.laid i source hi
  have hholds := h.holds i source hi
  have hm := movedBytes h hi hk hik hg hr hlive ((h.laid k destination hk).end_le hcount)
  have hout := h.takeOut hi hk hik hg hr hlive hm
  obtain ⟨hlt, hfree⟩ := firstFree_eq_some hrecord
  have hlength : (source.aliasList sourceRecord).length = r.refs :=
    (hlaid.refs sourceRecord r hr).symm
  have hk' : get (s.pools.set i (some (source.without sourceRecord))) k = some destination := by
    rw [get_set_of_ne (Ne.symm hik)]
    exact hk
  have hpools : (Views.commitMove { s1 with mem := copied s1.mem source destination fresh r }
      i k source destination fresh sourceRecord record).pools =
      (s.pools.set i (some (source.without sourceRecord))).set k
        (some (destination.including fresh record r (source.aliasList sourceRecord))) := by
    unfold Views.commitMove
    rw [hsource]
    exact congrArg (fun ps : List (Option Pool) => (ps.set i _).set k _) hg.pools
  have hmemory : (Views.commitMove { s1 with mem := copied s1.mem source destination fresh r }
      i k source destination fresh sourceRecord record).mem =
      zeroRange (copied s1.mem source destination fresh r) source.pages r.offset r.size := by
    unfold Views.commitMove
    rw [hsource]
  refine hout.include hk' hpools hlt hfree hlength (hlength ▸ hroom) hcount hfits hg.nodup hg.new
    hg.held ?_ ?_ ?_ (hholds.digest sourceRecord r hr hlive) ?_ ?_ ?_ ?_ ?_
  · intro x _ _
    rw [hmemory]
  · intro n hn
    rw [hmemory]
    exact flat_append fresh (Nat.lt_of_lt_of_le hn (h.laid k destination hk).tail_le)
  · rw [hmemory]
    exact hm.copied
  · exact (nodup_append.mp
      ((source.perm_without sourceRecord).nodup_iff.mp (h.ids.nodup i source hi))).1
  · exact fun x => Expected.without_of_mem
  · intro a ha
    obtain ⟨hmem, heq⟩ := mem_filter.mp ha
    obtain ⟨q, hq, hb⟩ := hholds.aliased a hmem
    rw [of_decide_eq_true heq, hr] at hq
    cases hq
    exact hb
  · exact fun x hx => (Expected.without_of_notMem hx).symm
  · intro x hx
    exact (h.below x hx).trans_eq hg.sequence.symm

end Copy

end Move

lemma viewMove_ends (h : s.Sound sha256 expected) (c : Caller)
    (handle destinationPool headroomPages : Nat) (grants : List (Option Nat)) :
    Ends (viewMove sha256 c handle destinationPool headroomPages grants) s
      (fun _ s' => s'.Sound sha256 expected) fun _ s' => s.Same s' := by
  refine .guard fun _ => ?_
  refine .guard fun _ => ?_
  apply Ends.get_bind
  refine .fetch fun ⟨i, source, j, a⟩ hfind => ?_
  refine .fetch fun ⟨k, destination⟩ hdest => ?_
  refine .guard fun hne => ?_
  refine .guard fun _ => ?_
  refine .guard fun hcounted => ?_
  refine .fetch fun record hrecord => ?_
  refine .guard fun hroom => ?_
  refine .guard fun hfits => ?_
  refine .guard fun _ => ?_
  refine .guard fun _ => ?_
  refine allocated (fun _ _ => rfl) fun fresh s1 hg hcount => ?_
  obtain ⟨hi, ha, -⟩ := Views.findAlias_eq hfind
  obtain ⟨hk, -⟩ := firstWith_eq_some hdest
  obtain ⟨r, hr, hsourceRecord, hlive, -⟩ := h.record hi ha
  have hik : i ≠ k := of_decide_eq_false hne
  rw [hsourceRecord] at hroom hfits hcount ⊢
  have hrefs : r.refs ≤ destination.aliases.countP Option.isNone :=
    Nat.le_of_not_lt (of_decide_eq_false hroom)
  have hsize : r.size ≤ destination.capacity * pageSize - destination.tail :=
    Nat.le_of_not_lt (of_decide_eq_false hfits)
  have hend := (h.laid k destination hk).end_le hcount
  -- the copy has the digest of the record
  have hdigest :
    recordDigest sha256 (copied s1.mem source destination fresh r) (destination.pages ++ fresh)
      destination.tail r.size = r.digest := by
    have hflat := flat_copied h hi hk hik hg hend
    have hlen : (source.bytes s.mem r).length = r.size := length_load
    have hbehind := ((h.laid k destination hk).behind_tail hflat (hg.mem_pages h hk)).2
    rw [hlen] at hbehind
    unfold recordDigest copyOut
    rw [copyOut_eq, hbehind]
    exact ((h.holds i source hi).digest a.record r hr hlive).symm
  apply Ends.modify_bind
  apply Ends.get_bind
  split
  case isTrue hother => exact absurd hdigest hother
  case isFalse =>
    exact h.commitMove hi hk hik hg hr hlive hsourceRecord hrecord hrefs hcount hsize

end Anunix.View
