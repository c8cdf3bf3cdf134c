import Anunix.Disk.Crash

/-!
# The index along a run

What the operations do to the index, as a list (`Sound.exec_index`), gives two invariants of every
run from a format on. The entries stand in strictly ascending order of boundary key and OID, so a
range scan hands every object of its range to the callback, once and in order (`rangeScan_exact`).
And each extent covers the payload recorded for it, as long as no payload size wraps when it is
rounded up to sectors (`payloads_covered`).
-/

namespace Anunix.Disk
open Fallible Region List Keyed

/-! ## One operation -/

def DiskOp.index (m : Memory) : DiskOp → List IndexEntry
  | .writeBk oid objType boundaryKey p =>
    (m.logged.place (m.newEntry oid objType boundaryKey p)).indexCache
  | .write oid objType p => (m.logged.place (m.newEntry oid objType 0 p)).indexCache
  | .delete oid => erase IndexEntry.oid m.indexCache oid
  | .mount _ => m.indexCache

section Index

variable {s s' s₀ s₁ : Store} {ops : List DiskOp}

lemma Sound.exec_index (h : Sound s) (op : DiskOp) (hok : op.exec s = .ok () s') :
    s'.mem.indexCache = op.index s.mem := by
  have written {oid : Uuid} {objType : UInt32} {boundaryKey : UInt64} {p : Payload}
      (hok : writeObjBk oid objType boundaryKey p s = .ok () s') :
      s'.mem.indexCache =
      (s.mem.logged.place (s.mem.newEntry oid objType boundaryKey p)).indexCache := by
    obtain ⟨-, hmem, -⟩ := (writeObjBk_issues rfl h.serves h.mounted h.fit.head).of_ok hok
    rw [hmem]
    rfl
  have mounted {m : Memory} (hok : storeInit ⟨s.dev, m⟩ = .ok () s') :
      s'.mem.indexCache = s.mem.indexCache := by
    obtain ⟨-, hmem, -⟩ := Persisted.mount (s := ⟨s.dev, m⟩) h.persisted h.serves hok
    rw [hmem]
    exact h.index
  cases op with
  | writeBk oid objType boundaryKey p => exact written hok
  | write oid objType p => exact written hok
  | delete oid =>
    obtain ⟨-, hmem, -⟩ := (deleteObj_issues h.serves h.mounted).of_ok hok
    rw [hmem]
    rfl
  | mount afterPowerCycle =>
    cases afterPowerCycle with
    | false => exact mounted hok
    | true => exact mounted hok

/-- What holds of the empty index and is kept by the operations of a run holds of the index behind
it. -/
lemma index_of_run {P : List IndexEntry → Prop} (hnil : P [])
    (hstep : ∀ op ∈ ops, ∀ s, Sound s → P s.mem.indexCache → P (op.index s.mem))
    (hformat : formatForced s₀ = .ok () s₁) (hrun : execAll ops s₁ = .ok () s) :
    Sound s ∧ P s.mem.indexCache := by
  have hsound := (format_sound hformat).1
  have hp : P s₁.mem.indexCache := by
    obtain ⟨-, hmem, -⟩ := formatForced_issues.of_ok hformat
    rw [hmem]
    exact hnil
  clear hformat
  induction ops generalizing s₁ with
  | nil =>
    obtain ⟨-, rfl⟩ := run_pure_eq_ok.mp hrun
    exact ⟨hsound, hp⟩
  | cons op ops ih =>
    obtain ⟨_, s2, hop, hrest⟩ := run_bind_eq_ok.mp hrun
    refine ih (fun op ho => hstep op (mem_cons_of_mem _ ho)) hrest (hsound.exec hop).1 ?_
    rw [hsound.exec_index op hop]
    exact hstep op mem_cons_self s₁ hsound hp

end Index

/-! ## Order -/

/-- The place of an entry in the order of the index (C `entry_cmp`). -/
def IndexEntry.rank (e : IndexEntry) : Nat :=
  (e.boundaryKey.toNat * 2 ^ 64 + e.oid.hi.toNat) * 2 ^ 64 + e.oid.lo.toNat

def Ranked (cache : List IndexEntry) : Prop :=
  (cache.map IndexEntry.rank).Pairwise (· < ·)

section Order

variable {cache : List IndexEntry} {e t a b : IndexEntry} {m : Memory}

lemma entryBefore_iff : entryBefore a b = true ↔ a.rank < b.rank := by
  have := a.oid.hi.toNat_lt
  have := a.oid.lo.toNat_lt
  have := b.oid.hi.toNat_lt
  have := b.oid.lo.toNat_lt
  simp only [entryBefore, IndexEntry.rank, UInt64.lt_iff_toNat_lt]
  split_ifs
  · simp only [true_iff]
    omega
  · simp only [false_iff]
    omega
  · simp only [true_iff]
    omega
  · simp only [false_iff]
    omega
  · rw [decide_eq_true_eq]
    omega

lemma boundaryKey_le (h : a.rank ≤ b.rank) : a.boundaryKey ≤ b.boundaryKey := by
  have := b.oid.lo.toNat_lt
  have := b.oid.hi.toNat_lt
  rw [UInt64.le_iff_toNat_le]
  unfold IndexEntry.rank at h
  omega

lemma oid_eq_of_rank (h : a.rank = b.rank) : a.oid = b.oid := by
  have := a.oid.hi.toNat_lt
  have := a.oid.lo.toNat_lt
  have := b.oid.hi.toNat_lt
  have := b.oid.lo.toNat_lt
  unfold IndexEntry.rank at h
  rcases ha : a.oid with ⟨ahi, alo⟩
  rcases hb : b.oid with ⟨bhi, blo⟩
  simp only [ha, hb] at *
  rw [Uuid.mk.injEq, ← UInt64.toNat_inj, ← UInt64.toNat_inj]
  omega

section

variable (hr : Ranked cache)
include hr

lemma Ranked.le {i j : Nat} (hj : j < cache.length) (hij : i ≤ j) :
    cache[i].rank ≤ cache[j].rank := by
  rcases Nat.eq_or_lt_of_le hij with rfl | hlt
  · exact Nat.le_refl _
  · exact Nat.le_of_lt (pairwise_iff_getElem.mp (pairwise_map.mp hr) i j _ hj hlt)

/-- The search keeps smaller entries below its interval and the others above it. -/
lemma lowerBoundFrom_splits {n lo hi : Nat} (hn : hi ≤ lo + n) (hhi : hi ≤ cache.length)
    (hlow : ∀ i (_ : i < cache.length), i < lo → cache[i].rank < t.rank)
    (hhigh : ∀ i (_ : i < cache.length), hi ≤ i → t.rank ≤ cache[i].rank) :
    (∀ i (_ : i < cache.length), i < lowerBoundFrom cache t n lo hi → cache[i].rank < t.rank) ∧
      ∀ i (_ : i < cache.length), lowerBoundFrom cache t n lo hi ≤ i → t.rank ≤ cache[i].rank := by
  induction n generalizing lo hi with
  | zero => exact ⟨hlow, fun i hi' hle => hhigh i hi' (Nat.le_trans hn hle)⟩
  | succ n ih =>
    rw [lowerBoundFrom]
    split
    · have hmid : lo + (hi - lo) / 2 < cache.length := by omega
      dsimp only
      rw [getElem?_eq_getElem hmid]
      dsimp only
      split
      · rename_i hbefore
        refine ih (by omega) hhi (fun i hi' hle => ?_) hhigh
        exact Nat.lt_of_le_of_lt (hr.le hmid (by omega)) (entryBefore_iff.mp hbefore)
      · rename_i hbefore
        refine ih (by omega) (by omega) hlow fun i hi' hle => ?_
        exact Nat.le_trans (Nat.not_lt.mp (mt entryBefore_iff.mpr hbefore)) (hr.le hi' hle)
    · exact ⟨hlow, fun i hi' hle => hhigh i hi' (by omega)⟩

lemma indexLowerBound_splits (t : IndexEntry) :
    (∀ e ∈ cache.take (indexLowerBound cache t), e.rank < t.rank) ∧
      ∀ e ∈ cache.drop (indexLowerBound cache t), t.rank ≤ e.rank := by
  obtain ⟨hlow, hhigh⟩ := lowerBoundFrom_splits hr (Nat.le_add_left _ _) (Nat.le_refl cache.length)
    (fun i _ h => absurd h (Nat.not_lt_zero i)) fun i hi h => absurd hi (Nat.not_lt.mpr h)
  constructor
  · intro e he
    obtain ⟨i, hi, rfl⟩ := mem_take_iff_getElem.mp he
    exact hlow i _ (Nat.lt_of_lt_of_le hi (Nat.min_le_left _ _))
  · intro e he
    obtain ⟨i, hi, rfl⟩ := mem_drop_iff_getElem.mp he
    exact hhigh _ _ (Nat.le_add_right _ _)

lemma Ranked.sublist {cache' : List IndexEntry} (h : cache'.Sublist cache) : Ranked cache' :=
  List.Pairwise.sublist (h.map _) hr

end

lemma insertEntry_eq (cache : List IndexEntry) (e : IndexEntry) : insertEntry cache e =
    cache.take (indexLowerBound cache e) ++ e :: cache.drop (indexLowerBound cache e) := by
  have hle : indexLowerBound cache e ≤ cache.length := lowerBoundFrom_le cache e _ (Nat.zero_le _)
  obtain ⟨low, high, hcache, hlen, hins⟩ := exists_of_modifyTailIdx (cons e) hle
  rw [insertEntry, insertIdx, hins, hcache, ← hcache, ← hlen, hcache, take_left, drop_left]

lemma Ranked.insert (hr : Ranked cache) (hnew : e.oid ∉ cache.map IndexEntry.oid) :
    Ranked (insertEntry cache e) := by
  obtain ⟨hlow, hhigh⟩ := indexLowerBound_splits hr e
  have hsplit := pairwise_append.mp (pairwise_map.mp
    ((take_append_drop (indexLowerBound cache e) cache).symm ▸ hr : Ranked (_ ++ _)))
  rw [Ranked, insertEntry_eq, pairwise_map]
  refine pairwise_append.mpr ⟨hsplit.1, pairwise_cons.mpr ⟨fun b hb => ?_, hsplit.2.1⟩,
    fun a ha b hb => ?_⟩
  · refine Nat.lt_of_le_of_ne (hhigh b hb) fun heq => hnew ?_
    rw [oid_eq_of_rank heq]
    exact mem_map_of_mem (mem_of_mem_drop hb)
  · rcases mem_cons.mp hb with rfl | hb
    · exact hlow a ha
    · exact hsplit.2.2 a ha b hb

lemma Ranked.place (hr : Ranked m.indexCache) (hoids : (m.indexCache.map IndexEntry.oid).Nodup)
    (e : IndexEntry) : Ranked (m.place e).indexCache := by
  unfold Memory.place
  cases hf : findIndexEntry m.indexCache e.oid with
  | none =>
    refine hr.insert fun hmem => ?_
    obtain ⟨a, ha, hoid⟩ := mem_map.mp hmem
    exact Option.some_ne_none a (((lookup_eq_some_iff hoids).mpr ⟨ha, hoid⟩).symm.trans hf)
  | some old =>
    dsimp only
    split
    · -- the entry takes the place of one with its boundary key and its OID
      rename_i hkey
      rw [Ranked, map_update_of fun b hb hoid => ?_]
      · exact hr
      · cases hf.symm.trans ((lookup_eq_some_iff hoids).mpr ⟨hb, hoid⟩)
        rw [IndexEntry.rank, IndexEntry.rank, hkey, hoid]
    · exact (hr.sublist Keyed.erase_sublist).insert (Keyed.not_mem_erase hoids)

lemma Ranked.index {s : Store} {op : DiskOp} (h : Sound s) (hr : Ranked s.mem.indexCache) :
    Ranked (op.index s.mem) := by
  cases op with
  | writeBk oid objType boundaryKey p =>
    exact Ranked.place (m := s.mem.logged) hr h.fit.valid.oids _
  | write oid objType p => exact Ranked.place (m := s.mem.logged) hr h.fit.valid.oids _
  | delete oid => exact hr.sublist Keyed.erase_sublist
  | mount afterPowerCycle => exact hr

end Order

/-! ## Range scans -/

/-- A scan callback with the argument it works on (C `anx_disk_scan_fn` and `arg`). -/
abbrev ScanFn (σ : Type) := Uuid → UInt64 → UInt32 → σ → Int32 × σ

/-- The loop of C `anx_disk_range_scan` from an entry on. -/
def scanLoop {σ : Type} (bkHi : UInt64) (cb : ScanFn σ) : List IndexEntry → σ → Int32 × σ
  | [], arg => (0, arg)
  | e :: rest, arg =>
    if bkHi < e.boundaryKey then (0, arg)
    else if !e.active then scanLoop bkHi cb rest arg
    else
      let (ret, arg) := cb e.oid e.boundaryKey e.objType arg
      if ret ≠ 0 then (ret, arg) else scanLoop bkHi cb rest arg

/-- The entry C `anx_disk_range_scan` starts its search from. -/
def needle (bkLo : UInt64) : IndexEntry :=
  ⟨Uuid.nil, 0, 0, 0, 0, 0, bkLo⟩

/-- C `anx_disk_range_scan`: what it returns, and the argument as the callback left it. -/
def rangeScan {σ : Type} (bkLo bkHi : UInt64) (cb : ScanFn σ) (arg : σ) : StoreM (Int32 × σ) := do
  failIf (!(← getMem).mounted) Err.eio
  failIf (bkHi < bkLo) Err.einval
  let cache := (← getMem).indexCache
  return scanLoop bkHi cb (cache.drop (indexLowerBound cache (needle bkLo))) arg

section Scan

variable {σ : Type} {bkLo : UInt64} {cb : ScanFn σ} {cache : List IndexEntry}

def inRange (bkLo bkHi : UInt64) (cache : List IndexEntry) : List IndexEntry :=
  cache.filter fun e => bkLo ≤ e.boundaryKey ∧ e.boundaryKey ≤ bkHi

/-- The entries handed to the callback one after another, until it returns something else than
zero. -/
def visit (cb : ScanFn σ) : List IndexEntry → σ → Int32 × σ
  | [], arg => (0, arg)
  | e :: rest, arg =>
    let (ret, arg) := cb e.oid e.boundaryKey e.objType arg
    if ret ≠ 0 then (ret, arg) else visit cb rest arg

lemma scanLoop_visit (hr : Ranked cache)
    (hact : ∀ e ∈ cache, e.active) (hlo : ∀ e ∈ cache, bkLo ≤ e.boundaryKey) (bkHi : UInt64)
    (arg : σ) : scanLoop bkHi cb cache arg = visit cb (inRange bkLo bkHi cache) arg := by
  induction cache generalizing arg with
  | nil => rfl
  | cons e rest ih =>
    obtain ⟨hact_e, hact⟩ := forall_mem_cons.mp hact
    obtain ⟨hlo_e, hlo⟩ := forall_mem_cons.mp hlo
    obtain ⟨hbelow, hrest⟩ := pairwise_cons.mp (pairwise_map.mp hr)
    rw [scanLoop]
    split
    · rename_i hhi
      have hnone : inRange bkLo bkHi (e :: rest) = [] := by
        refine filter_eq_nil_iff.mpr fun b hb => ?_
        have hle : e.rank ≤ b.rank := by
          rcases mem_cons.mp hb with rfl | hb
          · exact Nat.le_refl _
          · exact Nat.le_of_lt (hbelow b hb)
        simpa using fun _ => UInt64.lt_of_lt_of_le hhi (boundaryKey_le hle)
      rw [hnone]
      rfl
    · rename_i hhi
      have hin : inRange bkLo bkHi (e :: rest) = e :: inRange bkLo bkHi rest :=
        filter_cons_of_pos (by simpa using ⟨hlo_e, UInt64.not_lt.mp hhi⟩)
      rw [hact_e, hin, visit, Bool.not_true, if_neg Bool.false_ne_true]
      simp only [ih (pairwise_map.mpr hrest) hact hlo]

lemma visit_of_zero (hcb : ∀ oid key objType arg, (cb oid key objType arg).1 = 0)
    (l : List IndexEntry) (arg : σ) :
    visit cb l arg = (0, l.foldl (fun arg e => (cb e.oid e.boundaryKey e.objType arg).2) arg) := by
  induction l generalizing arg with
  | nil => rfl
  | cons e rest ih =>
    rw [visit]
    simp only [hcb]
    exact ih _

lemma scanLoop_eq (hcb : ∀ oid key objType arg, (cb oid key objType arg).1 = 0) (hr : Ranked cache)
    (hact : ∀ e ∈ cache, e.active) (hlo : ∀ e ∈ cache, bkLo ≤ e.boundaryKey) (bkHi : UInt64)
    (arg : σ) : scanLoop bkHi cb cache arg =
      (0, (inRange bkLo bkHi cache).foldl
        (fun arg e => (cb e.oid e.boundaryKey e.objType arg).2) arg) := by
  rw [scanLoop_visit hr hact hlo, visit_of_zero hcb]

lemma inRange_drop (hr : Ranked cache) (bkLo bkHi : UInt64) :
    inRange bkLo bkHi (cache.drop (indexLowerBound cache (needle bkLo))) = inRange bkLo bkHi cache ∧
      ∀ e ∈ cache.drop (indexLowerBound cache (needle bkLo)), bkLo ≤ e.boundaryKey := by
  obtain ⟨hlow, hhigh⟩ := indexLowerBound_splits hr (needle bkLo)
  refine ⟨?_, fun e he => boundaryKey_le (hhigh e he)⟩
  have hbelow : inRange bkLo bkHi (cache.take (indexLowerBound cache (needle bkLo))) = [] := by
    refine filter_eq_nil_iff.mpr fun e he => ?_
    -- the OID of the needle is the least one, so a smaller entry has a smaller key
    have hkey : e.boundaryKey.toNat < bkLo.toNat := by
      have hlt := hlow e he
      unfold IndexEntry.rank at hlt
      simp only [needle, Uuid.nil, UInt64.toNat_zero] at hlt
      omega
    simpa using fun hle => absurd hkey (Nat.not_lt.mpr (UInt64.le_iff_toNat_le.mp hle))
  conv_rhs => rw [← take_append_drop (indexLowerBound cache (needle bkLo)) cache]
  rw [inRange, inRange, filter_append]
  exact (congrArg (· ++ _) hbelow).symm

end Scan

/-- The order of a scan: by boundary key, then by OID. -/
def CallBefore (a b : Uuid × UInt64 × UInt32) : Prop :=
  a.2.1 < b.2.1 ∨ a.2.1 = b.2.1 ∧ (a.1.hi < b.1.hi ∨ a.1.hi = b.1.hi ∧ a.1.lo < b.1.lo)

lemma callBefore_of_rank {a b : IndexEntry} (h : a.rank < b.rank) :
    CallBefore (a.oid, a.boundaryKey, a.objType) (b.oid, b.boundaryKey, b.objType) := by
  have := b.oid.lo.toNat_lt
  have := b.oid.hi.toNat_lt
  unfold IndexEntry.rank at h
  simp only [CallBefore, UInt64.lt_iff_toNat_lt, ← UInt64.toNat_inj]
  omega

/-- A scan calls back once for each object in the range, by key and identifier. -/
theorem rangeScan_exact {s₀ s₁ s : Store} {ops : List DiskOp} {bkLo bkHi : UInt64}
    (hformat : formatForced s₀ = .ok () s₁) (hrun : execAll ops s₁ = .ok () s) (hle : bkLo ≤ bkHi) :
    ∃ calls : List (Uuid × UInt64 × UInt32),
      (∀ (σ : Type) (cb : ScanFn σ) (arg : σ),
        (∀ oid key objType arg, (cb oid key objType arg).1 = 0) →
        rangeScan bkLo bkHi cb arg s =
        .ok (0, calls.foldl (fun arg c => (cb c.1 c.2.1 c.2.2 arg).2) arg) s) ∧
      calls.Pairwise CallBefore ∧ ∀ oid key objType, (oid, key, objType) ∈ calls ↔
        bkLo ≤ key ∧ key ≤ bkHi ∧ ∃ o, ops.foldl DiskOp.leaves (fun _ => none) oid = some o ∧
          o.boundaryKey = key ∧ o.objType = objType := by
  obtain ⟨hsound, hr⟩ :=
    index_of_run (P := Ranked) List.Pairwise.nil (fun op _ s h hr => hr.index h) hformat hrun
  obtain ⟨hdrop, hlo⟩ := inRange_drop hr bkLo bkHi
  refine ⟨(inRange bkLo bkHi s.mem.indexCache).map fun e => (e.oid, e.boundaryKey, e.objType),
    fun σ cb arg hcb => ?_, ?_, fun oid key objType => ?_⟩
  · have hloop := scanLoop_eq hcb (hr.sublist (drop_sublist _ _))
      (fun e he => hsound.fit.valid.active e (mem_of_mem_drop he)) hlo bkHi arg
    rw [foldl_map, ← hdrop, ← hloop]
    refine run_bind_eq_ok.mpr ⟨s.mem, s, rfl,
      run_bind_eq_ok.mpr ⟨(), s, run_failIf_eq_ok.mpr ⟨?_, rfl⟩, ?_⟩⟩
    · rw [hsound.mounted]
      rfl
    refine run_bind_eq_ok.mpr ⟨(), s, run_failIf_eq_ok.mpr ⟨?_, rfl⟩,
      run_bind_eq_ok.mpr ⟨s.mem, s, rfl, rfl⟩⟩
    exact decide_eq_false (UInt64.not_lt.mpr hle)
  · rw [pairwise_map]
    exact (pairwise_map.mp (hr.sublist filter_sublist)).imp callBefore_of_rank
  · have hvalue : s.value = ops.foldl DiskOp.leaves fun _ => none := by
      obtain ⟨h₁, hnone⟩ := format_sound hformat
      rw [(h₁.execAll hrun).2, funext hnone]
    simp only [← hvalue, mem_map, inRange, mem_filter, Store.value, objectAt, findIndexEntry,
      Option.map_eq_some_iff, lookup_eq_some_iff hsound.fit.valid.oids, decide_eq_true_eq,
      Prod.mk.injEq]
    constructor
    · rintro ⟨e, ⟨hmem, hlo, hhi⟩, rfl, rfl, rfl⟩
      exact ⟨hlo, hhi, _, ⟨e, ⟨hmem, rfl⟩, rfl⟩, rfl, rfl⟩
    · rintro ⟨hlo, hhi, -, ⟨e, ⟨hmem, rfl⟩, rfl⟩, rfl, rfl⟩
      exact ⟨e, ⟨hmem, hlo, hhi⟩, rfl, rfl, rfl⟩

/-- Two objects with one key are both visited, the rewritten one as it is now. -/
theorem rangeScan_exact_writeThenReboot : ∃ s₁ s, formatForced blankStore = .ok () s₁ ∧
    execAll writeThenReboot s₁ = .ok () s ∧ ∃ calls : List (Uuid × UInt64 × UInt32),
      (⟨1, 2⟩, 7, 5) ∈ calls ∧ (⟨1, 3⟩, 7, 4) ∈ calls ∧ (⟨1, 2⟩, 5, 3) ∉ calls ∧
      rangeScan 0 7 (fun oid _ _ seen => (0, seen ++ [oid])) [] s =
        .ok (0, calls.foldl (fun seen c => seen ++ [c.1]) []) s := by
  obtain ⟨s₁, s, hformat, hrun⟩ := writeThenReboot_ok
  obtain ⟨calls, hscan, -, hmem⟩ := rangeScan_exact hformat hrun (show (0 : UInt64) ≤ 7 by decide)
  refine ⟨s₁, s, hformat, hrun, calls, (hmem _ _ _).mpr ⟨by decide, by decide, _, rfl, rfl, rfl⟩,
    (hmem _ _ _).mpr ⟨by decide, by decide, _, rfl, rfl, rfl⟩, fun hold => ?_, ?_⟩
  · obtain ⟨-, -, o, ho, hkey, -⟩ := (hmem _ _ _).mp hold
    obtain rfl := Option.some.inj ho
    exact absurd hkey (by decide)
  · exact hscan _ (fun oid _ _ seen => (0, seen ++ [oid])) [] fun _ _ _ _ => rfl

/-! ### Scans in pages -/

section Paging

variable {σ : Type} {bkLo bkMid bkHi : UInt64} {cb : ScanFn σ} {cache : List IndexEntry}

lemma visit_append (a b : List IndexEntry) (arg : σ) : visit cb (a ++ b) arg =
    if (visit cb a arg).1 ≠ 0 then visit cb a arg else visit cb b (visit cb a arg).2 := by
  induction a generalizing arg with
  | nil => rfl
  | cons e rest ih =>
    rw [cons_append, visit, visit]
    dsimp only
    split
    · rfl
    · exact ih _

lemma rangeScan_visit {s : Store} (h : Sound s) (hr : Ranked s.mem.indexCache)
    (hle : bkLo ≤ bkHi) (arg : σ) :
    rangeScan bkLo bkHi cb arg s = .ok (visit cb (inRange bkLo bkHi s.mem.indexCache) arg) s := by
  obtain ⟨hdrop, hlo⟩ := inRange_drop hr bkLo bkHi
  rw [← hdrop, ← scanLoop_visit (hr.sublist (drop_sublist _ _))
    (fun e he => h.fit.valid.active e (mem_of_mem_drop he)) hlo]
  refine run_bind_eq_ok.mpr ⟨s.mem, s, rfl,
    run_bind_eq_ok.mpr ⟨(), s, run_failIf_eq_ok.mpr ⟨?_, rfl⟩, ?_⟩⟩
  · rw [h.mounted]
    rfl
  refine run_bind_eq_ok.mpr ⟨(), s, run_failIf_eq_ok.mpr ⟨?_, rfl⟩,
    run_bind_eq_ok.mpr ⟨s.mem, s, rfl, rfl⟩⟩
  exact decide_eq_false (UInt64.not_lt.mpr hle)

lemma toNat_next (h : bkMid < bkHi) : (bkMid + 1).toNat = bkMid.toNat + 1 := by
  rw [UInt64.toNat_add]
  exact Nat.mod_eq_of_lt (Nat.lt_of_le_of_lt (UInt64.lt_iff_toNat_lt.mp h) bkHi.toNat_lt)

lemma inRange_append (hr : Ranked cache) (hlo : bkLo ≤ bkMid) (hhi : bkMid < bkHi) :
    inRange bkLo bkHi cache = inRange bkLo bkMid cache ++ inRange (bkMid + 1) bkHi cache := by
  have hnext := toNat_next hhi
  rw [UInt64.le_iff_toNat_le] at hlo
  rw [UInt64.lt_iff_toNat_lt] at hhi
  induction cache with
  | nil => rfl
  | cons e rest ih =>
    obtain ⟨hbelow, hrest⟩ := pairwise_cons.mp (pairwise_map.mp hr)
    have ih := ih (pairwise_map.mpr hrest)
    rcases Nat.lt_or_ge bkMid.toNat e.boundaryKey.toNat with hkey | hkey
    · -- the entries from here on are all of the second part
      have hall : ∀ b ∈ e :: rest, bkMid.toNat < b.boundaryKey.toNat := by
        refine forall_mem_cons.mpr ⟨hkey, fun b hb => Nat.lt_of_lt_of_le hkey ?_⟩
        exact UInt64.le_iff_toNat_le.mp (boundaryKey_le (Nat.le_of_lt (hbelow b hb)))
      have hnone : inRange bkLo bkMid (e :: rest) = [] := by
        refine filter_eq_nil_iff.mpr fun b hb => ?_
        have := hall b hb
        simp only [decide_eq_true_eq, UInt64.le_iff_toNat_le]
        omega
      rw [hnone, nil_append]
      refine filter_congr fun b hb => decide_eq_decide.mpr ?_
      have := hall b hb
      simp only [UInt64.le_iff_toNat_le, hnext]
      omega
    · simp only [inRange, filter_cons, decide_eq_true_eq, UInt64.le_iff_toNat_le, hnext] at ih ⊢
      rw [ih]
      split_ifs <;> first | rfl | omega

end Paging

/-- A scan in two pages is the scan of the whole range, for any callback: also for one that stops
it. -/
theorem rangeScan_in_two {s₀ s₁ s : Store} {ops : List DiskOp} {bkLo bkMid bkHi : UInt64}
    (hformat : formatForced s₀ = .ok () s₁) (hrun : execAll ops s₁ = .ok () s)
    (hlo : bkLo ≤ bkMid) (hhi : bkMid < bkHi) {σ : Type} (cb : ScanFn σ) (arg : σ) :
    rangeScan bkLo bkHi cb arg s = (do
      let (ret, arg) ← rangeScan bkLo bkMid cb arg
      if ret ≠ 0 then return (ret, arg) else rangeScan (bkMid + 1) bkHi cb arg) s := by
  obtain ⟨h, hr⟩ :=
    index_of_run (P := Ranked) List.Pairwise.nil (fun op _ s h hr => hr.index h) hformat hrun
  have hnext : bkMid + 1 ≤ bkHi :=
    UInt64.le_iff_toNat_le.mpr (toNat_next hhi ▸ UInt64.lt_iff_toNat_lt.mp hhi)
  rw [rangeScan_visit h hr (UInt64.le_trans hlo (UInt64.le_of_lt hhi)), inRange_append hr hlo hhi,
    visit_append]
  refine (run_bind_eq_ok.mpr ⟨_, s, rangeScan_visit h hr hlo arg, ?_⟩).symm
  dsimp only
  split
  · rfl
  · exact rangeScan_visit h hr hnext _

/-- A scan up to key 7 is one up to key 6 and, unless that was stopped, one of key 7. -/
theorem rangeScan_in_two_writeThenReboot : ∃ s₁ s, formatForced blankStore = .ok () s₁ ∧
    execAll writeThenReboot s₁ = .ok () s ∧ ∀ stop : Int32,
      rangeScan 0 7 (fun oid _ _ seen => (stop, oid :: seen)) [] s = (do
        let (ret, seen) ← rangeScan 0 6 (fun oid _ _ seen => (stop, oid :: seen)) []
        if ret ≠ 0 then return (ret, seen)
        else rangeScan (6 + 1) 7 (fun oid _ _ seen => (stop, oid :: seen)) seen) s := by
  obtain ⟨s₁, s, hformat, hrun⟩ := writeThenReboot_ok
  exact ⟨s₁, s, hformat, hrun,
    fun stop => rangeScan_in_two hformat hrun (by decide) (by decide) _ _⟩

/-! ## Extents -/

/-- The extent of an entry holds its payload, also in the 32-bit arithmetic of the code. -/
structure IndexEntry.Covers (e : IndexEntry) : Prop where
  words : e.payloadSize ≤ e.dataSectors * 512
  bytes : e.payloadSize.toNat ≤ 512 * e.dataSectors.toNat

section Extents

variable {p : Payload} {s s' : Store} {e : IndexEntry}

lemma bufferSize_toNat :
    (sectorsNeeded p.size * 512).toNat = 512 * (sectorsNeeded p.size).toNat := by
  have hone : (1 : UInt32).toNat = 1 := rfl
  have hsectors : (sectorsNeeded p.size).toNat * 512 < 2 ^ 32 := by
    rw [sectorsNeeded]
    split
    · omega
    · rw [UInt32.toNat_div, UInt32.toNat_add, p.size_toNat]
      show (p.bytes.length + 511) % 2 ^ 32 / 512 * 512 < 2 ^ 32
      omega
  show (sectorsNeeded p.size).toNat * 512 % 2 ^ 32 = _
  rw [Nat.mod_eq_of_lt hsectors, Nat.mul_comm]

lemma covers_of_fits (hp : p.Fits) (hsectors : e.dataSectors = sectorsNeeded p.size)
    (hsize : e.payloadSize = p.size) : e.Covers := by
  have hle := p.size_toNat.le.trans (sectorsNeeded_toNat hp)
  rw [← hsectors, ← hsize] at hle
  refine ⟨UInt32.le_iff_toNat_le.mpr ?_, hle⟩
  rw [hsectors, bufferSize_toNat, ← hsectors]
  exact hle

/-- The sizes that do not fit wrap to a buffer of one sector. -/
lemma fits_of_covers (h : p.size ≤ sectorsNeeded p.size * 512) : p.Fits := by
  by_contra hwrap
  have hlen : 2 ^ 32 ≤ p.bytes.length + 511 := Nat.lt_of_not_le hwrap
  have hbound := p.fits
  have hone : sectorsNeeded p.size = 1 := by
    have hzero : (p.size + 511) / 512 = 0 := by
      rw [← UInt32.toNat_inj, UInt32.toNat_div, UInt32.toNat_add, p.size_toNat]
      show (p.bytes.length + 511) % 2 ^ 32 / 512 = 0
      omega
    simp only [sectorsNeeded, hzero, if_true]
  have hle := UInt32.le_iff_toNat_le.mp h
  rw [hone, p.size_toNat] at hle
  have hsector : p.bytes.length ≤ 512 := hle
  omega

lemma covers_place {m : Memory} (hm : ∀ a ∈ m.indexCache, a.Covers) (he : e.Covers) :
    ∀ a ∈ (m.place e).indexCache, a.Covers := by
  intro a ha
  rcases mem_cons.mp ((m.place_perm e).mem_iff.mp ha) with rfl | ha
  · exact he
  · exact hm a (mem_of_mem_erase ha)

lemma covers_index {op : DiskOp} (hop : op.Fits) (hs : ∀ e ∈ s.mem.indexCache, e.Covers) :
    ∀ e ∈ op.index s.mem, e.Covers := by
  cases op with
  | writeBk oid objType boundaryKey p => exact covers_place hs (covers_of_fits hop rfl rfl)
  | write oid objType p => exact covers_place hs (covers_of_fits hop rfl rfl)
  | delete oid => exact fun e he => hs e (mem_of_mem_erase he)
  | mount afterPowerCycle => exact hs

lemma Sound.read_length {oid : Uuid} {bufSize : UInt32} {r : Reading} (h : Sound s)
    (hs : ∀ e ∈ s.mem.indexCache, e.Covers) (hok : readObj oid bufSize s = .ok r s') :
    r.bytes.length = min bufSize.toNat r.actualSize.toNat := by
  have hread := h.read oid bufSize
  rw [outcome, hok, readAnswer.eq_def, Store.value, objectAt] at hread
  cases hf : findIndexEntry s.mem.indexCache oid with
  | none =>
    rw [hf] at hread
    cases hread
  | some e =>
    rw [hf] at hread
    have hlen : (e.payload s.dev.disk).length = e.payloadSize.toNat := by
      rw [IndexEntry.payload, length_take, length_load]
      exact Nat.min_eq_left (hs e (lookup_mem hf)).bytes
    dsimp only [Option.map_some] at hread
    split at hread
    · cases hread
    · split at hread
      · cases hread
      · cases hread
        rw [length_take]
        exact congrArg _ hlen

end Extents

/-- **Extents cover their payloads** in every run whose sizes fit, and reads stay within the sectors
read; an entry that is recorded covers its payload, and the buffer holds it, exactly if its size
fits. -/
theorem payloads_covered {s₀ s₁ s : Store} {ops : List DiskOp}
    (hformat : formatForced s₀ = .ok () s₁) (hfits : ∀ op ∈ ops, op.Fits)
    (hrun : execAll ops s₁ = .ok () s) : (∀ e ∈ s.mem.indexCache, e.Covers) ∧
      (∀ oid bufSize r s', readObj oid bufSize s = .ok r s' →
        r.bytes.length = min bufSize.toNat r.actualSize.toNat) ∧
      ∀ oid objType boundaryKey p, (s.mem.newEntry oid objType boundaryKey p).Covers ∧
        p.bytes <+: Codec.fill (sectorsNeeded p.size * 512).toNat p.bytes ↔ p.Fits := by
  obtain ⟨hsound, hcovers⟩ :=
    index_of_run (P := fun cache => ∀ e ∈ cache, IndexEntry.Covers e) nofun
    (fun op hop s _ => covers_index (hfits op hop)) hformat hrun
  refine ⟨hcovers, fun oid bufSize r s' => hsound.read_length hcovers,
    fun oid objType boundaryKey p => ?_⟩
  refine ⟨fun h => fits_of_covers h.1.words, fun hp => ⟨covers_of_fits hp rfl rfl, ?_⟩⟩
  rw [bufferSize_toNat, prefix_iff_eq_take, Codec.take_fill (sectorsNeeded_toNat hp)]

/-- The extents of the sample run cover their payloads. -/
theorem payloads_covered_writeThenReboot : ∃ s₁ s, formatForced blankStore = .ok () s₁ ∧
    execAll writeThenReboot s₁ = .ok () s ∧ ∀ e ∈ s.mem.indexCache, e.Covers := by
  obtain ⟨s₁, s, hformat, hrun⟩ := writeThenReboot_ok
  exact ⟨s₁, s, hformat, hrun, (payloads_covered hformat writeThenReboot_fits hrun).1⟩

def largestPayload : Payload :=
  ⟨replicate (2 ^ 32 - 1) 0, by rw [length_replicate]; decide⟩

/-- The largest payload is accepted by a device of 1000 sectors and recorded with an extent of
one. -/
theorem payloads_uncovered : ∃ s₁ s, formatForced blankStore = .ok () s₁ ∧
    writeObjBk ⟨1, 2⟩ 3 7 largestPayload s₁ = .ok () s ∧ ∃ e ∈ s.mem.indexCache, e.dataSectors = 1 ∧
      e.payloadSize = 2 ^ 32 - 1 ∧ ¬ e.Covers := by
  have hsize : largestPayload.size = 4294967295 := by
    rw [Payload.size, largestPayload, length_replicate]
    rfl
  -- only its size is needed from here on
  generalize largestPayload = p at hsize ⊢
  have hneeded : sectorsNeeded p.size = 1 := by
    rw [hsize]
    decide
  obtain ⟨s₁, hformat, h⟩ := blankStore_format
  obtain ⟨s, hwrite, -⟩ := h.write hneeded (by unfold Store.Full; decide +kernel) ⟨1, 2⟩ 3 7
  refine ⟨s₁, s, hformat, hwrite, s₁.mem.newEntry ⟨1, 2⟩ 3 7 p, ?_, hneeded, hsize, fun hc => ?_⟩
  · rw [h.sound.exec_index (.writeBk ⟨1, 2⟩ 3 7 p) hwrite]
    exact (s₁.mem.logged.place_perm _).mem_iff.mpr mem_cons_self
  · have hwords : p.size ≤ sectorsNeeded p.size * 512 := hc.words
    rw [hsize] at hwords
    exact absurd hwords (by decide)

/-- Behind any operations, memory and disk agree on one entry for each stored object, as many as the
superblock counts, with extents in the data region that lie apart and end before the next free
sector. -/
theorem extents_apart {s₀ s₁ s : Store} {ops : List DiskOp} (hformat : formatForced s₀ = .ok () s₁)
    (hrun : execAll ops s₁ = .ok () s) :
    (∀ oid, oid ∈ s.mem.indexCache.map IndexEntry.oid ↔
      (ops.foldl DiskOp.leaves (fun _ => none) oid).isSome) ∧
      (s.mem.indexCache.map IndexEntry.oid).Nodup ∧
      s.mem.super.objCount.toNat = s.mem.indexCache.length ∧
      diskIndex s.dev.disk = s.mem.indexCache ∧ s.mem.indexCache.Pairwise IndexEntry.Apart ∧
      (∀ e ∈ s.mem.indexCache, 513 ≤ e.dataSector.toNat ∧
        e.stop ≤ s.mem.super.nextDataSector.toNat) ∧
      s.mem.super.nextDataSector.toNat ≤ s.dev.capacity.toNat := by
  obtain ⟨h₁, hnone⟩ := format_sound hformat
  obtain ⟨h, hvalue⟩ := h₁.execAll hrun
  have hvalid := h.fit.valid
  refine ⟨fun oid => ?_, hvalid.oids, h.fit.count, h.index, hvalid.apart,
    fun e he => ⟨hvalid.start e he, hvalid.stop e he⟩, h.fit.room⟩
  rw [← funext hnone, ← hvalue, Store.value, objectAt, Option.isSome_map, findIndexEntry, mem_map,
    Option.isSome_iff_exists]
  simp only [lookup_eq_some_iff hvalid.oids]

/-- A rewritten object and another one lie apart. -/
theorem extents_apart_writeThenReboot : ∃ s₁ s, formatForced blankStore = .ok () s₁ ∧
    execAll writeThenReboot s₁ = .ok () s ∧ ⟨1, 2⟩ ∈ s.mem.indexCache.map IndexEntry.oid ∧
      ⟨1, 3⟩ ∈ s.mem.indexCache.map IndexEntry.oid ∧
      s.mem.indexCache.Pairwise IndexEntry.Apart := by
  obtain ⟨s₁, s, hformat, hrun⟩ := writeThenReboot_ok
  obtain ⟨hoids, -, -, -, hapart, -⟩ := extents_apart hformat hrun
  exact ⟨s₁, s, hformat, hrun, (hoids _).mpr rfl, (hoids _).mpr rfl, hapart⟩

end Anunix.Disk
