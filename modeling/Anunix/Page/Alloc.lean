import Anunix.Lib.Mask
import Anunix.Lib.Run

/-!
# The page allocator

`kernel/lib/page.c`: one bit for each page of a span, in words of 64, set for a free page. Pages of
the span are numbered from its start. A run of `2^order` free pages is searched from the end of the
span for 16 pages and more, and from its start otherwise; words without a free page are skipped.

A failed assertion stops the kernel: the call has no result.
-/

namespace Anunix.Page
open Finset Function

/-- C `MAX_PAGES`. -/
def maxPages : Nat := 2 ^ 20

structure Pages where
  bitmap : Nat → BitVec 64
  heapBase : UInt64
  totalPages : Nat
  usablePages : UInt64
  freeCount : Nat

/-- C `bit_set`. -/
def bitSet (bitmap : Nat → BitVec 64) (page : Nat) : Nat → BitVec 64 :=
  update bitmap (page / 64) (bitmap (page / 64) ||| Mask.single (page % 64))

/-- C `bit_clear`. -/
def bitClear (bitmap : Nat → BitVec 64) (page : Nat) : Nat → BitVec 64 :=
  update bitmap (page / 64) (bitmap (page / 64) &&& ~~~Mask.single (page % 64))

/-- C `bit_test`. -/
def bitTest (bitmap : Nat → BitVec 64) (page : Nat) : Bool :=
  (bitmap (page / 64)).getLsbD (page % 64)

def roundUp (a : UInt64) : UInt64 := (a + 4096 - 1) &&& ~~~(4096 - 1)

def roundDown (a : UInt64) : UInt64 := a &&& ~~~(4096 - 1)

def boot : Pages := ⟨fun _ => 0, 0, 0, 0, 0⟩

/-- C `anx_page_init_span`. -/
def initSpan (start fin : UInt64) : Option Pages :=
  let start := roundUp start
  let fin := roundDown fin
  if start < fin then
    some { boot with heapBase := start, totalPages := min ((fin - start) >>> 12).toNat maxPages }
  else none

/-- C `clip`. -/
def clip (s : Pages) (start fin : UInt64) : Option (Nat × Nat) :=
  let spanEnd := s.heapBase + UInt64.ofNat s.totalPages <<< 12
  let start := if roundUp start < s.heapBase then s.heapBase else roundUp start
  let fin := if spanEnd < roundDown fin then spanEnd else roundDown fin
  if fin ≤ start then none else
    some (((start - s.heapBase) >>> 12).toNat, ((fin - s.heapBase) >>> 12).toNat)

def addPage (s : Pages) (p : Nat) : Pages :=
  if bitTest s.bitmap p then s
  else { s with
    bitmap := bitSet s.bitmap p
    usablePages := s.usablePages + 1
    freeCount := s.freeCount + 1 }

def reservePage (s : Pages) (p : Nat) : Pages :=
  if bitTest s.bitmap p then { s with
    bitmap := bitClear s.bitmap p
    usablePages := s.usablePages - 1
    freeCount := s.freeCount - 1 }
  else s

/-- The loop of `anx_page_add_free` and `anx_page_reserve` over the pages of a range. -/
def clipped (f : Pages → Nat → Pages) (s : Pages) (start fin : UInt64) : Pages :=
  match clip s start fin with
  | none => s
  | some (first, last) => (List.range' first (last - first)).foldl f s

/-- C `anx_page_add_free`. -/
def addFree (s : Pages) (start fin : UInt64) : Pages := clipped addPage s start fin

/-- C `anx_page_reserve`. -/
def reserve (s : Pages) (start fin : UInt64) : Pages := clipped reservePage s start fin

/-- C `anx_page_init`. -/
def init (start fin : UInt64) : Option Pages := (initSpan start fin).map (addFree · start fin)

/-- C `take`. -/
def take (s : Pages) (first count : Nat) : UInt64 × Pages :=
  (s.heapBase + UInt64.ofNat first <<< 12, { s with
    bitmap := (List.range count).foldl (fun bitmap j => bitClear bitmap (first + j)) s.bitmap
    freeCount := s.freeCount - count })

/-- The number of free pages from `i` on, at most `n`: where the inner loop stops. -/
def runFrom (bitmap : Nat → BitVec 64) (i : Nat) : Nat → Nat
  | 0 => 0
  | n + 1 => if bitTest bitmap i then runFrom bitmap (i + 1) n + 1 else 0

/-- The search from the end, for a number of rounds. -/
def searchDown (s : Pages) (count : Nat) : Nat → Nat → Option (Option Nat)
  | 0, _ => none
  | rounds + 1, i =>
    if s.bitmap (i / 64) = 0 then
      let w := i / 64
      if w = 0 then some none
      else searchDown s count rounds
        (if s.totalPages < w * 64 - 1 + count then s.totalPages - count else w * 64 - 1)
    else if runFrom s.bitmap i count = count then some (some i)
    else if i = 0 then some none
    else searchDown s count rounds (i - 1)

def searchUp (s : Pages) (count : Nat) : Nat → Nat → Option (Option Nat)
  | 0, _ => none
  | rounds + 1, i =>
    if i + count ≤ s.totalPages then
      if s.bitmap (i / 64) = 0 then searchUp s count rounds ((i / 64 + 1) * 64)
      else
        let j := runFrom s.bitmap i count
        if j = count then some (some i) else searchUp s count rounds (i + j + 1)
    else some none

/-- C `anx_page_alloc`; there is no result when a search does not end. -/
def alloc (s : Pages) (order : Fin 64) : Option (UInt64 × Pages) :=
  let count := 2 ^ order.val
  if s.freeCount < count ∨ s.totalPages < count then some (0, s)
  else
    let found := if 16 ≤ count then searchDown s count (s.totalPages + 1) (s.totalPages - count)
      else searchUp s count (s.totalPages + 1) 0
    found.map fun
      | some i => take s i count
      | none => (0, s)

/-- C `anx_page_free`. -/
def free (s : Pages) (addr : UInt64) (order : Fin 64) : Option Pages :=
  let page := ((addr - s.heapBase) >>> 12).toNat
  let count := 2 ^ order.val
  if addr < s.heapBase ∨ addr &&& (4096 - 1) ≠ 0 ∨ s.totalPages < page + count then none
  else ((List.range count).foldlM (fun bitmap j =>
      if bitTest bitmap (page + j) then none else some (bitSet bitmap (page + j))) s.bitmap).map
          fun bitmap =>
    { s with bitmap := bitmap, freeCount := s.freeCount + count }

/-! ## Calls -/

inductive Call where
  | initSpan (start fin : UInt64)
  | init (start fin : UInt64)
  | addFree (start fin : UInt64)
  | reserve (start fin : UInt64)
  | alloc (order : Fin 64)
  | free (addr : UInt64) (order : Fin 64)

def Call.exec (s : Pages) : Call → Option Pages
  | initSpan start fin => Page.initSpan start fin
  | init start fin => Page.init start fin
  | addFree start fin => some (Page.addFree s start fin)
  | reserve start fin => some (Page.reserve s start fin)
  | alloc order => (Page.alloc s order).map Prod.snd
  | free addr order => Page.free s addr order

/-- Nothing comes after a call that stops the kernel: such a call is left out. -/
def step (s : Pages) (call : Call) : Pages := (call.exec s).getD s

def Pages.free (s : Pages) : Finset Nat :=
  (range s.totalPages).filter fun p => bitTest s.bitmap p

def IsRun (s : Pages) (i count : Nat) : Prop :=
  i + count ≤ s.totalPages ∧ ∀ q ∈ Ico i (i + count), bitTest s.bitmap q = true

/-- The address is the one of a run of free pages, and these are no longer free. -/
structure Takes (s : Pages) (count : Nat) (a : UInt64) (s' : Pages) (i : Nat) : Prop where
  run : IsRun s i count
  address : a.toNat = s.heapBase.toNat + i * 4096
  cleared : ∀ q, bitTest s'.bitmap q = (bitTest s.bitmap q && decide (q ∉ Ico i (i + count)))

/-! ## Bits -/

section Bits

variable {bitmap : Nat → BitVec 64} {p q i n : Nat} {s : Pages}

lemma bitTest_update {w : BitVec 64} : bitTest (update bitmap (p / 64) w) q =
    if q / 64 = p / 64 then w.getLsbD (q % 64) else bitTest bitmap q := by
  unfold bitTest
  split
  · rename_i h
    rw [h, update_self]
  · rename_i h
    rw [update_of_ne h]

lemma bitTest_bitSet : bitTest (bitSet bitmap p) q = (bitTest bitmap q || decide (q = p)) := by
  rw [bitSet, bitTest_update]
  split
  · rename_i h
    have hq : q % 64 = p % 64 ↔ q = p := by omega
    rw [BitVec.getLsbD_or, Mask.getLsbD_single (Nat.mod_lt p (by decide)), decide_eq_decide.mpr hq,
      bitTest, h]
  · rename_i h
    have hq : q ≠ p := fun e => h (e ▸ rfl)
    simp [hq]

lemma bitTest_bitClear : bitTest (bitClear bitmap p) q = (bitTest bitmap q && !decide (q = p)) := by
  rw [bitClear, bitTest_update]
  split
  · rename_i h
    have hq : q % 64 = p % 64 ↔ q = p := by omega
    have hlt := Nat.mod_lt q (by decide : 64 > 0)
    rw [BitVec.getLsbD_and, BitVec.getLsbD_not, Mask.getLsbD_single (Nat.mod_lt p (by decide)),
      decide_eq_decide.mpr hq, bitTest, h, decide_eq_true hlt, Bool.true_and]
  · rename_i h
    have hq : q ≠ p := fun e => h (e ▸ rfl)
    simp [hq]

lemma bitTest_of_word (h : bitmap (i / 64) = 0) (hq : q / 64 = i / 64) :
    bitTest bitmap q = false := by
  rw [bitTest, hq, h]
  exact BitVec.getLsbD_zero

lemma runFrom_spec (bitmap : Nat → BitVec 64) (i n : Nat) : runFrom bitmap i n ≤ n ∧
    (∀ q ∈ Ico i (i + runFrom bitmap i n), bitTest bitmap q = true) ∧
    (runFrom bitmap i n < n → bitTest bitmap (i + runFrom bitmap i n) = false) := by
  induction n generalizing i with
  | zero => simp [runFrom]
  | succ n ih =>
    rw [runFrom]
    split
    · rename_i hbit
      obtain ⟨hle, hrun, hstop⟩ := ih (i + 1)
      refine ⟨Nat.succ_le_succ hle, fun q hq => ?_, fun hlt => ?_⟩
      · rw [mem_Ico] at hq
        rcases Nat.eq_or_lt_of_le hq.1 with rfl | hi
        · exact hbit
        · exact hrun q (mem_Ico.mpr (by omega))
      · rw [← Nat.add_assoc, Nat.add_right_comm]
        exact hstop (Nat.lt_of_succ_lt_succ hlt)
    · rename_i hbit
      simpa using hbit

end Bits

/-! ## The searches -/

section Searches

variable {s : Pages} {count i k : Nat}

/-- What a search says: a run, or that none starts at a place that satisfies `P`. -/
def Found (s : Pages) (count : Nat) (P : Nat → Prop) : Option Nat → Prop
  | some i => IsRun s i count
  | none => ∀ k, P k → ¬ IsRun s k count

lemma Found.mono {P Q : Nat → Prop} {r : Option Nat} (h : Found s count P r)
    (hQ : ∀ k, Q k → P k ∨ ¬ IsRun s k count) : Found s count Q r := by
  cases r with
  | some _ => exact h
  | none => exact fun k hk => (hQ k hk).elim (h k) id

lemma not_isRun {q : Nat} (hq : bitTest s.bitmap q = false) (hk : k ≤ q) (hlt : q < k + count) :
    ¬ IsRun s k count :=
  fun h => absurd (h.2 q (mem_Ico.mpr ⟨hk, hlt⟩)) (by simp [hq])

lemma isRun_or (hi : i + count ≤ s.totalPages) :
    (runFrom s.bitmap i count = count ∧ IsRun s i count) ∨ (runFrom s.bitmap i count < count ∧
      ∀ k, k ≤ i + runFrom s.bitmap i count → i + runFrom s.bitmap i count < k + count →
      ¬ IsRun s k count) := by
  obtain ⟨hle, hrun, hstop⟩ := runFrom_spec s.bitmap i count
  rcases Nat.eq_or_lt_of_le hle with heq | hlt
  · exact .inl ⟨heq, hi, heq ▸ hrun⟩
  · exact .inr ⟨hlt, fun k => not_isRun (hstop hlt)⟩

/-- A skipped word starts no run. -/
lemma not_isRun_of_word (hpos : 0 < count) (h : s.bitmap (i / 64) = 0) (hk : k / 64 = i / 64) :
    ¬ IsRun s k count :=
  not_isRun (bitTest_of_word h hk) (Nat.le_refl k) (Nat.lt_add_of_pos_right hpos)

lemma searchUp_spec (hpos : 0 < count) (rounds : Nat) (hrounds : s.totalPages < i + rounds)
    (hone : 0 < rounds) : ∃ r, searchUp s count rounds i = some r ∧ Found s count (i ≤ ·) r := by
  induction rounds generalizing i with
  | zero => cases hone
  | succ rounds ih =>
    rw [searchUp]
    split
    · rename_i hi
      -- The next round covers every place but those up to where this one goes on.
      have hnext : ∀ i', i < i' → (∀ k, i ≤ k → k < i' → ¬ IsRun s k count) →
          ∃ r, searchUp s count rounds i' = some r ∧ Found s count (i ≤ ·) r := by
        intro i' hlt hskip
        obtain ⟨r, hr, hfound⟩ := @ih i' (by omega) (by omega)
        exact ⟨r, hr, hfound.mono fun k hk => (Nat.lt_or_ge k i').symm.imp_right (hskip k hk)⟩
      split
      · rename_i hword
        exact hnext _ (by omega) fun k hk hlt => not_isRun_of_word hpos hword (by omega)
      · rcases isRun_or hi with ⟨heq, hrun⟩ | ⟨hlt, hnot⟩
        · exact ⟨some i, if_pos heq, hrun⟩
        · rw [if_neg (Nat.ne_of_lt hlt)]
          exact hnext _ (by omega) fun k hk hki => hnot k (by omega) (by omega)
    · exact ⟨none, rfl, fun k hk hrun => absurd hrun.1 (by omega)⟩

lemma searchDown_spec (hpos : 0 < count) (rounds : Nat) (hi : i + count ≤ s.totalPages)
    (hrounds : i < rounds) :
    ∃ r, searchDown s count rounds i = some r ∧ Found s count (· ≤ i) r := by
  induction rounds generalizing i with
  | zero => cases hrounds
  | succ rounds ih =>
    have hnext : ∀ i', i' < i → (∀ k, i' < k → k ≤ i → ¬ IsRun s k count) →
        ∃ r, searchDown s count rounds i' = some r ∧ Found s count (· ≤ i) r := by
      intro i' hlt hskip
      obtain ⟨r, hr, hfound⟩ := @ih i' (by omega) (by omega)
      exact ⟨r, hr, hfound.mono fun k hk => (Nat.lt_or_ge i' k).symm.imp_right (hskip k · hk)⟩
    rw [searchDown]
    split
    · rename_i hword
      dsimp only
      split
      · exact ⟨none, rfl, fun k hk => not_isRun_of_word hpos hword (by omega)⟩
      · rw [if_neg (by omega)]
        exact hnext _ (by omega) fun k hk hki => not_isRun_of_word hpos hword (by omega)
    · rcases isRun_or hi with ⟨heq, hrun⟩ | ⟨hlt, hnot⟩
      · exact ⟨some i, if_pos heq, hrun⟩
      · rw [if_neg (Nat.ne_of_lt hlt)]
        split
        · exact ⟨none, rfl, fun k hk => hnot k (by omega) (by omega)⟩
        · exact hnext _ (by omega) fun k hk hki => hnot k (by omega) (by omega)

end Searches

/-! ## The free pages -/

/-- The free pages lie in the span, and the counter counts them. -/
structure Sound (s : Pages) : Prop where
  span : s.heapBase.toNat + s.totalPages * 4096 < 2 ^ 64
  inside : ∀ p, bitTest s.bitmap p = true → p < s.totalPages
  counted : s.freeCount = s.free.card

section Free

variable {s : Pages} {p i n count : Nat} {bitmap : Nat → BitVec 64}

lemma Sound.mem_free (h : Sound s) {q : Nat} : q ∈ s.free ↔ bitTest s.bitmap q = true := by
  rw [Pages.free, mem_filter, mem_range, and_iff_right_of_imp (h.inside q)]

lemma Sound.of_free (h : Sound s) {S : Finset Nat} {u : UInt64} (hn : n = S.card)
    (hbits : ∀ q, bitTest bitmap q = true ↔ q ∈ S) (hS : S ⊆ range s.totalPages) :
    Sound ⟨bitmap, s.heapBase, s.totalPages, u, n⟩ := by
  refine ⟨h.span, fun q hq => mem_range.mp (hS ((hbits q).mp hq)),
    hn.trans (congrArg card (Finset.ext fun q => ?_))⟩
  rw [Pages.free, mem_filter, hbits q, and_iff_right_of_imp (@hS q)]

lemma Sound.bitSet (h : Sound s) (hp : p < s.totalPages) (hbit : ¬ bitTest s.bitmap p = true)
    (u : UInt64) :
    Sound ⟨Page.bitSet s.bitmap p, s.heapBase, s.totalPages, u, s.freeCount + 1⟩ := by
  have hnot : p ∉ s.free := mt h.mem_free.mp hbit
  refine h.of_free (S := insert p s.free) ?_ (fun q => ?_) ?_
  · rw [card_insert_of_notMem hnot, h.counted]
  · rw [bitTest_bitSet, mem_insert, h.mem_free, Bool.or_eq_true, decide_eq_true_eq, or_comm]
  · exact insert_subset (mem_range.mpr hp) (filter_subset ..)

lemma bitTest_clearRun (bitmap : Nat → BitVec 64) (i n q : Nat) :
    bitTest ((List.range n).foldl (fun bitmap j => bitClear bitmap (i + j)) bitmap) q =
      (bitTest bitmap q && decide (q ∉ Ico i (i + n))) := by
  induction n with
  | zero => simp
  | succ n ih =>
    rw [List.range_succ, List.foldl_append, List.foldl_cons, List.foldl_nil, bitTest_bitClear, ih,
      Bool.and_assoc]
    refine congrArg (bitTest bitmap q && ·) ?_
    rw [← decide_not, ← Bool.decide_and, decide_eq_decide, mem_Ico, mem_Ico]
    omega

lemma IsRun.subset (h : Sound s) (hrun : IsRun s i count) : Ico i (i + count) ⊆ s.free :=
  fun q hq => h.mem_free.mpr (hrun.2 q hq)

lemma toNat_shift (h : n * 4096 < 2 ^ 64) : (UInt64.ofNat n <<< 12).toNat = n * 4096 := by
  rw [UInt64.toNat_shiftLeft, UInt64.toNat_ofNat_of_lt' (by rw [UInt64.size]; omega)]
  exact (congrArg (· % 2 ^ 64) (Nat.shiftLeft_eq n 12)).trans (Nat.mod_eq_of_lt h)

lemma toNat_pages {a b : UInt64} (h : b ≤ a) :
    ((a - b) >>> 12).toNat = (a.toNat - b.toNat) / 4096 := by
  rw [UInt64.toNat_shiftRight, UInt64.toNat_sub_of_le _ _ h]
  exact Nat.shiftRight_eq_div_pow _ 12

lemma take_spec (h : Sound s) (hrun : IsRun s i count) :
    Takes s count (take s i count).1 (take s i count).2 i ∧ Sound (take s i count).2 := by
  have hle := hrun.1
  have hspan := h.span
  refine ⟨⟨hrun, ?_, bitTest_clearRun s.bitmap i count⟩, ?_⟩
  · have hmul : i * 4096 ≤ s.totalPages * 4096 := by omega
    have hlt := Nat.lt_of_le_of_lt (Nat.add_le_add_left hmul s.heapBase.toNat) hspan
    rw [take, UInt64.toNat_add, toNat_shift (Nat.lt_of_le_of_lt (Nat.le_add_left ..) hlt),
      Nat.mod_eq_of_lt hlt]
  · refine h.of_free (S := s.free \ Ico i (i + count)) ?_ (fun q => ?_)
      (sdiff_subset.trans (filter_subset ..))
    · rw [card_sdiff_of_subset (hrun.subset h), Nat.card_Ico, Nat.add_sub_cancel_left, h.counted]
    · rw [bitTest_clearRun, mem_sdiff, h.mem_free, Bool.and_eq_true, decide_eq_true_eq]

lemma clip_le (h : Sound s) {start fin : UInt64} {first last : Nat}
    (hclip : clip s start fin = some (first, last)) : last ≤ s.totalPages := by
  have hspan := h.span
  have hend : (s.heapBase + UInt64.ofNat s.totalPages <<< 12).toNat = s.heapBase.toNat +
      s.totalPages * 4096 := by
    rw [UInt64.toNat_add, toNat_shift (Nat.lt_of_le_of_lt (Nat.le_add_left ..) hspan),
      Nat.mod_eq_of_lt hspan]
  unfold clip at hclip
  dsimp only at hclip
  generalize s.heapBase + UInt64.ofNat s.totalPages <<< 12 = spanEnd at hclip hend
  generalize hstart :
    (if roundUp start < s.heapBase then s.heapBase else roundUp start) = start' at hclip
  generalize hfin : (if spanEnd < roundDown fin then spanEnd else roundDown fin) = fin' at hclip
  have hs : s.heapBase ≤ start' := by grind
  have hf : fin' ≤ spanEnd := by grind
  split at hclip
  · cases hclip
  · rename_i hlt
    cases hclip
    rw [toNat_pages (UInt64.le_trans hs (UInt64.le_of_lt (UInt64.not_le.mp hlt)))]
    rw [UInt64.le_iff_toNat_le] at hf
    omega

lemma clipped_sound {f : Pages → Nat → Pages} (h : Sound s) (start fin : UInt64)
    (hf : ∀ s p, Sound s → p < s.totalPages → Sound (f s p) ∧ (f s p).totalPages = s.totalPages) :
    Sound (clipped f s start fin) := by
  unfold clipped
  split
  · exact h
  · rename_i first last hclip
    have hle := clip_le h hclip
    refine (List.foldlRecOn (motive := fun t => Sound t ∧ t.totalPages = s.totalPages) _ f
      ⟨h, rfl⟩ ?_).1
    intro t ht p hp
    obtain ⟨hsound, htotal⟩ := hf t p ht.1 (by have := List.mem_range'_1.mp hp; omega)
    exact ⟨hsound, htotal.trans ht.2⟩

lemma freeRun_sound (h : Sound s) (hle : i + n ≤ s.totalPages)
    (hrun : (List.range n).foldlM (fun bitmap j =>
      if bitTest bitmap (i + j) then none else some (bitSet bitmap (i + j))) s.bitmap =
        some bitmap) :
    Sound { s with bitmap := bitmap, freeCount := s.freeCount + n } := by
  induction n generalizing bitmap with
  | zero =>
    cases hrun
    exact h
  | succ n ih =>
    rw [List.range_succ, List.foldlM_append, Option.bind_eq_bind, Option.bind_eq_some_iff] at hrun
    obtain ⟨b, hb, hlast⟩ := hrun
    by_cases hbit : bitTest b (i + n) = true
    · simp [hbit] at hlast
    · obtain rfl : Page.bitSet b (i + n) = bitmap := by simpa [hbit] using hlast
      exact (ih (by omega) hb).bitSet hle hbit _

lemma empty_sound {base : UInt64} {total : Nat} (hspan : base.toNat + total * 4096 < 2 ^ 64) :
    Sound { boot with heapBase := base, totalPages := total } := by
  have hbit : ∀ p, bitTest boot.bitmap p = false := fun p => BitVec.getLsbD_zero
  refine ⟨hspan, fun p hp => absurd hp (by simp [hbit]), (card_eq_zero.mpr ?_).symm⟩
  exact filter_false_of_mem fun p _ => ne_true_of_eq_false (hbit p)

lemma initSpan_sound {start fin : UInt64} (hs : initSpan start fin = some s) : Sound s := by
  unfold initSpan at hs
  dsimp only at hs
  split at hs
  · rename_i hlt
    cases hs
    have hfin := (roundDown fin).toNat_lt
    rw [toNat_pages (UInt64.le_of_lt hlt)]
    rw [UInt64.lt_iff_toNat_lt] at hlt
    exact empty_sound (by omega)
  · cases hs

lemma alloc_spec (h : Sound s) (order : Fin 64) : ∃ a s', alloc s order = some (a, s') ∧ Sound s' ∧
    ((∃ i, Takes s (2 ^ order.val) a s' i) ∨ (∀ i, ¬ IsRun s i (2 ^ order.val)) ∧ a = 0 ∧
      s' = s) := by
  have hpos : 0 < 2 ^ order.val := Nat.two_pow_pos _
  unfold alloc
  dsimp only
  generalize 2 ^ order.val = count at hpos
  split
  · refine ⟨0, s, rfl, h, .inr ⟨fun i hrun => ?_, rfl, rfl⟩⟩
    have hcard := card_le_card (hrun.subset h)
    rw [Nat.card_Ico, ← h.counted] at hcard
    have hle := hrun.1
    omega
  · have hsearch :
      ∃ r, (if 16 ≤ count then searchDown s count (s.totalPages + 1) (s.totalPages - count)
        else searchUp s count (s.totalPages + 1) 0) = some r ∧
        Found s count (· + count ≤ s.totalPages) r := by
      split
      · obtain ⟨r, hr, hfound⟩ :=
          searchDown_spec (s := s) (i := s.totalPages - count) hpos (s.totalPages + 1)
          (by omega) (by omega)
        exact ⟨r, hr, hfound.mono fun k hk => .inl (Nat.le_sub_of_add_le hk)⟩
      · obtain ⟨r, hr, hfound⟩ :=
          searchUp_spec (s := s) hpos (s.totalPages + 1) (by omega) (by omega)
        exact ⟨r, hr, hfound.mono fun k _ => .inl (Nat.zero_le k)⟩
    obtain ⟨r, hr, hfound⟩ := hsearch
    rw [hr]
    cases r with
    | some i =>
      obtain ⟨htakes, hsound⟩ := take_spec h hfound
      exact ⟨_, _, rfl, hsound, .inl ⟨i, htakes⟩⟩
    | none => exact ⟨0, s, rfl, h, .inr ⟨fun i hrun => hfound i hrun.1 hrun, rfl, rfl⟩⟩

lemma addFree_sound (h : Sound s) (start fin : UInt64) : Sound (addFree s start fin) := by
  refine clipped_sound h start fin fun s p hs hp => ?_
  unfold addPage
  split
  · exact ⟨hs, rfl⟩
  · rename_i hbit
    exact ⟨hs.bitSet hp hbit _, rfl⟩

lemma reserve_sound (h : Sound s) (start fin : UInt64) : Sound (reserve s start fin) := by
  refine clipped_sound h start fin fun s p hs _ => ?_
  unfold reservePage
  split
  · rename_i hbit
    refine ⟨hs.of_free (S := s.free.erase p) ?_ (fun q => ?_)
      ((erase_subset ..).trans (filter_subset ..)), rfl⟩
    · rw [card_erase_of_mem (hs.mem_free.mpr hbit), hs.counted]
    · rw [bitTest_bitClear, mem_erase, hs.mem_free]
      simp [and_comm]
  · exact ⟨hs, rfl⟩

lemma exec_sound {s' : Pages} (h : Sound s) (call : Call) (hexec : call.exec s = some s') :
    Sound s' := by
  cases call with
  | initSpan start fin => exact initSpan_sound hexec
  | init start fin =>
    obtain ⟨t, ht, rfl⟩ := Option.map_eq_some_iff.mp hexec
    exact addFree_sound (initSpan_sound ht) start fin
  | addFree start fin =>
    cases hexec
    exact addFree_sound h start fin
  | reserve start fin =>
    cases hexec
    exact reserve_sound h start fin
  | alloc order =>
    obtain ⟨a, t, halloc, hsound, -⟩ := alloc_spec h order
    simp only [Call.exec, halloc, Option.map_some, Option.some.injEq] at hexec
    exact hexec ▸ hsound
  | free addr order =>
    simp only [Call.exec, free] at hexec
    split at hexec
    · cases hexec
    · obtain ⟨bitmap, hb, rfl⟩ := Option.map_eq_some_iff.mp hexec
      exact freeRun_sound h (by omega) hb

end Free

/-- An allocation takes a run of free pages, and fails only if there is none. -/
theorem alloc_exact (ops : List Call) (n : Nat) (order : Fin 64) :
    let s := Run.after step boot ops n
    (s.freeCount = s.free.card ∧ ∀ p, bitTest s.bitmap p = true → p < s.totalPages) ∧
    ∃ a s', alloc s order = some (a, s') ∧
      ((∃ i, Takes s (2 ^ order.val) a s' i) ∨ (∀ i, ¬ IsRun s i (2 ^ order.val)) ∧
        a = 0 ∧ s' = s) ∧
      (s.heapBase ≠ 0 → (a ≠ 0 ↔ ∃ i, IsRun s i (2 ^ order.val))) := by
  intro s
  have h : Sound s := by
    refine Run.after_invariant step (empty_sound (by decide)) (fun s call h => ?_) n
    unfold step
    cases hexec : call.exec s with
    | none => exact h
    | some s' => exact exec_sound h call hexec
  obtain ⟨a, s', halloc, -, hcases⟩ := alloc_spec h order
  refine ⟨⟨h.counted, h.inside⟩, a, s', halloc, hcases, fun hbase => ?_⟩
  rcases hcases with ⟨i, htakes⟩ | ⟨hnone, rfl, -⟩
  · refine iff_of_true (fun ha => hbase (UInt64.toNat_inj.mp ?_)) ⟨i, htakes.run⟩
    have haddr := htakes.address
    rw [ha, UInt64.toNat_zero] at haddr
    rw [UInt64.toNat_zero]
    omega
  · exact iff_of_false (fun h0 => h0 rfl) (fun ⟨i, hrun⟩ => hnone i hrun)

/-- Two pages are found in a heap of four. -/
theorem alloc_exact_two : let s := Run.after step boot [.init 4096 16384] 1
    s.heapBase ≠ 0 ∧ ∃ a s', alloc s 1 = some (a, s') ∧ a ≠ 0 := by
  have hbase : (Run.after step boot [.init 4096 16384] 1).heapBase ≠ 0 := by decide +kernel
  have hrun : IsRun (Run.after step boot [.init 4096 16384] 1) 0 (2 ^ 1) := by
    unfold IsRun
    decide +kernel
  obtain ⟨-, a, s', halloc, -, hiff⟩ := alloc_exact [.init 4096 16384] 1 1
  exact ⟨hbase, a, s', halloc, (hiff hbase).mpr ⟨0, hrun⟩⟩

/-- A span from address 0: page 0 is handed out, and the answer is that of a failed allocation. -/
theorem alloc_page_zero : let s := Run.after step boot [.init 0 8192] 1
    IsRun s 0 (2 ^ 0) ∧ ∃ s', alloc s 0 = some (0, s') ∧ s'.freeCount = 1 := by
  refine ⟨?_, _, rfl, ?_⟩
  · unfold IsRun
    decide +kernel
  · decide +kernel

end Anunix.Page
