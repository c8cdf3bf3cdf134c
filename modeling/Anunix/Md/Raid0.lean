import Anunix.Md.Served
import Anunix.Md.Start

/-!
# A striped array is a flat disk

The sectors of a RAID 0 array are dealt out to the members chunk by chunk. `Machine.flat` reads the
array as one run of sectors, through the striping map; the chunk loop reads and writes that run, one
member request per chunk, in order and each sector once (`raid0Io_ends`).

The map reaches every data sector of every member exactly if the number of sectors of all members
together can be counted in 64 bits: `create` multiplies without a check, and an array whose product
wraps is a flat disk of what is left (`raid0_flat_iff`).
-/

namespace Anunix.Md
open Fallible Region Stripe List

/-! ## The array as one run of sectors -/

namespace Layout

variable (L : Layout)

def chunk : Nat :=
  L.array.chunkSectors.toNat

def locate (i : Nat) : Option DevId × Nat :=
  (L.dev (member L.size L.chunk i), L.offset + row L.size L.chunk i)

/-- A laid array with whole chunks on every member. -/
structure Striped : Prop extends L.Laid where
  level : L.array.level = .raid0
  chunk_pos : 0 < L.chunk
  whole : L.chunk ∣ L.sectors
  full : ∀ i < L.size, ∃ d, L.dev i = some d
  bound : L.array.arraySectors.toNat ≤ L.sectors * L.size

end Layout

def Access.cells (acc : Access) : List (Option DevId × Nat) :=
  (range' acc.lba.toNat acc.count.toNat).map fun k => (some acc.dev, k)

def Machine.sectorAt (m : Machine) : Option DevId × Nat → Sector
  | (some d, k) => (m.devs d).data k
  | (none, _) => zeroSector

def Machine.flat (m : Machine) (a : ArrayId) (i : Nat) : Sector :=
  m.sectorAt ((m.layout a).locate i)

/-- Requests have been made for `n` array sectors from sector `i` on, for each once and in order,
and nothing else was asked of a driver. -/
structure Transferred (a : ArrayId) (write : Bool) (i n : Nat) (m m' : Machine) : Prop where
  io : m'.io = m.io
  tick : m.tick ≤ m'.tick
  arrays : m'.arrays = m.arrays
  layout : m'.layout a = m.layout a
  trace : ∃ accs, m'.trace = m.trace ++ accs ∧ (∀ acc ∈ accs, acc.write = write) ∧
    accs.flatMap Access.cells = (range' i n).map (m.layout a).locate

variable {a : ArrayId} {i : Nat} {m m' : Machine}

section Transferred

variable {write : Bool} {n k : Nat} {m'' : Machine}

lemma Transferred.refl (m : Machine) : Transferred a write i 0 m m :=
  ⟨rfl, Nat.le_refl _, rfl, rfl, [], (append_nil _).symm, forall_mem_nil _, rfl⟩

lemma Transferred.trans (h : Transferred a write i n m m')
    (h' : Transferred a write (i + n) k m' m'') : Transferred a write i (n + k) m m'' := by
  obtain ⟨accs, htrace, hwrite, hcells⟩ := h.trace
  obtain ⟨accs', htrace', hwrite', hcells'⟩ := h'.trace
  refine ⟨h'.io.trans h.io, Nat.le_trans h.tick h'.tick, h'.arrays.trans h.arrays,
    h'.layout.trans h.layout, accs ++ accs', ?_, forall_mem_append.mpr ⟨hwrite, hwrite'⟩, ?_⟩
  · rw [htrace', htrace, append_assoc]
  · rw [flatMap_append, hcells, hcells', h.layout, ← map_append, range'_append_1]

end Transferred

/-! ## One chunk -/

section Chunk

variable {t : Nat} {L : Layout} {d : DevId} {k : UInt64} {run : UInt32}

lemma Layout.locate_add (h : i % L.chunk + t < L.chunk) :
    L.locate (i + t) = ((L.locate i).1, (L.locate i).2 + t) := by
  rw [Layout.locate, Layout.locate, member_add h, row_add h, Nat.add_assoc]

lemma Layout.locate_range {n : Nat} (h : i % L.chunk + n ≤ L.chunk) : (range' i n).map L.locate =
      (range' (L.locate i).2 n).map fun k => ((L.locate i).1, k) := by
  rw [range'_eq_map_range, range'_eq_map_range, map_map, map_map]
  refine map_congr_left fun t ht => ?_
  have ht : t < n := mem_range.mp ht
  exact Layout.locate_add (by omega)

/-- No request fails from now on, and no member has. -/
structure Machine.Healthy (m : Machine) (a : ArrayId) : Prop where
  calm : ∀ t, m.tick ≤ t → m.io t = none
  state : ∀ i < (m.layout a).size, ((m.arrays a).members i).state ≠ .faulty

lemma healthy_of_active (hm : ∀ t, m.tick ≤ t → m.io t = none)
    (h : ∀ i < (m.layout a).size, ((m.arrays a).members i).state = .active) : m.Healthy a := by
  refine ⟨hm, fun i hi hfaulty => ?_⟩
  rw [h i hi] at hfaulty
  cases hfaulty

lemma Layout.Striped.dev_locate (h : L.Striped) (i : Nat) : ∃ d, (L.locate i).1 = some d :=
  h.full _ (member_lt h.pos)

variable {lba : UInt64}

lemma Machine.sectorAt_eq {p : Option DevId × Nat} (hd : p.1 = some d) :
    m.sectorAt p = (m.devs d).data p.2 := by
  obtain ⟨_, k⟩ := p
  cases hd
  rfl

lemma load_flat (hd : ((m.layout a).locate i).1 = some d) {n : Nat}
    (hrun : i % (m.layout a).chunk + n ≤ (m.layout a).chunk) :
    load (m.devs d).data ((m.layout a).locate i).2 n = load (m.flat a) i n := by
  apply load_eq_load
  intro t ht
  rw [Machine.flat, Layout.locate_add (by omega), hd]
  rfl

/-- Writing a chunk's part on the member writes it on the flat disk: no other array sector is
there. -/
lemma flat_written (h : (m.layout a).Striped) {l : List Sector}
    (hd : ((m.layout a).locate i).1 = some d) (hk : k.toNat = ((m.layout a).locate i).2)
    (hrun : i % (m.layout a).chunk + l.length ≤ (m.layout a).chunk) :
    (m.written d k l).flat a = store (m.flat a) i l := by
  funext j
  obtain ⟨d', hd'⟩ := h.dev_locate j
  rw [Machine.flat, layout_written, Machine.sectorAt_eq hd', Machine.written]
  by_cases hin : i ≤ j ∧ j < i + l.length
  · -- a sector of the run
    obtain ⟨t, rfl⟩ := Nat.exists_eq_add_of_le hin.1
    have ht : t < l.length := by omega
    rw [Layout.locate_add (by omega), hd] at hd'
    cases hd'
    rw [Layout.locate_add (by omega), devs_setDev_self, ← hk]
    show store _ _ l _ = _
    rw [store_of_mem ht, store_of_mem ht]
  · -- any other sector
    rw [store_of_disjoint (by omega), Machine.flat, Machine.sectorAt_eq hd']
    by_cases hdd : d' = d
    · subst hdd
      have hmember := h.distinct _ (member_lt h.pos) _ (member_lt h.pos) _ hd' hd
      rw [devs_setDev_self]
      apply store_of_disjoint
      by_contra hcell
      dsimp only [Layout.locate] at hk hcell
      obtain ⟨t, ht⟩ := Nat.exists_eq_add_of_le
        (show row (m.layout a).size (m.layout a).chunk i ≤
          row (m.layout a).size (m.layout a).chunk j by omega)
      have := eq_add_of_row h.chunk_pos (by omega) hmember ht
      omega
    · rw [devs_setDev_of_ne _ hdd]

lemma transferred_access (h : (m.layout a).Striped)
    (hlba : lba.toNat < (m.layout a).sectors * (m.layout a).size)
    (hd : ((m.layout a).locate lba.toNat).1 = some d)
    (hk : k.toNat = row (m.layout a).size (m.layout a).chunk lba.toNat)
    (hrun : lba.toNat % (m.layout a).chunk + run.toNat ≤ (m.layout a).chunk) {write : Bool}
    (hio : m'.io = m.io) (htick : m'.tick = m.tick + 1) (harr : m'.arrays = m.arrays)
    (hlayout : m'.layout a = m.layout a)
    (htrace : m'.trace = m.trace ++ [(m.layout a).access d k run write]) :
    Transferred a write lba.toNat run.toNat m m' := by
  refine ⟨hio, Nat.le_of_lt (Nat.lt_of_lt_of_eq (Nat.lt_succ_self _) htick.symm), harr, hlayout, _,
    htrace, ?_, ?_⟩
  · exact forall_mem_singleton.mpr rfl
  · have hrow := row_lt h.chunk_pos h.whole hlba
    have hsector := h.toLaid.sector_toNat (member_lt h.pos) hd k (by omega)
    rw [flatMap_singleton, Layout.locate_range hrun]
    show (range' (dataOffsetFor (m.layout a).array.tailMeta + k).toNat run.toNat).map _ = _
    rw [hsector, hk, hd]
    rfl

lemma Machine.Healthy.not_failed (hm : m.Healthy a) (h : (m.layout a).Striped) {idx : Nat}
    (hidx : idx < (m.layout a).size) :
    ¬ m.Down a idx ∧ ¬ (m.io m.tick).isSome := by
  constructor
  · rintro (hnone | hfaulty)
    · obtain ⟨d, hd⟩ := h.full idx hidx
      rw [hnone] at hd
      cases hd
    · exact hm.state idx hidx hfaulty
  · rw [hm.calm _ (Nat.le_refl _)]
    exact Bool.false_ne_true

def loaded (flat : Nat → Sector) (i n : Nat) : Option Buffer → List Sector
  | some _ => []
  | none => load flat i n

def stored (flat : Nat → Sector) (i n : Nat) : Option Buffer → Nat → Sector
  | some buf => store flat i (buf.sectors.take n)
  | none => flat

/-- `n` sectors from sector `i` on were transferred, and `l` was read. -/
structure Moved (a : ArrayId) (i n : Nat) (write : Option Buffer) (m : Machine) (l : List Sector)
    (m' : Machine) : Prop where
  read : l = loaded (m.flat a) i n write
  flat : m'.flat a = stored (m.flat a) i n write
  transferred : Transferred a write.isSome i n m m'

lemma raid0Part_ends (h : (m.layout a).Striped) (hm : m.Healthy a) {write : Option Buffer}
    (hlba : lba.toNat < (m.layout a).sectors * (m.layout a).size)
    (hrun : lba.toNat % (m.layout a).chunk + run.toNat ≤ (m.layout a).chunk) (hpos : run ≠ 0)
    (hbuf : ∀ buf ∈ write, run.toNat ≤ buf.sectors.length) :
    Succeeds (raid0Part a ((m.arrays a).stripe lba).1 ((m.arrays a).stripe lba).2 run write) m
      (Moved a lba.toNat run.toNat write m) := by
  have hfst : ((m.arrays a).stripe lba).1 = member (m.layout a).size (m.layout a).chunk lba.toNat :=
    MdArray.stripe_fst lba
  have hsnd :
      ((m.arrays a).stripe lba).2.toNat = row (m.layout a).size (m.layout a).chunk lba.toNat :=
    MdArray.stripe_snd lba
  generalize ((m.arrays a).stripe lba).1 = idx at hfst ⊢
  generalize ((m.arrays a).stripe lba).2 = k at hsnd ⊢
  subst hfst
  have hidx := member_lt (c := (m.layout a).chunk) (i := lba.toNat) h.pos
  obtain ⟨hhealthy, hcalm⟩ := hm.not_failed h hidx
  have hfit := row_add_le h.chunk_pos h.whole hlba hrun
  rw [← hsnd] at hfit
  cases write with
  | none =>
    refine .call (memberRead_ends h.toLaid hidx hfit) ?_ ?_
    · rintro buf m' ⟨d, hd, -, hm', hsectors, -⟩
      have hasked : m' = m.noted ((m.layout a).access d k run false) := hm'.trans (if_neg hpos)
      rw [hsnd] at hsectors
      subst hasked
      exact ⟨hsectors.trans (load_flat hd hrun), rfl,
        transferred_access h hlba hd hsnd hrun rfl rfl rfl rfl rfl⟩
    · rintro e m' (⟨-, hbad⟩ | ⟨d, -, -, -, hio⟩)
      · exact hhealthy hbad
      · exact hcalm hio
  | some buf =>
    have hlen : (buf.take run.toNat).sectors.length = run.toNat := length_take_of_le (hbuf buf rfl)
    have hcount : (buf.take run.toNat).count = run := by
      apply UInt32.toNat_inj.mp
      rw [Buffer.count_toNat, hlen]
    rw [← hlen] at hfit
    refine .call (memberWrite_ends h.toLaid hidx hfit) ?_ ?_
    · rintro - m' ⟨d, hd, -, hm', -⟩
      rw [hcount] at hm'
      have hasked : m.asked ((m.layout a).access d k run true) =
        m.noted ((m.layout a).access d k run true) := if_neg hpos
      rw [hasked] at hm'
      have hk := h.toLaid.sector_toNat hidx hd k (by omega)
      rw [hsnd] at hk
      rw [← hlen] at hrun
      subst hm'
      refine ⟨rfl, flat_written h hd hk hrun, ?_⟩
      rw [hlen] at hrun
      exact transferred_access h hlba hd hsnd hrun rfl rfl rfl (layout_written _ _ _ _ _) rfl
    · rintro e m' (⟨-, hbad⟩ | ⟨d, l, -, -, -, -, hio⟩)
      · exact hhealthy hbad
      · exact hcalm hio

end Chunk

/-! ## The chunk loop -/

section Loop

variable {flat : Nat → Sector} {n : Nat} {write : Option Buffer}

lemma loaded_add {k : Nat} :
    loaded flat i n write ++ loaded (stored flat i n write) (i + n) k (write.map fun buf =>
      buf.drop n) = loaded flat i (n + k) write := by
  cases write with
  | none => exact load_add.symm
  | some buf => rfl

lemma stored_add {k : Nat} (hn : ∀ buf ∈ write, n ≤ buf.sectors.length) :
    stored (stored flat i n write) (i + n) k (write.map fun buf => buf.drop n) =
      stored flat i (n + k) write := by
  cases write with
  | none => rfl
  | some buf =>
    have hlen : (buf.sectors.take n).length = n := length_take_of_le (hn buf rfl)
    show store (store flat i (buf.sectors.take n)) (i + n) ((buf.sectors.drop n).take k) =
      store flat i (buf.sectors.take (n + k))
    rw [take_add, ← store_append, hlen]

lemma Transferred.healthy {write : Bool} (h : Transferred a write i n m m') (hm : m.Healthy a) :
    m'.Healthy a := by
  refine ⟨?_, ?_⟩
  · intro t ht
    rw [h.io]
    exact hm.calm t (Nat.le_trans h.tick ht)
  · rw [h.layout, h.arrays]
    exact hm.state

lemma loaded_zero : loaded flat i 0 write = [] := by
  cases write <;> rfl

lemma stored_zero : stored flat i 0 write = flat := by
  cases write with
  | none => rfl
  | some buf => exact store_nil

lemma Moved.refl (m : Machine) : Moved a i 0 write m [] m :=
  ⟨loaded_zero.symm, stored_zero.symm, Transferred.refl m⟩

lemma Layout.Striped.chunk_ne_zero (h : (m.layout a).Striped) : (m.arrays a).chunkSectors ≠ 0 :=
  fun hz => absurd h.chunk_pos (Nat.not_lt.mpr (Nat.le_of_eq (congrArg UInt32.toNat hz)))

lemma raid0Loop_ends (h : (m.layout a).Striped) (hm : m.Healthy a) {fuel : Nat} {lba : UInt64}
    {count : UInt32} (hfuel : count.toNat ≤ fuel)
    (hfit : lba.toNat + count.toNat ≤ (m.layout a).array.arraySectors.toNat)
    (hbuf : ∀ buf ∈ write, buf.sectors.length = count.toNat) :
    Succeeds (raid0Loop a fuel lba count write) m
      (Moved a lba.toNat count.toNat write m) := by
  induction fuel generalizing m lba count write with
  | zero =>
    rw [Nat.le_zero.mp hfuel]
    exact .refl m
  | succ fuel ih =>
    unfold raid0Loop
    by_cases hzero : count = 0
    · subst hzero
      exact .refl m
    rw [if_neg hzero]
    apply getArray_bind
    have hpos : 0 < count.toNat := Nat.pos_of_ne_zero fun hz => hzero (UInt32.toNat_inj.mp hz)
    have hlba : lba.toNat < (m.layout a).sectors * (m.layout a).size := by
      have := h.bound
      omega
    have hrun := MdArray.stripeRun_toNat lba count h.chunk_ne_zero
    have hmod : lba.toNat % (m.arrays a).chunkSectors.toNat < (m.arrays a).chunkSectors.toNat :=
      Nat.mod_lt _ h.chunk_pos
    generalize (m.arrays a).stripeRun lba count = run at hrun
    have hrunpos : run ≠ 0 := by
      rintro rfl
      have : (0 : UInt32).toNat = 0 := rfl
      omega
    have hle : run.toNat ≤ count.toNat := by omega
    have hwithin : lba.toNat % (m.layout a).chunk + run.toNat ≤ (m.layout a).chunk := by
      show lba.toNat % (m.arrays a).chunkSectors.toNat + run.toNat ≤ (m.arrays a).chunkSectors.toNat
      omega
    obtain ⟨henough, hbuf1⟩ := buffer_cut hbuf hle
    refine .attempt_bind ((raid0Part_ends h hm hlba hwithin hrunpos henough).post ?_)
    rintro part m₁ ⟨hpart, hflat, htransfer⟩
    -- the rest of the request, from the first sector of the next chunk on
    have hnext : (lba + run.toUInt64).toNat = lba.toNat + run.toNat := by
      exact Nat.mod_eq_of_lt (Nat.lt_of_le_of_lt (Nat.le_trans (Nat.add_le_add_left hle _) hfit)
        (UInt64.toNat_lt _))
    have hleft : (count - run).toNat = count.toNat - run.toNat :=
      UInt32.toNat_sub_of_le _ _ (UInt32.le_iff_toNat_le.mpr hle)
    have hsum : count.toNat = run.toNat + (count - run).toNat := by omega
    have hlaid1 : (m₁.layout a).Striped := by
      rw [htransfer.layout]
      exact h
    have hfit1 : (lba + run.toUInt64).toNat + (count - run).toNat ≤
        (m₁.layout a).array.arraySectors.toNat := by
      rw [htransfer.layout]
      omega
    refine .next (ih hlaid1 (htransfer.healthy hm) (by omega) hfit1 hbuf1) ?_
    rintro rest m2 ⟨hrest, hflat2, htransfer2⟩
    rw [hnext, hflat] at hrest hflat2
    rw [hnext, Option.isSome_map] at htransfer2
    rw [hsum]
    refine ⟨?_, ?_, htransfer.trans htransfer2⟩
    · rw [hpart, hrest, loaded_add]
    · rw [hflat2, stored_add henough]

end Loop

/-! ## Requests to the array -/

section Run

lemma not_past_end {lba n : UInt64} {count : UInt32} (h : lba.toNat + count.toNat ≤ n.toNat) :
    ¬ lba + count.toUInt64 > n := by
  rw [gt_iff_lt, UInt64.lt_iff_toNat_lt, UInt64.toNat_add, UInt32.toNat_toUInt64,
    Nat.mod_eq_of_lt (Nat.lt_of_le_of_lt h n.toNat_lt)]
  exact Nat.not_lt.mpr h

section

variable (h : (m.layout a).Striped)
include h

lemma raid0Io_ends (hm : m.Healthy a) {lba : UInt64} {count : UInt32}
    {write : Option Buffer} (hfit : lba.toNat + count.toNat ≤ (m.layout a).array.arraySectors.toNat)
    (hbuf : ∀ buf ∈ write, buf.sectors.length = count.toNat) :
    Succeeds (raid0Io a lba count write) m
      (Moved a lba.toNat count.toNat write m) := by
  have hchunk : ((m.arrays a).chunkSectors == 0) = false := beq_eq_false_iff_ne.mpr h.chunk_ne_zero
  have hcount : ((m.arrays a).memberCount == 0) = false := by
    apply beq_eq_false_iff_ne.mpr
    exact fun hz => absurd h.pos (Nat.not_lt.mpr (Nat.le_of_eq (congrArg UInt32.toNat hz)))
  refine getArray_bind (.pass (by rw [hchunk, hcount]; rfl) ?_)
  exact raid0Loop_ends h hm (Nat.le_refl _) hfit hbuf

/-- Request `r` was met as on the flat disk. -/
structure Request.Met (r : Request) (a : ArrayId) (m : Machine) (o : Except Err (List Sector))
    (m' : Machine) : Prop where
  answer : o = .ok (r.answer (m.flat a))
  flat : m'.flat a = r.apply (m.flat a)
  transferred : Transferred a r.isWrite r.lba.toNat r.count.toNat m m'

lemma Request.exec_met (hm : m.Healthy a) {r : Request}
    (hr : r.InRange (m.layout a).array.arraySectors.toNat) :
    r.Met a m (outcome (r.exec a) m) (final (r.exec a) m) := by
  have hused : (m.arrays a).used = true := h.used
  have hlevel : (m.arrays a).level = .raid0 := h.level
  have hend : ¬ r.lba + r.count.toUInt64 > (m.arrays a).arraySectors := not_past_end hr
  apply Ends.both
  cases r with
  | read lba count =>
    refine getArray_bind (.pass (by rw [hused]; rfl) (.pass (decide_eq_false hend) ?_))
    rw [hlevel]
    refine (raid0Io_ends h hm hr ?_).mono ?_ fun _ _ h => h.elim
    · exact fun _ hmem => nomatch hmem
    · rintro l m' ⟨hl, hflat, htransfer⟩
      exact ⟨congrArg _ hl, hflat, htransfer⟩
  | write lba buf =>
    refine .bind (getArray_bind (.pass (by rw [hused]; rfl) (.pass (decide_eq_false hend) ?_)))
    rw [hlevel]
    refine .call (raid0Io_ends h hm hr ?_) ?_ fun _ _ h => h.elim
    · rintro _ ⟨⟩
      exact buf.count_toNat.symm
    · rintro l m' ⟨-, hflat, htransfer⟩
      have hflat : m'.flat a = store (m.flat a) lba.toNat (buf.sectors.take buf.count.toNat) :=
        hflat
      rw [buf.count_toNat, take_length] at hflat
      exact ⟨rfl, hflat, htransfer⟩

def Machine.after (m : Machine) (a : ArrayId) (rs : List Request) : Machine :=
  rs.foldl (fun m r => final (r.exec a) m) m

lemma Machine.after_flat (hm : m.Healthy a) {rs : List Request}
    (hrs : ∀ r ∈ rs, r.InRange (m.layout a).array.arraySectors.toNat) :
    (m.after a rs).layout a = m.layout a ∧ (m.after a rs).Healthy a ∧
      (m.after a rs).flat a = rs.foldl Request.apply (m.flat a) := by
  induction rs generalizing m with
  | nil => exact ⟨rfl, hm, rfl⟩
  | cons r rs ih =>
    obtain ⟨-, hflat, htransfer⟩ := Request.exec_met h hm (hrs r mem_cons_self)
    have hrest := ih (by rw [htransfer.layout]; exact h) (htransfer.healthy hm)
      fun r' hr' => by
        rw [htransfer.layout]
        exact hrs r' (mem_cons_of_mem _ hr')
    rw [htransfer.layout, hflat] at hrest
    exact hrest

end

end Run

/-! ## Created arrays -/

/-- The array is a flat disk: its sectors are the data sectors of the members, one by one, and
whatever requests in range are made of it, the next one is answered and met as on a linear array of
sectors, each sector transferred once and in order. -/
structure FlatDisk (a : ArrayId) (m : Machine) : Prop where
  map : Set.BijOn (m.arrays a).stripe {lba | lba < (m.arrays a).arraySectors}
    {p | p.1 < (m.arrays a).memberCount.toNat ∧ p.2 < (m.arrays a).memberSectors}
  runs : ∀ (rs : List Request) (r : Request),
    (∀ r' ∈ r :: rs, r'.InRange (m.arrays a).arraySectors.toNat) →
    outcome (r.exec a) (m.after a rs) = .ok (r.answer (rs.foldl Request.apply (m.flat a))) ∧
      Transferred a r.isWrite r.lba.toNat r.count.toNat (m.after a rs)
      (final (r.exec a) (m.after a rs))

section FlatDisk

/-- Sectors are answered as on a flat disk whether or not the size of the array is right. -/
lemma runs_flat (h : (m.layout a).Striped) (hm : m.Healthy a) (rs : List Request) (r : Request)
    (hrs : ∀ r' ∈ r :: rs, r'.InRange (m.arrays a).arraySectors.toNat) :
    outcome (r.exec a) (m.after a rs) = .ok (r.answer (rs.foldl Request.apply (m.flat a))) ∧
      Transferred a r.isWrite r.lba.toNat r.count.toNat (m.after a rs)
      (final (r.exec a) (m.after a rs)) := by
  obtain ⟨hlayout, hhealthy, hflat⟩ :=
    Machine.after_flat h hm fun r' hr' => hrs r' (mem_cons_of_mem _ hr')
  have hr := hrs r mem_cons_self
  have hlaid : ((m.after a rs).layout a).Striped := by
    rw [hlayout]
    exact h
  obtain ⟨hanswer, -, htransfer⟩ := Request.exec_met hlaid hhealthy (by rw [hlayout]; exact hr)
  rw [hflat] at hanswer
  exact ⟨hanswer, htransfer⟩

lemma stripe_eq {lba lba' : UInt64} : (m.arrays a).stripe lba = (m.arrays a).stripe lba' ↔
      member (m.layout a).size (m.layout a).chunk lba.toNat =
        member (m.layout a).size (m.layout a).chunk lba'.toNat ∧
      row (m.layout a).size (m.layout a).chunk lba.toNat =
        row (m.layout a).size (m.layout a).chunk lba'.toNat := by
  rw [Prod.ext_iff, ← UInt64.toNat_inj, MdArray.stripe_snd, MdArray.stripe_snd]
  rfl

section

variable (h : (m.layout a).Striped)
include h

lemma stripe_injective : Function.Injective (m.arrays a).stripe := by
  intro lba lba' heq
  obtain ⟨hmember, hrow⟩ := stripe_eq.mp heq
  apply UInt64.toNat_inj.mp
  rw [← index_member_row (i := lba.toNat) h.chunk_pos,
    ← index_member_row (i := lba'.toNat) h.chunk_pos, hmember, hrow]

lemma stripe_mem {lba : UInt64}
    (hlba : lba.toNat < (m.layout a).sectors * (m.layout a).size) :
    ((m.arrays a).stripe lba).1 < (m.arrays a).memberCount.toNat ∧
      ((m.arrays a).stripe lba).2 < (m.arrays a).memberSectors := by
  rw [UInt64.lt_iff_toNat_lt, MdArray.stripe_snd]
  exact ⟨member_lt h.pos, row_lt h.chunk_pos h.whole hlba⟩

/-- The striping map reaches every data sector exactly if the array has as many sectors as its
members together. -/
lemma stripe_bijOn_iff :
    Set.BijOn (m.arrays a).stripe {lba | lba < (m.arrays a).arraySectors}
      {p | p.1 < (m.arrays a).memberCount.toNat ∧ p.2 < (m.arrays a).memberSectors} ↔
    (m.layout a).sectors * (m.layout a).size = (m.layout a).array.arraySectors.toNat := by
  constructor
  · intro hbij
    refine Nat.le_antisymm (Nat.not_lt.mp fun hlt => ?_) h.bound
    -- the place of the first sector past the end is hit by no sector before it
    obtain ⟨lba, hlba, heq⟩ := hbij.surjOn (stripe_mem h hlt)
    rw [stripe_injective h heq] at hlba
    exact absurd hlba (UInt64.lt_irrefl _)
  · intro hsize
    refine ⟨fun lba hlba => ?_, (stripe_injective h).injOn, ?_⟩
    · apply stripe_mem h
      rw [hsize]
      exact UInt64.lt_iff_toNat_lt.mp hlba
    · rintro ⟨j, k⟩ ⟨hj, hk⟩
      have hj : j < (m.layout a).size := hj
      have hlt := index_lt h.chunk_pos h.whole hj hk
      rw [hsize] at hlt
      have htoNat : (UInt64.ofNat (index (m.layout a).size (m.layout a).chunk j k.toNat)).toNat =
          index (m.layout a).size (m.layout a).chunk j k.toNat :=
        UInt64.toNat_ofNat_of_lt' (Nat.lt_trans hlt (UInt64.toNat_lt _))
      refine ⟨UInt64.ofNat (index (m.layout a).size (m.layout a).chunk j k.toNat), ?_, ?_⟩
      · show _ < (m.arrays a).arraySectors
        rw [UInt64.lt_iff_toNat_lt, htoNat]
        exact hlt
      · rw [Prod.ext_iff, ← UInt64.toNat_inj, MdArray.stripe_fst, MdArray.stripe_snd, htoNat]
        exact ⟨member_index h.chunk_pos hj, row_index h.chunk_pos hj⟩

end

end FlatDisk

section Created

variable {chunk : UInt32} {members : List DevId} {tailMeta : Bool} {uuid : Uuid}
  {now smallest : UInt64} {b : DevId} {m₁ : Machine}
  (h : Created .raid0 chunk members tailMeta uuid now smallest a b m m₁ m')

include h

lemma Created.layout_chunk : (m'.layout a).chunk = chunk.toNat := by
  rw [Layout.chunk, h.layout_array]
  rfl

lemma Created.arraySectors :
    (m'.layout a).array.arraySectors.toNat = smallest.toNat * members.length % 2 ^ 64 := by
  have hlen : (UInt64.ofNat members.length).toNat = members.length :=
    UInt64.toNat_ofNat_of_lt' (Nat.lt_of_le_of_lt h.count.2 (by decide))
  rw [h.layout_array]
  show (smallest * UInt64.ofNat members.length).toNat = _
  rw [UInt64.toNat_mul, hlen]

lemma Created.striped_layout : (m'.layout a).Striped := by
  obtain ⟨hchunk, hwhole⟩ := h.striped rfl
  refine ⟨h.laid, ?_, ?_, ?_, fun i hi => ?_, ?_⟩
  · rw [h.layout_array]
    rfl
  · rw [h.layout_chunk]
    exact Nat.pos_of_ne_zero fun hz => hchunk (UInt32.toNat_inj.mp hz)
  · rw [h.layout_chunk, h.sectors]
    exact hwhole
  · rw [h.size] at hi
    exact ⟨members[i], by rw [h.dev, getElem?_eq_getElem hi]⟩
  · rw [h.arraySectors, h.sectors, h.size]
    exact Nat.mod_le _ _

/-- The striping map reaches every data sector of a created array exactly if the product does not
wrap. -/
lemma Created.map_iff : Set.BijOn (m'.arrays a).stripe {lba | lba < (m'.arrays a).arraySectors}
      {p | p.1 < (m'.arrays a).memberCount.toNat ∧ p.2 < (m'.arrays a).memberSectors} ↔
    smallest.toNat * members.length < 2 ^ 64 := by
  rw [stripe_bijOn_iff h.striped_layout, h.arraySectors, h.sectors, h.size]
  constructor
  · intro heq
    rw [heq]
    exact Nat.mod_lt _ (by decide)
  · intro hlt
    exact (Nat.mod_eq_of_lt hlt).symm

end Created

/-- A stripe reads and writes like one disk, unless its size wraps around. -/
theorem raid0_flat_iff {chunkSectors : UInt32} {members : List DevId} {tailMeta : Bool}
    {uuid : Uuid} {now : UInt64} {m m' : Machine} {a : ArrayId}
    (hcreate : create Level.raid0.code chunkSectors members tailMeta uuid now m = .ok a m')
    (hcalm : ∀ t, m'.tick ≤ t → m'.io t = none) :
    FlatDisk a m' ↔ ∃ s, memberSectorsFor m.devs .raid0 chunkSectors members tailMeta = .ok s ∧
      s.toNat * members.length < 2 ^ 64 := by
  obtain ⟨chunk, smallest, b, m₁, hsectors, hcreated⟩ := create_ok hcreate
  have hlevel : Level.ofCode Level.raid0.code = .raid0 := rfl
  rw [hlevel] at hsectors
  have hhealthy : m'.Healthy a := healthy_of_active hcalm fun i => hcreated.state
  constructor
  · intro hflat
    exact ⟨smallest, hsectors, hcreated.map_iff.mp hflat.map⟩
  · rintro ⟨s, hs, hlt⟩
    rw [hs] at hsectors
    cases hsectors
    exact ⟨hcreated.map_iff.mpr hlt, runs_flat hcreated.striped_layout hhealthy⟩

/-- A stripe over two small drives does. -/
theorem raid0_flat_iff_twoDrives :
    ∃ a m', create Level.raid0.code 128 [0, 1] true Uuid.nil 0 (Machine.fresh 2 1000) = .ok a m' ∧
      (∀ t, m'.tick ≤ t → m'.io t = none) ∧ FlatDisk a m' := by
  obtain ⟨a, m', hcreate⟩ := exists_ok_of_outcome
    (x := create Level.raid0.code 128 [0, 1] true Uuid.nil 0) (s := Machine.fresh 2 1000)
    (by decide +kernel)
  obtain ⟨_, _, _, _, _, hcreated⟩ := create_ok hcreate
  have hcalm : ∀ t, m'.tick ≤ t → m'.io t = none := by
    intro t _
    rw [hcreated.io]
    rfl
  exact ⟨a, m', hcreate, hcalm, (raid0_flat_iff hcreate hcalm).mpr ⟨896, rfl, by decide⟩⟩

/-- Two drives of a little more than 2^63 sectors make an array of 256 sectors. -/
theorem raid0_not_flat_wideDrives : ∃ a m', create Level.raid0.code 128 [0, 1] true Uuid.nil 0
        (Machine.fresh 2 (9223372036854775808 + 136)) = .ok a m' ∧
      (∀ t, m'.io t = none) ∧ (m'.arrays a).memberSectors = 9223372036854775808 + 128 ∧
      (m'.arrays a).arraySectors = 256 ∧ ¬ FlatDisk a m' := by
  obtain ⟨a, m', hcreate⟩ := exists_ok_of_outcome
    (x := create Level.raid0.code 128 [0, 1] true Uuid.nil 0)
    (s := Machine.fresh 2 (9223372036854775808 + 136)) (by decide +kernel)
  obtain ⟨_, smallest, _, _, hsectors, hcreated⟩ := create_ok hcreate
  have hsmallest : smallest = 9223372036854775808 + 128 := by
    cases hsectors
    rfl
  subst hsmallest
  refine ⟨a, m', hcreate, fun t => ?_, ?_, ?_, fun hflat => ?_⟩
  · rw [hcreated.io]
    rfl
  · exact UInt64.toNat_inj.mp hcreated.sectors
  · exact UInt64.toNat_inj.mp hcreated.arraySectors
  · exact absurd (hcreated.map_iff.mp hflat.map) (by decide)

end Anunix.Md
