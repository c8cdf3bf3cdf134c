import Anunix.Error
import Anunix.Lib.Slots

/-!
# Partitions

C `anx_part_scan` (`kernel/drivers/storage/part.c`) over the registry of block devices
(`kernel/drivers/storage/blk.c`). Each entry of a partition table becomes a device of its own under
a name with two digits of its index, so the entries 10 and 110 of one table ask for the same name.
-/

namespace Anunix.Part
open Slots
open List hiding get get_cons_succ

/-- An entry of C `struct anx_gpt_table`. -/
structure Entry where
  startLba : UInt64
  endLba : UInt64
  index : Nat
  deriving DecidableEq

/-- What C `anx_gpt_read_dev` takes from an entry on disk. -/
structure RawEntry where
  typeLo : UInt64
  typeHi : UInt64
  startLba : UInt64
  endLba : UInt64

/-- C `ANX_GPT_MAX_PARTS`. -/
def gptMaxParts : Nat := 16

/-- The loop of C `anx_gpt_read_dev` over the entries on disk, of which `found` are in the table. -/
def gptEntries (i found : Nat) : List RawEntry → List Entry
  | [] => []
  | r :: raw =>
    if gptMaxParts ≤ found then []
    else if r.typeLo = 0 ∧ r.typeHi = 0 then gptEntries (i + 1) found raw
    else ⟨r.startLba, r.endLba, i + 1⟩ :: gptEntries (i + 1) (found + 1) raw

/-- C `struct anx_part`, with the slot of the parent. -/
structure Partition where
  parent : Nat
  startLba : UInt64
  sectors : UInt64
  index : Nat
  deriving DecidableEq

/-- The sectors of the parent that C `part_blk_read` and `part_blk_write` ask for. -/
def Partition.access (p : Partition) (lba : UInt64) (count : UInt32) :
    Except Err (Option (UInt64 × UInt32)) :=
  if count = 0 then .ok none
  else if p.sectors ≤ lba ∨ p.sectors - lba < count.toUInt64 then .error .erange
  else .ok (some (p.startLba + lba, count))

/-- A used slot of C `blk_devs`. -/
structure BlkDev where
  name : List UInt8
  capacity : UInt64
  /-- What C `anx_gpt_read_dev` returns, if it does not fail. -/
  table : Option (List Entry)
  partition : Option Partition
  deriving DecidableEq

/-- C `PART_MAX`. -/
def partMax : Nat := 64

/-- The registry and the number of used slots of C `part_pool`. -/
structure State where
  devs : List (Option BlkDev)
  pool : Nat

/-- C `part_name`: the name of the parent, in a field of 16 bytes, and two digits of the index. -/
def partName (parent : List UInt8) (index : Nat) : List UInt8 :=
  let dst := parent.take 15
  (if 16 ≤ dst.length + 4 then dst.take 11 else dst) ++ [0x70] ++
    (if 10 ≤ index then [UInt8.ofNat (0x30 + index / 10 % 10)] else []) ++
    [UInt8.ofNat (0x30 + index % 10)]

/-- C `anx_blk_dev_register_named`. -/
def registerNamed (devs : List (Option BlkDev)) (dev : BlkDev) : Option (List (Option BlkDev)) :=
  if (firstWith devs fun d => d.name == dev.name).isSome then none
  else (firstFree devs).map fun i => devs.set i (some dev)

def Entry.device (e : Entry) (slot : Nat) (dev : BlkDev) : BlkDev where
  name := partName dev.name e.index
  capacity := e.endLba - e.startLba + 1
  table := none
  partition := some ⟨slot, e.startLba, e.endLba - e.startLba + 1, e.index⟩

/-- The loop of C `anx_part_scan`. -/
def scanEntries (slot : Nat) (dev : BlkDev) : List Entry → State → State
  | [], s => s
  | e :: es, s =>
    if e.startLba = 0 ∨ e.endLba < e.startLba ∨ dev.capacity ≤ e.endLba then
      scanEntries slot dev es s
    else if partMax ≤ s.pool then s
    else
      match registerNamed s.devs (e.device slot dev) with
      | none => s
      | some devs => scanEntries slot dev es ⟨devs, s.pool + 1⟩

/-- C `anx_part_scan`. -/
def partScan (slot : Nat) (dev : BlkDev) (s : State) : State :=
  if dev.partition.isSome ∨ dev.capacity = 0 then s else scanEntries slot dev (dev.table.getD []) s

/-! ## The entries that count -/

section Entries

variable {dev : BlkDev} {e : Entry}

def Entry.Valid (e : Entry) (dev : BlkDev) : Prop :=
  0 < e.startLba ∧ e.startLba ≤ e.endLba ∧ e.endLba < dev.capacity

instance (e : Entry) : Decidable (e.Valid dev) :=
  inferInstanceAs (Decidable (_ ∧ _))

/-- The entries that C `anx_part_scan` does not reject. -/
def validEntries (dev : BlkDev) (es : List Entry) : List Entry :=
  es.filter fun e => e.Valid dev

lemma validEntries_cons (e : Entry) (es : List Entry) :
    validEntries dev (e :: es) = if e.Valid dev then e :: validEntries dev es else
    validEntries dev es := by
  simp [validEntries, filter_cons]

lemma Entry.valid_iff :
    e.Valid dev ↔ ¬ (e.startLba = 0 ∨ e.endLba < e.startLba ∨ dev.capacity ≤ e.endLba) := by
  rw [Entry.Valid, not_or, not_or, UInt64.not_lt, UInt64.not_le, UInt64.pos_iff_ne_zero]

end Entries

/-! ## Registration -/

section Scan

variable {devs : List (Option BlkDev)} {f slot : Nat} {dev : BlkDev} {s : State}

/-- A name that is taken is refused, and a fresh one gets the first free slot. -/
lemma registerNamed_eq_none {d : BlkDev} (hd : d ∈ devs.reduceOption) (hname : d.name = dev.name) :
    registerNamed devs dev = none := by
  obtain ⟨i, hi⟩ := mem_reduceOption.mp hd
  obtain ⟨j, b, hj⟩ := @exists_firstWith _ devs i d (·.name == dev.name) hi (beq_iff_eq.mpr hname)
  rw [registerNamed, hj, if_pos Option.isSome_some]

lemma registerNamed_eq_some {d : BlkDev} (hfresh : ∀ d' ∈ devs.reduceOption, d'.name ≠ d.name)
    (hf : firstFree devs = some f) : registerNamed devs d = some (devs.set f (some d)) := by
  rw [registerNamed, if_neg ?_, hf, Option.map_some]
  intro hsome
  obtain ⟨⟨k, d'⟩, hwith⟩ := Option.isSome_iff_exists.mp hsome
  obtain ⟨hget, hname⟩ := firstWith_eq_some hwith
  exact hfresh d' (mem_reduceOption.mpr ⟨k, hget⟩) (beq_iff_eq.mp hname)

lemma of_registerNamed {t : List (Option BlkDev)} (h : registerNamed devs dev = some t) :
    ∃ f, firstFree devs = some f ∧ devs.set f (some dev) = t := by
  unfold registerNamed at h
  split at h
  · cases h
  · exact Option.map_eq_some_iff.mp h

lemma scanEntries_of_empty {es : List Entry} (h : dev.capacity = 0) :
    scanEntries slot dev es s = s := by
  induction es with
  | nil => rfl
  | cons e es ih => simpa [scanEntries, h] using ih

/-- A device without sectors has no entries that count. -/
lemma partScan_eq (hdrive : dev.partition = none) :
    partScan slot dev s = scanEntries slot dev (dev.table.getD []) s := by
  unfold partScan
  split
  · rename_i hskip
    have hcapacity : dev.capacity = 0 := hskip.resolve_left (by simp [hdrive])
    exact (scanEntries_of_empty hcapacity).symm
  · rfl

end Scan

/-! ## The partitions of a drive -/

section Table

variable {dev : BlkDev} {slot : Nat} {s : State} {e : Entry} {raw : List RawEntry} {i j found : Nat}

/-- Two digits tell apart any two indices up to 128, unless they are ten or more and differ by
100. -/
lemma partName_inj {parent : List UInt8} (hi : i ≤ 128) (hj : j ≤ 128)
    (h : partName parent i = partName parent j) :
    i = j ∨ 10 ≤ i ∧ j = i + 100 ∨ 10 ≤ j ∧ i = j + 100 := by
  have hdigit : ∀ {a b : Nat}, UInt8.ofNat (0x30 + a % 10) = UInt8.ofNat (0x30 + b % 10) →
      a % 10 = b % 10 := by
    intro a b hab
    have hnat := congrArg UInt8.toNat hab
    simp only [UInt8.toNat_ofNat'] at hnat
    omega
  simp only [partName, append_assoc, append_cancel_left_eq] at h
  split at h
  · split at h
    · obtain ⟨htens, hones⟩ := cons.inj h
      have := hdigit htens
      have := hdigit (cons.inj hones).1
      omega
    · cases (cons.inj h).2
  · split at h
    · cases (cons.inj h).2
    · have := hdigit (cons.inj h).1
      omega

lemma partName_add {parent : List UInt8} (h : 10 ≤ i) :
    partName parent (i + 100) = partName parent i := by
  have htens : (i + 100) / 10 % 10 = i / 10 % 10 := by omega
  have hones : (i + 100) % 10 = i % 10 := by omega
  rw [partName, partName, htens, hones, if_pos h, if_pos (Nat.le_add_right_of_le h)]

/-- The loop stops at the latest at an entry whose name is taken. -/
lemma scanEntries_short (slot : Nat) {d : BlkDev} {es : List Entry} (he : e ∈ validEntries dev es)
    (hd : d ∈ s.devs.reduceOption) (hname : d.name = partName dev.name e.index) :
    (scanEntries slot dev es s).devs.reduceOption.length <
      s.devs.reduceOption.length + (validEntries dev es).length := by
  induction es generalizing s with
  | nil => cases he
  | cons e' es ih =>
    rw [validEntries_cons] at he ⊢
    rw [scanEntries]
    by_cases hvalid : e'.Valid dev
    · rw [if_pos hvalid, mem_cons] at he
      rw [if_neg (Entry.valid_iff.mp hvalid), if_pos hvalid, length_cons]
      split
      · omega
      cases ht : registerNamed s.devs (e'.device slot dev) with
      | none =>
        simp only
        omega
      | some t =>
        obtain ⟨f, hf, rfl⟩ := of_registerNamed ht
        obtain ⟨hlt, hnone⟩ := firstFree_eq_some hf
        have hperm : (s.devs.set f (some (e'.device slot dev))).reduceOption.Perm _ :=
          perm_fill hlt hnone
        have hlen := hperm.length_eq
        rw [length_cons] at hlen
        rcases he with rfl | he
        · cases (registerNamed_eq_none hd hname).symm.trans ht
        · have hshort := ih (s := ⟨_, s.pool + 1⟩) he (hperm.mem_iff.mpr (mem_cons_of_mem _ hd))
          simp only at hshort ⊢
          omega
    · rw [if_neg hvalid] at he ⊢
      rw [if_pos (not_not.mp (mt Entry.valid_iff.mpr hvalid))]
      exact ih he hd

lemma mem_gptEntries (he : e ∈ gptEntries i found raw) :
    i < e.index ∧ e.index ≤ i + raw.length := by
  induction raw generalizing i found with
  | nil => cases he
  | cons r raw ih =>
    rw [length_cons]
    rw [gptEntries] at he
    split at he
    · cases he
    · split at he
      · have := ih he
        omega
      · rcases mem_cons.mp he with rfl | he
        · simp only
          omega
        · have := ih he
          omega

lemma gptEntries_pairwise (raw : List RawEntry) (i found : Nat) :
    (gptEntries i found raw).Pairwise fun e e' => e.index < e'.index := by
  induction raw generalizing i found with
  | nil => exact .nil
  | cons r raw ih =>
    rw [gptEntries]
    split
    · exact .nil
    · split
      · exact ih (i + 1) found
      · exact .cons (fun e he => (mem_gptEntries he).1) (ih (i + 1) (found + 1))

lemma registerNamed_ok {devs : List (Option BlkDev)}
    (hfresh : ∀ d ∈ devs.reduceOption, d.name ≠ dev.name)
    (hroom : devs.reduceOption.length < devs.length) :
    ∃ t, registerNamed devs dev = some t ∧ t.length = devs.length ∧
      t.reduceOption.Perm (dev :: devs.reduceOption) := by
  have hadd := length_reduceOption_add (t := devs)
  obtain ⟨i, hi⟩ := exists_firstFree (show 0 < devs.countP Option.isNone by omega)
  obtain ⟨hlt, hnone⟩ := firstFree_eq_some hi
  exact ⟨_, registerNamed_eq_some hfresh hi, length_set, perm_fill hlt hnone⟩

/-- With room, and with names that are fresh and distinct, the loop registers the device of each
valid entry. -/
lemma scanEntries_registers (es : List Entry)
    (hnames : ((validEntries dev es).map fun e => partName dev.name e.index).Nodup)
    (hfresh : ∀ e ∈ validEntries dev es, ∀ d ∈ s.devs.reduceOption,
      d.name ≠ partName dev.name e.index)
    (hroom : s.devs.reduceOption.length + (validEntries dev es).length ≤ s.devs.length)
    (hpool : s.pool + (validEntries dev es).length ≤ partMax) :
    (scanEntries slot dev es s).devs.reduceOption.Perm
      (s.devs.reduceOption ++ (validEntries dev es).map (·.device slot dev)) := by
  induction es generalizing s with
  | nil => exact .of_eq (append_nil _).symm
  | cons e es ih =>
    rw [validEntries_cons] at hnames hfresh hroom hpool ⊢
    rw [scanEntries]
    by_cases hvalid : e.Valid dev
    · rw [if_neg (Entry.valid_iff.mp hvalid)]
      simp only [if_pos hvalid, map_cons, nodup_cons, length_cons, forall_mem_cons]
        at hnames hfresh hroom hpool ⊢
      obtain ⟨t, ht, hlength, hperm⟩ :=
        @registerNamed_ok (e.device slot dev) s.devs hfresh.1 (by omega)
      have hlen := hperm.length_eq
      rw [length_cons] at hlen
      rw [if_neg (by omega), ht]
      refine (ih hnames.2 ?_ ?_ ?_).trans ?_
      · intro e' he' d hd
        rcases mem_cons.mp (hperm.mem_iff.mp hd) with rfl | hd
        · exact fun heq => hnames.1 (mem_map.mpr ⟨e', he', heq.symm⟩)
        · exact hfresh.2 e' he' d hd
      · simp only
        omega
      · simp only
        omega
      · exact (hperm.append_right _).trans perm_middle.symm
    · rw [if_pos (not_not.mp (mt Entry.valid_iff.mpr hvalid))]
      rw [if_neg hvalid] at hnames hfresh hroom hpool ⊢
      exact ih hnames hfresh hroom hpool

lemma Entry.Valid.access (h : e.Valid dev) {p : Partition} {lba a : UInt64} {count n : UInt32}
    (hp : (e.device slot dev).partition = some p) (ha : p.access lba count = .ok (some (a, n))) :
    e.startLba.toNat ≤ a.toNat ∧ a.toNat + n.toNat ≤ e.endLba.toNat + 1 := by
  obtain ⟨hpos, hle, -⟩ := h
  cases hp
  unfold Partition.access at ha
  split at ha
  · cases ha
  · split at ha
    · cases ha
    · rename_i hcheck
      cases ha
      obtain ⟨hlt, hcount⟩ := not_or.mp hcheck
      have hend := e.endLba.toNat_lt
      simp only [UInt64.lt_iff_toNat_lt, UInt64.le_iff_toNat_le, UInt64.toNat_add, UInt64.toNat_sub,
        UInt32.toNat_toUInt64, UInt64.toNat_one] at hle hlt hcount ⊢
      omega

/-- Where names do not clash, each valid entry becomes a device of its own, confined to the
entry. -/
theorem partScan_registers {es : List Entry} (hraw : raw.length ≤ 128)
    (hes : es = gptEntries 0 0 raw) (hdrive : dev.partition = none) (htable : dev.table = some es)
    (hroom : s.devs.reduceOption.length + (validEntries dev es).length ≤ s.devs.length)
    (hpool : s.pool + (validEntries dev es).length ≤ partMax) :
    ((partScan slot dev s).devs.reduceOption.Perm
        (s.devs.reduceOption ++ (validEntries dev es).map (·.device slot dev)) ∧
      ((validEntries dev es).map fun e => partName dev.name e.index).Nodup ∧
      ∀ e ∈ validEntries dev es, ∀ p lba count a n,
        (e.device slot dev).partition = some p → p.access lba count = .ok (some (a, n)) →
          e.startLba.toNat ≤ a.toNat ∧ a.toNat + n.toNat ≤ e.endLba.toNat + 1) ↔
    (∀ e ∈ validEntries dev es, ∀ d ∈ s.devs.reduceOption, d.name ≠ partName dev.name e.index) ∧
      ∀ e ∈ validEntries dev es, ∀ e' ∈ validEntries dev es, 10 ≤ e.index →
      e'.index ≠ e.index + 100 := by
  have hscan : partScan slot dev s = scanEntries slot dev es s := by
    rw [partScan_eq hdrive, htable, Option.getD_some]
  rw [hscan]
  constructor
  · rintro ⟨hperm, hnames, -⟩
    refine ⟨fun e he d hd hname => ?_, fun e he e' he' hten heq => ?_⟩
    · have hshort := scanEntries_short slot he hd hname
      rw [hperm.length_eq, length_append, length_map] at hshort
      exact Nat.lt_irrefl _ hshort
    · have hsame := inj_on_of_nodup_map hnames he he' (heq ▸ (partName_add hten).symm)
      rw [← hsame] at heq
      omega
  · rintro ⟨hother, hapart⟩
    have hnames : ((validEntries dev es).map fun e => partName dev.name e.index).Nodup := by
      subst hes
      refine pairwise_map.mpr (((gptEntries_pairwise raw 0 0).filter _).imp_of_mem ?_)
      intro e e' he he' hlt heq
      have hbound' := (mem_gptEntries (List.mem_filter.mp he').1).2
      rcases partName_inj (by omega) (by omega) heq with h | h | h
      · omega
      · exact hapart e he e' he' h.1 h.2
      · omega
    refine ⟨scanEntries_registers es hnames hother hroom hpool, hnames, ?_⟩
    exact fun e he p lba count a n => (of_decide_eq_true (List.mem_filter.mp he).2).access

end Table

def partitioned : BlkDev :=
  ⟨[0x61], 100, some [⟨1, 9, 1⟩], none⟩

def bare : BlkDev :=
  ⟨[0x62], 100, none, none⟩

/-- The one entry of a table becomes a third device. -/
theorem partScan_registers_first :
    (partScan 0 partitioned ⟨some partitioned :: some bare :: replicate 30 none,
      0⟩).devs.reduceOption.length = 3 := by
  have h :=
    (@partScan_registers partitioned 0 ⟨some partitioned :: some bare :: replicate 30 none, 0⟩
    [⟨1, 0, 1, 9⟩] _ (by decide) rfl rfl rfl (by decide) (by decide)).mpr (by decide)
  exact h.1.length_eq

/-- Entries 10 and 110 of a table have one name. -/
theorem partScan_drops :
    let es :=
    gptEntries 0 0 (replicate 9 ⟨0, 0, 0, 0⟩ ++ [⟨1, 0, 1, 9⟩] ++ replicate 99 ⟨0, 0, 0, 0⟩ ++
      [⟨1, 0, 10, 19⟩])
    let dev : BlkDev := ⟨[0x61], 100, some es, none⟩
    (validEntries dev es).map Entry.index = [10, 110] ∧
      (partScan 0 dev ⟨some dev :: replicate 31 none, 0⟩).devs.reduceOption.length = 2 := by
  decide +kernel

end Anunix.Part
