import Anunix.Error
import Anunix.Lib.CString
import Anunix.Lib.Fallible
import Anunix.Lib.Keyed
import Anunix.Lib.Run

/-!
# Object metadata

Model of `kernel/core/state/meta.c`, the hash table of named values that an object carries. An entry
stays in the bucket of the key it was set under and stores as much of that key as its array holds.
Which allocations of a call succeed is an argument of the call.
-/

namespace Anunix.Metadata
open Fallible Function List

/-- C `ANX_META_KEY_MAX`. -/
def keyMax : Nat := 256

/-- The number of buckets, by C `META_HASH_BITS`. -/
def nbuckets : Nat := 2 ^ 6

/-- What the setters store (C `struct anx_meta_value`); `str none` has the null pointer for its
bytes. -/
inductive Value where
  | str (data : Option CString)
  | int64 (i64 : Int64)
  | bool (boolean : Bool)
  deriving DecidableEq

/-- C `struct anx_meta_entry`, with the bucket it is chained in. -/
structure Entry where
  bucket : Nat
  key : CString
  value : Value

/-- The entries of a store, in each bucket the latest first. -/
abbrev Store := List Entry

abbrev MProg := EStateM Err Store

/-- FNV-1a (C `anx_hash_bytes`). -/
def hashBytes (data : List UInt8) : UInt64 :=
  data.foldl (fun hash b => (hash ^^^ b.toUInt64) * 0x100000001b3) 0xcbf29ce484222325

def bucketOf (key : CString) : Nat :=
  (hashBytes key.bytes &&& 63).toNat

def Entry.slot (e : Entry) : Nat × CString :=
  (e.bucket, e.key)

/-- C `meta_find`. -/
def metaFind (s : Store) (key : CString) : Option Entry :=
  Keyed.lookup Entry.slot s (bucketOf key, key)

def metaEntry (room : Bool) (key : CString) : MProg Entry := do
  match metaFind (← get) key with
  | some entry => pure entry
  | none =>
    failIf (!room) Err.enomem
    -- zeroed memory reads as a string without bytes
    let entry : Entry := ⟨bucketOf key, key.take (keyMax - 1), .str none⟩
    modify fun s => entry :: s
    pure entry

/-- Find or make the entry and assign its value through the pointer. -/
def metaSet (room : Bool) (key : CString) (value : Value) : MProg Unit := do
  let entry ← metaEntry room key
  modify fun s => Keyed.update Entry.slot s { entry with value := value }

/-- C `anx_meta_set_str`; `space` tells whether there is memory for the bytes. -/
def metaSetStr (room space : Bool) (key val : CString) : MProg Unit := do
  metaSet room key (.str (if space then some val else none))
  failIf (!space) Err.enomem

/-- C `anx_meta_set_i64`. -/
def metaSetI64 (room : Bool) (key : CString) (val : Int64) : MProg Unit :=
  metaSet room key (.int64 val)

/-- C `anx_meta_set_bool`. -/
def metaSetBool (room : Bool) (key : CString) (val : Bool) : MProg Unit :=
  metaSet room key (.bool val)

/-- C `anx_meta_get`. -/
def metaGet (s : Store) (key : CString) : Option Value :=
  (metaFind s key).map Entry.value

/-- C `anx_meta_delete`. -/
def metaDelete (key : CString) : MProg Unit := do
  let _ ← orThrow (metaFind (← get) key) Err.enoent
  modify fun s => Keyed.erase Entry.slot s (bucketOf key, key)

/-- The entries `anx_meta_iterate` calls back with, bucket by bucket. -/
def metaIterate (s : Store) : List Entry :=
  (range nbuckets).flatMap fun b => s.filter fun e => e.bucket = b

/-! ## Stores that are maps -/

lemma bucketOf_lt (key : CString) : bucketOf key < nbuckets := by
  have hle : (hashBytes key.bytes &&& 63).toNat ≤ 63 := by
    exact Nat.and_le_right
  exact Nat.lt_succ_of_le hle

/-- The store holds the values of a map, each under a key of its own and in the bucket of that
key. -/
structure Refines (s : Store) (m : CString → Option Value) : Prop where
  placed : ∀ p ∈ s.map Entry.slot, p.1 = bucketOf p.2
  distinct : (s.map Entry.slot).Nodup
  get : ∀ key, metaGet s key = m key

variable {s : Store} {m : CString → Option Value} {key : CString} {v : Value}

section

variable {k : CString} {e : Entry}

lemma slot_inj : (bucketOf key, key) = (bucketOf k, k) ↔ key = k := by
  refine ⟨fun h => (Prod.mk.inj h).2, ?_⟩
  rintro rfl
  rfl

lemma slot_of_find (h : metaFind s key = some e) : e.slot = (bucketOf key, key) :=
  Keyed.lookup_key h

section

variable (h : Refines s m)
include h

lemma Refines.assign (he : metaFind s key = some e) :
    Refines (Keyed.update Entry.slot s { e with value := v }) (update m key (some v)) := by
  have hslot : Entry.slot { e with value := v } = (bucketOf key, key) :=
    (slot_of_find he : e.slot = _)
  refine ⟨?_, ?_, fun k => ?_⟩
  · rw [Keyed.map_update]
    exact h.placed
  · rw [Keyed.map_update]
    exact h.distinct
  · rw [metaGet, metaFind, Keyed.lookup_update, hslot, update_apply, ← h.get k, metaGet]
    by_cases hk : key = k
    · subst hk
      rw [if_pos rfl, if_pos rfl, ← metaFind, he]
      rfl
    · rw [if_neg fun heq => hk (slot_inj.mp heq), if_neg (Ne.symm hk), metaFind]

lemma Refines.add (hnone : metaFind s key = none) :
    Refines (⟨bucketOf key, key, v⟩ :: s) (update m key (some v)) := by
  refine ⟨forall_mem_cons.mpr ⟨rfl, h.placed⟩, nodup_cons.mpr ⟨?_, h.distinct⟩, fun k => ?_⟩
  · simpa [metaFind, Keyed.lookup, Entry.slot] using hnone
  · rw [metaGet, metaFind, Keyed.lookup_cons, Entry.slot, update_apply, ← h.get k, metaGet]
    by_cases hk : key = k
    · subst hk
      rw [if_pos rfl, if_pos rfl]
      rfl
    · rw [if_neg fun heq => hk (slot_inj.mp heq), if_neg (Ne.symm hk), metaFind]

lemma Refines.erase :
    Refines (Keyed.erase Entry.slot s (bucketOf key, key)) (update m key none) := by
  refine ⟨fun p hp => h.placed p ((Keyed.erase_sublist.map _).subset hp),
    Keyed.nodup_erase h.distinct, ?_⟩
  intro k
  rw [metaGet, metaFind, update_apply, ← h.get k, metaGet]
  by_cases hk : key = k
  · subst hk
    rw [Keyed.lookup_erase_self h.distinct, if_pos rfl]
    rfl
  · rw [Keyed.lookup_erase_of_ne fun heq => hk (slot_inj.mp heq), if_neg (Ne.symm hk), metaFind]

lemma Refines.iterate :
    ((metaIterate s).map Entry.key).Nodup ∧ ∀ key, key ∈ (metaIterate s).map Entry.key ↔
    (m key).isSome := by
  have hmem : ∀ e, e ∈ metaIterate s ↔ metaFind s e.key = some e := by
    intro e
    rw [metaFind, Keyed.lookup_eq_some_iff h.distinct, metaIterate, mem_flatMap]
    constructor
    · rintro ⟨b, -, he⟩
      have hs := (mem_filter.mp he).1
      exact ⟨hs, congrArg (·, e.key) (h.placed _ (mem_map_of_mem hs))⟩
    · rintro ⟨he, hslot⟩
      refine ⟨e.bucket, ?_, mem_filter.mpr ⟨he, by simp⟩⟩
      rw [(Prod.mk.inj hslot).1]
      exact mem_range.mpr (bucketOf_lt e.key)
  refine ⟨List.Nodup.map_on (fun e he e' he' hkey => ?_) ?_, fun key => ?_⟩
  · have hfind := (hmem e).mp he
    rw [hkey, (hmem e').mp he'] at hfind
    exact (Option.some.inj hfind).symm
  · refine nodup_flatMap.mpr ⟨fun b _ => h.distinct.of_map.filter _, ?_⟩
    refine nodup_range.imp fun {b b'} hne e he he' => hne ?_
    simp only [mem_filter, decide_eq_true_eq] at he he'
    exact he.2.symm.trans he'.2
  · rw [← h.get key, metaGet, Option.isSome_map, Option.isSome_iff_exists, mem_map]
    constructor
    · rintro ⟨e, he, rfl⟩
      exact ⟨e, (hmem e).mp he⟩
    · rintro ⟨e, he⟩
      have hkey : e.key = key := (Prod.mk.inj (slot_of_find he)).2
      exact ⟨e, (hmem e).mpr (hkey ▸ he), hkey⟩

end

end

/-! ## Calls -/

inductive Call where
  | setStr (room space : Bool) (key val : CString)
  | setI64 (room : Bool) (key : CString) (val : Int64)
  | setBool (room : Bool) (key : CString) (val : Bool)
  | get (key : CString)
  | delete (key : CString)

def Call.exec : Call → MProg Unit
  | setStr room space key val => metaSetStr room space key val
  | setI64 room key val => metaSetI64 room key val
  | setBool room key val => metaSetBool room key val
  | get _ => pure ()
  | delete key => metaDelete key

def Call.record (m : CString → Option Value) : Call → CString → Option Value
  | setStr _ _ key val => update m key (some (.str (some val)))
  | setI64 _ key val => update m key (some (.int64 val))
  | setBool _ key val => update m key (some (.bool val))
  | get _ => m
  | delete key => update m key none

def Call.Fits : Call → Prop
  | setStr _ space key _ => space = true ∧ key.bytes.length < keyMax
  | setI64 _ key _ => key.bytes.length < keyMax
  | setBool _ key _ => key.bytes.length < keyMax
  | _ => True

def storeAt (calls : List Call) (n : Nat) : Store :=
  Run.after (fun s (c : Call) => final c.exec s) [] calls n

/-- For each key the value of the last successful call that set it, unless it was deleted since. -/
def recorded (calls : List Call) : Nat → CString → Option Value
  | 0 => fun _ => none
  | n + 1 =>
    match calls[n]? with
    | some c => if (outcome c.exec (storeAt calls n)).isOk then c.record (recorded calls n) else
        recorded calls n
    | none => recorded calls n

section

variable {c : Call} {calls : List Call}

/-- After an entry is found or made, an assignment through it is an assignment of the map. -/
lemma metaEntry_ends (room : Bool) (h : Refines s m) (hfit : key.bytes.length < keyMax) :
    Atomic (metaEntry room key) s fun e s' =>
      metaFind s' key = some e ∧ ∃ v, Refines s' (update m key (some v)) := by
  refine Ends.get_bind ?_
  cases hfind : metaFind s key with
  | some e =>
    refine ⟨hfind, e.value, ?_⟩
    have hm : m key = some e.value := by rw [← h.get key, metaGet, hfind, Option.map_some]
    rw [← hm, update_eq_self]
    exact h
  | none =>
    refine Ends.guard fun _ => Ends.bind (Ends.modify ?_)
    rw [CString.take_of_length_le (Nat.le_sub_one_of_lt hfit)]
    refine ⟨?_, .str none, h.add hfind⟩
    rw [metaFind, Keyed.lookup_cons]
    exact if_pos rfl

lemma metaSet_ends (room : Bool) (h : Refines s m) (hfit : key.bytes.length < keyMax) :
    Atomic (metaSet room key v) s fun _ s' => Refines s' (update m key (some v)) := by
  refine Ends.next (metaEntry_ends room h hfit) fun e s' ⟨hfind, v', h'⟩ => Ends.modify ?_
  have hset := h'.assign (v := v) hfind
  rwa [update_idem] at hset

/-- A call does to the store what it says to the map, or fails and leaves the store alone. -/
lemma exec_ends (h : Refines s m) (hc : c.Fits) :
    Atomic c.exec s fun _ s' => Refines s' (c.record m) := by
  cases c with
  | setStr room space key val =>
    obtain ⟨rfl, hfit⟩ := hc
    exact Ends.next (metaSet_ends room h hfit) fun _ _ h' => h'
  | setI64 room key val => exact metaSet_ends room h hc
  | setBool room key val => exact metaSet_ends room h hc
  | get key => exact h
  | delete key => exact Ends.get_bind (Ends.fetch fun e he => Ends.modify h.erase)

lemma storeAt_refines (hfit : ∀ c ∈ calls, c.Fits) (n : Nat) :
    Refines (storeAt calls n) (recorded calls n) := by
  refine Run.after_from _ (I := fun n s => Refines s (recorded calls n)) (Nat.zero_le n)
    ⟨nofun, nodup_nil, fun _ => rfl⟩ (fun n hop ih => ?_) fun n c _ _ hop ih => ?_
  · rw [recorded, hop]
    exact ih
  · have hends := exec_ends ih (hfit c (mem_of_getElem? hop))
    rw [recorded, hop]
    simp only
    split
    · rename_i hok
      exact hends.of_succeeds hok
    · rename_i hok
      exact (hends.of_fails (P := (· = storeAt calls n)) (Bool.eq_false_iff.mpr hok)) ▸ ih

/-- With short keys the metadata of an object is the map that the successful calls record. -/
theorem metadata_map (calls : List Call) (hfit : ∀ c ∈ calls, c.Fits) (n : Nat) :
    (∀ key, metaGet (storeAt calls n) key = recorded calls n key) ∧
      ((metaIterate (storeAt calls n)).map Entry.key).Nodup ∧
      (∀ key, key ∈ (metaIterate (storeAt calls n)).map Entry.key ↔
        (metaGet (storeAt calls n) key).isSome) ∧
      ∀ c : Call, c.Fits → (outcome c.exec (storeAt calls n)).isOk = false →
        ∀ key, metaGet (final c.exec (storeAt calls n)) key = metaGet (storeAt calls n) key := by
  have h := storeAt_refines hfit n
  refine ⟨h.get, h.iterate.1, fun key => ?_, fun c hc hfail key => ?_⟩
  · rw [h.get key]
    exact h.iterate.2 key
  · rw [(exec_ends h hc).of_fails hfail]

def shortKey : CString := ⟨[97], by decide⟩

/-- A value that was set is found. -/
theorem metadata_map_set :
    metaGet (storeAt [.setI64 true shortKey 5] 1) shortKey = some (.int64 5) :=
  (metadata_map [.setI64 true shortKey 5] (by simp [Call.Fits, keyMax, shortKey]) 1).1 shortKey

lemma metaSet_empty : final (metaSet true key v) [] = [⟨bucketOf key, key.take (keyMax - 1), v⟩] :=
  if_pos rfl

def longKey : CString := ⟨replicate 256 97, fun h => absurd (eq_of_mem_replicate h) (by decide)⟩

/-- A long key that was set is not found again, and a string without memory takes the old value with
it. -/
theorem metadata_loses :
    let s := final (metaSetI64 true shortKey 5) []
    let setStr := metaSetStr true false shortKey shortKey
    (outcome (metaSetI64 true longKey 5) []).isOk = true ∧
      metaGet (final (metaSetI64 true longKey 5) []) longKey = none ∧
      (outcome setStr s).isOk = false ∧ metaGet s shortKey = some (.int64 5) ∧
      metaGet (final setStr s) shortKey = some (.str none) := by
  refine ⟨rfl, ?_, rfl, rfl, rfl⟩
  have hne : longKey.take (keyMax - 1) ≠ longKey := by
    intro h
    have hlen := congrArg (length ∘ CString.bytes) h
    simp only [comp, CString.take, longKey, length_take, length_replicate] at hlen
    exact absurd hlen (by decide)
  rw [metaSetI64, metaSet_empty, metaGet, metaFind, Keyed.lookup_cons, Entry.slot,
    if_neg fun h => hne (Prod.mk.inj h).2]
  rfl

end

end Anunix.Metadata
