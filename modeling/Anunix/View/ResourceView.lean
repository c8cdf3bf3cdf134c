import Anunix.Error
import Anunix.Lib.Fallible
import Anunix.Lib.Paged
import Anunix.Lib.Slots
import Anunix.Uuid

/-!
# Resource views

`kernel/core/mem/resource_view.c`: immutable records of bytes that live in pools of pages. A record
is reached through aliases, each with an identifier of its own; compaction moves the records of a
pool to fewer pages, and a move takes a record with all its aliases to another pool.

The pages that this module has from the page allocator are `held`. What the allocator answers is an
input of every call that allocates: a page, or nothing. A page that is still held is never handed
out again.
-/

namespace Anunix.View

open Fallible Slots

/-! ## State -/

/-- C `ANX_PAGE_SIZE`. -/
def pageSize : Nat := 4096

instance : NeZero pageSize := ⟨by decide⟩

/-- C `ANX_RESOURCE_POOLS_MAX` and its neighbours. -/
def poolsMax : Nat := 16
def pagesMax : Nat := 32
def recordsMax : Nat := 64
def aliasesMax : Nat := 128
def itemMax : Nat := 4096

/-- The last value of the identifier counter, `~(uint64_t)0`. -/
def sequenceMax : Nat := 2 ^ 64 - 1

/-- C `struct view_record`. -/
structure Record where
  id : Nat
  offset : Nat
  size : Nat
  refs : Nat
  digest : List UInt8
  deriving DecidableEq, Repr

def Record.zero : Record := ⟨0, 0, 0, 0, List.replicate 32 0⟩

/-- C `struct view_alias`. -/
structure Alias where
  id : Nat
  record : Nat
  deriving DecidableEq, Repr

/-- C `struct resource_pool`. `pages` are the first `page_count` entries of the array. -/
structure Pool where
  id : Nat
  owner : Uuid
  capacity : Nat
  tail : Nat
  pages : List Nat
  records : List (Option Record)
  aliases : List (Option Alias)
  deriving DecidableEq, Repr

/-- The registry, the memory of all pages, and the pages held. -/
structure Views where
  mem : Nat → Nat → UInt8
  held : Finset Nat
  pools : List (Option Pool)
  sequence : Nat

abbrev Prog := EStateM Err Views

/-- Who calls: the current cell, if any, and which cells have come to an end. -/
structure Caller where
  current : Option Uuid
  terminal : Uuid → Bool

def Pool.record (p : Pool) (i : Nat) : Record :=
  (get p.records i).getD Record.zero

/-- C `find_pool`. -/
def Views.findPool (s : Views) (id : Nat) : Option (Nat × Pool) :=
  firstWith s.pools fun p => p.id = id

/-- The inner loop of `find_alias`. -/
def Pool.findAlias (p : Pool) (id : Nat) : Option (Nat × Alias) :=
  firstWith p.aliases fun a => a.id = id

/-- C `find_alias`: the pool and the alias, with their slots. -/
def Views.findAlias (s : Views) (id : Nat) : Option (Nat × Pool × Nat × Alias) :=
  (firstWith s.pools fun p => (p.findAlias id).isSome).bind fun (i, p) =>
    (p.findAlias id).map fun (j, a) => (i, p, j, a)

/-- C `authorized`. -/
def authorized (c : Caller) (p : Pool) (newReference : Bool) : Except Err PUnit :=
  if c.current.any (· ≠ p.owner) then .error .eperm
  else if newReference && c.terminal p.owner then .error .eperm
  else .ok ⟨⟩

/-- C `struct anx_resource_pool_stats`. -/
structure Stats where
  physicalPages : Nat
  liveRecords : Nat
  liveAliases : Nat
  liveBytes : Nat
  deadBytes : Nat
  deriving DecidableEq, Repr

def liveBytes (records : List (Option Record)) : Nat :=
  total (fun r => if r.refs ≠ 0 then r.size else 0) records

/-- C `stats`. -/
def Pool.stats (p : Pool) : Stats where
  physicalPages := p.pages.length
  liveRecords := total (fun r => if r.refs ≠ 0 then 1 else 0) p.records
  liveAliases := total (fun r => r.refs) p.records
  liveBytes := liveBytes p.records
  deadBytes := p.tail - liveBytes p.records

def Pool.aliasList (p : Pool) (i : Nat) : List Alias :=
  p.aliases.reduceOption.filter fun a => a.record = i

/-! ## Pages -/

def pagesFor (bytes : Nat) : Nat :=
  (bytes + pageSize - 1) / pageSize

/-- C `free_page`. -/
def Views.freePage (s : Views) (p : Nat) : Views :=
  { s with mem := Function.update s.mem p fun _ => 0, held := s.held.erase p }

def Views.freePages (s : Views) (ps : List Nat) : Views :=
  ps.foldl Views.freePage s

/-- C `anx_page_alloc`, and the page set to zero. -/
def pageAlloc (grant : Option Nat) : Prog (Option Nat) := fun s =>
  match grant with
  | none => .ok none s
  | some p =>
    if p ∈ s.held then .ok none s
    else .ok (some p) { s with mem := Function.update s.mem p fun _ => 0, held := insert p s.held }

/-- The allocation loops: the pages allocated, and whether that is all of them. -/
def allocPages : Nat → List (Option Nat) → Prog (List Nat × Bool)
  | 0, _ => pure ([], true)
  | _ + 1, [] => pure ([], false)
  | n + 1, grant :: grants => do
    match ← pageAlloc grant with
    | none => pure ([], false)
    | some p =>
      let (ps, ok) ← allocPages n grants
      pure (p :: ps, ok)

/-- The way out of a call that has allocated pages: on failure they go back. -/
def giveBackIf (failed : Bool) (ps : List Nat) (e : Err) : Prog PUnit :=
  if failed then do
    modify fun s => s.freePages ps
    throw e
  else pure ⟨⟩

def copyOut (mem : Nat → Nat → UInt8) (pages : List Nat) (offset size : Nat) : List UInt8 :=
  Paged.copyOut pageSize mem pages offset size

def copyIn (mem : Nat → Nat → UInt8) (pages : List Nat) (offset : Nat) (data : List UInt8) :
    Nat → Nat → UInt8 :=
  Paged.copyIn pageSize mem pages offset data

/-- C `zero_range`, the loop of `copy_in` with zeros. -/
def zeroRange (mem : Nat → Nat → UInt8) (pages : List Nat) (offset size : Nat) :
    Nat → Nat → UInt8 :=
  copyIn mem pages offset (List.replicate size 0)

/-! ## Records in pools -/

def Alias.onto (i : Nat) (a : Alias) : Alias :=
  { a with record := i }

def place (t : List (Option Alias)) (a : Alias) : List (Option Alias) :=
  match firstFree t with
  | some i => t.set i (some a)
  | none => t

/-- A pool with a record more, behind its last byte, and with the aliases of that record. The
aliases of a moved record go one by one to the next free slot: every slot before the one that took
the last alias is used, so the search may start from the front. -/
def Pool.including (p : Pool) (fresh : List Nat) (i : Nat) (r : Record) (as : List Alias) : Pool :=
  { p with
    pages := p.pages ++ fresh
    tail := p.tail + r.size
    records := p.records.set i (some { r with offset := p.tail })
    aliases := (as.map (Alias.onto i)).foldl place p.aliases }

def Pool.without (p : Pool) (i : Nat) : Pool :=
  { p with
    records := p.records.set i none
    aliases := p.aliases.map fun o => o.filter fun a => a.record ≠ i }

/-! ## Calls -/

section Calls

variable (sha256 : List UInt8 → List UInt8)

/-- C `record_digest`. -/
def recordDigest (mem : Nat → Nat → UInt8) (pages : List Nat) (offset size : Nat) : List UInt8 :=
  sha256 (copyOut mem pages offset size)

/-- C `anx_resource_pool_create`. `known` says whether the owner is in the cell store, `memory`
whether there is memory for the pool. -/
def poolCreate (c : Caller) (owner : Uuid) (capacity : Nat) (known memory : Bool) : Prog Nat := do
  failIf c.current.isSome Err.eperm
  failIf (capacity = 0 ∨ pagesMax < capacity) Err.einval
  failIf (!known) Err.enoent
  failIf (c.terminal owner) Err.eperm
  failIf (!memory) Err.enomem
  let s ← get
  let slot ← orThrow (firstFree s.pools) Err.efull
  failIf (s.sequence = sequenceMax) Err.efull
  let pool : Pool :=
    ⟨s.sequence + 1, owner, capacity, 0, [], List.replicate recordsMax none,
      List.replicate aliasesMax none⟩
  set { s with pools := s.pools.set slot (some pool), sequence := s.sequence + 1 }
  return s.sequence + 1

/-- C `anx_resource_pool_destroy`. -/
def poolDestroy (c : Caller) (id : Nat) : Prog PUnit := do
  failIf c.current.isSome Err.eperm
  let s ← get
  let (slot, pool) ← orThrow (s.findPool id) Err.enoent
  failIf (pool.aliases.any Option.isSome) Err.ebusy
  set { s.freePages pool.pages with pools := s.pools.set slot none }

/-- The end of `anx_resource_view_insert`, when the pages are there. -/
def Views.insertRecord (s : Views) (slot : Nat) (pool : Pool) (fresh : List Nat) (record : Nat)
    (data : List UInt8) : Views :=
  let pages := pool.pages ++ fresh
  let mem := copyIn s.mem pages pool.tail data
  let r : Record :=
    ⟨s.sequence + 1, pool.tail, data.length, 1, recordDigest sha256 mem pages pool.tail data.length⟩
  { s with
    mem
    pools := s.pools.set slot (some (pool.including fresh record r [⟨s.sequence + 2, record⟩]))
    sequence := s.sequence + 2 }

/-- C `anx_resource_view_insert`. -/
def viewInsert (c : Caller) (id : Nat) (data : List UInt8) (grants : List (Option Nat)) :
    Prog Nat := do
  failIf (data = [] ∨ itemMax < data.length) Err.einval
  let s ← get
  let (slot, pool) ← orThrow (s.findPool id) Err.enoent
  MonadExcept.ofExcept (authorized c pool true)
  let record ← orThrow (firstFree pool.records) Err.efull
  failIf (firstFree pool.aliases).isNone Err.efull
  failIf (sequenceMax - 2 < s.sequence) Err.efull
  failIf (pool.capacity * pageSize - pool.tail < data.length) Err.enomem
  let (fresh, ok) ← allocPages (pagesFor (pool.tail + data.length) - pool.pages.length) grants
  giveBackIf (!ok) fresh Err.enomem
  modify fun s => s.insertRecord sha256 slot pool fresh record data
  return s.sequence + 2

/-- C `anx_resource_view_clone`. -/
def viewClone (c : Caller) (id : Nat) : Prog Nat := do
  let s ← get
  let (slot, pool, _, a) ← orThrow (s.findAlias id) Err.enoent
  MonadExcept.ofExcept (authorized c pool true)
  let free ← orThrow (firstFree pool.aliases) Err.efull
  failIf (s.sequence = sequenceMax) Err.efull
  set { s with
    pools := s.pools.set slot (some
      { pool with
        aliases := pool.aliases.set free (some ⟨s.sequence + 1, a.record⟩)
        records := pool.records.set a.record (some
          { pool.record a.record with refs := (pool.record a.record).refs + 1 }) })
    sequence := s.sequence + 1 }
  return s.sequence + 1

/-- C `anx_resource_view_release`. -/
def viewRelease (c : Caller) (id : Nat) : Prog PUnit := do
  let s ← get
  let (slot, pool, j, a) ← orThrow (s.findAlias id) Err.enoent
  MonadExcept.ofExcept (authorized c pool false)
  set { s with
    pools := s.pools.set slot (some
      { pool with
        aliases := pool.aliases.set j none
        records := pool.records.set a.record (some
          { pool.record a.record with refs := (pool.record a.record).refs - 1 }) }) }

/-- C `anx_resource_view_read`. -/
def viewRead (c : Caller) (id offset size : Nat) : Prog (List UInt8) := do
  let s ← get
  let (_, pool, _, a) ← orThrow (s.findAlias id) Err.enoent
  MonadExcept.ofExcept (authorized c pool false)
  let r := pool.record a.record
  failIf (r.size < offset ∨ r.size - offset < size) Err.einval
  failIf (recordDigest sha256 s.mem pool.pages r.offset r.size ≠ r.digest) Err.eio
  return copyOut s.mem pool.pages (r.offset + offset) size

/-- The loop of `anx_resource_pool_compact` over the records: the memory, and the records at their
new offsets, or nothing when a copy has another digest. Records without aliases are dropped. -/
def relocate (pages dest : List Nat) :
    (Nat → Nat → UInt8) → Nat → List (Option Record) →
    (Nat → Nat → UInt8) × Option (List (Option Record))
  | mem, _, [] => (mem, some [])
  | mem, cursor, none :: records =>
    let (mem, moved) := relocate pages dest mem cursor records
    (mem, moved.map (none :: ·))
  | mem, cursor, some r :: records =>
    if r.refs = 0 then
      let (mem, moved) := relocate pages dest mem cursor records
      (mem, moved.map (none :: ·))
    else
      let mem := Paged.copyBetween pageSize mem pages r.offset dest cursor r.size
      if recordDigest sha256 mem dest cursor r.size ≠ r.digest then (mem, none)
      else
        let (mem, moved) := relocate pages dest mem (cursor + r.size) records
        (mem, moved.map (some { r with offset := cursor } :: ·))

/-- The end of `anx_resource_pool_compact`, behind its last failure point. -/
def Views.commitCompact (s : Views) (slot : Nat) (pool : Pool) (dest : List Nat)
    (records : List (Option Record)) : Views :=
  { s.freePages pool.pages with
    pools := s.pools.set slot
      (some { pool with pages := dest, tail := liveBytes pool.records, records }) }

/-- C `anx_resource_pool_compact`. -/
def poolCompact (c : Caller) (id minimumDeadBytes headroomPages : Nat)
    (grants : List (Option Nat)) : Prog PUnit := do
  failIf c.current.isSome Err.eperm
  failIf (pagesMax < headroomPages) Err.einval
  let s ← get
  let (slot, pool) ← orThrow (s.findPool id) Err.enoent
  let needed := pagesFor pool.stats.liveBytes
  failIf (pool.stats.deadBytes < minimumDeadBytes ∨ pool.pages.length ≤ needed) Err.ebusy
  failIf (headroomPages < needed) Err.enomem
  let (dest, ok) ← allocPages needed grants
  giveBackIf (!ok) dest Err.enomem
  let s ← get
  let (mem, moved) := relocate sha256 pool.pages dest s.mem 0 pool.records
  set { s with mem }
  match moved with
  | none => giveBackIf true dest Err.eio
  | some records => modify fun s => s.commitCompact slot pool dest records

/-- The end of `anx_resource_view_move`, behind its last failure point. -/
def Views.commitMove (s : Views) (i k : Nat) (source destination : Pool) (fresh : List Nat)
    (sourceRecord record : Nat) : Views :=
  let r := source.record sourceRecord
  { s with
    mem := zeroRange s.mem source.pages r.offset r.size
    pools := (s.pools.set i (some (source.without sourceRecord))).set k
      (some (destination.including fresh record r (source.aliasList sourceRecord))) }

/-- C `anx_resource_view_move`. -/
def viewMove (c : Caller) (handle destinationPool headroomPages : Nat)
    (grants : List (Option Nat)) : Prog PUnit := do
  failIf c.current.isSome Err.eperm
  failIf (pagesMax < headroomPages) Err.einval
  let s ← get
  let (i, source, _, a) ← orThrow (s.findAlias handle) Err.enoent
  let (k, destination) ← orThrow (s.findPool destinationPool) Err.enoent
  failIf (i = k) Err.ebusy
  failIf (source.owner ≠ destination.owner) Err.eperm
  let r := source.record a.record
  failIf ((get source.records a.record).isNone ∨ r.refs = 0 ∨
    r.refs ≠ (source.aliasList a.record).length) Err.eio
  let record ← orThrow (firstFree destination.records) Err.efull
  failIf (destination.aliases.countP Option.isNone < r.refs) Err.efull
  failIf (destination.capacity * pageSize - destination.tail < r.size) Err.enomem
  let needed := pagesFor (destination.tail + r.size) - destination.pages.length
  failIf (headroomPages < needed) Err.enomem
  failIf (recordDigest sha256 s.mem source.pages r.offset r.size ≠ r.digest) Err.eio
  let (fresh, ok) ← allocPages needed grants
  giveBackIf (!ok) fresh Err.enomem
  let pages := destination.pages ++ fresh
  modify fun s => { s with
    mem := Paged.copyBetween pageSize s.mem source.pages r.offset pages destination.tail r.size }
  let s ← get
  if recordDigest sha256 s.mem pages destination.tail r.size ≠ r.digest then do
    modify fun s => { s with mem := zeroRange s.mem pages destination.tail r.size }
    giveBackIf true fresh Err.eio
  else modify fun s => s.commitMove i k source destination fresh a.record record

end Calls

end Anunix.View
