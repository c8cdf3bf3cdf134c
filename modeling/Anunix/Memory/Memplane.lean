import Anunix.Lib.Mask
import Anunix.Lib.Run
import Anunix.Route.Lease

/-!
# The memory control plane

Model of `kernel/core/mem/memplane.c`, `retention.c` and `decay.c`: state objects are admitted to
memory tiers, promoted, demoted, protected, evicted and forgotten. A cell with an admission limit is
charged for the bytes it admits until the entry is deleted.

An entry is named by its object identifier: admission refuses a second entry under the same one, and
every call that changes an entry but decay checks that the entry it was given is the registered one.
What other parts of the kernel answer comes with each call: the object that was opened, whether
there is memory, whether a workflow needs an object.
-/

namespace Anunix.Memory
open Fallible Route

/-! ## State -/

def tierCode : MemTier → Nat
  | .l0 => 0
  | .l1 => 1
  | .l2 => 2
  | .l3 => 3
  | .l4 => 4
  | .l5 => 5

/-- C `ANX_TIER_BIT`. -/
def tierBit (tier : MemTier) : BitVec 8 :=
  Mask.single (tierCode tier)

/-- C `enum anx_admission_profile`. -/
inductive Profile where
  | ephemeralOnly | cacheable | retrievalCandidate | longTermCandidate
  | graphCandidate | quarantined
  deriving DecidableEq, Repr

/-- C `enum anx_mem_validation_state`. -/
inductive Validation where
  | unvalidated | provisional | validated | contested | superseded | stale | quarantined
  deriving DecidableEq, Repr

/-- C `enum anx_freshness_class`. -/
inductive Freshness where
  | volatile | shortHorizon | mediumHorizon | longHorizon | archival
  deriving DecidableEq, Repr

/-- C `enum anx_forget_mode`. -/
inductive ForgetMode where
  | hardDelete | tombstone | archive | rederive
  deriving DecidableEq, Repr

/-- C `struct anx_mem_retention_hint`. -/
structure Retention where
  priority : Nat
  sweeps : Nat
  deriving DecidableEq, Repr

/-- C `struct anx_mem_entry`. -/
structure Entry where
  oid : Uuid
  tierMask : BitVec 8
  profile : Profile
  validation : Validation
  freshness : Freshness
  contradictionCount : UInt32
  validationGeneration : Nat
  decayScore : Nat
  accessCount : UInt32
  retention : Retention
  protectedTiers : BitVec 8
  admittedBytes : Nat
  admissionOwner : Option Uuid
  deriving DecidableEq, Repr

structure Cell where
  maxMemoryAdmissionBytes : Nat
  memoryAdmittedBytes : Nat
  memoryAdmissionCount : Nat
  deriving DecidableEq, Repr

/-- The table of entries, the cells in the cell store, and the counter behind validation
generations. -/
structure Plane where
  entries : List Entry
  cells : Uuid → Option Cell
  validationSequence : Nat

/-- The plane after `anx_memplane_init`, before there are cells. -/
def Plane.init : Plane := ⟨[], fun _ => none, 0⟩

abbrev Prog := EStateM Err Plane

/-- C `anx_memplane_lookup`. -/
def Plane.lookup (s : Plane) (oid : Uuid) : Option Entry :=
  Keyed.lookup Entry.oid s.entries oid

def Plane.write (s : Plane) (e : Entry) : Plane :=
  { s with entries := Keyed.update Entry.oid s.entries e }

def Plane.writeCell (s : Plane) (cid : Uuid) (cell : Cell) : Plane :=
  { s with cells := Function.update s.cells cid (some cell) }

/-! ## Admission -/

/-- C `profile_to_tiers`. -/
def profileToTiers : Profile → BitVec 8
  | .ephemeralOnly => tierBit .l0
  | .cacheable => tierBit .l0 ||| tierBit .l1
  | .retrievalCandidate => tierBit .l2 ||| tierBit .l3
  | .longTermCandidate => tierBit .l2
  | .graphCandidate => tierBit .l2 ||| tierBit .l4
  | .quarantined => tierBit .l1

/-- C `profile_to_freshness`. -/
def profileToFreshness : Profile → Freshness
  | .ephemeralOnly => .volatile
  | .cacheable => .shortHorizon
  | .retrievalCandidate => .mediumHorizon
  | .longTermCandidate => .longHorizon
  | .graphCandidate => .longHorizon
  | .quarantined => .shortHorizon

/-- The fields that `anx_memplane_admit` reads of the object it opened. -/
structure Opened where
  payloadSize : Nat
  isSealed : Bool

/-- The cell that pays for an admission: the current one, when it is in the store and has a
limit. -/
def Plane.payer (s : Plane) (caller : Option Uuid) : Option (Uuid × Cell) :=
  caller.bind fun cid => (s.cells cid).bind fun cell =>
    if cell.maxMemoryAdmissionBytes = 0 then none else some (cid, cell)

def charge (bytes : Nat) : Option (Uuid × Cell) → Prog PUnit
  | none => pure ⟨⟩
  | some (cid, cell) => do
    failIf (cell.memoryAdmissionCount = 2 ^ 32 - 1 ∨
      cell.maxMemoryAdmissionBytes < cell.memoryAdmittedBytes ∨
      cell.maxMemoryAdmissionBytes - cell.memoryAdmittedBytes < bytes) Err.enomem
    modify fun s => s.writeCell cid
      { cell with
        memoryAdmittedBytes := cell.memoryAdmittedBytes + bytes
        memoryAdmissionCount := cell.memoryAdmissionCount + 1 }

def Entry.admitted (oid : Uuid) (profile : Profile) (bytes : Nat) (owner : Option Uuid) :
    Entry where
  oid := oid
  tierMask := profileToTiers profile
  profile := profile
  validation := .unvalidated
  freshness := profileToFreshness profile
  contradictionCount := 0
  validationGeneration := 0
  decayScore := 0
  accessCount := 0
  retention := ⟨0, 0⟩
  protectedTiers := 0
  admittedBytes := bytes
  admissionOwner := owner

/-- C `anx_memplane_admit`. A profile outside the enumeration is `none`; `object` is what
`anx_so_open` gives. -/
def memplaneAdmit (caller : Option Uuid) (oid : Uuid) (profile : Option Profile)
    (object : Except Err Opened) (memory : Bool) : Prog PUnit := do
  let profile ← orThrow profile Err.einval
  let s ← get
  failIf (s.lookup oid).isSome Err.eexist
  let object ← MonadExcept.ofExcept object
  let owner := s.payer caller
  failIf (owner.isSome && !object.isSealed) Err.eperm
  failIf (!memory) Err.enomem
  charge object.payloadSize owner
  modify fun s =>
    { s with
      entries := Entry.admitted oid profile object.payloadSize (owner.map Prod.fst) :: s.entries }

/-! ## Placement -/

/-- C `anx_memplane_promote`. -/
def promote (caller : Option Uuid) (oid : Uuid) (tier : Option MemTier) : Prog PUnit := do
  failIf caller.isSome Err.eperm
  let s ← get
  let e ← orThrow (s.lookup oid) Err.einval
  let tier ← orThrow tier Err.einval
  failIf (tier = .l5) Err.eperm
  failIf (tier = .l4 ∧ e.validation ≠ .provisional ∧ e.validation ≠ .validated) Err.eperm
  set (s.write { e with tierMask := e.tierMask ||| tierBit tier })

/-- C `anx_mem_in_tier`. -/
def Entry.inTier (e : Entry) (tier : MemTier) : Bool :=
  e.tierMask &&& tierBit tier ≠ 0#8

/-- C `anx_memplane_demote`. `needed` is `anx_wf_cache_needed`. -/
def demote (needed : Uuid → Bool) (caller : Option Uuid) (oid : Uuid) (tier : Option MemTier) :
    Prog PUnit := do
  failIf caller.isSome Err.eperm
  let s ← get
  let e ← orThrow (s.lookup oid) Err.einval
  let tier ← orThrow tier Err.einval
  failIf (e.inTier tier && needed e.oid) Err.ebusy
  failIf (e.protectedTiers &&& tierBit tier ≠ 0#8) Err.ebusy
  set (s.write { e with tierMask := e.tierMask &&& ~~~tierBit tier })

/-! ## Trust -/

/-- C `anx_memplane_set_validation`. -/
def setValidation (caller : Option Uuid) (oid : Uuid) (state : Option Validation) : Prog PUnit := do
  failIf caller.isSome Err.eperm
  let state ← orThrow state Err.einval
  let s ← get
  let e ← orThrow (s.lookup oid) Err.einval
  failIf (s.validationSequence = 2 ^ 64 - 1) Err.efull
  let s := { s with validationSequence := s.validationSequence + 1 }
  set (s.write { e with validationGeneration := s.validationSequence, validation := state })

/-- The update of `anx_memplane_add_contradiction`. -/
def Entry.contradicted (e : Entry) : Entry :=
  { e with
    contradictionCount := e.contradictionCount + 1
    validation :=
      if 2 ≤ e.contradictionCount + 1 ∧ e.validation ≠ .quarantined then .contested
      else e.validation }

/-- The update of `anx_memplane_record_access`. -/
def Entry.accessed (e : Entry) : Entry :=
  { e with accessCount := e.accessCount + 1, decayScore := e.decayScore - 10 }

/-- The calls that update an entry without checking that it is registered; an entry that is not is
none of the table. -/
def Plane.touch (s : Plane) (oid : Uuid) (f : Entry → Entry) : Plane :=
  match s.lookup oid with
  | some e => s.write (f e)
  | none => s

/-! ## Forgetting -/

def Entry.removed (e : Entry) : ForgetMode → BitVec 8
  | .hardDelete => e.tierMask
  | .tombstone => e.tierMask
  | .archive => e.tierMask &&& ~~~tierBit .l2
  | .rederive => e.tierMask &&& (tierBit .l0 ||| tierBit .l1 ||| tierBit .l3)

def refund (e : Entry) : Prog PUnit := do
  match e.admissionOwner with
  | none => pure ⟨⟩
  | some cid =>
    let s ← get
    let cell ← orThrow (s.cells cid) Err.einval
    failIf (cell.memoryAdmissionCount = 0 ∨ cell.memoryAdmittedBytes < e.admittedBytes) Err.einval
    set (s.writeCell cid
      { cell with
        memoryAdmittedBytes := cell.memoryAdmittedBytes - e.admittedBytes
        memoryAdmissionCount := cell.memoryAdmissionCount - 1 })

/-- C `anx_memplane_forget`. A mode outside the enumeration is `none`. -/
def forget (needed : Uuid → Bool) (caller : Option Uuid) (oid : Uuid) (mode : Option ForgetMode) :
    Prog PUnit := do
  let s ← get
  let e ← orThrow (s.lookup oid) Err.einval
  let mode ← orThrow mode Err.einval
  failIf (caller.isSome &&
    (mode ≠ .hardDelete || e.admissionOwner = none || caller ≠ e.admissionOwner)) Err.eperm
  failIf (e.protectedTiers &&& e.removed mode ≠ 0#8) Err.ebusy
  failIf ((e.removed mode ≠ 0#8 || mode = .hardDelete) && needed e.oid) Err.ebusy
  match mode with
  | .hardDelete =>
    refund e
    modify fun s => { s with entries := Keyed.erase Entry.oid s.entries oid }
  | .tombstone => set (s.write { e with tierMask := 0, validation := .superseded })
  | .archive => set (s.write { e with tierMask := tierBit .l2, freshness := .archival })
  | .rederive =>
    set (s.write
      { e with tierMask := e.tierMask &&& ~~~(tierBit .l0 ||| tierBit .l1 ||| tierBit .l3) })

/-! ## Retention -/

/-- C `ANX_MEM_RETENTION_PRIORITY_MAX` and its neighbours. -/
def retentionPriorityMax : Nat := 100
def retentionSweepsMax : Nat := 16
def evictionCandidatesMax : Nat := 32

/-- C `anx_memplane_hint`. `granted` is the check of the object and its access policy. -/
def hint (oid : Uuid) (h : Retention) (granted : Except Err PUnit) : Prog PUnit := do
  let s ← get
  let e ← orThrow (s.lookup oid) Err.einval
  failIf (retentionPriorityMax < h.priority ∨ retentionSweepsMax < h.sweeps ∨
    (h.sweeps = 0 ∧ h.priority ≠ 0)) Err.einval
  MonadExcept.ofExcept granted
  set (s.write { e with retention := h })

/-- C `anx_memplane_protect`. -/
def protect (caller : Option Uuid) (oid : Uuid) (tiers : BitVec 32) : Prog PUnit := do
  failIf caller.isSome Err.eperm
  let s ← get
  let e ← orThrow (s.lookup oid) Err.einval
  failIf (tiers &&& ~~~0x3f#32 ≠ 0#32) Err.einval
  failIf (tiers &&& ~~~e.tierMask.setWidth 32 ≠ 0#32) Err.einval
  set (s.write { e with protectedTiers := tiers.setWidth 8 })

/-- The first loop of `anx_memplane_evict`: every candidate is registered and named once. -/
def Plane.gather (s : Plane) : List Uuid → List Uuid → Except Err (List Entry)
  | _, [] => .ok []
  | seen, oid :: rest => do
    failIf (oid ∈ seen) Err.einval
    let e ← orThrow (s.lookup oid) Err.enoent
    let es ← s.gather (oid :: seen) rest
    return e :: es

def Entry.score (e : Entry) : Int :=
  let priority :=
    if e.retention.sweeps ≠ 0 then min e.retention.priority retentionPriorityMax else 0
  (min e.decayScore 1000 : Int) - priority * 10

def Entry.evictable (needed : Uuid → Bool) (tier : MemTier) (e : Entry) : Bool :=
  e.inTier tier && e.protectedTiers &&& tierBit tier = 0#8 && !needed e.oid

/-- One round of the second loop: the better of the victim so far and the next entry. -/
def better (victim : Option Entry) (e : Entry) : Option Entry :=
  match victim with
  | none => some e
  | some v =>
    if v.score < e.score ∨ (e.score = v.score ∧ e.oid ≠ v.oid ∧ e.oid.before v.oid) then
      some e else some v

/-- C `anx_memplane_evict`. -/
def evict (needed : Uuid → Bool) (caller : Option Uuid) (candidates : List Uuid)
    (tier : Option MemTier) : Prog Uuid := do
  failIf caller.isSome Err.eperm
  failIf (candidates.isEmpty ∨ evictionCandidatesMax < candidates.length) Err.einval
  failIf (tier ≠ some .l0 ∧ tier ≠ some .l1 ∧ tier ≠ some .l3) Err.einval
  let tier ← orThrow tier Err.einval
  let s ← get
  let entries ← MonadExcept.ofExcept (s.gather [] candidates)
  let victim ← orThrow ((entries.filter (Entry.evictable needed tier)).foldl better none) Err.enoent
  demote needed caller victim.oid (some tier)
  return victim.oid

/-! ## Decay -/

/-- C `decay_rate`. -/
def decayRate : Freshness → Nat
  | .volatile => 50
  | .shortHorizon => 20
  | .mediumHorizon => 10
  | .longHorizon => 5
  | .archival => 1

/-- C `DECAY_STALE_THRESHOLD`. -/
def decayStaleThreshold : Nat := 500

/-- The update of `anx_memplane_decay_entry`. -/
def Entry.decayed (e : Entry) : Entry :=
  let rate := decayRate e.freshness
  let score := if 1000 - rate ≤ e.decayScore then 1000 else e.decayScore + rate
  { e with
    decayScore := score
    retention :=
      if e.retention.sweeps = 1 then ⟨0, 0⟩ else ⟨e.retention.priority, e.retention.sweeps - 1⟩
    validation :=
      if decayStaleThreshold ≤ score ∧ e.validation = .validated then .stale else e.validation }

/-- C `anx_memplane_decay_sweep`. -/
def Plane.decaySweep (s : Plane) : Plane :=
  { s with entries := s.entries.map Entry.decayed }

/-! ## Cells -/

def cellCreate (cid : Uuid) (limit : Nat) : Prog PUnit := do
  let s ← get
  failIf (s.cells cid).isSome Err.eexist
  set (s.writeCell cid ⟨limit, 0, 0⟩)

/-- C `anx_cell_destroy`: not while memory is charged to the cell. `busy` is the rest of its
check. -/
def cellDestroy (cid : Uuid) (busy : Bool) : Prog PUnit := do
  let s ← get
  let cell ← orThrow (s.cells cid) Err.einval
  failIf (busy ∨ cell.memoryAdmissionCount ≠ 0) Err.ebusy
  set { s with cells := Function.update s.cells cid none }

/-! ## Runs -/

inductive Call where
  | memplaneAdmit (oid : Uuid) (profile : Option Profile) (object : Except Err Opened)
      (memory : Bool)
  | promote (oid : Uuid) (tier : Option MemTier)
  | demote (oid : Uuid) (tier : Option MemTier)
  | setValidation (oid : Uuid) (state : Option Validation)
  | addContradiction (oid : Uuid)
  | recordAccess (oid : Uuid)
  | forget (oid : Uuid) (mode : Option ForgetMode)
  | hint (oid : Uuid) (retention : Retention) (granted : Except Err PUnit)
  | protect (oid : Uuid) (tiers : BitVec 32)
  | evict (candidates : List Uuid) (tier : Option MemTier)
  | decayEntry (oid : Uuid)
  | decaySweep
  | cellCreate (cid : Uuid) (limit : Nat)
  | cellDestroy (cid : Uuid) (busy : Bool)

/-- A call, who makes it, and which objects a workflow needs at that moment. -/
structure Input where
  caller : Option Uuid
  needed : Uuid → Bool
  call : Call

def Input.run (i : Input) : Prog PUnit :=
  match i.call with
  | .memplaneAdmit oid profile object memory =>
    Memory.memplaneAdmit i.caller oid profile object memory
  | .promote oid tier => Memory.promote i.caller oid tier
  | .demote oid tier => Memory.demote i.needed i.caller oid tier
  | .setValidation oid state => Memory.setValidation i.caller oid state
  | .addContradiction oid => modify fun s => s.touch oid Entry.contradicted
  | .recordAccess oid => modify fun s => s.touch oid Entry.accessed
  | .forget oid mode => Memory.forget i.needed i.caller oid mode
  | .hint oid retention granted => Memory.hint oid retention granted
  | .protect oid tiers => Memory.protect i.caller oid tiers
  | .evict candidates tier => do
    let _ ← Memory.evict i.needed i.caller candidates tier
  | .decayEntry oid => modify fun s => s.touch oid Entry.decayed
  | .decaySweep => modify Plane.decaySweep
  | .cellCreate cid limit => Memory.cellCreate cid limit
  | .cellDestroy cid busy => Memory.cellDestroy cid busy

def Plane.step (s : Plane) (i : Input) : Plane :=
  final i.run s

def planeAt (inputs : List Input) (n : Nat) : Plane :=
  Run.after Plane.step Plane.init inputs n

end Anunix.Memory
