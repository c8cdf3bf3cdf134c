import Anunix.Cell.Cell
import Anunix.Lib.Fallible

/-!
# Capabilities

Model of `kernel/core/cap/capability.c` with the promotion gate of `kernel/core/cap/promotion.c` and
the part of the engine registry (`kernel/core/route/engine.c`) that an installation uses.

A capability is named by its address, its position in `State.entries`; capabilities are never freed.
Who holds a pointer to one can write every field of the public declaration, the status and the
identifier included; the two words of `struct capability_entry` behind it, the ceiling and the
authority that was installed, are out of reach. A capability stays in the hash bucket it was put
into when it was created, so an identifier that was overwritten is no longer found elsewhere.
-/

namespace Anunix.Capability
open Fallible

/-- C `enum anx_cap_status`. -/
inductive CapStatus where
  | draft | validating | validated | installed | suspended | superseded | retired
  deriving DecidableEq, Repr

/-- The lifecycle table (C `cap_transitions`). -/
def capTransition : CapStatus → CapStatus → Bool
  | .draft, .validating | .draft, .retired => true
  | .validating, .validated | .validating, .draft | .validating, .retired => true
  | .validated, .installed | .validated, .retired => true
  | .installed, .suspended | .installed, .superseded | .installed, .retired => true
  | .suspended, .installed | .suspended, .retired => true
  | .superseded, .retired => true
  | _, _ => false

/-- C `ANX_CAP_AUTH_NETWORK`. -/
def authNetwork : UInt32 := 1

/-- C `ANX_CAP_AUTH_REMOTE_MODEL`. -/
def authRemoteModel : UInt32 := 2

/-- C `ANX_CAP_AUTH_DERIVE_CELL`. -/
def authDeriveCell : UInt32 := 4

/-- C `ANX_CAP_AUTH_SIDE_EFFECT`. -/
def authSideEffect : UInt32 := 8

/-- C `ANX_CAP_AUTH_ALL`. -/
def authAll : UInt32 := 15

/-- C `ANX_CAP_REQUIRED_ENGINES_MAX`. -/
def requiredEnginesMax : Nat := 8

/-- The public declaration (C `struct anx_capability`). The arrays of `char` are lists of bytes. -/
structure Declaration where
  capOid : Uuid
  name : List UInt8
  version : List UInt8
  status : CapStatus
  outputCapMask : UInt32
  requiredAuthority : UInt32
  requiredEngines : Nat → Uuid
  requiredEngineCount : UInt32
  supersedesOid : Uuid
  validationScore : UInt32
  installedEngineId : Uuid

/-- A capability with its grants (C `struct capability_entry`). -/
structure Entry where
  bucket : Nat
  cap : Declaration
  rootCeiling : UInt32
  installedAuthority : UInt32

/-- C `enum anx_engine_status`. -/
inductive EngineStatus where
  | registered | loading | ready | available | degraded | draining | unloading
  | offline | maintenance
  deriving DecidableEq, Repr

/-- The fields of a registered engine that an installation sets or reads (C `struct anx_engine`). -/
structure Engine where
  eid : Uuid
  name : List UInt8
  installedCapability : Bool
  status : EngineStatus
  capabilities : UInt32
  deriving DecidableEq, Repr

/-- The hash function of the store, the capabilities in the order of their creation, and the
    engines, the latest first. -/
structure State where
  hash : Uuid → Nat
  entries : List Entry
  engines : List Engine

structure Around where
  /-- The running cell (C `anx_cell_current_id`). -/
  current : Option Uuid
  cells : CellStore
  /-- C `anx_identity_admit`. -/
  identity : Uuid → Except Err Uuid
  /-- C `anx_effect_fence_check`. -/
  fence : Uuid → Except Err Unit
  /-- The verdicts of `anx_revision_check`, in the order of the calls. -/
  revision : Nat → Except Err Unit
  /-- The identifier of the object that `anx_so_create` makes. -/
  object : Except Err Uuid
  alloc : Bool
  /-- The identifier that `anx_uuid_generate` draws. -/
  freshEid : Uuid

abbrev KProg := EStateM Err State

/-- The capability that an identifier leads to, searched from the latest (C `anx_cap_lookup`). -/
def State.lookup (s : State) (oid : Uuid) : Option Nat :=
  (List.range s.entries.length).reverse.find? fun c =>
    (s.entries[c]?).any fun e => e.bucket = s.hash oid && e.cap.capOid = oid

/-- The entry of a capability that its own identifier leads to (C `entry_for`). -/
def State.entryFor (s : State) (c : Nat) : Option Entry :=
  (s.entries[c]?).filter fun e => s.lookup e.cap.capOid = some c

/-- C `anx_engine_lookup`. -/
def State.engine (s : State) (eid : Uuid) : Option Engine :=
  Keyed.lookup Engine.eid s.engines eid

def State.setCap (s : State) (c : Nat) (f : Declaration → Declaration) : State :=
  { s with entries := s.entries.modify c fun e => { e with cap := f e.cap } }

/-! ## Checks -/

def permissions (cell : Cell) : UInt32 :=
  (if cell.execution.allowNetwork then authNetwork else 0) |||
    (if cell.execution.allowRemoteModels then authRemoteModel else 0) |||
    (if cell.execution.allowRecursiveCells then authDeriveCell else 0) |||
    (if cell.execution.allowSideEffects then authSideEffect else 0)

def mayInstall (a : Around) (cell : Cell) : Bool :=
  cell.execution.allowSideEffects && !cell.status.terminal && (a.identity cell.cid).isOk &&
    (a.fence cell.cid).isOk

/-- The declaration asks for nothing beyond the ceiling and, when a cell asks, beyond the cell
    itself (C `check_authority`). -/
def checkAuthority (a : Around) (cap : Declaration) (ceiling : UInt32) : Except Err Unit := do
  failIf (cap.requiredAuthority &&& ~~~authAll ≠ 0) Err.einval
  failIf (cap.requiredAuthority &&& ~~~ceiling ≠ 0) Err.eperm
  match a.current with
  | none => pure ()
  | some active => do
    let caller ← orThrow (a.cells.lookup active) Err.eperm
    failIf (!(mayInstall a caller && cap.requiredAuthority &&& ~~~permissions caller = 0)) Err.eperm

/-- A string that is not empty and ends within its array (C `bounded_name`). -/
def boundedName (name : List UInt8) (size : Nat) : Bool :=
  name.headD 0 ≠ 0 && (name.take size).contains 0

/-- C `check_declaration`. -/
def checkDeclaration (cap : Declaration) : Except Err Unit := do
  failIf (!boundedName cap.name 128 || !boundedName cap.version 32 ||
    cap.requiredAuthority &&& ~~~authAll ≠ 0 || requiredEnginesMax < cap.requiredEngineCount.toNat)
    Err.einval
  failIf ((List.range cap.requiredEngineCount.toNat).any fun i => cap.requiredEngines i = .nil ||
    (List.range i).any fun j => cap.requiredEngines i = cap.requiredEngines j) Err.einval

def EngineStatus.serves : EngineStatus → Bool
  | .available | .degraded => true
  | _ => false

/-- C `check_dependencies`. -/
def State.checkDependencies (s : State) (cap : Declaration) : Except Err Unit :=
  (List.range cap.requiredEngineCount.toNat).forM fun i => do
    let eng ← orThrow (s.engine (cap.requiredEngines i)) Err.enoent
    failIf (!eng.status.serves) Err.eperm

/-! ## Calls -/

/-- A fresh draft (C `anx_cap_create`). -/
def capCreate (a : Around) (name version : List UInt8) : KProg Nat := do
  failIf (!a.alloc) Err.enomem
  let oid ← MonadExcept.ofExcept a.object
  let s ← get
  modify fun s =>
    { s with
      entries := s.entries ++
        [{ bucket := s.hash oid
           cap :=
            { capOid := oid, name := Codec.fill 128 (name.take 127),
              version := Codec.fill 32 (version.take 31), status := .draft, outputCapMask := 0,
              requiredAuthority := 0, requiredEngines := fun _ => .nil, requiredEngineCount := 0,
              supersedesOid := .nil, validationScore := 0, installedEngineId := .nil }
           rootCeiling := 0
           installedAuthority := 0 }] }
  pure s.entries.length

/-- Trusted code outside any cell bounds a fresh draft (C `anx_cap_set_authority_ceiling`). -/
def capSetAuthorityCeiling (a : Around) (c : Nat) (ceiling : UInt32) : KProg Unit := do
  let s ← get
  let e ← orThrow (s.entryFor c) Err.einval
  failIf (ceiling &&& ~~~authAll ≠ 0) Err.einval
  failIf (a.current.isSome || e.cap.status ≠ .draft || e.cap.supersedesOid ≠ .nil) Err.eperm
  modify fun s =>
    { s with entries := s.entries.modify c fun e => { e with rootCeiling := ceiling } }

/-- A transition that only an open revision allows. -/
def needsRevision (old new : CapStatus) : Bool :=
  old = .installed || old = .suspended || old = .superseded || new = .installed

/-- Move a capability along the table, the `i`-th revision check of the call being its own (C
    `anx_cap_transition`). -/
def capTransitionTo (a : Around) (i c : Nat) (new : CapStatus) : KProg Unit := do
  let s ← get
  let e ← orThrow s.entries[c]? Err.einval
  failIf (!capTransition e.cap.status new) Err.einval
  MonadExcept.ofExcept (if needsRevision e.cap.status new then a.revision i else pure ())
  modify fun s => s.setCap c fun cap => { cap with status := new }

/-- Register an engine for a capability (C `anx_engine_register`). -/
def engineRegister (a : Around) (cap : Declaration) : KProg Engine := do
  failIf (!a.alloc) Err.enomem
  let eng : Engine :=
    { eid := a.freshEid, name := (cap.name.takeWhile (· ≠ 0)).take 63, installedCapability := true,
      status := .available, capabilities := cap.outputCapMask }
  modify fun s => { s with engines := eng :: s.engines }
  pure eng

/-- C `anx_engine_unregister`. -/
def engineUnregister (eid : Uuid) : KProg Unit :=
  modify fun s => { s with engines := Keyed.erase Engine.eid s.engines eid }

/-- Install a capability under a ceiling (C `do_install`). -/
def doInstall (a : Around) (c : Nat) (ceiling : UInt32) : KProg Unit := do
  let s ← get
  let e ← orThrow (s.entryFor c) Err.einval
  MonadExcept.ofExcept (a.revision 0)
  MonadExcept.ofExcept (checkDeclaration e.cap)
  MonadExcept.ofExcept (checkAuthority a e.cap ceiling)
  MonadExcept.ofExcept (s.checkDependencies e.cap)
  let eng ← engineRegister a e.cap
  match ← attempt (capTransitionTo a 1 c .installed) with
  | .error err => do
    engineUnregister eng.eid
    throw err
  | .ok _ =>
    modify fun s =>
      { s with
        entries := s.entries.modify c fun e =>
          { e with
            cap := { e.cap with installedEngineId := eng.eid }
            installedAuthority := e.cap.requiredAuthority } }

/-- Install a capability that supersedes nothing, under its own ceiling (C `anx_cap_install`). -/
def capInstall (a : Around) (c : Nat) : KProg Unit := do
  let s ← get
  let e ← orThrow (s.entryFor c) Err.einval
  failIf (e.cap.status ≠ .validated) Err.eperm
  failIf (e.cap.supersedesOid ≠ .nil) Err.eperm
  doInstall a c e.rootCeiling

/-- Paired measurements (C `struct anx_promotion_trial`). -/
structure Trial where
  incumbentScores : Nat → Int32
  candidateScores : Nat → Int32
  n : UInt32

def Trial.margin (trial : Trial) (i : Nat) : Int :=
  (trial.candidateScores i).toInt - (trial.incumbentScores i).toInt

/-- C `ANX_PROMOTION_MIN_MARGIN_BASE`. -/
def promotionMinMarginBase : Int := 5

/-- The candidate wins every pair by a margin that grows with the number of candidates (C
    `anx_promotion_gate_evaluate`). -/
def promotionGateEvaluate (trial : Trial) (tried : UInt32) : Except Err Bool := do
  failIf (trial.n = 0 || 16 < trial.n.toNat) Err.einval
  let required := promotionMinMarginBase * (if tried = 0 then 1 else tried.toNat)
  let minMargin := ((List.range trial.n.toNat).map trial.margin).foldl min (trial.margin 0)
  pure (required ≤ minMargin)

/-- Install a capability in place of an installed one, under the authority of that one (C
    `anx_cap_install_gated`). -/
def capInstallGated (a : Around) (c : Nat) (trial : Trial) (tried : UInt32) : KProg Unit := do
  let s ← get
  let e ← orThrow s.entries[c]? Err.einval
  failIf (e.cap.status ≠ .validated) Err.eperm
  failIf (e.cap.supersedesOid = .nil) Err.einval
  let i ← orThrow (s.lookup e.cap.supersedesOid) Err.enoent
  let incumbent ← orThrow s.entries[i]? Err.enoent
  failIf (incumbent.cap.status ≠ .installed || incumbent.cap.installedEngineId = .nil ||
    (s.engine incumbent.cap.installedEngineId).isNone) Err.eperm
  let entry ← orThrow (s.entryFor i) Err.einval
  let promote ← MonadExcept.ofExcept (promotionGateEvaluate trial tried)
  failIf (!promote) Err.eperm
  doInstall a c entry.installedAuthority

/-- Take the engine of a capability away (C `anx_cap_uninstall`). -/
def capUninstall (a : Around) (c : Nat) : KProg Unit := do
  let s ← get
  let e ← orThrow s.entries[c]? Err.einval
  MonadExcept.ofExcept (a.revision 0)
  failIf (e.cap.status ≠ .installed && e.cap.status ≠ .suspended) Err.eperm
  if e.cap.installedEngineId ≠ .nil then do
    engineUnregister e.cap.installedEngineId
    modify fun s => s.setCap c fun cap => { cap with installedEngineId := .nil }

/-- Move a draft to `VALIDATED` if its declaration stands (C `anx_cap_validate`). -/
def capValidate (a : Around) (c : Nat) : KProg Unit := do
  let s ← get
  let e ← orThrow s.entries[c]? Err.einval
  failIf (e.cap.status ≠ .draft) Err.eperm
  MonadExcept.ofExcept (checkDeclaration e.cap)
  match s.checkDependencies e.cap with
  | .error err => do
    modify fun s => s.setCap c fun cap => { cap with validationScore := 0 }
    throw err
  | .ok _ => do
    capTransitionTo a 0 c .validating
    modify fun s => s.setCap c fun cap => { cap with validationScore := 100 }
    capTransitionTo a 1 c .validated

end Anunix.Capability
