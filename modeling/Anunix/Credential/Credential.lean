import Anunix.Error
import Anunix.Auth.Session
import Anunix.Lib.Codec
import Anunix.Lib.Fallible
import Anunix.Lib.Region
import Anunix.Lib.Slots

/-!
# The credential store

A model of `kernel/core/credential.c`. The store is an array of sixteen slots, each free or holding
a credential; every change is written through to one object on disk, from which
`anx_credstore_load` replays the credentials at boot.

A secret is the list of its bytes, so its length is the `secret_len` of the source. The buffer that
the disk image is assembled in is a static array that keeps what earlier calls left in it, and is
modelled byte by byte. What a call meets (the clock, whether allocation and the disk calls succeed)
is an argument. Null pointers, locks and log lines are left out.
-/

namespace Anunix.Credential

open Fallible Auth

/-- A credential type (C `enum anx_credential_type`). The store hands back the number it was given
and never looks at it, so a number from the disk image is kept even if it names no type. -/
abbrev CredType := UInt32

/-- A slot in use (C `struct credential_entry` with `active` set). -/
structure Entry where
  name : CString
  credType : CredType
  secret : List UInt8
  createdAt : UInt64
  lastAccessed : UInt64
  accessCount : UInt32
  deriving DecidableEq

/-- What a caller may see of a credential (C `struct anx_credential_info`; `active` is always
set). -/
structure Info where
  name : CString
  credType : CredType
  secretLen : Nat
  createdAt : UInt64
  lastAccessed : UInt64
  accessCount : UInt32
  deriving DecidableEq

/-- The static data of the module, the session it consults and the object it keeps on disk. -/
structure State where
  slots : List (Option Entry)
  session : Session
  disk : Option (List UInt8)
  buf : Nat → UInt8
  loading : Bool

/-- What one call meets: the clock, whether `anx_alloc` gives memory, and whether deleting and
writing the disk object succeed. -/
structure Around where
  now : UInt64
  alloc : Bool
  deleted : Bool
  written : Bool

abbrev Prog := EStateM Err State

/-! ## Sizes -/

/-- C `CREDSTORE_MAX`. -/
def credstoreMax : Nat := 16

/-- C `sizeof(entry->name)`. -/
def nameSize : Nat := 128

/-- C `CRED_MAX_SECRET`. -/
def credMaxSecret : Nat := 512

/-- C `CRED_DISK_MAGIC`. -/
def credDiskMagic : UInt32 := 0x43524544

/-- C `sizeof(struct cred_disk_hdr)`. -/
def hdrSize : Nat := 16

/-- C `sizeof(struct cred_disk_entry)`. -/
def entrySize : Nat := 648

/-- C `sizeof(g_cred_disk_buf)`. -/
def bufSize : Nat := hdrSize + credstoreMax * entrySize

/-! ## Classes -/

/-- C `enum anx_credential_class`. -/
inductive Class where
  | ordinary | connectivity
  deriving DecidableEq, Repr

/-- C `connectivity_names`. -/
def connectivityNames : List CString :=
  ["wifi-ssid", "wifi-pass", "ssh-host-key", "ssh-authorized-keys", "ssh-identity",
    "ssh-password"].map CString.ofString

/-- C `EIGENTUNNEL_PREFIX`. -/
def eigentunnelPrefix : CString :=
  CString.ofString "eigentunnel-"

/-- C `anx_credential_class_of`. -/
def classOf (name : CString) : Class :=
  if name ∈ connectivityNames then .connectivity
  else if eigentunnelPrefix.bytes.isPrefixOf name.bytes then .connectivity
  else .ordinary

/-! ## The disk image -/

def entryBase (n : Nat) : Nat :=
  hdrSize + n * entrySize

/-- One round of the loop of `anx_credstore_save`. A copy shorter than its field leaves the rest of
the field as an earlier image had it. -/
def writeEntry (buf : Nat → UInt8) (n : Nat) (e : Entry) : Nat → UInt8 :=
  let base := entryBase n
  let secret := e.secret.take credMaxSecret
  let buf := Region.store buf base (e.name.strlcpy nameSize)
  let buf := Region.store buf (base + 128) (Codec.u32.encode e.credType)
  let buf := Region.store buf (base + 132) (Codec.u32.encode (UInt32.ofNat secret.length))
  Region.store buf (base + 136) secret

/-- The loop of `anx_credstore_save` over the slots in use, from entry `n` of the image on. -/
def writeEntries (buf : Nat → UInt8) (n : Nat) : List Entry → Nat → UInt8
  | [] => buf
  | e :: es => writeEntries (writeEntry buf n e) (n + 1) es

def header (count : Nat) : List UInt8 :=
  Codec.u32.encode credDiskMagic ++ Codec.u32.encode (UInt32.ofNat count) ++ Codec.u32.encode 0
    ++ Codec.u32.encode 0

def State.entries (s : State) : List Entry :=
  s.slots.reduceOption

/-- C `anx_credstore_save`. The results of the two disk calls are ignored. -/
def save (r : Around) (s : State) : State :=
  if s.loading then s
  else
    let buf := Region.store (writeEntries s.buf 0 s.entries) 0 (header s.entries.length)
    let image := Region.load buf 0 (hdrSize + s.entries.length * entrySize)
    { s with
      buf := buf
      disk := if r.written then some image else if r.deleted then none else s.disk }

/-! ## The calls -/

/-- C `find_by_name`. -/
def findByName (slots : List (Option Entry)) (name : CString) : Option (Nat × Entry) :=
  Slots.firstWith slots fun e => e.name = name

def State.setSlot (s : State) (i : Nat) (o : Option Entry) : State :=
  { s with slots := s.slots.set i o }

/-- C `anx_credstore_init`. -/
def init (s : State) : State :=
  { s with slots := List.replicate credstoreMax none }

/-- C `anx_credential_create`. The name is kept in an array of 128 bytes. -/
def create (r : Around) (name : CString) (credType : CredType) (secret : List UInt8) :
    Prog PUnit := do
  failIf secret.isEmpty Err.einval
  failIf (!r.alloc) Err.enomem
  let s ← get
  failIf (findByName s.slots name).isSome Err.eexist
  let i ← orThrow (Slots.firstFree s.slots) Err.enomem
  modify fun s => s.setSlot i <| some
    { name := name.take (nameSize - 1), credType := credType, secret := secret, createdAt := r.now,
      lastAccessed := 0, accessCount := 0 }
  modify (save r)

/-- C `anx_credential_read_system`: the bytes copied into a buffer of `bufLen` bytes, and the value
of `*actual_len`. -/
def readSystem (r : Around) (name : CString) (bufLen : Nat) : Prog (List UInt8 × Nat) := do
  let s ← get
  let (i, e) ← orThrow (findByName s.slots name) Err.enoent
  modify fun s =>
    s.setSlot i (some { e with lastAccessed := r.now, accessCount := e.accessCount + 1 })
  pure (e.secret.take bufLen, e.secret.length)

/-- C `anx_credential_read`. -/
def read (r : Around) (name : CString) (bufLen : Nat) : Prog (List UInt8 × Nat) := do
  let s ← get
  failIf (classOf name = .connectivity ∧ s.session.isKeyAuthenticated = false) Err.eperm
  readSystem r name bufLen

def Entry.info (e : Entry) : Info where
  name := e.name.take (nameSize - 1)
  credType := e.credType
  secretLen := e.secret.length
  createdAt := e.createdAt
  lastAccessed := e.lastAccessed
  accessCount := e.accessCount

/-- C `anx_credential_info`. -/
def info (name : CString) : Prog Info := do
  let s ← get
  let (_, e) ← orThrow (findByName s.slots name) Err.enoent
  pure e.info

/-- C `anx_credential_rotate`. -/
def rotate (r : Around) (name : CString) (secret : List UInt8) : Prog PUnit := do
  failIf secret.isEmpty Err.einval
  failIf (!r.alloc) Err.enomem
  let s ← get
  let (i, e) ← orThrow (findByName s.slots name) Err.enoent
  modify fun s => s.setSlot i (some { e with secret := secret })
  modify (save r)

/-- C `anx_credential_revoke`. -/
def revoke (r : Around) (name : CString) : Prog PUnit := do
  failIf (classOf name = .connectivity) Err.eperm
  let s ← get
  let (i, _) ← orThrow (findByName s.slots name) Err.enoent
  modify fun s => s.setSlot i none
  modify (save r)

def isConnectivity (o : Option Entry) : Bool :=
  o.any fun e => classOf e.name = .connectivity

/-- The loop of `anx_credential_wipe_connectivity`. -/
def clearConnectivity (slots : List (Option Entry)) : List (Option Entry) :=
  slots.map fun o => if isConnectivity o then none else o

/-- C `anx_credential_wipe_connectivity`: the return code, and the value of `*removed`, which a
refusal sets to zero. -/
def wipeConnectivity (r : Around) : Prog (Except Err PUnit × Nat) := do
  let s ← get
  if s.session.isKeyAuthenticated then
    let n := s.slots.countP isConnectivity
    modify fun s => { s with slots := clearConnectivity s.slots }
    modify fun s => if 0 < n then save r s else s
    pure (.ok ⟨⟩, n)
  else
    pure (.error .eperm, 0)

/-- C `anx_credential_list`: the entries written to `out`, whose number is `*count`. -/
def list (maxEntries : Nat) : Prog (List Info) := do
  let s ← get
  pure ((s.entries.take maxEntries).map Entry.info)

/-- C `anx_credential_exists`. -/
def exists_ (name : CString) : Prog Bool := do
  let s ← get
  pure (findByName s.slots name).isSome

/-! ## Loading -/

/-- The fields of an entry of the image that `anx_credstore_load` passes on. -/
structure DiskEntry where
  name : CString
  credType : CredType
  secretLen : Nat
  secret : List UInt8

@[irreducible]
def readEntry (buf : Nat → UInt8) (n : Nat) : DiskEntry :=
  let base := entryBase n
  let secretLen := (Codec.u32.decode (Region.load buf (base + 132) 4)).toNat
  { name := CString.ofField (Region.load buf base nameSize)
    credType := Codec.u32.decode (Region.load buf (base + 128) 4)
    secretLen := secretLen
    secret := Region.load buf (base + 136) secretLen }

/-- C `d->name[sizeof(d->name) - 1] = '\0'`. -/
def terminateName (n : Nat) (s : State) : State :=
  { s with buf := Region.store s.buf (entryBase n + (nameSize - 1)) [0] }

/-- Pass an entry of the image to `anx_credential_create`, unless its length runs past the entry. -/
def replay (r : Around) (d : DiskEntry) : Prog PUnit :=
  if credMaxSecret < d.secretLen then pure ⟨⟩
  else discard (attempt (create r d.name d.credType d.secret))

/-- One round of the loop of `anx_credstore_load`. -/
def loadEntry (r : Around) (n : Nat) : Prog PUnit := do
  modify (terminateName n)
  let s ← get
  replay r (readEntry s.buf n)

@[irreducible]
def imageCount (buf : Nat → UInt8) : Nat :=
  (Codec.u32.decode (Region.load buf 4 4)).toNat

/-- The checks of `anx_credstore_load` on an image of `actual` bytes. -/
def imageOk (actual : Nat) (buf : Nat → UInt8) : Bool :=
  hdrSize ≤ actual ∧ Codec.u32.decode (Region.load buf 0 4) = credDiskMagic ∧
    imageCount buf ≤ credstoreMax ∧ hdrSize + imageCount buf * entrySize ≤ actual

def loadEntries (rs : Nat → Around) (count : Nat) : Prog PUnit := do
  modify fun s => { s with loading := true }
  (List.range count).forM fun n => loadEntry (rs n) n
  modify fun s => { s with
    loading := false
    buf := Region.store s.buf 0 (List.replicate bufSize 0) }

/-- What `anx_credstore_load` does with the object it has read. -/
def loadImage (rs : Nat → Around) (image : List UInt8) : Prog PUnit := do
  modify fun s => { s with buf := Region.store s.buf 0 (image.take bufSize) }
  let s ← get
  if imageOk image.length s.buf then loadEntries rs (imageCount s.buf) else pure ⟨⟩

/-- C `anx_credstore_load`. The argument `readable` says whether the disk gives the object back,
`rs` what the call that replays each entry meets. -/
def load (readable : Bool) (rs : Nat → Around) : Prog PUnit := do
  let s ← get
  match s.disk with
  | some image => if readable then loadImage rs image else pure ⟨⟩
  | none => pure ⟨⟩

end Anunix.Credential
