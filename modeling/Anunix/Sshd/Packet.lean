import Anunix.Credential.Credential
import Anunix.Sshd.Wire

/-!
# Packets of an SSH session

The state of a session of `kernel/drivers/net/sshd.c` (C `struct sshd_state`) and the packet layer
below the protocol: reading from the connection, receiving a packet in the clear or under the
session keys, sending a packet.

Everything a session cannot know in advance is in `Env`: allocations, the fate of reads and writes,
random bytes, memory past the end of an object, what a shell command does. Each question to it has
its own number, so no answer determines another. `State.log` is not part of the source: it records
the calls that the properties of a session are about, in the order they are made.

A copy past the end of the object it writes to stops the session (`Halt.fault`).
-/

namespace Anunix.Sshd

open Fallible Auth

structure Env where
  crypto : Crypto
  alloc : Nat → Bool
  recv : Nat → Bool
  send : Nat → Option Err
  random : Nat → Nat → List UInt8
  beyond : Nat → Nat → UInt8
  around : Nat → Credential.Around
  shell : Nat → CString → Credential.State → Credential.State
  captured : Nat → CString → Credential.State → List UInt8
  edit : Nat → List UInt8 → UInt8 → Option (List UInt8 × List UInt8)

inductive Event where
  /-- A packet was accepted: the bytes the tag covers, and the tag, if packets are encrypted. -/
  | packet (encrypted : Bool) (seq : UInt32) (body tag : List UInt8)
  | keys (k h sessionId key : List UInt8)
  /-- An offered password was checked against the credential store. -/
  | password (slots : List (Option Credential.Entry)) (offered : List UInt8) (ok : Bool)
  | signature (sig msg pk : List UInt8) (ok : Bool)
  /-- A key was looked up among the authorized keys of the credential store. -/
  | authorized (slots : List (Option Credential.Entry)) (pk : List UInt8) (ok : Bool)
  /-- C `anx_auth_session_begin`. -/
  | begin (user : CString) (method : AuthMethod)
  /-- C `anx_shell_execute`. -/
  | execute (cmd : CString)

/-- A session (C `struct sshd_state`), with the kernel state it works on. -/
structure State where
  kernel : Credential.State
  user : CString
  input : List UInt8
  output : List (List UInt8)
  tick : Nat
  log : List Event
  hostPub : List UInt8
  hostPriv : List UInt8
  vClient : List UInt8
  vServer : List UInt8
  iClient : List UInt8
  iServer : List UInt8
  ephPriv : List UInt8
  ephPub : List UInt8
  k : List UInt8
  h : List UInt8
  sessionId : List UInt8
  haveSessionId : Bool
  keyC2s : List UInt8
  keyS2c : List UInt8
  encryptedC2s : Bool
  encryptedS2c : Bool
  seqC2s : UInt32
  seqS2c : UInt32
  clientChannel : UInt32
  clientWindow : UInt32
  clientMaxPacket : UInt32
  channelOpen : Bool
  sentChannelClose : Bool
  line : List UInt8
  /-- Whether a loop has used up its bound. -/
  exhausted : Bool

inductive Halt where
  | code (e : Err)
  | fault
  | fuel
  deriving DecidableEq

abbrev Prog := EStateM Halt State

/-! ## Calls out of the session -/

/-- A loop that has used up its bound. -/
def giveUp {α : Type} : Prog α := do
  modify fun s => { s with exhausted := true }
  throw Halt.fuel

def ask : Prog Nat := do
  let s ← get
  modify fun s => { s with tick := s.tick + 1 }
  pure s.tick

/-- C `anx_alloc`, where the session gives up without memory. -/
def allocate (env : Env) : Prog PUnit := do
  let t ← ask
  failIf (!env.alloc t) (Halt.code .enomem)

def kern {α : Type} (x : Credential.Prog α) : Prog α := fun s =>
  match x s.kernel with
  | .ok a k => .ok a { s with kernel := k }
  | .error e k => .error (.code e) { s with kernel := k }

def record (e : Event) : Prog PUnit :=
  modify fun s => { s with log := s.log ++ [e] }

def ignore {α : Type} (x : Prog α) : Prog PUnit := fun s =>
  match x s with
  | .ok _ s' => .ok ⟨⟩ s'
  | .error (.code _) s' => .ok ⟨⟩ s'
  | .error e s' => .error e s'

/-- C `anx_tcp_srv_send`. -/
def tcpSend (env : Env) (bytes : List UInt8) : Prog PUnit := do
  let t ← ask
  modify fun s => { s with output := s.output ++ [bytes] }
  match env.send t with
  | none => pure ⟨⟩
  | some e => throw (Halt.code e)

/-- C `tcp_recv_exact`; the session ends when the bytes do not come. -/
def tcpRecvExact (env : Env) (n : Nat) : Prog (List UInt8) := do
  let t ← ask
  let s ← get
  failIf (!env.recv t || s.input.length < n) (Halt.code .eio)
  modify fun s => { s with input := s.input.drop n }
  pure (s.input.take n)

/-! ## Sending -/

/-- The padding of a packet: at least four bytes, up to the next multiple of eight. -/
def padLen (encrypted : Bool) (payloadLen : Nat) : Nat :=
  let rem := if encrypted then (1 + payloadLen) % 8 else (4 + 1 + payloadLen) % 8
  if 8 - rem < 4 then 8 - rem + 8 else 8 - rem

def sealPacket (C : Crypto) (s : State) (len body : List UInt8) : List UInt8 :=
  if s.encryptedS2c then
    let len := sshCpLenCrypt C s.keyS2c s.seqS2c len
    let body := sshCpPayloadCrypt C s.keyS2c s.seqS2c body
    len ++ body ++ C.poly1305 (sshCpPolyKey C s.keyS2c s.seqS2c) (len ++ body)
  else len ++ body

/-- C `sshd_send_packet`. -/
def sendPacket (env : Env) (payload : List UInt8) : Prog PUnit := do
  let s ← get
  let pad := padLen s.encryptedS2c payload.length
  allocate env
  let t ← ask
  let body := UInt8.ofNat pad :: payload ++ env.random t pad
  let len := putU32 (UInt32.ofNat (1 + payload.length + pad))
  modify fun s => { s with seqS2c := s.seqS2c + 1 }
  tcpSend env (sealPacket env.crypto s len body)

/-- C `sshd_send_disconnect`. -/
def sendDisconnect (env : Env) (reason : UInt32) (desc : String) : Prog PUnit :=
  sendPacket env ([1] ++ putU32 reason ++ bufString (ascii desc) ++ bufString [])

/-! ## Receiving -/

/-- C `SSHD_MAX_PACKET`. -/
def maxPacket : UInt32 := 32768

def payloadSlice (env : Env) (t : Nat) (payload : List UInt8) : Slice where
  mem i := if i < payload.length then payload.getD i 0 else env.beyond t i
  len := UInt32.ofNat payload.length

/-- The end of `sshd_recv_packet`: take off the padding and count the packet. -/
def deliver (env : Env) (packetLen : Nat) (plain : List UInt8) (e : Event) : Prog Slice := do
  let pad := (plain.headD 0).toNat
  failIf (packetLen < pad + 1) (Halt.code .eio)
  allocate env
  let t ← ask
  record e
  modify fun s => { s with seqC2s := s.seqC2s + 1 }
  pure (payloadSlice env t ((plain.drop 1).take (packetLen - pad - 1)))

/-- `sshd_recv_packet` under the keys: the tag is checked before anything is decrypted. -/
def recvEncrypted (env : Env) (encLen : List UInt8) : Prog Slice := do
  let s ← get
  let len := sshCpLenCrypt env.crypto s.keyC2s s.seqC2s encLen
  let packetLen := getU32 (fun i => len.getD i 0) 0
  failIf (packetLen < 8 || maxPacket < packetLen) (Halt.code .eio)
  allocate env
  let rest ← tcpRecvExact env (packetLen.toNat + 16)
  let body := encLen ++ rest.take packetLen.toNat
  let tag := rest.drop packetLen.toNat
  if env.crypto.poly1305 (sshCpPolyKey env.crypto s.keyC2s s.seqC2s) body = tag then
    deliver env packetLen.toNat
      (sshCpPayloadCrypt env.crypto s.keyC2s s.seqC2s (rest.take packetLen.toNat))
      (.packet true s.seqC2s body tag)
  else do
    ignore (sendDisconnect env 5 "bad poly1305 tag")
    throw (Halt.code .eio)

/-- `sshd_recv_packet` in the clear. -/
def recvPlain (env : Env) (lenBuf : List UInt8) : Prog Slice := do
  let packetLen := getU32 (fun i => lenBuf.getD i 0) 0
  failIf (packetLen < 8 || maxPacket < packetLen) (Halt.code .eio)
  allocate env
  let body ← tcpRecvExact env packetLen.toNat
  let s ← get
  deliver env packetLen.toNat body (.packet false s.seqC2s (lenBuf ++ body) [])

/-- C `sshd_recv_packet`. -/
def recvPacket (env : Env) : Prog Slice := do
  let lenBuf ← tcpRecvExact env 4
  let s ← get
  if s.encryptedC2s then recvEncrypted env lenBuf else recvPlain env lenBuf

end Anunix.Sshd
