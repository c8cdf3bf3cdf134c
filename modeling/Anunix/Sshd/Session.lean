import Anunix.Sshd.Packet

/-!
# SSH sessions

The protocol of `kernel/drivers/net/sshd.c`, from the version lines to the end of the channel: the
key exchange, the authentication loop, the channel loop and the interactive shell. A loop that runs
until the client makes it stop counts down a bound; `handleSession` gives it one more round than the
client has bytes, which is enough (`handleSession_bounded`).

The line editor of the shell (`anx_shell_input_decode`, `anx_shell_input_key`) may do anything to
the line being typed. Fields that no function reads (`phase`, `shell_mode`, `server_channel`) are
left out, as are log lines and the scrubbing of buffers.
-/

namespace Anunix.Sshd

open Fallible Auth

variable (env : Env)

/-! ## Host key and version lines -/

/-- C `anx_ed25519_keypair` and the rest of `ensure_host_key`. -/
def createHostKey : Prog PUnit := do
  let t ← ask
  let pair := env.crypto.ed25519Keypair (env.random t 32)
  modify fun s => { s with hostPub := pair.1, hostPriv := pair.2 }
  let t ← ask
  kern (Credential.create (env.around t) (CString.ofString "ssh-host-key") 3 (pair.1 ++ pair.2))

/-- The credential holds a key: use it, or try to replace it if its length is wrong. -/
def useHostKey (r : Except Halt (List UInt8 × Nat)) : Prog PUnit :=
  match r with
  | .ok (blob, 96) => modify fun s => { s with hostPub := blob.take 32, hostPriv := blob.drop 32 }
  | _ => do
    let t ← ask
    ignore (kern (Credential.revoke (env.around t) (CString.ofString "ssh-host-key")))
    createHostKey env

/-- C `ensure_host_key`. -/
def ensureHostKey : Prog PUnit := do
  let found ← kern (Credential.exists_ (CString.ofString "ssh-host-key"))
  if found then do
    let t ← ask
    let r ← attempt
      (kern (Credential.readSystem (env.around t) (CString.ofString "ssh-host-key") 96))
    useHostKey env r
  else createHostKey env

/-- C `SSHD_VERSION_STRING`. -/
def versionString : List UInt8 :=
  ascii "SSH-2.0-Anunix_1.0"

/-- C `sshd_send_version`. -/
def sendVersion : Prog PUnit := do
  modify fun s => { s with vServer := versionString }
  tcpSend env (versionString ++ [13, 10])

/-- One line from the client, without its end: up to a newline or up to 254 bytes. -/
def recvLine : Nat → List UInt8 → Prog (List UInt8)
  | 0, line => pure line
  | n + 1, line => do
    let c ← tcpRecvExact env 1
    if c = [10] then pure (if line.getLast? = some 13 then line.dropLast else line)
    else recvLine n (line ++ c)

/-- C `sshd_recv_version`: the first of at most sixteen lines that starts with `SSH-`. -/
def recvVersion : Nat → Prog PUnit
  | 0 => throw (Halt.code .eio)
  | n + 1 => do
    let line ← recvLine env 254 []
    if (ascii "SSH-").isPrefixOf line then modify fun s => { s with vClient := line }
    else recvVersion n

/-! ## Key exchange -/

/-- The name lists of the server's `KEXINIT`. -/
def kexAlgorithms : List UInt8 :=
  (["curve25519-sha256,curve25519-sha256@libssh.org", "ssh-ed25519",
    "chacha20-poly1305@openssh.com",
    "chacha20-poly1305@openssh.com", "hmac-sha2-256", "hmac-sha2-256", "none", "none", "", ""].map
      fun s => bufString (ascii s)).flatten

/-- C `sshd_send_kexinit`. -/
def sendKexinit : Prog PUnit := do
  allocate env
  let t ← ask
  let payload := [20] ++ env.random t 16 ++ kexAlgorithms ++ [0] ++ putU32 0
  allocate env
  modify fun s => { s with iServer := payload }
  sendPacket env payload

/-- C `sshd_recv_kexinit`. -/
def recvKexinit : Prog PUnit := do
  let p ← recvPacket env
  failIf (p.len < 1 || p.mem 0 ≠ 20) (Halt.code .eio)
  allocate env
  modify fun s => { s with iClient := p.bytes }

/-- The shared secret and the exchange hash; the first hash names the session. -/
def exchange (C : Crypto) (ephPriv qC : List UInt8) (s : State) : State :=
  let ephPub := C.curve25519Base ephPriv
  let k := C.curve25519 ephPriv qC
  let h := computeExchangeHash C
    { vClient := s.vClient, vServer := s.vServer, iClient := s.iClient, iServer := s.iServer,
      hostKey := buildBlob s.hostPub, qClient := qC, qServer := ephPub, k := k }
  { s with
    ephPriv := ephPriv
    ephPub := ephPub
    k := k
    h := h
    sessionId := if s.haveSessionId then s.sessionId else h
    haveSessionId := true }

/-- The keys of both directions; what the server sends is encrypted from here on. -/
def deriveKeys (C : Crypto) (s : State) : State :=
  { s with
    keyC2s := deriveKey C s.k s.h 67 s.sessionId
    keyS2c := deriveKey C s.k s.h 68 s.sessionId
    encryptedS2c := true }

/-- C `sshd_do_kex_ecdh`. What the client sends counts as encrypted once its `NEWKEYS` is in. -/
def doKexEcdh : Prog PUnit := do
  let p ← recvPacket env
  failIf (p.len < 37 || p.mem 0 ≠ 30) (Halt.code .eio)
  let qcLen := getU32 p.mem 1
  failIf (qcLen ≠ 32 || p.len < 5 + qcLen) (Halt.code .eio)
  let t ← ask
  modify (exchange env.crypto (env.random t 32) (Region.load p.mem 5 32))
  let s ← get
  allocate env
  sendPacket env ([31] ++ bufString (buildBlob s.hostPub) ++ bufString s.ephPub
    ++ bufString (buildBlob (env.crypto.ed25519Sign s.h s.hostPriv)))
  sendPacket env [21]
  modify (deriveKeys env.crypto)
  let p ← recvPacket env
  failIf (p.len < 1 || p.mem 0 ≠ 21) (Halt.code .eio)
  let s ← get
  modify fun s => { s with encryptedC2s := true }
  record (.keys s.k s.h s.sessionId s.keyC2s)

/-! ## Authentication -/

/-- C `sshd_send_userauth_failure`; the client may try again. -/
def refuse : Prog Bool := do
  sendPacket env ([51] ++ bufString (ascii "publickey,password,none") ++ [0])
  pure false

/-- C `anx_auth_session_begin` and `sshd_send_userauth_success`. -/
def accept (method : AuthMethod) : Prog Bool := do
  let s ← get
  record (.begin s.user method)
  modify fun s => { s with kernel := { s.kernel with session := sessionBegin s.user method } }
  sendPacket env [52]
  pure true

/-- C `sshd_note_user`: the first 63 bytes of the user name, read as a C string. -/
def noteUser (user : Slice) : Prog PUnit :=
  modify fun s =>
    { s with user := CString.ofField (Region.load user.mem 0 (min user.len.toNat 63)) }

/-- The comparison of `check_password` with a secret of `actual` bytes of which `copied` were read
into an array of 128. -/
def secretMatches (t : Nat) (copied : List UInt8) (actual : Nat) (pw : Slice) : Bool :=
  actual = pw.len.toNat ∧
    Region.load (fun i => if i < copied.length then copied.getD i 0 else env.beyond t i) 0 actual =
      Region.load pw.mem 0 actual

/-- C `SSHD_DEFAULT_PASSWORD`, in force without the credential `ssh-password`. -/
def defaultMatches (pw : Slice) : Bool :=
  strEq pw "anunix"

/-- The answer of `check_password` once the credential was read. -/
def passwordMatches (t : Nat) (r : Except Halt (List UInt8 × Nat)) (pw : Slice) : Bool :=
  match r with
  | .ok (copied, actual) =>
    if 0 < actual then secretMatches env t copied actual pw else defaultMatches pw
  | .error _ => defaultMatches pw

/-- C `check_password`. -/
def checkPassword (pw : Slice) : Prog Bool := do
  let found ← kern (Credential.exists_ (CString.ofString "ssh-password"))
  if found then do
    let t ← ask
    let r ← attempt
      (kern (Credential.readSystem (env.around t) (CString.ofString "ssh-password") 127))
    pure (passwordMatches env t r pw)
  else pure (defaultMatches pw)

def passwordAuth (p : Slice) (off : UInt32) : Prog Bool := do
  failIf (p.len ≤ off) (Halt.code .eio)
  let (pw, _) ← orThrow (pktGetString p (off + 1)) (Halt.code .eio)
  let s ← get
  let ok ← checkPassword env pw
  record (.password s.kernel.slots pw.bytes ok)
  if ok then accept env .password else refuse env

/-- The key or signature in a blob: the name `ssh-ed25519` and a string of a fixed length. -/
def parseBlob (blob : Slice) (len : UInt32) : Option Slice := do
  let (algo, off) ← pktGetString blob 0
  let (data, _) ← pktGetString blob off
  if strEq algo "ssh-ed25519" ∧ data.len = len then some data else none

/-- The answer to a request without a signature, put together in 256 bytes. A blob that does not fit
is left off, unless its length makes the sum in the check wrap. -/
def pkOk (algo pkBlob : Slice) : Prog Bool := do
  let head := [60] ++ bufString algo.bytes ++ putU32 pkBlob.len
  if 256 < 20 + pkBlob.len then sendPacket env head
  else do
    failIf (256 < 20 + pkBlob.len.toNat) Halt.fault
    sendPacket env (head ++ pkBlob.bytes)
  pure false

/-- C `sd_cap`, the size of the allocation for the signed data. -/
def sdCap (user algo pkBlob : UInt32) : UInt32 :=
  4 + 32 + 1 + 4 + user + 4 + 14 + 4 + 9 + 1 + 4 + algo + 4 + pkBlob + 64

/-- Whether the signed data runs past its allocation. -/
def overruns (user algo pkBlob : UInt32) : Bool :=
  (sdCap user algo pkBlob).toNat <
    4 + 32 + 1 + 4 + user.toNat + 4 + 14 + 4 + 9 + 1 + 4 + algo.toNat + 4 + pkBlob.toNat

/-- C `ANX_AUTHORIZED_KEYS_MAX * 32`. -/
def authkeysSize : Nat := 256

/-- The search of the authorized keys: the copy is a whole number of keys, one of which is `pk`. -/
def keyListed (r : Except Halt (List UInt8 × Nat)) (pk : List UInt8) : Bool :=
  match r with
  | .ok (copied, actual) =>
    let akLen := min actual authkeysSize
    let akLen := if akLen % 32 ≠ 0 then 0 else akLen
    (List.range (akLen / 32)).any fun n => (copied.drop (32 * n)).take 32 = pk
  | .error _ => false

/-- Whether a key is authorized; any key is where no list was stored. -/
def checkAuthorized (pk : List UInt8) : Prog Bool := do
  let found ← kern (Credential.exists_ (CString.ofString "ssh-authorized-keys"))
  if found then do
    let t ← ask
    let r ← attempt (kern
      (Credential.readSystem (env.around t) (CString.ofString "ssh-authorized-keys") authkeysSize))
    pure (keyListed r pk)
  else pure true

/-- A signature that verified: the key has to be authorized as well. -/
def authorize (pk : List UInt8) : Prog Bool := do
  let s ← get
  let ok ← checkAuthorized env pk
  record (.authorized s.kernel.slots pk ok)
  if ok then accept env .key else refuse env

def signatureAuth (p : Slice) (off : UInt32) (user algo pkBlob pk : Slice) : Prog Bool := do
  let (sigBlob, _) ← orThrow (pktGetString p off) (Halt.code .eio)
  match parseBlob sigBlob 64 with
  | none => refuse env
  | some sig => do
    allocate env
    failIf (overruns user.len algo.len pkBlob.len) Halt.fault
    let s ← get
    let msg := signedData s.sessionId user.bytes algo.bytes pkBlob.bytes
    let ok := env.crypto.ed25519Verify sig.bytes msg pk.bytes
    record (.signature sig.bytes msg pk.bytes ok)
    if ok then authorize env pk.bytes else refuse env

def publickeyAuth (p : Slice) (off : UInt32) (user : Slice) : Prog Bool := do
  failIf (p.len ≤ off) (Halt.code .eio)
  let hasSig := p.mem off.toNat
  let (algo, off) ← orThrow (pktGetString p (off + 1)) (Halt.code .eio)
  let (pkBlob, off) ← orThrow (pktGetString p off) (Halt.code .eio)
  if strEq algo "ssh-ed25519" then
    match parseBlob pkBlob 32 with
    | none => refuse env
    | some pk =>
      if hasSig = 0 then pkOk env algo pkBlob else signatureAuth env p off user algo pkBlob pk
  else refuse env

/-- One round of the authentication loop: whether the client is authenticated. -/
def authRound : Prog Bool := do
  let p ← recvPacket env
  failIf (p.len < 1 || p.mem 0 ≠ 50) (Halt.code .eio)
  let (user, off) ← orThrow (pktGetString p 1) (Halt.code .eio)
  let (_, off) ← orThrow (pktGetString p off) (Halt.code .eio)
  let (method, off) ← orThrow (pktGetString p off) (Halt.code .eio)
  noteUser user
  if strEq method "none" then refuse env
  else if strEq method "password" then passwordAuth env p off
  else if strEq method "publickey" then publickeyAuth env p off user
  else refuse env

def authLoop : Nat → Prog PUnit
  | 0 => giveUp
  | n + 1 => do
    let done ← authRound env
    if done then pure ⟨⟩ else authLoop n

/-- C `sshd_send_service_accept`. -/
def sendServiceAccept (name : String) : Prog PUnit :=
  sendPacket env ([6] ++ bufString (ascii name))

/-- Whether a packet asks for a service: the string behind the message byte. -/
def asksFor (p : Slice) (name : String) : Bool :=
  (pktGetString p 1).any fun r => strEq r.1 name

def serviceRequest : Prog PUnit := do
  let p ← recvPacket env
  failIf (p.len < 1 || p.mem 0 ≠ 5) (Halt.code .eio)
  if asksFor p "ssh-userauth" then sendServiceAccept env "ssh-userauth"
  else do
    ignore (sendDisconnect env 7 "bad service")
    throw (Halt.code .eio)

/-- C `sshd_do_service_and_auth`. -/
def doServiceAndAuth (fuel : Nat) : Prog PUnit := do
  serviceRequest env
  authLoop env fuel

/-! ## Channel data -/

/-- The size of the next piece of channel data: what the client takes in a packet and has room
for. -/
def chunkSize (s : State) (len : Nat) : Nat :=
  min (min (min len (s.clientMaxPacket - 64).toNat) (32000 - 64)) s.clientWindow.toNat

/-- C `sshd_send_channel_data`. -/
def sendChannelData : Nat → List UInt8 → Prog PUnit
  | 0, _ => pure ⟨⟩
  | _, [] => pure ⟨⟩
  | n + 1, data => do
    let s ← get
    let chunk := chunkSize s data.length
    failIf (chunk = 0) (Halt.code .eio)
    allocate env
    sendPacket env ([94] ++ putU32 s.clientChannel ++ bufString (data.take chunk))
    modify fun s => { s with clientWindow := s.clientWindow - UInt32.ofNat chunk }
    sendChannelData n (data.drop chunk)

/-- `sshd_send_channel_data` with a round for each byte. -/
def sendData (data : List UInt8) : Prog PUnit :=
  sendChannelData env data.length data

/-- The messages that only name the client's channel: C `sshd_send_channel_eof` (96),
`sshd_send_channel_close` (97), `sshd_send_channel_success` (99), `sshd_send_channel_failure`
(100). -/
def sendChannelMessage (msg : UInt8) : Prog PUnit := do
  let s ← get
  sendPacket env ([msg] ++ putU32 s.clientChannel)

/-- C `sshd_send_exit_status`. -/
def sendExitStatus (status : UInt32) : Prog PUnit := do
  let s ← get
  sendPacket env
    ([98] ++ putU32 s.clientChannel ++ bufString (ascii "exit-status") ++ [0] ++ putU32 status)

/-- A newline not behind a carriage return becomes one with it. -/
def toCrlf : UInt8 → List UInt8 → List UInt8
  | _, [] => []
  | last, c :: rest => (if c = 10 ∧ last ≠ 13 then [13, 10] else [c]) ++ toCrlf c rest

/-- C `sshd_exec_and_send`. -/
def execAndSend (cmd : CString) : Prog PUnit := do
  allocate env
  let t ← ask
  let s ← get
  record (.execute cmd)
  modify fun s => { s with kernel := env.shell t cmd s.kernel }
  allocate env
  sendData env (toCrlf 0 (env.captured t cmd s.kernel))

/-! ## The interactive shell -/

def prompt : Prog PUnit := do
  modify fun s => { s with line := [] }
  ignore (sendData env (ascii "anx> "))

def execLine : Prog PUnit := do
  let s ← get
  if s.line = [] then pure ⟨⟩ else ignore (execAndSend env (CString.ofField s.line))

def runLine : Prog PUnit := do
  ignore (sendData env [13, 10])
  execLine env
  prompt env

def closeShell : Prog PUnit := do
  ignore (sendData env (ascii "logout" ++ [13, 10]))
  ignore (sendChannelMessage env 96)
  ignore (sendExitStatus env 0)
  ignore (sendChannelMessage env 97)
  modify fun s => { s with channelOpen := false }

/-- A byte for the line editor, which answers with the new line and what shows it on the
terminal. -/
def editLine (c : UInt8) : Prog PUnit := do
  let t ← ask
  let s ← get
  match env.edit t s.line c with
  | none => pure ⟨⟩
  | some (line, echo) => do
    modify fun s => { s with line := line }
    sendData env echo

/-- A typed byte: whether the rest of the data is dropped. -/
def shellByte (c : UInt8) : Prog Bool :=
  if c = 13 ∨ c = 10 then do
    runLine env
    pure false
  else if c = 3 then do
    ignore (sendData env (ascii "^C" ++ [13, 10]))
    prompt env
    pure false
  else if c = 4 then do
    closeShell env
    pure true
  else do
    editLine env c
    pure false

/-- The bytes of a `CHANNEL_DATA` message, from the byte `i` on. -/
def shellData (data : Slice) : Nat → Nat → Prog PUnit
  | 0, _ => pure ⟨⟩
  | n + 1, i => do
    let done ← shellByte env (data.mem i)
    if done then pure ⟨⟩ else shellData data n (i + 1)

def shellMessage (p : Slice) : Prog PUnit :=
  if p.len < 1 then pure ⟨⟩
  else if p.mem 0 = 94 then
    if p.len < 5 then pure ⟨⟩
    else
      match pktGetString p 5 with
      | none => pure ⟨⟩
      | some (data, _) => shellData env data data.len.toNat 0
  else if p.mem 0 = 93 then
    if p.len < 9 then pure ⟨⟩
    else modify fun s => { s with clientWindow := s.clientWindow + getU32 p.mem 5 }
  else if p.mem 0 = 96 ∨ p.mem 0 = 97 then do
    ignore (sendChannelMessage env 97)
    modify fun s => { s with channelOpen := false }
  else if p.mem 0 = 80 then ignore (sendPacket env [82])
  else pure ⟨⟩

/-- The loop of `sshd_shell_loop`. -/
def shellRounds : Nat → Prog PUnit
  | 0 => giveUp
  | n + 1 => do
    let s ← get
    if s.channelOpen then do
      let p ← recvPacket env
      shellMessage env p
      shellRounds n
    else pure ⟨⟩

/-- C `sshd_shell_loop`. -/
def shellLoop (fuel : Nat) : Prog PUnit := do
  modify fun s => { s with line := [] }
  sendData env
    (ascii "Anunix kernel shell — type 'help' for commands." ++ [13, 10] ++ ascii "anx> ")
  shellRounds env fuel

/-! ## The channel -/

def replyIf (want : UInt8) (msg : UInt8) : Prog PUnit :=
  if want = 0 then pure ⟨⟩ else ignore (sendChannelMessage env msg)

/-- The request `exec`: one command, of which the first 511 bytes count. -/
def execRequest (p : Slice) (off : UInt32) (want : UInt8) : Prog PUnit := do
  let (cmd, _) ← orThrow (pktGetString p off) (Halt.code .eio)
  replyIf env want 99
  ignore (execAndSend env (CString.ofField (Region.load cmd.mem 0 (min cmd.len.toNat 511))))
  ignore (sendChannelMessage env 96)
  ignore (sendExitStatus env 0)
  ignore (sendChannelMessage env 97)
  modify fun s => { s with sentChannelClose := true }

/-- A `CHANNEL_REQUEST`: whether the function returns after it. -/
def channelRequest (fuel : Nat) (p : Slice) : Prog Bool := do
  failIf (p.len < 5) (Halt.code .eio)
  let (rtype, off) ← orThrow (pktGetString p 5) (Halt.code .eio)
  failIf (p.len ≤ off) (Halt.code .eio)
  let want := p.mem off.toNat
  if strEq rtype "pty-req" ∨ strEq rtype "env" then do
    replyIf env want 99
    pure false
  else if strEq rtype "shell" then do
    replyIf env want 99
    shellLoop env fuel
    pure true
  else if strEq rtype "exec" then do
    execRequest env p (off + 1) want
    pure false
  else do
    replyIf env want 100
    pure false

def answerClose : Prog PUnit := do
  let s ← get
  if s.sentChannelClose then pure ⟨⟩ else ignore (sendChannelMessage env 97)

def closeChannel : Prog PUnit := do
  answerClose env
  modify fun s => { s with channelOpen := false }

/-- A message of the channel loop: whether the function returns after it. -/
def channelMessage (fuel : Nat) (p : Slice) : Prog Bool :=
  if p.len < 1 then pure false
  else if p.mem 0 = 98 then channelRequest env fuel p
  else if p.mem 0 = 96 ∨ p.mem 0 = 97 then do
    closeChannel env
    pure true
  else if p.mem 0 = 80 then do
    ignore (sendPacket env [82])
    pure false
  else pure false

/-- The channel loop of `sshd_do_connection`. -/
def channelRounds : Nat → Prog PUnit
  | 0 => giveUp
  | n + 1 => do
    let s ← get
    if s.channelOpen then do
      let p ← recvPacket env
      let done ← channelMessage env n p
      if done then pure ⟨⟩ else channelRounds n
    else pure ⟨⟩

/-- The second service request, which some clients leave out. -/
def connectionService (p : Slice) : Prog Slice :=
  if 1 ≤ p.len ∧ p.mem 0 = 5 then
    if asksFor p "ssh-connection" then do
      sendServiceAccept env "ssh-connection"
      recvPacket env
    else throw (Halt.code .eio)
  else pure p

/-- Whether a global request wants a reply: the byte behind its name. -/
def wantsReply (p : Slice) : Bool :=
  match pktGetString p 1 with
  | some (_, off) => off < p.len ∧ p.mem off.toNat ≠ 0
  | none => false

def replyGlobal (p : Slice) : Prog PUnit :=
  if wantsReply p then ignore (sendPacket env [82]) else pure ⟨⟩

def skipGlobal : Nat → Slice → Prog Slice
  | 0, _ => giveUp
  | n + 1, p =>
    if 1 ≤ p.len ∧ p.mem 0 = 80 then do
      replyGlobal env p
      let p ← recvPacket env
      skipGlobal n p
    else pure p

/-- The fields of a `CHANNEL_OPEN`, with the client's packet size brought into range. -/
def setChannel (p : Slice) (off : UInt32) (s : State) : State :=
  { s with
    clientChannel := getU32 p.mem off.toNat
    clientWindow := getU32 p.mem (off + 4).toNat
    clientMaxPacket := max 256 (min maxPacket (getU32 p.mem (off + 8).toNat))
    channelOpen := true }

/-- The channel a refused `CHANNEL_OPEN` named, if it is there. -/
def senderChannel (p : Slice) (off : UInt32) : UInt32 :=
  if off + 4 ≤ p.len then getU32 p.mem off.toNat else 0

def openChannel (p : Slice) : Prog PUnit := do
  failIf (p.len < 1 || p.mem 0 ≠ 90) (Halt.code .eio)
  let (kind, off) ← orThrow (pktGetString p 1) (Halt.code .eio)
  if strEq kind "session" then do
    failIf (p.len < off + 12) (Halt.code .eio)
    modify (setChannel p off)
    let s ← get
    sendPacket env ([91] ++ putU32 s.clientChannel ++ putU32 0 ++ putU32 65536 ++ putU32 32768)
  else do
    ignore (sendPacket env ([92] ++ putU32 (senderChannel p off) ++ putU32 3
      ++ bufString (ascii "only session channels supported") ++ bufString []))
    throw (Halt.code .eio)

/-- C `sshd_do_connection`. -/
def doConnection (fuel : Nat) : Prog PUnit := do
  let p ← recvPacket env
  let p ← connectionService env p
  let p ← skipGlobal env fuel p
  openChannel env p
  channelRounds env fuel

/-! ## The session -/

def leave (r : Except Halt PUnit) : Prog PUnit :=
  match r with
  | .ok _ => pure ⟨⟩
  | .error (.code _) => ignore (sendDisconnect env 11 "bye")
  | .error e => throw e

/-- The body of `sshd_handle_session`; every error ends the session. -/
def runSession (fuel : Nat) : Prog PUnit := do
  allocate env
  ensureHostKey env
  sendVersion env
  recvVersion env 16
  sendKexinit env
  recvKexinit env
  doKexEcdh env
  doServiceAndAuth env fuel
  let r ← attempt (doConnection env fuel)
  leave env r

def State.initial (kernel : Credential.State) (user : CString) (input : List UInt8) : State where
  kernel := kernel
  user := user
  input := input
  output := []
  tick := 0
  log := []
  hostPub := []
  hostPriv := []
  vClient := []
  vServer := []
  iClient := []
  iServer := []
  ephPriv := []
  ephPub := []
  k := []
  h := []
  sessionId := []
  haveSessionId := false
  keyC2s := []
  keyS2c := []
  encryptedC2s := false
  encryptedS2c := false
  seqC2s := 0
  seqS2c := 0
  clientChannel := 0
  clientWindow := 0
  clientMaxPacket := 0
  channelOpen := false
  sentChannelClose := false
  line := []
  exhausted := false

/-- C `sshd_handle_session`: the session as it is when the function returns. -/
def handleSession (kernel : Credential.State) (user : CString) (input : List UInt8) : State :=
  final (runSession env (input.length + 1)) (State.initial kernel user input)

end Anunix.Sshd
