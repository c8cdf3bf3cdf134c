import Anunix.Lib.CString
import Anunix.Lib.Region

/-!
# Bytes on the SSH wire

The byte-level helpers of `kernel/drivers/net/sshd.c`: big-endian words, SSH strings, the keys of
`chacha20-poly1305@openssh.com` and the key derivation. The primitives themselves (ChaCha20,
Poly1305, SHA-256, Curve25519, Ed25519) are the parameters `Crypto`.

A string taken out of a packet is a pointer and a length, as in the source. The length check of
`pkt_get_string` adds two 32-bit words, and the sum may wrap, so a string can reach past its packet;
what a read finds there is whatever memory holds.
-/

namespace Anunix.Sshd

structure Crypto where
  chacha20 : (key nonce : List UInt8) → (counter : Nat) → (data : List UInt8) → List UInt8
  poly1305 : (key msg : List UInt8) → List UInt8
  sha256 : List UInt8 → List UInt8
  curve25519Base : (scalar : List UInt8) → List UInt8
  curve25519 : (scalar point : List UInt8) → List UInt8
  ed25519Keypair : (seed : List UInt8) → List UInt8 × List UInt8
  ed25519Sign : (msg priv : List UInt8) → List UInt8
  ed25519Verify : (sig msg pk : List UInt8) → Bool

/-! ## Words and strings -/

/-- C `put_u32`. -/
def putU32 (v : UInt32) : List UInt8 :=
  [(v >>> 24).toUInt8, (v >>> 16).toUInt8, (v >>> 8).toUInt8, v.toUInt8]

/-- C `put_u64` of a 32-bit sequence number. -/
def putU64 (v : UInt32) : List UInt8 :=
  [0, 0, 0, 0] ++ putU32 v

/-- C `get_u32`. -/
def getU32 (mem : Nat → UInt8) (i : Nat) : UInt32 :=
  ((mem i).toUInt32 <<< 24) ||| ((mem (i + 1)).toUInt32 <<< 16) |||
    ((mem (i + 2)).toUInt32 <<< 8) ||| (mem (i + 3)).toUInt32

def ascii (s : String) : List UInt8 :=
  s.toUTF8.toList

/-- C `buf_string`. -/
def bufString (l : List UInt8) : List UInt8 :=
  putU32 (UInt32.ofNat l.length) ++ l

/-- C `buf_mpint`. -/
def bufMpint (num : List UInt8) : List UInt8 :=
  match num.dropWhile (· == 0) with
  | [] => putU32 0
  | b :: rest => if b &&& 0x80 ≠ 0 then bufString (0 :: b :: rest) else bufString (b :: rest)

/-- A pointer and a length: `mem i` is the byte `i` places behind the pointer, within the length or
not. -/
structure Slice where
  mem : Nat → UInt8
  len : UInt32

def Slice.bytes (p : Slice) : List UInt8 :=
  Region.load p.mem 0 p.len.toNat

/-- C `pkt_get_string`: the string at an offset, and the offset behind it. All sums are those of
`uint32_t`. -/
@[irreducible]
def pktGetString (p : Slice) (off : UInt32) : Option (Slice × UInt32) :=
  if p.len < off + 4 then none
  else
    let len := getU32 p.mem off.toNat
    let off := off + 4
    if p.len < off + len then none
    else some (⟨fun i => p.mem (off.toNat + i), len⟩, off + len)

/-- C `str_eq`. -/
def strEq (p : Slice) (s : String) : Bool :=
  p.len.toNat = (ascii s).length ∧ Region.load p.mem 0 (ascii s).length = ascii s

/-! ## Keys -/

/-- C `ssh_chacha_nonce`. -/
def sshChachaNonce (seq : UInt32) : List UInt8 :=
  [0, 0, 0, 0] ++ putU64 seq

section Keys

variable (C : Crypto)

/-- C `ssh_cp_len_crypt`. -/
def sshCpLenCrypt (key : List UInt8) (seq : UInt32) (len : List UInt8) : List UInt8 :=
  C.chacha20 (key.drop 32) (sshChachaNonce seq) 0 len

/-- C `ssh_cp_poly_key`. -/
def sshCpPolyKey (key : List UInt8) (seq : UInt32) : List UInt8 :=
  (C.chacha20 (key.take 32) (sshChachaNonce seq) 0 (List.replicate 64 0)).take 32

/-- C `ssh_cp_payload_crypt`. -/
def sshCpPayloadCrypt (key : List UInt8) (seq : UInt32) (data : List UInt8) : List UInt8 :=
  C.chacha20 (key.take 32) (sshChachaNonce seq) 1 data

/-- C `derive_key` for the 64 bytes the cipher needs. -/
def deriveKey (k h : List UInt8) (letter : UInt8) (sessionId : List UInt8) : List UInt8 :=
  let first := C.sha256 (bufMpint k ++ h ++ [letter] ++ sessionId)
  first ++ C.sha256 (bufMpint k ++ h ++ first)

/-- What the two sides have told each other by the time they hash the exchange. -/
structure Exchange where
  vClient : List UInt8
  vServer : List UInt8
  iClient : List UInt8
  iServer : List UInt8
  hostKey : List UInt8
  qClient : List UInt8
  qServer : List UInt8
  k : List UInt8

/-- C `compute_exchange_hash`. -/
def computeExchangeHash (x : Exchange) : List UInt8 :=
  C.sha256 (bufString x.vClient ++ bufString x.vServer ++ bufString x.iClient ++ bufString x.iServer
    ++ bufString x.hostKey ++ bufString x.qClient ++ bufString x.qServer ++ bufMpint x.k)

/-- C `build_host_key_blob` and `build_signature_blob`. -/
def buildBlob (l : List UInt8) : List UInt8 :=
  bufString (ascii "ssh-ed25519") ++ bufString l

end Keys

/-- The data a client signs to authenticate with a key: the identifier of the session, the user and
the key, among constants. -/
def signedData (sessionId user algo pkBlob : List UInt8) : List UInt8 :=
  bufString sessionId ++ [50] ++ bufString user ++ bufString (ascii "ssh-connection")
    ++ bufString (ascii "publickey") ++ [1] ++ bufString algo ++ bufString pkBlob

end Anunix.Sshd
