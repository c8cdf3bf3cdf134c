import Anunix.Lib.BigEndian
import Anunix.Lib.CString
import Anunix.Wifi.KeyWrap

/-!
# The WPA2 supplicant

`kernel/drivers/net/wifi/mt7925_eapol.c`: the pairwise 4-way handshake and the group key handshake,
from the bytes of an EAPOL frame to the reply and the keys to install. Offsets are from the start of
the EAPOL header.
-/

namespace Anunix.Wifi
open List

/-! ## Frames -/

def offType : Nat := 1
def offBodyLen : Nat := 2
def offDesc : Nat := 4
def offInfo : Nat := 5
def offReplay : Nat := 9
def offNonce : Nat := 17
def offMic : Nat := 81
def offKdLen : Nat := 97
def offKd : Nat := 99

def kiVersionMask : UInt16 := 0x0007
def kiVersionAesSha1 : UInt16 := 2
def kiPairwise : UInt16 := 0x0008
def kiInstall : UInt16 := 0x0040
def kiAck : UInt16 := 0x0080
def kiMic : UInt16 := 0x0100
def kiSecure : UInt16 := 0x0200
def kiEncKeyData : UInt16 := 0x1000

/-- C `MT7925_EAPOL_MAX`. -/
def eapolMax : Nat := 512

/-- C `be16`. -/
def be16 (pkt : List UInt8) (i : Nat) : UInt16 :=
  ((pkt.getD i 0).toUInt16 <<< 8) ||| (pkt.getD (i + 1) 0).toUInt16

/-- C `put_be16`. -/
def putBe16 (v : UInt16) : List UInt8 :=
  [(v >>> 8).toUInt8, v.toUInt8]

def field (pkt : List UInt8) (off n : Nat) : List UInt8 :=
  (pkt.drop off).take n

def info (pkt : List UInt8) : UInt16 := be16 pkt offInfo

def hasInfo (pkt : List UInt8) (flag : UInt16) : Bool :=
  info pkt &&& flag ≠ 0

def replayOf (pkt : List UInt8) : List UInt8 := field pkt offReplay 8

def nonceOf (pkt : List UInt8) : List UInt8 := field pkt offNonce 32

def micOf (pkt : List UInt8) : List UInt8 := field pkt offMic 16

/-- The length of the frame in its header: the packet may be longer. -/
def frameLen (pkt : List UInt8) : Nat := 4 + (be16 pkt offBodyLen).toNat

def kdLen (pkt : List UInt8) : Nat := (be16 pkt offKdLen).toNat

def keyData (pkt : List UInt8) : List UInt8 := field pkt offKd (kdLen pkt)

def unsigned (pkt : List UInt8) : List UInt8 :=
  pkt.take offMic ++ replicate 16 0 ++ (pkt.take (frameLen pkt)).drop offKdLen

/-- C `bytes_cmp`, on strings of one length. -/
def bytesCmp : List UInt8 → List UInt8 → Int
  | a :: l, b :: m => if a ≠ b then if a < b then -1 else 1 else bytesCmp l m
  | _, _ => 0

/-! ## State -/

/-- C `MT7925_EAPOL_ERR_NONE` and its neighbours. -/
inductive DropReason where
  | none | format | version | replay | mic | nonce | keydata | noPtk
  deriving DecidableEq, Repr

/-- C `struct mt7925_eapol`. `gtk` is the group key with its length. -/
structure Eapol where
  pmk : List UInt8
  ptk : List UInt8
  ptkValid : Bool
  anonce : List UInt8
  snonce : List UInt8
  fixedSnonce : Bool
  aa : List UInt8
  spa : List UInt8
  replay : List UInt8
  replayValid : Bool
  rsnIe : List UInt8
  gtk : List UInt8
  gtkIdx : UInt8
  lastError : DropReason
  deriving DecidableEq, Repr

/-- What `mt7925_eapol_rx` returns: its mask, and the reply. -/
structure Action where
  send : Bool
  installPtk : Bool
  installGtk : Bool
  out : List UInt8
  deriving DecidableEq, Repr

def Action.ignore : Action := ⟨false, false, false, []⟩

/-- C `hexval`. -/
def hexval (c : UInt8) : Option UInt8 :=
  if 48 ≤ c ∧ c ≤ 57 then some (c - 48)
  else if 97 ≤ c ∧ c ≤ 102 then some (c - 97 + 10)
  else if 65 ≤ c ∧ c ≤ 70 then some (c - 65 + 10)
  else none

def hexBytes : List UInt8 → Option (List UInt8)
  | hi :: lo :: rest => do
    let hi ← hexval hi
    let lo ← hexval lo
    let rest ← hexBytes rest
    return ((hi <<< 4) ||| lo) :: rest
  | _ => some []

section Supplicant

variable (P : Prims)

/-- C `mt7925_eapol_init`, when it returns 0. -/
def eapolInit (pass : CString) (ssid aa spa rsnIe : List UInt8) : Option Eapol :=
  let start (pmk : List UInt8) : Eapol :=
    { pmk, ptk := replicate 48 0, ptkValid := false
      anonce := replicate 32 0, snonce := replicate 32 0, fixedSnonce := false
      aa := aa.take 6, spa := spa.take 6
      replay := replicate 8 0, replayValid := false
      rsnIe, gtk := [], gtkIdx := 0, lastError := .none }
  if 64 < rsnIe.length then none
  else if pass.bytes.length = 64 then (hexBytes pass.bytes).map start
  else if pass.bytes.length < 8 ∨ 63 < pass.bytes.length then none
  else some (start (pbkdf2HmacSha1 P pass.bytes ssid 4096 32))

/-- "Pairwise key expansion". -/
def ptkLabel : List UInt8 :=
  [80, 97, 105, 114, 119, 105, 115, 101, 32, 107, 101, 121, 32, 101, 120, 112, 97, 110, 115,
    105, 111, 110]

/-- C `derive_ptk`: the key made of the PMK, both addresses and both nonces. -/
def derivePtk (pmk aa spa anonce snonce : List UInt8) : List UInt8 :=
  let aaLow := bytesCmp aa spa < 0
  let anLow := bytesCmp anonce snonce < 0
  prfSha1 P pmk ptkLabel
    ((if aaLow then aa else spa) ++ (if aaLow then spa else aa) ++
      (if anLow then anonce else snonce) ++ (if anLow then snonce else anonce)) 48

/-- The three keys of a PTK. -/
def kck (ptk : List UInt8) : List UInt8 := ptk.take 16
def kek (ptk : List UInt8) : List UInt8 := (ptk.drop 16).take 16

/-- C `mt7925_eapol_tk`. -/
def tk (ptk : List UInt8) : List UInt8 := ptk.drop 32

/-- C `compute_mic`. -/
def computeMic (kck frame : List UInt8) : List UInt8 :=
  (P.hmacSha1 kck frame).take 16

/-- C `verify_mic`. -/
def verifyMic (ptk pkt : List UInt8) : Bool :=
  frameLen pkt ≤ eapolMax ∧ computeMic P (kck ptk) (unsigned pkt) = micOf pkt

/-- The frame `build_reply` fills in, around its MIC. -/
def replyFrame (info : UInt16) (replay nonce kd mic : List UInt8) : List UInt8 :=
  [1, 3] ++ putBe16 (UInt16.ofNat (offKd + kd.length - 4)) ++ [2] ++ putBe16 info ++ putBe16 0 ++
    replay ++ nonce ++ replicate 32 0 ++ mic ++ putBe16 (UInt16.ofNat kd.length) ++ kd

/-- C `build_reply`. -/
def buildReply (ptk : List UInt8) (info : UInt16) (replay nonce kd : List UInt8) : List UInt8 :=
  replyFrame info replay nonce kd
    (computeMic P (kck ptk) (replyFrame info replay nonce kd (replicate 16 0)))

/-- C `parse_gtk`: the first GTK element, as its index and key. `skip` is the number of bytes to the
next element. -/
def parseGtk : (skip : Nat) → List UInt8 → Option (UInt8 × List UInt8)
  | skip + 1, _ :: kd => parseGtk skip kd
  | 0, id :: elen :: p =>
    if id = 0xdd ∧ elen = 0 then none
    else if p.length < elen.toNat then none
    else if id = 0xdd ∧ 6 ≤ elen ∧ p.take 4 = [0x00, 0x0f, 0xac, 1] then
      if 32 < (elen - 6).toNat then none
      else some (p.getD 4 0 &&& 0x03, (p.drop 6).take (elen - 6).toNat)
    else parseGtk elen.toNat p
  | _, _ => none

/-- C `unwrap_key_data`. -/
def unwrapKeyData (ptk pkt : List UInt8) : Option (UInt8 × List UInt8) :=
  if kdLen pkt < 16 ∨ kdLen pkt % 8 ≠ 0 ∨ eapolMax < kdLen pkt - 8 then none
  else (aes128Unwrap P (kek ptk) (keyData pkt) (kdLen pkt - 8)).bind (parseGtk 0)

/-- C `replay_ok`. -/
def replayOk (e : Eapol) (pkt : List UInt8) : Bool :=
  e.replayValid = false ∨ 0 < bytesCmp (replayOf pkt) e.replay

/-- C `drop`. -/
def Eapol.drop (e : Eapol) (why : DropReason) : Eapol × Action :=
  ({ e with lastError := why }, .ignore)

/-- Message 1 of 4. `rand` is what `anx_random_bytes` fills in. -/
def message1 (rand : Nat → UInt8) (e : Eapol) (pkt : List UInt8) : Eapol × Action :=
  let anonce := nonceOf pkt
  let snonce := if e.fixedSnonce then e.snonce else (range 32).map rand
  let ptk := derivePtk P e.pmk e.aa e.spa anonce snonce
  ({ e with anonce, snonce, ptk, ptkValid := true },
    { send := true, installPtk := false, installGtk := false
      out := buildReply P ptk (kiVersionAesSha1 ||| kiPairwise ||| kiMic) (replayOf pkt) snonce
        e.rsnIe })

/-- `e->replay` and `e->replay_valid` take the counter of the frame. -/
def Eapol.advance (e : Eapol) (pkt : List UInt8) : Eapol :=
  { e with replay := replayOf pkt, replayValid := true }

def message3 (e : Eapol) (pkt : List UInt8) : Eapol × Action :=
  if hasInfo pkt kiInstall = false then e.drop .format
  else if bytesCmp e.anonce (nonceOf pkt) ≠ 0 then e.drop .nonce
  else
    let e := { e.advance pkt with gtk := [] }
    let out :=
      buildReply P e.ptk (kiVersionAesSha1 ||| kiPairwise ||| kiMic ||| kiSecure) (replayOf pkt)
      (replicate 32 0) []
    if hasInfo pkt kiEncKeyData then
      match unwrapKeyData P e.ptk pkt with
      | none => e.drop .keydata
      | some (idx, gtk) =>
        ({ e with gtkIdx := idx, gtk },
          { send := true, installPtk := true, installGtk := gtk ≠ [], out })
    else (e, { send := true, installPtk := true, installGtk := false, out })

def groupMessage1 (e : Eapol) (pkt : List UInt8) : Eapol × Action :=
  if hasInfo pkt kiEncKeyData = false then e.drop .format
  else
    let e := e.advance pkt
    match unwrapKeyData P e.ptk pkt with
    | none => e.drop .keydata
    | some (idx, gtk) =>
      ({ e with gtkIdx := idx, gtk },
        { send := true, installPtk := false, installGtk := true
          out := buildReply P e.ptk (kiVersionAesSha1 ||| kiMic ||| kiSecure) (replayOf pkt)
            (replicate 32 0) [] })

/-- The format checks at the head of `mt7925_eapol_rx`. -/
def malformed (pkt : List UInt8) : Bool :=
  pkt.length < offKd ∨ pkt.getD offType 0 ≠ 3 ∨ pkt.getD offDesc 0 ≠ 2 ∨
    pkt.length < frameLen pkt ∨ eapolMax < frameLen pkt ∨ frameLen pkt < offKd + kdLen pkt

/-- C `mt7925_eapol_rx`. -/
def eapolRx (rand : Nat → UInt8) (e : Eapol) (pkt : List UInt8) : Eapol × Action :=
  let e := { e with lastError := .none }
  if malformed pkt then e.drop .format
  else if info pkt &&& kiVersionMask ≠ kiVersionAesSha1 then e.drop .version
  else if hasInfo pkt kiAck = false then e.drop .format
  else if replayOk e pkt = false then e.drop .replay
  else if hasInfo pkt kiPairwise = true ∧ hasInfo pkt kiMic = false then message1 P rand e pkt
  else if e.ptkValid = false then e.drop .noPtk
  else if hasInfo pkt kiMic = false ∨ verifyMic P e.ptk pkt = false then e.drop .mic
  else if hasInfo pkt kiPairwise then message3 P e pkt
  else groupMessage1 P e pkt

end Supplicant

end Anunix.Wifi
