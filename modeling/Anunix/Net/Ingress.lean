import Anunix.Error

/-!
# Frames on their way up

`anx_eth_recv`, `anx_ipv4_recv`, `anx_udp_recv` and the head of `anx_tcp_recv_segment`: where in a
frame the slices lie that they pass on. The IP total length is compared with the bytes that are
there and not with the header, so the length of the payload wraps below it, and a TCP data offset
may point into the TCP header (`ingress_escapes`). In every other frame, and only there, the slices
lie behind the headers and within the datagram (`ingress_confined`).
-/

namespace Anunix.Net
open List

/-- The memory from the first byte of a frame on, and the length of the frame. -/
structure Frame where
  mem : Nat → UInt8
  len : Nat

inductive Handler where
  | icmp | udp | tcp | bound | connection
  deriving DecidableEq

/-- A slice of a frame, and whom it is handed to. -/
structure Handed where
  dest : Handler
  pos : Nat
  len : Nat
  deriving DecidableEq

namespace Frame

def ntohs (f : Frame) (i : Nat) : Nat :=
  (f.mem i).toNat * 256 + (f.mem (i + 1)).toNat

/-- `(ip->ver_ihl & 0x0F) * 4`. -/
def ihl (f : Frame) (ip : Nat) : Nat :=
  (f.mem ip).toNat % 16 * 4

/-- `(tcp->data_off >> 4) * 4`. -/
def dataOff (f : Frame) (tcp : Nat) : Nat :=
  (f.mem (tcp + 12)).toNat / 16 * 4

/-- `anx_udp_recv`; `bound` says whether a handler is bound to the port. -/
def udpRecv (f : Frame) (bound : Bool) (data len : Nat) : List Handed :=
  let payloadLen := f.ntohs (data + 4)
  if len < 8 ∨ payloadLen < 8 ∨ payloadLen > len then []
  else if bound then [⟨.bound, data + 8, payloadLen - 8⟩]
  else []

/-- `anx_tcp_recv_segment` up to its switch; `conn` says whether there is a connection.
`anx_tcp_srv_input`, which is tried otherwise, makes the same checks. -/
def tcpRecvSegment (f : Frame) (conn : Bool) (data len : Nat) : List Handed :=
  if len < 20 ∨ f.dataOff data > len then []
  else if conn then [⟨.connection, data + f.dataOff data, len - f.dataOff data⟩]
  else []

/-- `anx_ipv4_recv`; the length of the payload is a 32-bit difference. -/
def ipv4Recv (f : Frame) (bound conn : Bool) (data len : Nat) : List Handed :=
  let ihl := f.ihl data
  let totalLen := f.ntohs (data + 2)
  if len < 20 ∨ (f.mem data).toNat / 16 ≠ 4 ∨ ihl < 20 ∨ len < ihl ∨ totalLen > len then []
  else
    let payload := data + ihl
    let payloadLen := (totalLen + 2 ^ 32 - ihl) % 2 ^ 32
    match f.mem (data + 9) with
    | 1 => [⟨.icmp, payload, payloadLen⟩]
    | 17 => ⟨.udp, payload, payloadLen⟩ :: f.udpRecv bound payload payloadLen
    | 6 => ⟨.tcp, payload, payloadLen⟩ :: f.tcpRecvSegment conn payload payloadLen
    | _ => []

/-- `anx_eth_recv`, ARP apart. -/
def ethRecv (f : Frame) (bound conn : Bool) : List Handed :=
  if f.len < 14 ∨ f.ntohs 12 ≠ 0x0800 then [] else f.ipv4Recv bound conn 14 (f.len - 14)

def headerEnd (f : Frame) : Handler → Nat
  | .icmp | .udp | .tcp => 14 + max 20 (f.ihl 14)
  | .bound => 14 + max 20 (f.ihl 14) + 8
  | .connection => 14 + max 20 (f.ihl 14) + max 20 (f.dataOff (14 + f.ihl 14))

/-- Behind the headers, inside the frame and within the datagram that the IP header announces. -/
def Confined (f : Frame) (x : Handed) : Prop :=
  f.headerEnd x.dest ≤ x.pos ∧ x.pos + x.len ≤ f.len ∧ x.pos + x.len ≤ 14 + f.ntohs 16

instance (f : Frame) (x : Handed) : Decidable (f.Confined x) :=
  inferInstanceAs (Decidable (_ ∧ _))

/-- A frame that `anx_eth_recv` and `anx_ipv4_recv` hand to one of the three protocols. -/
structure Delivered (f : Frame) : Prop where
  ethertype : f.ntohs 12 = 0x0800
  version : (f.mem 14).toNat / 16 = 4
  header : 20 ≤ f.ihl 14 ∧ 14 + f.ihl 14 ≤ f.len
  total : 14 + f.ntohs 16 ≤ f.len
  protocol : f.mem 23 = 1 ∨ f.mem 23 = 17 ∨ f.mem 23 = 6

/-- The total length covers the IP header and, in a segment of a connection that can hold a TCP
header, the data offset covers that. -/
structure Covers (f : Frame) (conn : Bool) : Prop where
  ip : f.ihl 14 ≤ f.ntohs 16
  tcp : conn = true → f.mem 23 = 6 → f.ihl 14 + 20 ≤ f.ntohs 16 → 20 ≤ f.dataOff (14 + f.ihl 14)

variable {f : Frame} {bound conn : Bool} {data len : Nat} {x : Handed}

lemma ntohs_lt (f : Frame) (i : Nat) : f.ntohs i < 2 ^ 16 := by
  have hhi := (f.mem i).toNat_lt
  have hlo := (f.mem (i + 1)).toNat_lt
  unfold ntohs
  omega

lemma udpRecv_within (h : x ∈ f.udpRecv bound data len) :
    x.dest = .bound ∧ x.pos = data + 8 ∧ x.pos + x.len ≤ data + len := by
  simp only [udpRecv] at h
  split_ifs at h with hlen hbound
  · cases h
  · obtain rfl := mem_singleton.mp h
    refine ⟨rfl, rfl, ?_⟩
    dsimp only
    omega
  · cases h

lemma tcpRecvSegment_within (h : x ∈ f.tcpRecvSegment conn data len) :
    conn = true ∧ 20 ≤ len ∧ x.dest = .connection ∧ x.pos = data + f.dataOff data ∧
    x.pos + x.len ≤ data + len := by
  simp only [tcpRecvSegment] at h
  split_ifs at h with hlen hconn
  · cases h
  · obtain rfl := mem_singleton.mp h
    refine ⟨hconn, by omega, rfl, rfl, ?_⟩
    dsimp only
    omega
  · cases h

/-- The slice that `anx_ipv4_recv` hands on: its length wraps where the total length is below the
header. -/
lemma confined_payload {d : Handler} (hd : f.headerEnd d = 14 + max 20 (f.ihl 14))
    (hheader : 20 ≤ f.ihl 14 ∧ 14 + f.ihl 14 ≤ f.len) (htotal : 14 + f.ntohs 16 ≤ f.len) :
    f.Confined ⟨d, 14 + f.ihl 14, (f.ntohs 16 + 2 ^ 32 - f.ihl 14) % 2 ^ 32⟩ ↔
    f.ihl 14 ≤ f.ntohs 16 := by
  have hlt := f.ntohs_lt 16
  have hihl : f.ihl 14 < 2 ^ 16 := by unfold ihl; omega
  simp only [Confined, hd]
  omega

/-- **Every slice handed on is confined**, exactly if the lengths of a delivered frame cover its
headers. -/
theorem ingress_confined (f : Frame) (bound conn : Bool) :
    (∀ x ∈ f.ethRecv bound conn, f.Confined x) ↔ (f.Delivered → f.Covers conn) := by
  have hlt := f.ntohs_lt 16
  have hdropped (h : ¬f.Delivered) : (∀ x ∈ [], f.Confined x) ↔ (f.Delivered → f.Covers conn) :=
    iff_of_true (fun _ hx => absurd hx not_mem_nil) fun hd => absurd hd h
  simp only [ethRecv, ipv4Recv, Nat.reduceAdd]
  split_ifs with heth hchecks
  · exact hdropped fun ⟨_, _, _, _, _⟩ => by omega
  · exact hdropped fun ⟨_, _, _, _, _⟩ => by omega
  have hheader : 20 ≤ f.ihl 14 ∧ 14 + f.ihl 14 ≤ f.len := by omega
  have htotal : 14 + f.ntohs 16 ≤ f.len := by omega
  have hdelivered (hp : f.mem 23 = 1 ∨ f.mem 23 = 17 ∨ f.mem 23 = 6) : f.Delivered :=
    ⟨by omega, by omega, hheader, htotal, hp⟩
  have hown (d : Handler) (hd : f.headerEnd d = 14 + max 20 (f.ihl 14)) :=
    confined_payload hd hheader htotal
  split
  · rename_i hp
    rw [forall_mem_singleton, hown _ rfl]
    exact ⟨fun hip _ => ⟨hip, fun _ htcp => absurd (hp.symm.trans htcp) (by decide)⟩,
      fun h => (h (hdelivered (.inl hp))).ip⟩
  · rename_i hp
    rw [forall_mem_cons, hown _ rfl]
    refine ⟨fun h _ => ⟨h.1, fun _ htcp => absurd (hp.symm.trans htcp) (by decide)⟩, fun h => ?_⟩
    have hip := (h (hdelivered (.inr (.inl hp)))).ip
    refine ⟨hip, fun x hx => ?_⟩
    obtain ⟨hdest, hpos, hend⟩ := udpRecv_within hx
    simp only [Confined, headerEnd, hdest]
    omega
  · rename_i hp
    rw [forall_mem_cons, hown _ rfl]
    constructor
    · rintro ⟨hip, hconn⟩ _
      refine ⟨hip, fun hc _ hroom => ?_⟩
      -- a smaller data offset lies inside the segment, so the slice of the connection starts in the
      -- header
      by_contra hoff
      have hx := hconn ⟨.connection, 14 + f.ihl 14 + f.dataOff (14 + f.ihl 14), _⟩ (by
        rw [tcpRecvSegment, if_neg (by omega), if_pos hc]
        exact mem_singleton_self _)
      simp only [Confined, headerEnd] at hx
      omega
    · intro h
      obtain ⟨hip, htcp⟩ := h (hdelivered (.inr (.inr hp)))
      refine ⟨hip, fun x hx => ?_⟩
      obtain ⟨hc, hroom, hdest, hpos, hend⟩ := tcpRecvSegment_within hx
      have hoff := htcp hc hp (by omega)
      simp only [Confined, headerEnd, hdest]
      omega
  · rename_i h1 h17 h6
    exact hdropped fun hd => hd.protocol.elim h1 fun h => h.elim h17 h6

def bare (totalLen protocol : UInt8) : Frame where
  mem i := ((replicate 12 0 ++ [8, 0, 0x45, 0, 0, totalLen, 0, 0, 0, 0, 0, protocol])[i]?).getD 0
  len := 54

/-- Two short packets are handed on with lengths that reach beyond the frame. -/
theorem ingress_escapes :
    ⟨.udp, 34, 2 ^ 32 - 20⟩ ∈ (bare 0 17).ethRecv true true ∧
    ¬ (bare 0 17).Confined ⟨.udp, 34, 2 ^ 32 - 20⟩ ∧
      ⟨.connection, 34, 20⟩ ∈ (bare 40 6).ethRecv true true ∧
      ¬ (bare 40 6).Confined ⟨.connection, 34, 20⟩ := by
  decide

end Frame

end Anunix.Net
