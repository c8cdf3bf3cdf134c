import Anunix.Error

/-!
# TCP connections

The receive side of `kernel/drivers/net/tcp.c` (the client) and of its copy in
`kernel/drivers/net/tcp_server.c` (the server): what an incoming segment does to a connection in
each of its states, and the blocking receive call with the polls it makes while it waits.

A packet is the TCP part of an IP packet with its source address. The connection is the one that the
packet is looked up for; one that belongs to another connection leaves it alone.
-/

namespace Anunix.Tcp

/-! ## Segments -/

/-- C `ANX_TCP_FIN` and its neighbours. -/
def finFlag : UInt8 := 0x01
def synFlag : UInt8 := 0x02
def rstFlag : UInt8 := 0x04
def ackFlag : UInt8 := 0x10

/-- The size of `struct anx_tcp_hdr`. -/
def headerSize : Nat := 20

/-- C `TCP_RX_BUF_SIZE` and `TCP_SRV_RX_BUF_SIZE`. -/
def rxBufSize : Nat := 8192

structure Packet where
  srcIp : UInt32
  data : List UInt8
  deriving DecidableEq, Repr

structure Segment where
  srcPort : UInt16
  dstPort : UInt16
  seq : UInt32
  ack : UInt32
  flags : UInt8
  payload : List UInt8
  deriving DecidableEq, Repr

def Segment.has (seg : Segment) (flag : UInt8) : Bool :=
  seg.flags &&& flag ≠ 0

/-- C `anx_ntohs` of the two bytes at an offset. -/
def ntohs (data : List UInt8) (i : Nat) : UInt16 :=
  ((data.getD i 0).toUInt16 <<< 8) ||| (data.getD (i + 1) 0).toUInt16

/-- C `anx_ntohl` of the four bytes at an offset. -/
def ntohl (data : List UInt8) (i : Nat) : UInt32 :=
  ((data.getD i 0).toUInt32 <<< 24) ||| ((data.getD (i + 1) 0).toUInt32 <<< 16) |||
    ((data.getD (i + 2) 0).toUInt32 <<< 8) ||| (data.getD (i + 3) 0).toUInt32

/-- The header checks at the head of `anx_tcp_recv_segment` and `anx_tcp_srv_input`. The data offset
is only compared with the length of the packet, not with the size of the header. -/
def parse (data : List UInt8) : Option Segment :=
  if data.length < headerSize then none
  else
    let dataOff := (data.getD 12 0 >>> 4).toNat * 4
    if data.length < dataOff then none
    else some
      { srcPort := ntohs data 0
        dstPort := ntohs data 2
        seq := ntohl data 4
        ack := ntohl data 8
        flags := data.getD 13 0
        payload := data.drop dataOff }

/-! ## Connections -/

/-- C `enum anx_tcp_state`. -/
inductive State where
  | closed | synSent | established | finWait1 | finWait2 | timeWait | closeWait
  | lastAck | listen | synRcvd
  deriving DecidableEq, Repr

/-- C `struct anx_tcp_conn`. `rxBuf` says whether the pointer to the receive buffer is there, `rx`
is what its first `rx_len` bytes hold, and `ackSent` is the acknowledgement number of the last
segment sent. -/
structure Conn where
  state : State
  remoteIp : UInt32
  localPort : UInt16
  remotePort : UInt16
  sndNxt : UInt32
  sndUna : UInt32
  rcvNxt : UInt32
  rxBuf : Bool
  rx : List UInt8
  rxCap : Nat
  inUse : Bool
  ackSent : UInt32
  deriving DecidableEq, Repr

/-- C `tcp_find_conn` and `srv_find_conn`, for one connection: the segment if the packet is for
it. -/
def Conn.hears (c : Conn) (pkt : Packet) : Option Segment :=
  match parse pkt.data with
  | none => none
  | some seg =>
    if c.inUse = true ∧ c.remoteIp = pkt.srcIp ∧ c.remotePort = seg.srcPort ∧
        c.localPort = seg.dstPort then
      some seg
    else none

/-- A client connection that closes keeps its buffer. -/
def Conn.reset (c : Conn) : Conn :=
  { c with state := .closed, inUse := false }

/-- A server connection that closes frees its buffer, and `rx_len` stays. -/
def Conn.srvReset (c : Conn) : Conn :=
  { c with state := .closed, rxBuf := false, inUse := false }

/-- C `tcp_send_segment(conn, ANX_TCP_ACK, NULL, 0)`. -/
def Conn.sendAck (c : Conn) : Conn :=
  { c with ackSent := c.rcvNxt }

/-- The payload of a segment is copied as far as the buffer has room, and counted in full. -/
def Conn.takePayload (c : Conn) (payload : List UInt8) : Conn :=
  { c with
    rx := if c.rxBuf then c.rx ++ payload.take (c.rxCap - c.rx.length) else c.rx
    rcvNxt := c.rcvNxt + UInt32.ofNat payload.length }

def Conn.noteAck (c : Conn) (seg : Segment) : Conn :=
  if seg.has ackFlag then { c with sndUna := seg.ack } else c

/-- "Process incoming data". -/
def Conn.acceptData (c : Conn) (seg : Segment) : Conn :=
  if seg.payload ≠ [] ∧ seg.seq = c.rcvNxt then (c.takePayload seg.payload).sendAck else c

/-- "Handle FIN": whatever its sequence number. -/
def Conn.acceptFin (c : Conn) (seg : Segment) : Conn :=
  if seg.has finFlag then { c with rcvNxt := c.rcvNxt + 1, state := .closeWait }.sendAck else c

/-- The case `ANX_TCP_ESTABLISHED`, the same in both files but for what a reset does. -/
def Conn.inEstablished (reset : Conn → Conn) (c : Conn) (seg : Segment) : Conn :=
  if seg.has rstFlag then reset c
  else ((c.noteAck seg).acceptData seg).acceptFin seg

/-- The part of the case `ANX_TCP_FIN_WAIT_1` that both files have. -/
def Conn.inFinWait1 (c : Conn) (seg : Segment) : Conn :=
  if seg.has ackFlag then
    if seg.has finFlag then
      { c with sndUna := seg.ack, rcvNxt := seg.seq + 1, state := .timeWait }.sendAck
    else { c with sndUna := seg.ack, state := .finWait2 }
  else c

def Conn.inFinWait2 (c : Conn) (seg : Segment) : Conn :=
  if seg.has finFlag then { c with rcvNxt := seg.seq + 1, state := .timeWait }.sendAck else c

def Conn.inSynSent (c : Conn) (seg : Segment) : Conn :=
  if seg.has synFlag ∧ seg.has ackFlag then
    if seg.ack = c.sndNxt + 1 then
      { c with
        sndUna := seg.ack, sndNxt := seg.ack, rcvNxt := seg.seq + 1,
        state := .established }.sendAck
    else c
  else if seg.has rstFlag then c.reset
  else c

/-- C `anx_tcp_recv_segment`. -/
def recvSegment (c : Conn) (pkt : Packet) : Conn :=
  match c.hears pkt with
  | none => c
  | some seg =>
    match c.state with
    | .synSent => c.inSynSent seg
    | .established => c.inEstablished Conn.reset seg
    | .finWait1 =>
      -- the client takes data even during the close
      let c := c.inFinWait1 seg
      if seg.payload ≠ [] ∧ seg.seq = c.rcvNxt then c.takePayload seg.payload else c
    | .finWait2 => c.inFinWait2 seg
    | .lastAck => if seg.has ackFlag then c.reset else c
    | _ => c

/-- C `anx_tcp_srv_input`, for a connection that is there. -/
def srvInput (c : Conn) (pkt : Packet) : Conn :=
  match c.hears pkt with
  | none => c
  | some seg =>
    match c.state with
    | .synRcvd => if seg.has ackFlag then { c with sndUna := seg.ack, state := .established } else c
    | .established => c.inEstablished Conn.srvReset seg
    | .finWait1 => c.inFinWait1 seg
    | .finWait2 => c.inFinWait2 seg
    | .lastAck => if seg.has ackFlag then c.srvReset else c
    | _ => c

/-- The two copies of the receive side. -/
inductive Side where
  | client | server
  deriving DecidableEq, Repr

def Side.input : Side → Conn → Packet → Conn
  | .client => recvSegment
  | .server => srvInput

/-- C `anx_net_poll`, as one connection sees it: the packets that have come in. -/
def Side.poll (side : Side) (c : Conn) (pkts : List Packet) : Conn :=
  pkts.foldl side.input c

/-! ## The receive call -/

/-- What a receive call returns; `fault` is a copy from a buffer that is gone. -/
inductive Received where
  | data (bytes : List UInt8)
  | eof
  | error (e : Err)
  | fault
  deriving DecidableEq, Repr

/-- The copy to the caller, and the shift of what remains. -/
def Conn.copyOut (c : Conn) (len : Nat) : Conn × Received :=
  if c.rxBuf then ({ c with rx := c.rx.drop len }, .data (c.rx.take len))
  else ({ c with rx := c.rx.drop len }, .fault)

/-- The loop of the receive call. `polls` is what each poll until the timeout finds. -/
def Side.await (side : Side) (len : Nat) : Conn → List (List Packet) → Conn × Received
  | c, polls =>
    if c.rx ≠ [] then c.copyOut len
    else if c.state = .closeWait ∨ c.state = .closed then (c, .eof)
    else match polls with
      | [] => (c, .error .etimedout)
      | pkts :: polls => side.await len (side.poll c pkts) polls

/-- C `anx_tcp_recv` and `anx_tcp_srv_recv`. -/
def Side.recv (side : Side) (c : Conn) (len : Nat) (polls : List (List Packet)) : Conn × Received :=
  if c.state ≠ .established ∧ c.state ≠ .closeWait ∧ c.rx = [] then (c, .error .eio)
  else side.await len c polls

end Anunix.Tcp
