import Anunix.Lib.Run
import Anunix.Tcp.Tcp

/-!
# The stream a connection delivers

The peer sends a stream of bytes; the byte at position `p` of it has the sequence number `base + p`
modulo `2 ^ 32`, where `base` is the sequence number behind the peer's SYN. Segments carry pieces of
the stream, in any order and any number of times.

As long as every segment that is next in order fits into the receive buffer, a FIN comes only when
everything before it has come, and there is no reset, what receive calls have returned and the
buffer holds is the stream up to the acknowledged position (`tcp_stream_intact`). A segment that
does not fit, or a FIN that overtakes data, breaks it (`tcp_stream_not_intact`). Whatever comes,
bytes that were accepted stay (`accepted_bytes_kept`).
-/

namespace Anunix.Tcp
open List

/-! ## Runs -/

/-- A connection, the bytes its receive calls have returned so far, and whether one has reported
the end of the stream. -/
structure Reader where
  conn : Conn
  delivered : List UInt8
  ended : Bool
  deriving DecidableEq, Repr

inductive Input where
  | packet (pkt : Packet)
  | recv (len : Nat) (polls : List (List Packet))
  deriving DecidableEq, Repr

def Reader.note (delivered : List UInt8) (ended : Bool) : Conn × Received → Reader
  | (c, .data bytes) => ⟨c, delivered ++ bytes, ended⟩
  | (c, .eof) => ⟨c, delivered, true⟩
  | (c, _) => ⟨c, delivered, ended⟩

def Side.step (side : Side) (w : Reader) : Input → Reader
  | .packet pkt => { w with conn := side.input w.conn pkt }
  | .recv len polls => Reader.note w.delivered w.ended (side.recv w.conn len polls)

def Side.readerAt (side : Side) (c : Conn) (inputs : List Input) (n : Nat) : Reader :=
  Run.after side.step ⟨c, [], false⟩ inputs n

/-- A connection just established: nothing received, and the peer's first byte is next. -/
structure Conn.Fresh (base : UInt32) (c : Conn) : Prop where
  state : c.state = .established
  buf : c.rxBuf = true
  cap : c.rxCap = rxBufSize
  empty : c.rx = []
  next : c.rcvNxt = base
  acked : c.ackSent = base

/-! ## The peer -/

/-- A segment of the peer's stream, starting at a position of it. The FIN stands behind the last
byte. -/
@[mk_iff]
structure Segment.InStream (stream : List UInt8) (base : UInt32) (pos : Nat) (seg : Segment) :
    Prop where
  seq : seg.seq = base + UInt32.ofNat pos
  within : pos + seg.payload.length ≤ stream.length
  payload : seg.payload = (stream.drop pos).take seg.payload.length
  fin : seg.has finFlag = true → pos + seg.payload.length = stream.length

/-- A segment that meets the connection when it can: in order it fits, and a FIN comes in order. A
segment that looks in order is in order, and not one that is `2 ^ 32` bytes late. -/
structure Conn.Timely (stream : List UInt8) (base : UInt32) (taken : Nat) (c : Conn)
    (seg : Segment) : Prop where
  noReset : seg.has rstFlag = false
  placed : ∃ pos, seg.InStream stream base pos ∧
    (seg.payload ≠ [] → seg.seq = c.rcvNxt →
      pos = taken ∧ seg.payload.length ≤ c.rxCap - c.rx.length) ∧
    (seg.has finFlag = true → pos = taken)

/-- What is asked of a packet: nothing, unless an established connection hears it. -/
def Conn.Clear (stream : List UInt8) (base : UInt32) (delivered : List UInt8) (c : Conn)
    (pkt : Packet) : Prop :=
  ∀ seg, c.hears pkt = some seg → c.state = .established →
    c.Timely stream base (delivered.length + c.rx.length) seg

section Conditions

variable (side : Side) (P : Conn → Packet → Prop)

/-- Every packet of a poll meets a condition when the connection takes it. -/
def Side.Polled : Conn → List Packet → Prop
  | _, [] => True
  | c, pkt :: pkts => P c pkt ∧ Side.Polled (side.input c pkt) pkts

/-- Every packet that comes while a receive call waits meets a condition. -/
def Side.Awaited : Conn → List (List Packet) → Prop
  | _, [] => True
  | c, pkts :: polls => c.rx = [] → side.Polled P c pkts ∧ Side.Awaited (side.poll c pkts) polls

end Conditions

def Side.ClearInput (side : Side) (stream : List UInt8) (base : UInt32) (w : Reader) : Input → Prop
  | .packet pkt => w.conn.Clear stream base w.delivered pkt
  | .recv _ polls => side.Awaited (Conn.Clear stream base w.delivered) w.conn polls

instance (stream : List UInt8) (base : UInt32) (pos : Nat) (seg : Segment) :
    Decidable (seg.InStream stream base pos) :=
  decidable_of_iff' _ (Segment.inStream_iff ..)

-- a position in the stream is at most its length, so the search for one is bounded
instance (stream : List UInt8) (base : UInt32) (taken : Nat) (c : Conn) (seg : Segment) :
    Decidable (c.Timely stream base taken seg) :=
  decidable_of_iff
    (seg.has rstFlag = false ∧ ∃ pos < stream.length + 1, seg.InStream stream base pos ∧
      (seg.payload ≠ [] → seg.seq = c.rcvNxt →
        pos = taken ∧ seg.payload.length ≤ c.rxCap - c.rx.length) ∧
      (seg.has finFlag = true → pos = taken))
    ⟨fun h => ⟨h.1, h.2.elim fun pos hpos => ⟨pos, hpos.2⟩⟩,
      fun h => ⟨h.noReset, h.placed.elim fun pos hpos =>
        ⟨pos, by have := hpos.1.within; omega, hpos⟩⟩⟩

instance (stream : List UInt8) (base : UInt32) (delivered : List UInt8) (c : Conn) (pkt : Packet) :
    Decidable (c.Clear stream base delivered pkt) :=
  decidable_of_iff
    (∀ seg ∈ (c.hears pkt).toList, c.state = .established →
      c.Timely stream base (delivered.length + c.rx.length) seg)
    ⟨fun h seg hseg => h seg (by simp [hseg]), fun h seg hseg => h seg (by simpa using hseg)⟩

instance Side.decidablePolled (side : Side) (P : Conn → Packet → Prop)
    [∀ c pkt, Decidable (P c pkt)] :
    (c : Conn) → (pkts : List Packet) → Decidable (side.Polled P c pkts)
  | _, [] => isTrue trivial
  | c, pkt :: pkts =>
    have := Side.decidablePolled side P (side.input c pkt) pkts
    inferInstanceAs (Decidable (P c pkt ∧ side.Polled P (side.input c pkt) pkts))

instance Side.decidableAwaited (side : Side) (P : Conn → Packet → Prop)
    [∀ c pkt, Decidable (P c pkt)] :
    (c : Conn) → (polls : List (List Packet)) → Decidable (side.Awaited P c polls)
  | _, [] => isTrue trivial
  | c, pkts :: polls =>
    have := Side.decidableAwaited side P (side.poll c pkts) polls
    inferInstanceAs
      (Decidable (c.rx = [] → side.Polled P c pkts ∧ side.Awaited P (side.poll c pkts) polls))

instance (side : Side) (stream : List UInt8) (base : UInt32) (w : Reader) (i : Input) :
    Decidable (side.ClearInput stream base w i) :=
  match i with
  | .packet pkt => inferInstanceAs (Decidable (w.conn.Clear stream base w.delivered pkt))
  | .recv _ polls =>
    inferInstanceAs (Decidable (side.Awaited (Conn.Clear stream base w.delivered) w.conn polls))

/-- The bytes returned and the bytes in the buffer are the stream up to the acknowledged position
(one more once the FIN is acknowledged), and its end has been reported only if all of it has been
returned. -/
def Reader.Intact (stream : List UInt8) (base : UInt32) (w : Reader) : Prop :=
  (∃ acked ≤ stream.length, w.delivered ++ w.conn.rx = stream.take acked ∧
    (w.conn.ackSent = base + UInt32.ofNat acked ∨
      acked = stream.length ∧ w.conn.ackSent = base + UInt32.ofNat acked + 1)) ∧
  (w.ended = true → w.delivered = stream)

/-! ## One segment -/

/-- What a connection keeps while it takes the stream: open, with a part of the stream acknowledged,
or closed by the peer, with all of it. -/
structure Conn.Streams (stream : List UInt8) (base : UInt32) (delivered : List UInt8) (c : Conn) :
    Prop where
  buf : c.rxBuf = true
  acked : c.ackSent = c.rcvNxt
  bytes : delivered ++ c.rx <+: stream
  position :
    c.state = .established ∧ c.rcvNxt = base + UInt32.ofNat (delivered.length + c.rx.length) ∨
    c.state = .closeWait ∧ delivered ++ c.rx = stream ∧
      c.rcvNxt = base + UInt32.ofNat stream.length + 1

variable {stream delivered : List UInt8} {base : UInt32} {c : Conn}

section Segments

variable {seg : Segment} {pos : Nat}

lemma Segment.InStream.append {l : List UInt8} (h : seg.InStream stream base l.length)
    (hl : l <+: stream) : l ++ seg.payload <+: stream := by
  obtain ⟨rest, hrest⟩ := hl
  have hdrop : stream.drop l.length = rest := by
    rw [← hrest, drop_left]
  have hpayload := h.payload
  rw [hdrop] at hpayload
  have hprefix : seg.payload <+: rest := by
    rw [hpayload]
    exact take_prefix _ _
  rw [← hrest]
  exact (prefix_append_right_inj l).mpr hprefix

lemma Conn.Streams.noteAck (h : c.Streams stream base delivered) :
    (c.noteAck seg).Streams stream base delivered := by
  unfold Conn.noteAck
  split
  · exact ⟨h.buf, h.acked, h.bytes, h.position⟩
  · exact h

lemma Conn.Timely.noteAck {taken : Nat} (h : c.Timely stream base taken seg) :
    (c.noteAck seg).Timely stream base taken seg := by
  unfold Conn.noteAck
  split
  · exact ⟨h.noReset, h.placed⟩
  · exact h

@[simp] lemma Conn.noteAck_state : (c.noteAck seg).state = c.state := by
  unfold Conn.noteAck
  split <;> rfl

@[simp] lemma Conn.noteAck_rx : (c.noteAck seg).rx = c.rx := by
  unfold Conn.noteAck
  split <;> rfl

section

variable (h : c.Streams stream base delivered)
include h

/-- Data in order is taken whole, and a segment with a FIN leaves nothing of the stream to come. -/
lemma Conn.Streams.acceptData (hstate : c.state = .established)
    (ht : c.Timely stream base (delivered.length + c.rx.length) seg) :
    (c.acceptData seg).Streams stream base delivered ∧ (c.acceptData seg).state = .established ∧
      (seg.has finFlag = true → delivered ++ (c.acceptData seg).rx = stream) := by
  obtain ⟨pos, hin, horder, hfin⟩ := ht.placed
  have hnext : c.rcvNxt = base + UInt32.ofNat (delivered.length + c.rx.length) := by
    cases h.position with
    | inl hopen => exact hopen.2
    | inr hover =>
      rw [hstate] at hover
      cases hover.1
  unfold Conn.acceptData
  split
  case isTrue hdata =>
    obtain ⟨rfl, hfits⟩ := horder hdata.1 hdata.2
    have hlen : (delivered ++ c.rx).length = delivered.length + c.rx.length := length_append
    have hrx : (c.takePayload seg.payload).sendAck.rx = c.rx ++ seg.payload := by
      simp only [Conn.takePayload, Conn.sendAck, h.buf, if_true]
      rw [take_of_length_le hfits]
    have hlonger : delivered ++ (c.rx ++ seg.payload) <+: stream := by
      rw [← append_assoc]
      rw [← hlen] at hin
      exact hin.append h.bytes
    refine ⟨⟨h.buf, rfl, by rw [hrx]; exact hlonger, Or.inl ⟨hstate, ?_⟩⟩, hstate, fun hf => ?_⟩
    · rw [hrx]
      change c.rcvNxt + UInt32.ofNat seg.payload.length = _
      rw [hnext, UInt32.add_assoc, ← UInt32.ofNat_add, length_append, Nat.add_assoc]
    · rw [hrx]
      apply hlonger.eq_of_length
      have hend := hin.fin hf
      rw [length_append, length_append]
      omega
  case isFalse hdata =>
    refine ⟨h, hstate, fun hf => ?_⟩
    have hpos := hfin hf
    have hseq : seg.seq = c.rcvNxt := by
      rw [hin.seq, hpos, hnext]
    have hempty : seg.payload = [] := by
      by_contra hne
      exact hdata ⟨hne, hseq⟩
    have hend := hin.fin hf
    rw [hempty] at hend
    apply h.bytes.eq_of_length
    simpa [hpos] using hend

lemma Conn.Streams.acceptFin
    (hend : seg.has finFlag = true → delivered ++ c.rx = stream) (hstate : c.state = .established) :
    (c.acceptFin seg).Streams stream base delivered := by
  unfold Conn.acceptFin
  split
  case isTrue hf =>
    have hall := hend hf
    refine ⟨h.buf, rfl, h.bytes, Or.inr ⟨rfl, hall, ?_⟩⟩
    cases h.position with
    | inl hopen =>
      change c.rcvNxt + 1 = _
      rw [hopen.2, ← length_append, hall]
    | inr hover =>
      rw [hstate] at hover
      cases hover.1
  case isFalse => exact h

lemma Conn.Streams.inEstablished {reset : Conn → Conn} (hstate : c.state = .established)
    (ht : c.Timely stream base (delivered.length + c.rx.length) seg) :
    (c.inEstablished reset seg).Streams stream base delivered := by
  have hnote :
      (c.noteAck seg).Timely stream base (delivered.length + (c.noteAck seg).rx.length) seg := by
    rw [Conn.noteAck_rx]
    exact ht.noteAck
  obtain ⟨hdata, hopen, hend⟩ := h.noteAck.acceptData (Conn.noteAck_state.trans hstate) hnote
  unfold Conn.inEstablished
  rw [if_neg (by simp [ht.noReset])]
  exact hdata.acceptFin hend hopen

end

end Segments

/-! ## Polls and receive calls -/

section Calls

variable {side : Side} {ended : Bool} {len : Nat} {w : Reader}

lemma Conn.Streams.input {pkt : Packet} (h : c.Streams stream base delivered)
    (hclear : c.Clear stream base delivered pkt) :
    (side.input c pkt).Streams stream base delivered := by
  cases hseg : c.hears pkt with
  | none =>
    cases side with
    | client => simpa only [Side.input, recvSegment, hseg] using h
    | server => simpa only [Side.input, srvInput, hseg] using h
  | some seg =>
    cases h.position with
    | inl hopen =>
      have ht := hclear seg hseg hopen.1
      cases side with
      | client =>
        simp only [Side.input, recvSegment, hseg, hopen.1]
        exact h.inEstablished hopen.1 ht
      | server =>
        simp only [Side.input, srvInput, hseg, hopen.1]
        exact h.inEstablished hopen.1 ht
    | inr hover =>
      -- a connection that the peer has closed ignores every segment
      cases side with
      | client => simpa only [Side.input, recvSegment, hseg, hover.1] using h
      | server => simpa only [Side.input, srvInput, hseg, hover.1] using h

lemma Conn.Streams.poll {pkts : List Packet} (h : c.Streams stream base delivered)
    (hclear : side.Polled (Conn.Clear stream base delivered) c pkts) :
    (side.poll c pkts).Streams stream base delivered := by
  induction pkts generalizing c with
  | nil => exact h
  | cons pkt pkts ih => exact ih (h.input hclear.1) hclear.2

/-- A reader on the stream: its connection takes the stream, and the end has been reported only
behind the last byte. -/
structure Reader.OnStream (stream : List UInt8) (base : UInt32) (w : Reader) : Prop where
  streams : w.conn.Streams stream base w.delivered
  ended : w.ended = true → w.delivered = stream

section

variable (h : c.Streams stream base delivered)
include h

lemma Conn.Streams.state_ne_closed : c.state ≠ .closed := by
  intro hclosed
  cases h.position with
  | inl hopen =>
    rw [hclosed] at hopen
    cases hopen.1
  | inr hover =>
    rw [hclosed] at hover
    cases hover.1

lemma Conn.Streams.all_delivered (hempty : c.rx = [])
    (hover : c.state = .closeWait) : delivered = stream := by
  cases h.position with
  | inl hopen =>
    rw [hover] at hopen
    cases hopen.1
  | inr hall =>
    have hbytes := hall.2.1
    rw [hempty, append_nil] at hbytes
    exact hbytes

lemma Conn.Streams.copyOut (hended : ended = true → delivered = stream) :
    (Reader.note delivered ended (c.copyOut len)).OnStream stream base := by
  have hsplit : (delivered ++ c.rx.take len) ++ c.rx.drop len = delivered ++ c.rx := by
    rw [append_assoc, take_append_drop]
  have hlen : (delivered ++ c.rx.take len).length + (c.rx.drop len).length =
      delivered.length + c.rx.length := by
    rw [← length_append, hsplit, length_append]
  simp only [Conn.copyOut, h.buf, if_true, Reader.note]
  refine ⟨⟨rfl, h.acked, by rw [hsplit]; exact h.bytes, ?_⟩, fun he => ?_⟩
  · cases h.position with
    | inl hopen =>
      refine Or.inl ⟨hopen.1, ?_⟩
      rw [hlen]
      exact hopen.2
    | inr hover =>
      refine Or.inr ⟨hover.1, ?_, hover.2.2⟩
      rw [hsplit]
      exact hover.2.1
  · -- nothing is left to copy once the end has been reported
    have hall := hended he
    have hrx : c.rx = [] := by
      have hbytes := h.bytes.length_le
      rw [length_append, hall] at hbytes
      apply eq_nil_of_length_eq_zero
      omega
    rw [hrx, take_nil, append_nil]
    exact hall

lemma Conn.Streams.await {polls : List (List Packet)} (hended : ended = true → delivered = stream)
    (hclear : side.Awaited (Conn.Clear stream base delivered) c polls) :
    (Reader.note delivered ended (side.await len c polls)).OnStream stream base := by
  fun_induction side.await len c polls with
  | case1 c polls hrx => exact h.copyOut hended
  | case2 c polls hrx hover =>
    have hclosed := hover.resolve_right h.state_ne_closed
    exact ⟨h, fun _ => h.all_delivered (not_not.mp hrx) hclosed⟩
  | case3 c hrx hover => exact ⟨h, hended⟩
  | case4 c hrx hover pkts polls ih =>
    obtain ⟨hpolled, hrest⟩ := hclear (not_not.mp hrx)
    exact ih (h.poll hpolled) hrest

end

lemma Reader.OnStream.step {i : Input} (h : w.OnStream stream base)
    (hclear : side.ClearInput stream base w i) : (side.step w i).OnStream stream base := by
  cases i with
  | packet pkt => exact ⟨h.streams.input hclear, h.ended⟩
  | recv len polls =>
    simp only [Side.step, Side.recv]
    split
    · exact ⟨h.streams, h.ended⟩
    · exact h.streams.await h.ended hclear

lemma Reader.OnStream.intact (h : w.OnStream stream base) : w.Intact stream base := by
  have hs := h.streams
  have hle := hs.bytes.length_le
  rw [length_append] at hle
  refine ⟨⟨w.delivered.length + w.conn.rx.length, hle, ?_, ?_⟩, h.ended⟩
  · rw [← length_append]
    exact prefix_iff_eq_take.mp hs.bytes
  · cases hs.position with
    | inl hopen =>
      left
      rw [hs.acked]
      exact hopen.2
    | inr hover =>
      have hlen : w.delivered.length + w.conn.rx.length = stream.length := by
        rw [← length_append, hover.2.1]
      right
      refine ⟨hlen, ?_⟩
      rw [hs.acked, hover.2.2, hlen]

end Calls

/-! ## Runs of a connection -/

lemma Conn.Fresh.onStream (h : c.Fresh base) : Reader.OnStream stream base ⟨c, [], false⟩ := by
  refine ⟨⟨h.buf, ?_, ?_, .inl ⟨h.state, ?_⟩⟩, Bool.noConfusion⟩
  · rw [h.acked, h.next]
  · rw [h.empty]
    exact nil_prefix
  · rw [h.empty, h.next]
    simp

/-- **TCP receive stream integrity.** -/
theorem tcp_stream_intact (side : Side) (stream : List UInt8) (base : UInt32) (c : Conn)
    (inputs : List Input) (hfresh : c.Fresh base)
    (hclear : ∀ n i, inputs[n]? = some i → side.ClearInput stream base (side.readerAt c inputs n) i)
    (n : Nat) : (side.readerAt c inputs n).Intact stream base := by
  apply Reader.OnStream.intact
  exact Run.after_kept _ hfresh.onStream (fun n i hi ih => ih.step (hclear n i hi)) n

/-! ## Packets on the wire -/

def wire (seq : UInt32) (flags : UInt8) (payload : List UInt8) : Packet where
  srcIp := 0x0a000001
  data := ([0x1f, 0x90, 0xc0, 0x00] : List UInt8) ++
    [(seq >>> 24).toUInt8, (seq >>> 16).toUInt8, (seq >>> 8).toUInt8, seq.toUInt8] ++
    [0, 0, 0, 0, 0x50, flags, 0x20, 0, 0, 0, 0, 0] ++ payload

def freshConn (base : UInt32) : Conn where
  state := .established
  remoteIp := 0x0a000001
  localPort := 49152
  remotePort := 8080
  sndNxt := 1
  sndUna := 1
  rcvNxt := base
  rxBuf := true
  rx := []
  rxCap := rxBufSize
  inUse := true
  ackSent := base

lemma freshConn_fresh (base : UInt32) : (freshConn base).Fresh base :=
  ⟨rfl, rfl, rfl, rfl, rfl, rfl⟩

def helloInputs : List Input :=
  [.packet (wire 0xfffffffe 0x10 [104, 101, 108]), .recv 2 [],
    .packet (wire 0xfffffffe 0x10 [104, 101, 108]), .recv 16 [],
    .recv 16 [[], [wire 1 0x11 [108, 111]]], .recv 16 []]

/-- A stream across the wrap of the sequence numbers is read to its end. -/
theorem tcp_stream_intact_hello :
    (Side.server.readerAt (freshConn 0xfffffffe) helloInputs 6).ended = true ∧
      (Side.server.readerAt (freshConn 0xfffffffe) helloInputs 6).Intact [104, 101, 108, 108,
        111] 0xfffffffe := by
  refine ⟨by decide +kernel, tcp_stream_intact .server _ _ _ _ (freshConn_fresh _) ?_ 6⟩
  have hall :
    ∀ n : Fin helloInputs.length, Side.server.ClearInput [104, 101, 108, 108, 111] 0xfffffffe
      (Side.server.readerAt (freshConn 0xfffffffe) helloInputs n) (helloInputs.get n) := by
    decide +kernel
  intro n i hi
  obtain ⟨hlt, rfl⟩ := List.getElem?_eq_some_iff.mp hi
  exact hall ⟨n, hlt⟩

def dataAt1000 (payload : List UInt8) : Segment :=
  ⟨8080, 49152, 1000, 0, 0x10, payload⟩

lemma hears_wire (payload : List UInt8) :
    (freshConn 1000).hears (wire 1000 0x10 payload) = some (dataAt1000 payload) := by
  have hparse : parse (wire 1000 0x10 payload).data = some (dataAt1000 payload) := by
    simp [parse, wire, headerSize, ntohs, ntohl, dataAt1000]
    decide
  rw [Conn.hears, hparse]
  rfl

lemma inStream_all (payload : List UInt8) : (dataAt1000 payload).InStream payload 1000 0 := by
  refine ⟨rfl, Nat.le_of_eq (Nat.zero_add _), ?_, fun _ => Nat.zero_add _⟩
  change payload = (payload.drop 0).take payload.length
  rw [drop_zero, take_length]

def longStream : List UInt8 :=
  replicate 8193 7

/-- A segment longer than the buffer breaks the stream, and so does a FIN that overtakes its data.
-/
theorem tcp_stream_not_intact : (∀ side : Side,
      (∃ seg, (freshConn 1000).hears (wire 1000 0x10 longStream) = some seg ∧
        seg.InStream longStream 1000 0) ∧
      ¬ (side.readerAt (freshConn 1000) [.packet (wire 1000 0x10 longStream)] 1).Intact
      longStream 1000) ∧
    (∀ side : Side,
      (∃ seg, (freshConn 1000).hears (wire 1003 0x11 []) = some seg ∧
        seg.InStream [1, 2, 3] 1000 3) ∧
      ¬ (side.readerAt (freshConn 1000) [.packet (wire 1003 0x11 []), .recv 16 []] 2).Intact
      [1, 2, 3] 1000) := by
  refine ⟨fun side => ⟨⟨_, hears_wire longStream, inStream_all longStream⟩, ?_⟩,
    fun side => ⟨⟨⟨8080, 49152, 1003, 0, 0x11, []⟩, by decide +kernel, by decide +kernel⟩, ?_⟩⟩
  · rintro ⟨⟨acked, hle, hbytes, hacked⟩, -⟩
    have hlen :
      ((side.readerAt (freshConn 1000) [.packet (wire 1000 0x10 longStream)] 1).delivered ++
        (side.readerAt (freshConn 1000) [.packet (wire 1000 0x10 longStream)] 1).conn.rx).length =
        8192 := by
      cases side <;> decide +kernel
    have hsent :
        (side.readerAt (freshConn 1000) [.packet (wire 1000 0x10 longStream)] 1).conn.ackSent =
        9193 := by
      cases side <;> decide +kernel
    have hstream : longStream.length = 8193 := length_replicate
    rw [hbytes, length_take, Nat.min_eq_left hle] at hlen
    rw [hsent, hlen] at hacked
    cases hacked with
    | inl hdata => exact absurd hdata (by decide)
    | inr hfin =>
      rw [hstream] at hfin
      exact absurd hfin.1 (by decide)
  · rintro ⟨-, hended⟩
    cases side <;> exact absurd (hended (by decide +kernel)) (by decide +kernel)

/-! ## Arbitrary packets -/

/-- What a packet does to the receive buffer: nothing, a payload is taken, or a server connection
frees it. -/
inductive Conn.Takes (side : Side) (c c' : Conn) : Prop where
  | same (buf : c'.rxBuf = c.rxBuf) (cap : c'.rxCap = c.rxCap) (rx : c'.rx = c.rx)
  | payload (p : List UInt8) (buf : c'.rxBuf = c.rxBuf) (cap : c'.rxCap = c.rxCap)
      (rx : c'.rx = (c.takePayload p).rx)
  | lost (srv : side = .server) (buf : c'.rxBuf = false) (cap : c'.rxCap = c.rxCap)
      (rx : c'.rx = c.rx)

/-- What was received is still there, in front of what came since, unless the buffer is gone. -/
structure Reader.Extends (side : Side) (w w' : Reader) : Prop where
  buf : w'.conn.rxBuf = w.conn.rxBuf ∨ side = .server ∧ w'.conn.rxBuf = false
  cap : w'.conn.rxCap = w.conn.rxCap
  bound : w.conn.rx.length ≤ w.conn.rxCap → w'.conn.rx.length ≤ w'.conn.rxCap
  kept : w'.conn.rxBuf = true → w.delivered ++ w.conn.rx <+: w'.delivered ++ w'.conn.rx

section Arbitrary

variable {side : Side} {c c' : Conn} {delivered : List UInt8} {ended : Bool}

instance : IsPreorder Reader (Reader.Extends side) where
  refl _ := ⟨.inl rfl, rfl, id, fun _ => prefix_rfl⟩
  trans w w' w'' h h' := by
    refine ⟨?_, h'.cap.trans h.cap, h'.bound ∘ h.bound, fun ht => ?_⟩
    · rcases h'.buf with he | hl
      · exact he ▸ h.buf
      · exact .inr hl
    · rcases h'.buf with he | ⟨-, hf⟩
      · exact (h.kept (he.symm.trans ht)).trans (h'.kept ht)
      · exact absurd (hf.symm.trans ht) Bool.false_ne_true

lemma Side.takes_input (c : Conn) (pkt : Packet) : c.Takes side (side.input c pkt) := by
  cases side with
  | client =>
    unfold Side.input recvSegment Conn.inSynSent Conn.inEstablished Conn.acceptFin Conn.acceptData
      Conn.noteAck Conn.inFinWait1 Conn.inFinWait2
    dsimp only
    split
    · exact .same rfl rfl rfl
    · split <;> (try split_ifs) <;> first | exact .same rfl rfl rfl | exact .payload _ rfl rfl rfl
  | server =>
    unfold Side.input srvInput Conn.inEstablished Conn.acceptFin Conn.acceptData Conn.noteAck
      Conn.inFinWait1 Conn.inFinWait2
    dsimp only
    split
    · exact .same rfl rfl rfl
    · split <;> (try split_ifs) <;>
        first | exact .same rfl rfl rfl | exact .lost rfl rfl rfl rfl | exact .payload _ rfl rfl rfl

lemma Conn.Takes.extends (h : c.Takes side c') :
    Reader.Extends side ⟨c, delivered, ended⟩ ⟨c', delivered, ended⟩ := by
  cases h with
  | same buf cap rx => exact ⟨.inl buf, cap, fun hb => rx ▸ cap ▸ hb, fun _ => rx ▸ prefix_rfl⟩
  | lost srv buf cap rx =>
    exact ⟨.inr ⟨srv, buf⟩, cap, fun hb => rx ▸ cap ▸ hb, fun _ => rx ▸ prefix_rfl⟩
  | payload p buf cap rx =>
    refine ⟨.inl buf, cap, fun hb => ?_, fun ht => ?_⟩
    · show c'.rx.length ≤ c'.rxCap
      rw [rx, cap, takePayload]
      dsimp only at hb ⊢
      split
      · rw [length_append, length_take]
        omega
      · exact hb
    · show delivered ++ c.rx <+: delivered ++ c'.rx
      rw [rx, takePayload, if_pos (buf ▸ ht), ← append_assoc]
      exact prefix_append ..

lemma Side.extends_poll (c : Conn) (pkts : List Packet) :
    Reader.Extends side ⟨c, delivered, ended⟩ ⟨side.poll c pkts, delivered, ended⟩ := by
  induction pkts generalizing c with
  | nil => exact refl_of (Reader.Extends side) _
  | cons pkt pkts ih => exact trans_of (Reader.Extends side) (side.takes_input c pkt).extends (ih _)

lemma Side.extends_await (len : Nat) (c : Conn) (polls : List (List Packet)) :
    Reader.Extends side ⟨c, delivered, ended⟩
    (Reader.note delivered ended (side.await len c polls)) := by
  fun_induction Side.await side len c polls with
  | case1 c polls hrx =>
    have hbound (h : c.rx.length ≤ c.rxCap) : (c.rx.drop len).length ≤ c.rxCap :=
      Nat.le_trans (length_drop ▸ Nat.sub_le ..) h
    unfold Conn.copyOut
    split
    · refine ⟨.inl rfl, rfl, hbound, fun _ => ?_⟩
      show delivered ++ c.rx <+: delivered ++ c.rx.take len ++ c.rx.drop len
      rw [append_assoc, take_append_drop]
    · rename_i hgone
      exact ⟨.inl rfl, rfl, hbound, fun ht => absurd ht hgone⟩
  | case2 c polls hrx hover => exact ⟨.inl rfl, rfl, id, fun _ => prefix_rfl⟩
  | case3 c hrx hopen => exact refl_of (Reader.Extends side) _
  | case4 c hrx hopen pkts polls ih =>
    exact trans_of (Reader.Extends side) (side.extends_poll c pkts) ih

lemma Side.extends_step (w : Reader) (i : Input) : Reader.Extends side w (side.step w i) := by
  cases i with
  | packet pkt => exact (side.takes_input w.conn pkt).extends
  | recv len polls =>
    unfold Side.step Side.recv
    dsimp only
    split
    · exact refl_of (Reader.Extends side) w
    · exact side.extends_await len w.conn polls

end Arbitrary

/-- **Accepted bytes are delivered once and in order**, whatever packets come in: the receive buffer
never overflows, a client never loses it, and while it is there what was received only grows at
its end. -/
theorem accepted_bytes_kept (side : Side) (c : Conn) (inputs : List Input) {m n : Nat}
    (hm : m ≤ n) : let w := side.readerAt c inputs m
    let w' := side.readerAt c inputs n
    (w.conn.rx.length ≤ w.conn.rxCap → w'.conn.rx.length ≤ w'.conn.rxCap) ∧
    w'.conn.rxCap = w.conn.rxCap ∧
      (side = .client → w'.conn.rxBuf = w.conn.rxBuf) ∧
      (w'.conn.rxBuf = true → w.delivered ++ w.conn.rx <+: w'.delivered ++ w'.conn.rx) := by
  intro w w'
  have h : Reader.Extends side w w' := Run.after_within side.step side.extends_step hm
  refine ⟨h.bound, h.cap, fun hs => h.buf.resolve_right ?_, h.kept⟩
  rintro ⟨hsrv, -⟩
  cases hs.symm.trans hsrv

/-- A reset behind two bytes, which the client keeps. -/
theorem accepted_bytes_kept_reset :
    let run := Side.client.readerAt (freshConn 1000) [.packet (wire 1000 0x10 [1, 2]),
      .packet (wire 1002 0x04 [3])]
    (run 1).conn.rx = [1, 2] ∧ (run 2).conn.state = .closed ∧
      (run 1).delivered ++ (run 1).conn.rx <+: (run 2).delivered ++ (run 2).conn.rx := by
  refine ⟨by decide, by decide, ?_⟩
  exact (accepted_bytes_kept .client (freshConn 1000) _ (Nat.le_succ 1)).2.2.2 (by decide)

end Anunix.Tcp
