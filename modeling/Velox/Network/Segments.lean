import Velox.Arbiter.Sendto
import Velox.Ip.RoundTrip
import Velox.Tcp.Acknowledge
import Velox.Tcp.Handshake
import Velox.Tcp.Sequence

/-!
# Segments on the wire

A segment as the standards read it from the bytes of a packet, apart from the
accessors of the source.  What a session transmits is read back by a standard
receiver as the segment that is meant, and a session takes from the packet of
a standard sender what the segment says.
-/

namespace Velox

open Foundation

/-- The flags, the numbers in host order and the payload of a segment. -/
structure Seg where
  syn : Bool
  ack : Bool
  seq : UInt32
  ackSeq : UInt32
  payload : Bytes
  deriving DecidableEq

def segmentOf (pkt : Bytes) : Seg where
  syn := (byteAt pkt 33).toNat.testBit 1
  ack := (byteAt pkt 33).toNat.testBit 4
  seq := ntohl (load32 pkt 24)
  ackSeq := ntohl (load32 pkt 28)
  payload := pkt.drop (20 + (byteAt pkt 32).toNat / 16 * 4)

/-- A standard receiver takes the packet for one of the session `s`: the
lengths and both checksums are right, and so is the four-tuple. -/
structure Verified (s : Session) (pkt : Bytes) : Prop where
  accepts : ReceiverAccepts s.laddr s.faddr (segmentOf pkt).payload pkt
  source : load16 pkt 20 = s.lport
  dest : load16 pkt 22 = s.fport

instance (saddr daddr : UInt32) (payload pkt : Bytes) :
    Decidable (ReceiverAccepts saddr daddr payload pkt) :=
  decidable_of_iff
    ((byteAt pkt 0).toNat / 16 = 4 ∧ (byteAt pkt 0).toNat % 16 = 5 ∧
      byteAt pkt 9 = 6 ∧ load32 pkt 12 = saddr ∧ load32 pkt 16 = daddr ∧
      256 * (byteAt pkt 2).toNat + (byteAt pkt 3).toNat = pkt.length ∧
      pkt.length = 40 + payload.length ∧ pkt.drop 40 = payload ∧
      foldCarry (beSum (pkt.take 20)) = 0xffff ∧
      foldCarry (beSum (pseudoHeader saddr daddr (20 + payload.length) ++
        pkt.drop 20)) = 0xffff)
    ⟨fun ⟨h1, h2, h3, h4, h5, h6, h7, h8, h9, h10⟩ =>
        ⟨h1, h2, h3, h4, h5, h6, h7, h8, h9, h10⟩,
      fun ⟨h1, h2, h3, h4, h5, h6, h7, h8, h9, h10⟩ =>
        ⟨h1, h2, h3, h4, h5, h6, h7, h8, h9, h10⟩⟩

instance (s : Session) (pkt : Bytes) : Decidable (Verified s pkt) :=
  decidable_of_iff
    (ReceiverAccepts s.laddr s.faddr (segmentOf pkt).payload pkt ∧
      load16 pkt 20 = s.lport ∧ load16 pkt 22 = s.fport)
    ⟨fun ⟨h1, h2, h3⟩ => ⟨h1, h2, h3⟩, fun ⟨h1, h2, h3⟩ => ⟨h1, h2, h3⟩⟩

/-!
## What a session transmits
-/

/-- The packet carries the segment, and a standard receiver accepts it. -/
structure Carries (s : Session) (seg : Seg) (pkt : Bytes) : Prop where
  verified : Verified s pkt
  segment : segmentOf pkt = seg

namespace TcpSession

theorem Addressed.byteAt_wire {s : TcpSession} {f : FrameBuf} {tcp : Bytes}
    (h : s.Addressed f tcp) (last : UInt16) (buf : Bytes) {i : Nat}
    (hi : i < 16) :
    byteAt (TunIface.tx (Ip.tx last (s.prepareBeforeIpTx f buf) buf).1)
        (20 + i) = byteAt tcp i := by
  have hip := s.length_sentHeader last tcp buf
  rw [s.prepared_wire last buf h.laidOut h.ready.doff,
    ← byteAt_drop _ 20 i, List.drop_left' hip,
    byteAt_append_left _ (by rw [length_store16, h.laidOut.tcpLength]; lia),
    byteAt_store16_of_disjoint _ _ (by lia)]

/-- A prepared segment is read back as it was filled in. -/
theorem Addressed.carries {s : TcpSession} {f : FrameBuf} {tcp : Bytes}
    (h : s.Addressed f tcp) (last : UInt16) {buf : Bytes}
    (hlen : buf.length <= 65495) :
    Carries s.toSession
      { syn := (byteAt tcp 13).toNat.testBit 1
        ack := (byteAt tcp 13).toNat.testBit 4
        seq := ntohl (load32 tcp 4)
        ackSeq := ntohl (load32 tcp 8)
        payload := buf }
      (TunIface.tx (Ip.tx last (s.prepareBeforeIpTx f buf) buf).1) := by
  have hbyte : forall i, i < 16 -> _ = byteAt tcp i := fun i =>
    h.byteAt_wire last buf
  have haccepts := s.prepared_accepted last buf h.laidOut h.ready.doff
    h.ready.checkLow h.ready.checkHigh hlen
  have hwire := h.onWire last buf
  generalize TunIface.tx (Ip.tx last (s.prepareBeforeIpTx f buf) buf).1 = pkt
    at hbyte haccepts hwire ⊢
  have hword : forall i, i <= 12 -> load32 pkt (20 + i) = load32 tcp i := by
    intro i hi
    refine load32_shift fun k hk => ?_
    rw [Nat.add_assoc]
    exact hbyte (i + k) (by lia)
  have hpayload : (segmentOf pkt).payload = buf := by
    show pkt.drop (20 + (byteAt pkt 32).toNat / 16 * 4) = buf
    rw [hbyte 12 (by decide), h.ready.doff]
    exact haccepts.payload_eq
  refine ⟨⟨?_, hwire.fields.source, hwire.fields.dest⟩, ?_⟩
  · rw [hpayload]
    exact haccepts
  · rw [← hpayload, ← hbyte 13 (by decide), ← hword 4 (by decide),
      ← hword 8 (by decide)]
    rfl

theorem syn_carries (s : TcpSession) (last : UInt16) :
    Carries s.toSession ⟨true, false, iss, 0, []⟩
      (TunIface.tx (Ip.tx last (s.prepareBeforeIpTx s.synFrame []) []).1) := by
  have hnil : ([] : Bytes).length <= 65495 := by decide
  have hcarries := s.syn_addressed.carries last hnil
  have hlen := s.templ_laidOut.tcpLength
  have hflags : byteAt s.synHeader 13 = 0x02 := by
    rw [synHeader, store8, byteAt_set_self _ _ (by
      rw [length_store32, hlen]; decide)]
  have hseq : load32 s.synHeader 4 = ntohl iss := by
    rw [synHeader, load32_store8_of_disjoint _ _ (by decide),
      load32_store32 _ _ _ (by rw [hlen]; decide)]
  have hackSeq : load32 s.synHeader 8 = 0 := by
    rw [synHeader, load32_store8_of_disjoint _ _ (by decide),
      load32_store32_of_disjoint _ _ (by decide)]
    have hzero : load32 (List.replicate 4 0) 0 = 0 := by decide
    rw [← hzero]
    refine load32_shift fun k hk => ?_
    rw [s.byteAt_templHeader (by lia) (by lia) (by lia)]
    exact (byteAt_replicate_zero 4 _).symm
  rw [hflags, hseq, hackSeq, ntohl_ntohl] at hcarries
  exact hcarries

theorem data_carries (s : TcpSession) (last : UInt16) {buf : Bytes}
    (hlen : buf.length <= 65495) :
    Carries s.toSession ⟨false, true, s.sendNext, s.recvNext, buf⟩
      (TunIface.tx
        (Ip.tx last (s.prepareBeforeIpTx s.dataFrame buf) buf).1) := by
  have hcarries := s.data_addressed.carries last hlen
  have htempl := s.templ_laidOut.tcpLength
  have hflags : byteAt s.dataHeader 13 = 0x10 := by
    rw [dataHeader, byteAt_store32_of_disjoint _ _ (by decide), store8,
      byteAt_set_self _ _ (by rw [length_store32, htempl]; decide)]
  have hseq : load32 s.dataHeader 4 = ntohl s.sendNext := by
    rw [dataHeader, load32_store32_of_disjoint _ _ (by decide),
      load32_store8_of_disjoint _ _ (by decide),
      load32_store32 _ _ _ (by rw [htempl]; decide)]
  have hackSeq : load32 s.dataHeader 8 = ntohl s.recvNext := by
    rw [dataHeader, load32_store32 _ _ _ (by simp [htempl])]
  rw [hflags, hseq, hackSeq, ntohl_ntohl, ntohl_ntohl] at hcarries
  exact hcarries

theorem ack_carries (s : TcpSession) (last : UInt16) (value : UInt32) :
    Carries s.toSession ⟨false, true, s.sendNext, value, []⟩
      (TunIface.tx (Ip.tx last
        (s.prepareBeforeIpTx (s.ackFrame value) []) []).1) := by
  have hnil : ([] : Bytes).length <= 65495 := by decide
  have hcarries := (s.ack_addressed value).carries last hnil
  have htempl := s.templ_laidOut.tcpLength
  have hflags : byteAt (s.ackHeader value) 13 = 0x10 := by
    rw [ackHeader, byteAt_store32_of_disjoint _ _ (by decide),
      byteAt_store32_of_disjoint _ _ (by decide), store8,
      byteAt_set_self _ _ (by rw [htempl]; decide)]
  have hseq : load32 (s.ackHeader value) 4 = ntohl s.sendNext := by
    rw [ackHeader, load32_store32 _ _ _ (by simp [htempl])]
  have hackSeq : load32 (s.ackHeader value) 8 = ntohl value := by
    rw [ackHeader, load32_store32_of_disjoint _ _ (by decide),
      load32_store32 _ _ _ (by simp [htempl])]
  rw [hflags, hseq, hackSeq, ntohl_ntohl, ntohl_ntohl] at hcarries
  exact hcarries

end TcpSession

def transmitted (last : UInt16) (effects : List Effect) : List Bytes :=
  (sentPackets last effects).map Prod.fst

/-!
## What a session takes from a packet
-/

/-- A packet of the session `s` at the other end: no fragment, without IP
options and not longer than a frame. -/
structure Inbound (s : Session) where
  bytes : Bytes
  first : byteAt bytes 0 = 0x45
  fragOff : ntohs (load16 bytes 6) &&& ipOffMask = 0
  moreFragments : ntohs (load16 bytes 6) &&& ipMfMask = 0
  protocol : byteAt bytes 9 = 6
  saddr : load32 bytes 12 = s.laddr
  daddr : load32 bytes 16 = s.faddr
  source : load16 bytes 20 = s.lport
  dest : load16 bytes 22 = s.fport
  size : bytes.length <= maxRawBytesSize
  header : 20 + (byteAt bytes 32).toNat / 16 * 4 <= bytes.length

namespace Inbound

variable {s : Session} (p : Inbound s)

def segment : Seg := segmentOf p.bytes

def skbuf : Skbuf := receivedSkbuf p.bytes

theorem byteAt_network (i : Nat) :
    byteAt (p.skbuf.head.pointee p.skbuf.head.networkHdr) i =
      byteAt p.bytes i :=
  OnWire.byteAt_rx p.size i

theorem byteAt_transport (i : Nat) :
    byteAt (p.skbuf.head.pointee p.skbuf.head.transportHdr) i =
      byteAt p.bytes (20 + i) := by
  rw [← byteAt_drop p.bytes 20 i, ← OnWire.pointee p.size 20]
  rfl

theorem load32_transport (i : Nat) :
    load32 (p.skbuf.head.pointee p.skbuf.head.transportHdr) i =
      load32 p.bytes (20 + i) := by
  refine load32_shift fun k _ => ?_
  rw [p.byteAt_transport, Nat.add_assoc]

theorem syn_eq : TcpHdr.syn p.skbuf.head = p.segment.syn := by
  rw [TcpHdr.syn, p.byteAt_transport]
  rfl

theorem ack_eq : TcpHdr.ack p.skbuf.head = p.segment.ack := by
  rw [TcpHdr.ack, p.byteAt_transport]
  rfl

theorem seq_eq : ntohl (TcpHdr.seq p.skbuf.head) = p.segment.seq := by
  rw [TcpHdr.seq, p.load32_transport]
  rfl

theorem payloadBegin_eq :
    (TcpSession.stripTcpHdr p.skbuf.head).userPayloadBegin =
      some (20 + (byteAt p.bytes 32).toNat / 16 * 4) := by
  show some (20 + (byteAt (p.skbuf.head.pointee
    p.skbuf.head.transportHdr) 12).toNat / 16 * 4) = _
  rw [p.byteAt_transport]

theorem rawBytes_eq :
    (TcpSession.stripTcpHdr p.skbuf.head).rawBytes = p.bytes :=
  List.take_of_length_le p.size

theorem payloadEnd_eq :
    (TcpSession.stripTcpHdr p.skbuf.head).userPayloadEnd =
      some p.bytes.length := by
  show some (p.bytes.take maxRawBytesSize).length = _
  rw [List.take_of_length_le p.size]

theorem drain_eq :
    drainSkbufChain (TcpSession.stripHead p.skbuf).frames =
      p.segment.payload := by
  have hend := p.payloadEnd_eq
  have hle := p.header
  rw [← p.rawBytes_eq] at hend
  show drainSkbufChain [TcpSession.stripTcpHdr p.skbuf.head] = _
  rw [drainSkbufChain_single p.payloadBegin_eq hend
    (by rw [p.rawBytes_eq]; exact hle), p.rawBytes_eq]
  rfl

theorem payloadLen_eq :
    (TcpSession.stripTcpHdr p.skbuf.head).userPayloadLen =
      p.segment.payload.length := by
  have hle := p.header
  have hlen : p.segment.payload.length =
      p.bytes.length - (20 + (byteAt p.bytes 32).toNat / 16 * 4) :=
    List.length_drop
  rw [FrameBuf.userPayloadLen, p.payloadBegin_eq, p.payloadEnd_eq, hlen,
    FrameBuf.pointerDiff]
  lia

theorem payload_lt : p.segment.payload.length < 2 ^ 32 := by
  have hle : p.segment.payload.length <= p.bytes.length := by
    show (p.bytes.drop _).length <= _
    rw [List.length_drop]
    exact Nat.sub_le _ _
  have hsize := p.size
  rw [maxRawBytesSize] at hsize
  lia

/-!
### From the device to the session
-/

theorem isFrag_eq : IpHdrs.isFrag (TunIface.rx p.bytes) = false := by
  have hoff : IpHdr.fragOff (TunIface.rx p.bytes) = load16 p.bytes 6 :=
    load16_shift fun _ _ => OnWire.byteAt_rx p.size _
  rw [IpHdrs.isFrag, hoff, p.fragOff, p.moreFragments]
  rfl

theorem rx_eq {ρ : Type} [DecidableEq ρ] (st : Stack ρ)
    (uninit : SockaddrIn) :
    Ip.rx st uninit p.bytes = some (Tcp.rx st uninit p.skbuf) := by
  have hfirst : byteAt ((TunIface.rx p.bytes).pointee
      (TunIface.rx p.bytes).networkHdr) 0 = 0x45 :=
    (OnWire.byteAt_rx p.size 0).trans p.first
  have hversion : IpHdr.version (TunIface.rx p.bytes) = 4 := by
    rw [IpHdr.version, hfirst]
    rfl
  have hihl : IpHdr.ihl (TunIface.rx p.bytes) = 5 := by
    rw [IpHdr.ihl, hfirst]
    rfl
  have hproto : IpHdrs.protocol (TunIface.rx p.bytes) = .tcp := by
    rw [IpHdrs.protocol, IpHdr.protocol, OnWire.byteAt_rx p.size, p.protocol]
    rfl
  have hlen : ¬ FrameBuf.pointerDiff (TunIface.rx p.bytes).userPayloadEnd
      (TunIface.rx p.bytes).hdrsBegin < 20 := by
    show ¬ ((p.bytes.take maxRawBytesSize).length : Int) - ((0 : Nat) : Int) <
      20
    have hheader := p.header
    rw [List.take_of_length_le p.size]
    lia
  unfold Ip.rx Ip.rxLoop Ip.reassemble Ip.demultiplex Ip.withTransportHdr
  rw [if_neg (fun hne => hne hversion), if_neg hlen, p.isFrag_eq]
  simp only [hproto, hihl]
  rfl

theorem tuple_eq :
    IpHdr.saddr p.skbuf.head = s.laddr ∧
      TcpHdr.source p.skbuf.head = s.lport ∧
      IpHdr.daddr p.skbuf.head = s.faddr ∧
      TcpHdr.dest p.skbuf.head = s.fport := by
  have hport : forall i, load16 (p.skbuf.head.pointee
      p.skbuf.head.transportHdr) i = load16 p.bytes (20 + i) := by
    intro i
    refine load16_shift fun k _ => ?_
    rw [p.byteAt_transport, Nat.add_assoc]
  refine ⟨?_, (hport 0).trans p.source, ?_, (hport 2).trans p.dest⟩
  · exact (load32_shift fun _ _ => p.byteAt_network _).trans p.saddr
  · exact (load32_shift fun _ _ => p.byteAt_network _).trans p.daddr

end Inbound

/-- The session hands the payload to its endpoint, expects the number `value`
next and acknowledges up to there; no assertion fails. -/
structure Acknowledges (s : TcpSession) (last : UInt16) (value : UInt32)
    (payload : Bytes) (result : TcpSession × List Effect) : Prop where
  state : result.1.connState = .established
  sendNext : result.1.sendNext = s.sendNext
  recvNext : result.1.recvNext = value
  handed : TcpSession.handedBytes result.2 = payload
  asserted : .assertion false ∉ result.2
  packet : exists pkt, transmitted last result.2 = [pkt] ∧
    Carries s.toSession ⟨false, true, s.sendNext, value, []⟩ pkt

namespace TcpSession

variable {s : TcpSession} {peer : Session}

theorem transmitted_ack (s : TcpSession) (last : UInt16) (value : UInt32) :
    exists pkt, transmitted last [s.ack2peer value] = [pkt] ∧
      Carries s.toSession ⟨false, true, s.sendNext, value, []⟩ pkt :=
  ⟨_, rfl, s.ack_carries last value⟩

theorem recv_answer (hstate : s.connState = .synSent) {p : Inbound peer}
    (hsyn : p.segment.syn = true) (hack : p.segment.ack = true)
    (uninit : SockaddrIn) (last : UInt16) :
    Acknowledges s last (p.segment.seq + 1) [] (s.recv uninit p.skbuf) := by
  have hsession : s.synReceived p.skbuf.head =
      { s with
        irs := p.segment.seq
        recvNext := p.segment.seq + 1
        sendUnack := s.sendUnack + 1
        connState := .established } := by
    rw [synReceived, p.seq_eq]
  rw [recv_synSent hstate, p.seq_eq, hsession, p.syn_eq, p.ack_eq, hsyn, hack]
  exact
    { state := rfl
      sendNext := rfl
      recvNext := rfl
      handed := rfl
      asserted := by simp [ack2peer]
      packet := transmitted_ack _ last _ }

theorem recv_payload (hestab : s.connState = .established)
    {p : Inbound peer} (hpayload : p.segment.payload ≠ [])
    (uninit : SockaddrIn) (last : UInt16) :
    Acknowledges s last
      (p.segment.seq + UInt32.ofNat p.segment.payload.length)
      p.segment.payload (s.recv uninit p.skbuf) := by
  have hlen : (stripTcpHdr p.skbuf.head).userPayloadLen ≠ 0 := by
    have hpos := List.length_pos_iff.2 hpayload
    rw [p.payloadLen_eq]
    lia
  rcases s.readAck_eq p.skbuf.head with ⟨una, hread⟩
  have hsession : s.dataReceived p.skbuf.head =
      { s with
        sendUnack := una
        recvNext := p.segment.seq +
          UInt32.ofNat p.segment.payload.length } := by
    rw [dataReceived, hread, p.seq_eq, p.payloadLen_eq,
      Receiver.ofInt_natCast p.payload_lt]
  rw [recv_data hestab uninit hlen, hsession]
  exact
    { state := hestab
      sendNext := rfl
      recvNext := rfl
      handed := (List.append_nil _).trans p.drain_eq
      asserted := by simp [ack2peer]
      packet := transmitted_ack _ last _ }

end TcpSession

end Velox
