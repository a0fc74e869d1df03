import Velox.Ip.Rx
import Velox.Tcp.Checksum

/-!
# From one stack to another

A packet that a session sends is read back by the receive path of another
stack.  The proofs meet at the bytes of the packet: `OnWire` lists the fields
that the receive path reads, the two transports write them, and the receive
path takes them to the one session with the mirrored four-tuple.
-/

namespace Velox

open Foundation

/-- The fields that the receive path reads, of a header at offset `o`. -/
structure Fields (proto : UInt8) (s : Session) (bs : Bytes) (o : Nat) :
    Prop where
  fragOff : load16 bs (o + 6) = 0
  protocol : byteAt bs (o + 9) = proto
  saddr : load32 bs (o + 12) = s.laddr
  daddr : load32 bs (o + 16) = s.faddr
  source : load16 bs (o + 20) = s.lport
  dest : load16 bs (o + 22) = s.fport

/-- A packet of `s` with a header of `n` bytes and a payload. -/
structure OnWire (proto : UInt8) (s : Session) (n : Nat) (payload pkt : Bytes) :
    Prop where
  first : byteAt pkt 0 = 0x45
  fields : Fields proto s pkt 0
  length : pkt.length = n + payload.length
  payload : pkt.drop n = payload

theorem Fields.of_bytes {proto : UInt8} {s : Session} {as bs : Bytes}
    {o p : Nat} (h : Fields proto s bs p)
    (hsame : forall i, 6 <= i -> i < 24 -> i < 10 ∨ 12 <= i ->
      byteAt as (o + i) = byteAt bs (p + i)) : Fields proto s as o where
  fragOff := by
    rw [← h.fragOff]
    refine load16_shift fun k hk => ?_
    rw [Nat.add_assoc, Nat.add_assoc]
    exact hsame (6 + k) (by lia) (by lia) (by lia)
  protocol := by
    rw [← h.protocol]
    exact hsame 9 (by decide) (by decide) (by decide)
  saddr := by
    rw [← h.saddr]
    refine load32_shift fun k hk => ?_
    rw [Nat.add_assoc, Nat.add_assoc]
    exact hsame (12 + k) (by lia) (by lia) (by lia)
  daddr := by
    rw [← h.daddr]
    refine load32_shift fun k hk => ?_
    rw [Nat.add_assoc, Nat.add_assoc]
    exact hsame (16 + k) (by lia) (by lia) (by lia)
  source := by
    rw [← h.source]
    refine load16_shift fun k hk => ?_
    rw [Nat.add_assoc, Nat.add_assoc]
    exact hsame (20 + k) (by lia) (by lia) (by lia)
  dest := by
    rw [← h.dest]
    refine load16_shift fun k hk => ?_
    rw [Nat.add_assoc, Nat.add_assoc]
    exact hsame (22 + k) (by lia) (by lia) (by lia)

/-!
## The sender
-/

/-- A frame whose headers start behind the room for IP options. -/
structure Headed (f : FrameBuf) (raw : Bytes) (n : Nat) : Prop where
  rawBytes : f.rawBytes = raw
  networkHdr : f.networkHdr = some 40
  transportHdr : f.transportHdr = some 60
  hdrsBegin : f.hdrsBegin = some 40
  hdrsEnd : f.hdrsEnd = some (40 + n)

namespace Headed

variable {f : FrameBuf} {raw : Bytes} {n : Nat}

theorem write8_network (h : Headed f raw n) (i : Nat) (v : UInt8) :
    Headed (f.write8 f.networkHdr i v) (store8 raw (40 + i) v) n := by
  rw [h.networkHdr, ← h.rawBytes]
  exact ⟨rfl, h.networkHdr, h.transportHdr, h.hdrsBegin, h.hdrsEnd⟩

theorem write16_network (h : Headed f raw n) (i : Nat) (v : UInt16) :
    Headed (f.write16 f.networkHdr i v) (store16 raw (40 + i) v) n := by
  rw [h.networkHdr, ← h.rawBytes]
  exact ⟨rfl, h.networkHdr, h.transportHdr, h.hdrsBegin, h.hdrsEnd⟩

theorem write32_network (h : Headed f raw n) (i : Nat) (v : UInt32) :
    Headed (f.write32 f.networkHdr i v) (store32 raw (40 + i) v) n := by
  rw [h.networkHdr, ← h.rawBytes]
  exact ⟨rfl, h.networkHdr, h.transportHdr, h.hdrsBegin, h.hdrsEnd⟩

theorem write16_transport (h : Headed f raw n) (i : Nat) (v : UInt16) :
    Headed (f.write16 f.transportHdr i v) (store16 raw (60 + i) v) n := by
  rw [h.transportHdr, ← h.rawBytes]
  exact ⟨rfl, h.networkHdr, h.transportHdr, h.hdrsBegin, h.hdrsEnd⟩

theorem byteAt_network (h : Headed f raw n) (i : Nat) :
    byteAt (f.pointee f.networkHdr) i = byteAt raw (40 + i) := by
  rw [h.networkHdr, FrameBuf.pointee, h.rawBytes]
  exact byteAt_drop raw 40 i

theorem tx (h : Headed f raw n) (hlen : 40 < raw.length)
    (hfirst : byteAt raw 40 = 0) (last : UInt16) (payload : Bytes) :
    exists check,
      Headed (Ip.tx last f payload).1.skbuf
        (store16
          (store16 (store8 (store8 raw 40 0x40) 40 0x45) 44
            (IpIdGenerator.next last).1) 50 check) n := by
  have hversion : Headed (IpHdr.setVersion f 4) (store8 raw 40 0x40) n := by
    rw [IpHdr.setVersion, IpHdr.ihl, h.byteAt_network, hfirst]
    exact h.write8_network 0 _
  have hihl : Headed (IpHdr.setIhl (IpHdr.setVersion f 4) (20 / 4))
      (store8 (store8 raw 40 0x40) 40 0x45) n := by
    rw [IpHdr.setIhl, IpHdr.version, hversion.byteAt_network,
      show byteAt (store8 raw 40 0x40) (40 + 0) = 0x40 from
        byteAt_set_self _ _ hlen]
    exact hversion.write8_network 0 _
  have hid := hihl.write16_network 4 (IpIdGenerator.next last).1
  exact ⟨_, hid.write16_network 10 _⟩

/-- The headers of the packet are the bytes of the frame, but for the first
byte, the identification and the checksum. -/
theorem wire_bytes (h : Headed f raw n) (hsize : 40 + n <= raw.length)
    (hn : 0 < n) (hfirst : byteAt raw 40 = 0) (last : UInt16)
    (payload : Bytes) :
    exists hdrs : Bytes,
      TunIface.tx (Ip.tx last f payload).1 = hdrs ++ payload ∧
      hdrs.length = n ∧ byteAt hdrs 0 = 0x45 ∧
      forall i, 0 < i -> i < n -> i < 4 ∨ 6 <= i -> i < 10 ∨ 12 <= i ->
        byteAt hdrs i = byteAt raw (40 + i) := by
  rcases h.tx (by lia) hfirst last payload with ⟨check, hsent⟩
  refine ⟨_, rfl, ?_, ?_, ?_⟩
  all_goals rw [hsent.hdrsBegin, hsent.hdrsEnd, FrameBuf.range, hsent.rawBytes,
    Nat.add_sub_cancel_left]
  · simp
    lia
  · rw [byteAt_take _ hn, byteAt_drop,
      byteAt_store16_of_disjoint _ _ (by decide),
      byteAt_store16_of_disjoint _ _ (by decide)]
    exact byteAt_set_self _ _ (by rw [length_store8]; lia)
  · intro i hpos hhigh hid hcheck
    rw [byteAt_take _ hhigh, byteAt_drop,
      byteAt_store16_of_disjoint _ _ (by lia),
      byteAt_store16_of_disjoint _ _ (by lia),
      byteAt_store8_of_disjoint _ _ (by lia),
      byteAt_store8_of_disjoint _ _ (by lia)]

theorem wire (h : Headed f raw n) (hsize : 40 + n <= raw.length)
    (hn : 0 < n) (hfirst : byteAt raw 40 = 0) (last : UInt16)
    (payload : Bytes) :
    exists hdrs : Bytes,
      TunIface.tx (Ip.tx last f payload).1 = hdrs ++ payload ∧
      hdrs.length = n ∧ byteAt hdrs 0 = 0x45 ∧
      forall i, 6 <= i -> i < n -> i < 10 ∨ 12 <= i ->
        byteAt hdrs i = byteAt raw (40 + i) := by
  rcases h.wire_bytes hsize hn hfirst last payload with
    ⟨hdrs, hwire, hlen, hbyte, hsame⟩
  exact ⟨hdrs, hwire, hlen, hbyte,
    fun i hlow hhigh => hsame i (by lia) hhigh (Or.inr hlow)⟩

theorem load16_wire (h : Headed f raw n) (hsize : 40 + n <= raw.length)
    (hfirst : byteAt raw 40 = 0) (last : UInt16) (payload : Bytes) {i : Nat}
    (hpos : 0 < i) (hhigh : i + 2 <= n) (hid : i + 2 <= 4 ∨ 6 <= i)
    (hcheck : i + 2 <= 10 ∨ 12 <= i) :
    load16 (TunIface.tx (Ip.tx last f payload).1) i = load16 raw (40 + i) := by
  rcases h.wire_bytes hsize (by lia) hfirst last payload with
    ⟨hdrs, hwire, hlen, _, hsame⟩
  refine load16_shift fun k hk => ?_
  rw [hwire, byteAt_append_left _ (by lia), Nat.add_assoc]
  exact hsame (i + k) (by lia) (by lia) (by lia) (by lia)

theorem load16_id (h : Headed f raw n) (hsize : 40 + n <= raw.length)
    (hn : 6 <= n) (hfirst : byteAt raw 40 = 0) (last : UInt16)
    (payload : Bytes) :
    load16 (TunIface.tx (Ip.tx last f payload).1) 4 =
      (IpIdGenerator.next last).1 := by
  rcases h.tx (by lia) hfirst last payload with ⟨check, hsent⟩
  have hfield := load16_store16 (store8 (store8 raw 40 0x40) 40 0x45) 44
    (IpIdGenerator.next last).1 (by rw [length_store8, length_store8]; lia)
  rw [← load16_store16_of_disjoint (i := 50) _ check (by decide)] at hfield
  refine Eq.trans (load16_shift fun k hk => ?_) hfield
  rw [TunIface.tx, hsent.hdrsBegin, hsent.hdrsEnd, FrameBuf.range,
    hsent.rawBytes, Nat.add_sub_cancel_left, byteAt_append_left _ ?_,
    byteAt_take _ (by lia), byteAt_drop, ← Nat.add_assoc]
  simp
  lia

theorem onWire (h : Headed f raw n) (hsize : 40 + n <= raw.length)
    (hn : 24 <= n) (hfirst : byteAt raw 40 = 0) {proto : UInt8} {s : Session}
    (hfields : Fields proto s raw 40) (last : UInt16) (payload : Bytes) :
    OnWire proto s n payload (TunIface.tx (Ip.tx last f payload).1) := by
  rcases h.wire hsize (by lia) hfirst last payload with
    ⟨hdrs, hwire, hlen, hbyte, hsame⟩
  rw [hwire]
  refine ⟨?_, hfields.of_bytes ?_, ?_, ?_⟩
  · rw [byteAt_append_left _ (by lia)]
    exact hbyte
  · intro i hlow hhigh hcheck
    rw [Nat.zero_add, byteAt_append_left _ (by lia)]
    exact hsame i hlow (by lia) hcheck
  · rw [List.length_append, hlen]
  · exact List.drop_left' hlen

end Headed

def UdpSession.datagramBytes (s : Session) (buf : Bytes) : Bytes :=
  let ipovly := store32
    (store32
      (store16 (store8 (List.replicate 68 0) 49 17) 50
        (ntohs (UInt16.ofNat (buf.length + 8)))) 52 s.laddr) 56 s.faddr
  let udphdr := store16
    (store16 (store16 (store16 ipovly 60 s.lport) 62 s.fport) 64
      (ntohs (UInt16.ofNat (buf.length + 8)))) 66 0
  store16
    (store16 (store8 (store8 udphdr 48 64) 41 0) 42
      (ntohs (UInt16.ofNat (buf.length + 28)))) 50 0

theorem UdpSession.datagram_headed (s : Session) (buf : Bytes) :
    Headed (UdpSession.datagram s buf)
      (UdpSession.datagramBytes s buf) 28 := by
  have hblock : Headed UdpSession.headFrame (List.replicate 68 0) 28 :=
    ⟨rfl, rfl, rfl, rfl, rfl⟩
  have hproto := hblock.write8_network 9 17
  have hlen := hproto.write16_network 10
    (ntohs (UInt16.ofNat (buf.length + 8)))
  have hsaddr := hlen.write32_network 12 s.laddr
  have hdaddr := hsaddr.write32_network 16 s.faddr
  have hsource := hdaddr.write16_transport 0 s.lport
  have hdest := hsource.write16_transport 2 s.fport
  have hudplen := hdest.write16_transport 4
    (ntohs (UInt16.ofNat (buf.length + 8)))
  have hcheck := hudplen.write16_transport 6 0
  have httl := hcheck.write8_network 8 64
  have htos := httl.write8_network 1 0
  have htotal := htos.write16_network 2
    (ntohs (UInt16.ofNat (buf.length + 28)))
  exact htotal.write16_network 10 0

theorem UdpSession.datagram_fields (s : Session) (buf : Bytes) :
    Fields 17 s (UdpSession.datagramBytes s buf) 40 := by
  unfold UdpSession.datagramBytes
  constructor
  all_goals simp (disch := decide) only [Nat.reduceAdd,
    byteAt_store8_of_disjoint, byteAt_store16_of_disjoint,
    byteAt_store32_of_disjoint, load16_store8_of_disjoint,
    load16_store16_of_disjoint, load16_store32_of_disjoint,
    load32_store8_of_disjoint, load32_store16_of_disjoint,
    load32_store32_of_disjoint]
  case fragOff => rfl
  case protocol => rfl
  case saddr | daddr => exact load32_store32 _ _ _ (by simp)
  case source | dest => exact load16_store16 _ _ _ (by simp)

/-!
A segment has been laid out by the proofs about its checksum.
-/

namespace LaidOut

variable {f : FrameBuf} {ip tcp : Bytes}

theorem headed (h : LaidOut f ip tcp) : Headed f f.rawBytes 40 :=
  ⟨rfl, h.networkHdr, h.transportHdr, h.hdrsBegin, h.hdrsEnd⟩

theorem byteAt_ip (h : LaidOut f ip tcp) {i : Nat} (hi : i < 20) :
    byteAt f.rawBytes (40 + i) = byteAt ip i := by
  rw [← h.headed.byteAt_network]
  exact h.byteAt_network hi

theorem byteAt_tcp (h : LaidOut f ip tcp) {i : Nat} (hi : i < 20) :
    byteAt f.rawBytes (60 + i) = byteAt tcp i := by
  rw [← h.byteAt_transport hi, h.transportHdr]
  exact (byteAt_drop f.rawBytes 60 i).symm

end LaidOut

namespace TcpSession

/-- A segment before `prepareBeforeIpTx`: its header has no checksum yet and
the ports of the session. -/
structure Addressed (s : TcpSession) (f : FrameBuf) (tcp : Bytes) : Prop where
  laidOut : LaidOut f (List.replicate 20 0) tcp
  ready : HeaderReady tcp
  ports : forall i, i < 4 -> byteAt tcp i = byteAt s.portsHeader i

theorem byteAt_templHeader_port (s : TcpSession) {i : Nat} (hi : i < 4) :
    byteAt s.templHeader i = byteAt s.portsHeader i := by
  rw [templHeader, byteAt_store16_of_disjoint _ _ (by lia),
    byteAt_store8_of_disjoint _ _ (by lia)]

theorem syn_addressed (s : TcpSession) :
    s.Addressed s.synFrame s.synHeader := by
  refine ⟨s.syn_laidOut, s.synHeader_ready, ?_⟩
  intro i hi
  rw [synHeader, byteAt_store8_of_disjoint _ _ (by lia),
    byteAt_store32_of_disjoint _ _ (by lia), s.byteAt_templHeader_port hi]

theorem data_addressed (s : TcpSession) :
    s.Addressed s.dataFrame s.dataHeader := by
  refine ⟨s.data_laidOut, s.dataHeader_ready, ?_⟩
  intro i hi
  rw [dataHeader, byteAt_store32_of_disjoint _ _ (by lia),
    byteAt_store8_of_disjoint _ _ (by lia),
    byteAt_store32_of_disjoint _ _ (by lia), s.byteAt_templHeader_port hi]

theorem ack_addressed (s : TcpSession) (value : UInt32) :
    s.Addressed (s.ackFrame value) (s.ackHeader value) := by
  refine ⟨s.ack_laidOut value, s.ackHeader_ready value, ?_⟩
  intro i hi
  rw [ackHeader, byteAt_store32_of_disjoint _ _ (by lia),
    byteAt_store32_of_disjoint _ _ (by lia),
    byteAt_store8_of_disjoint _ _ (by lia), s.byteAt_templHeader_port hi]

namespace Addressed

variable {s : TcpSession} {f : FrameBuf} {tcp : Bytes}

theorem prepared (h : s.Addressed f tcp) (buf : Bytes) :
    LaidOut (s.prepareBeforeIpTx f buf) (s.preparedHeader buf)
      (store16 tcp 16 (s.segmentCheck tcp buf)) :=
  s.prepareBeforeIpTx_laidOut buf h.laidOut h.ready.doff

/-- The IP header still holds the overlay, but for its first bytes, the ttl
and the checksum. -/
theorem byteAt_eq (h : s.Addressed f tcp) (buf : Bytes) {i : Nat}
    (hlow : 4 <= i) (httl : i ≠ 8) (hcheck : i < 10 ∨ 12 <= i)
    (hhigh : i < 20) :
    byteAt (s.prepareBeforeIpTx f buf).rawBytes (40 + i) =
      byteAt (s.overlayHeader buf) i := by
  rw [(h.prepared buf).byteAt_ip hhigh]
  exact s.byteAt_preparedHeader buf (by lia) (by lia) httl (by lia)

theorem addr (h : s.Addressed f tcp) (buf : Bytes) {i : Nat} (hlow : 12 <= i)
    (hhigh : i + 4 <= 20) :
    load32 (s.prepareBeforeIpTx f buf).rawBytes (40 + i) =
      load32 (s.overlayHeader buf) i := by
  refine load32_shift fun k hk => ?_
  rw [Nat.add_assoc]
  exact h.byteAt_eq buf (by lia) (by lia) (by lia) (by lia)

theorem port (h : s.Addressed f tcp) (buf : Bytes) {i : Nat}
    (hi : i + 2 <= 4) :
    load16 (s.prepareBeforeIpTx f buf).rawBytes (60 + i) =
      load16 s.portsHeader i := by
  refine load16_shift fun k hk => ?_
  rw [Nat.add_assoc, (h.prepared buf).byteAt_tcp (by lia),
    byteAt_store16_of_disjoint _ _ (by lia)]
  exact h.ports _ (by lia)

theorem fields (h : s.Addressed f tcp) (buf : Bytes) :
    Fields 6 s.toSession (s.prepareBeforeIpTx f buf).rawBytes 40 := by
  constructor
  case fragOff =>
    have hzero : load16 (s.overlayHeader buf) 6 = 0 := by
      rw [overlayHeader_bytes]
      rfl
    rw [← hzero]
    refine load16_shift fun k hk => ?_
    rw [Nat.add_assoc]
    exact h.byteAt_eq buf (by lia) (by lia) (by lia) (by lia)
  case protocol =>
    rw [h.byteAt_eq buf (i := 9) (by lia) (by lia) (by lia) (by lia),
      overlayHeader_bytes]
    rfl
  case saddr =>
    rw [h.addr buf (i := 12) (by lia) (by lia), overlayHeader,
      load32_store32_of_disjoint _ _ (by decide)]
    exact load32_store32 _ _ _ (by simp)
  case daddr =>
    rw [h.addr buf (i := 16) (by lia) (by lia)]
    exact load32_store32 _ _ _ (by simp)
  case source =>
    rw [h.port buf (i := 0) (by lia), portsHeader,
      load16_store16_of_disjoint _ _ (by decide)]
    exact load16_store16 _ _ _ (by simp)
  case dest =>
    rw [h.port buf (i := 2) (by lia)]
    exact load16_store16 _ _ _ (by simp)

theorem size (h : s.Addressed f tcp) (buf : Bytes) :
    80 <= (s.prepareBeforeIpTx f buf).rawBytes.length := by
  have hprep := h.prepared buf
  rw [hprep.rawBytes]
  simp [hprep.ipLength]
  lia

theorem first (h : s.Addressed f tcp) (buf : Bytes) :
    byteAt (s.prepareBeforeIpTx f buf).rawBytes 40 = 0 := by
  rw [(h.prepared buf).byteAt_ip (i := 0) (by decide),
    s.byteAt_preparedHeader buf (by decide) (by decide) (by decide)
      (by decide), overlayHeader_bytes]
  rfl

end Addressed

end TcpSession

/-!
What either transport sends is on the wire as the receiver expects it.
-/

theorem UdpSession.datagramBytes_first (s : Session) (buf : Bytes) :
    byteAt (UdpSession.datagramBytes s buf) 40 = 0 := by
  unfold UdpSession.datagramBytes
  simp (disch := decide) only [byteAt_store8_of_disjoint,
    byteAt_store16_of_disjoint, byteAt_store32_of_disjoint,
    byteAt_replicate_zero]

theorem UdpSession.length_datagramBytes (s : Session) (buf : Bytes) :
    (UdpSession.datagramBytes s buf).length = 68 := by
  simp [UdpSession.datagramBytes]

theorem UdpSession.datagram_onWire (s : Session) (last : UInt16)
    (buf : Bytes) :
    OnWire 17 s 28 buf
      (TunIface.tx (Ip.tx last (UdpSession.datagram s buf) buf).1) :=
  (UdpSession.datagram_headed s buf).onWire
    (Nat.le_of_eq (UdpSession.length_datagramBytes s buf).symm) (by decide)
    (UdpSession.datagramBytes_first s buf) (UdpSession.datagram_fields s buf)
    last buf

namespace TcpSession.Addressed

variable {s : TcpSession} {f : FrameBuf} {tcp : Bytes}

theorem onWire (h : s.Addressed f tcp) (last : UInt16) (buf : Bytes) :
    OnWire 6 s.toSession 40 buf
      (TunIface.tx (Ip.tx last (s.prepareBeforeIpTx f buf) buf).1) :=
  (h.prepared buf).headed.onWire (h.size buf) (by decide) (h.first buf)
    (h.fields buf) last buf

theorem doff (h : s.Addressed f tcp) (last : UInt16) (buf : Bytes) :
    byteAt (TunIface.tx (Ip.tx last (s.prepareBeforeIpTx f buf) buf).1) 32 =
      0x50 := by
  rcases (h.prepared buf).headed.wire (h.size buf) (by decide) (h.first buf)
    last buf with ⟨hdrs, hwire, hlen, _, hsame⟩
  rw [hwire, byteAt_append_left _ (by rw [hlen]; decide),
    hsame 32 (by decide) (by decide) (by decide),
    (h.prepared buf).byteAt_tcp (i := 12) (by decide),
    byteAt_store16_of_disjoint _ _ (by decide)]
  exact h.ready.doff

end TcpSession.Addressed

/-!
## The receiver
-/

def receivedSkbuf (pkt : Bytes) : Skbuf :=
  ⟨{ TunIface.rx pkt with transportHdr := some 20 }, []⟩

namespace OnWire

variable {proto : UInt8} {s : Session} {n : Nat} {payload pkt : Bytes}

theorem pointee (hsize : pkt.length <= maxRawBytesSize) (o : Nat) :
    (TunIface.rx pkt).pointee (some o) = pkt.drop o := by
  show (pkt.take maxRawBytesSize).drop o = _
  rw [List.take_of_length_le hsize]

theorem byteAt_rx (hsize : pkt.length <= maxRawBytesSize) (i : Nat) :
    byteAt ((TunIface.rx pkt).pointee (TunIface.rx pkt).networkHdr) i =
      byteAt pkt i := by
  show byteAt ((TunIface.rx pkt).pointee (some 0)) i = _
  rw [pointee hsize, List.drop_zero]

theorem isFrag (h : OnWire proto s n payload pkt)
    (hsize : pkt.length <= maxRawBytesSize) :
    IpHdrs.isFrag (TunIface.rx pkt) = false := by
  have hoff : IpHdr.fragOff (TunIface.rx pkt) = 0 := by
    rw [← h.fields.fragOff]
    exact load16_shift fun k _ => byteAt_rx hsize _
  rw [IpHdrs.isFrag, hoff]
  decide

/-- The packet passes the IP layer as it is. -/
theorem rx_eq {ρ : Type} [DecidableEq ρ] (h : OnWire proto s n payload pkt)
    (hsize : pkt.length <= maxRawBytesSize) (hn : 20 <= n) (st : Stack ρ)
    (uninit : SockaddrIn) :
    Ip.rx st uninit pkt =
      some (Ip.demultiplex st uninit (TunIface.rx pkt)
        ⟨TunIface.rx pkt, []⟩) := by
  have hversion : IpHdr.version (TunIface.rx pkt) = 4 := by
    rw [IpHdr.version, byteAt_rx hsize, h.first]
    rfl
  have hlen : ¬ FrameBuf.pointerDiff (TunIface.rx pkt).userPayloadEnd
      (TunIface.rx pkt).hdrsBegin < 20 := by
    show ¬ ((pkt.take maxRawBytesSize).length : Int) - ((0 : Nat) : Int) < 20
    rw [List.take_of_length_le hsize, h.length]
    omega
  unfold Ip.rx Ip.rxLoop Ip.reassemble
  rw [if_neg (fun hne => hne hversion), if_neg hlen, h.isFrag hsize]
  rfl

theorem withTransportHdr_eq (h : OnWire proto s n payload pkt)
    (hsize : pkt.length <= maxRawBytesSize) :
    Ip.withTransportHdr (TunIface.rx pkt) ⟨TunIface.rx pkt, []⟩ =
      receivedSkbuf pkt := by
  have hihl : IpHdr.ihl (TunIface.rx pkt) = 5 := by
    rw [IpHdr.ihl, byteAt_rx hsize, h.first]
    rfl
  unfold Ip.withTransportHdr
  rw [hihl]
  rfl

/-- The four-tuple that `Udp::rx` and `Tcp::rx` read. -/
theorem tuple (h : OnWire proto s n payload pkt)
    (hsize : pkt.length <= maxRawBytesSize) :
    IpHdr.saddr (receivedSkbuf pkt).head = s.laddr ∧
      IpHdr.daddr (receivedSkbuf pkt).head = s.faddr ∧
      UdpHdr.source (receivedSkbuf pkt).head = s.lport ∧
      UdpHdr.dest (receivedSkbuf pkt).head = s.fport := by
  have hport : forall i k,
      byteAt ((receivedSkbuf pkt).head.pointee
        (receivedSkbuf pkt).head.transportHdr) (i + k) =
          byteAt pkt (20 + i + k) := by
    intro i k
    rw [Nat.add_assoc, ← byteAt_drop pkt, ← pointee hsize 20]
    rfl
  constructor
  · rw [← h.fields.saddr]
    exact load32_shift fun k _ => byteAt_rx hsize _
  constructor
  · rw [← h.fields.daddr]
    exact load32_shift fun k _ => byteAt_rx hsize _
  constructor
  · rw [← h.fields.source]
    exact load16_shift fun k _ => hport 0 k
  · rw [← h.fields.dest]
    exact load16_shift fun k _ => hport 2 k

end OnWire

theorem drainSkbufChain_single {f : FrameBuf} {o : Nat}
    (hbegin : f.userPayloadBegin = some o)
    (hend : f.userPayloadEnd = some f.rawBytes.length)
    (hle : o <= f.rawBytes.length) :
    drainSkbufChain [f] = f.rawBytes.drop o := by
  have hinside : f.PayloadInside :=
    ⟨o, _, hbegin, hend, hle, Nat.le_refl _⟩
  rw [drainSkbufChain_cons hinside, drainSkbufChain, List.append_nil,
    FrameBuf.userPayload, hbegin, hend]
  show (f.rawBytes.drop o).take (f.rawBytes.length - o) = _
  exact List.take_of_length_le (by rw [List.length_drop])

def Session.mirror (s : Session) : Session where
  faddr := s.laddr
  fport := s.lport
  laddr := s.faddr
  lport := s.fport

def Stack.pcbs {ρ : Type} (st : Stack ρ) (tcp : Bool) : List ρ :=
  if tcp then st.tcpPcbs else st.udpPcbs

/-- The stack has the live session `r` at the other end of `s`, and no other,
with room in the queue of its endpoint. -/
structure Receives {ρ : Type} (st : Stack ρ) (tcp : Bool) (s : Session)
    (r : ρ) (sock : Sock) : Prop where
  listed : r ∈ st.pcbs tcp
  live : st.socks r = some sock
  kind : sock.pcb.isTcp = tcp
  mirrored : sock.pcb.session = s.mirror
  estab : forall t, sock.pcb = .tcp t -> t.connState = .established
  only : forall it, it ∈ st.pcbs tcp -> it ≠ r -> st.lock it ≠ some s.mirror
  room : sock.so.recvQOverLimit = false

structure Queued (tcp : Bool) (s : Session) (p : Bytes) (packet : Packet) :
    Prop where
  payload : drainSkbufChain packet.skbuf.frames = p
  peerAddr : tcp = false -> packet.peerAddr = SockaddrIn.inet s.laddr s.lport

/-- The packet is all that changes outside the session of `r`. -/
structure Delivered {ρ : Type} (st : Stack ρ) (tcp : Bool) (s : Session)
    (p : Bytes) (r : ρ) (sock : Sock) (st' : Stack ρ) : Prop where
  one : exists sock' packet, st'.socks r = some sock' ∧
    sock'.so.recvQ = sock.so.recvQ ++ [packet] ∧ Queued tcp s p packet
  others : forall it, it ≠ r -> st'.socks it = st.socks it

theorem Endpoint.recvQ_putToRecvQ {so : Endpoint} (packet : Packet)
    (hroom : so.recvQOverLimit = false) :
    (so.putToRecvQ packet).recvQ = so.recvQ ++ [packet] := by
  rw [Endpoint.putToRecvQ, hroom]
  rfl

section Receiving

variable {ρ : Type} {st : Stack ρ} {s : Session} {r : ρ} {sock : Sock}

theorem Receives.find_eq {tcp : Bool} (h : Receives st tcp s r sock) :
    Sessions.find st.lock (st.pcbs tcp) s.laddr s.lport s.faddr s.fport =
      some r := by
  have hlock : st.lock r = some s.mirror := by
    rw [Stack.lock, h.live, ← h.mirrored]
    rfl
  exact Sessions.find_eq h.listed hlock h.only

variable [DecidableEq ρ]

theorem Receives.deliver {tcp : Bool} {p : Bytes} {packet : Packet}
    (h : Receives st tcp s r sock) {addr : SockaddrIn} {skbuf : Skbuf}
    (hput : ((sock.pcb.recv addr skbuf).2.foldl Endpoint.apply sock.so) =
      sock.so.putToRecvQ packet) (hqueued : Queued tcp s p packet) :
    Delivered st tcp s p r sock (st.deliver r addr skbuf).1 := by
  rw [Stack.deliver, h.live]
  constructor
  · refine ⟨_, packet, Function.update_self r _ st.socks, ?_, hqueued⟩
    rw [hput]
    exact Endpoint.recvQ_putToRecvQ packet h.room
  · intro it hne
    exact Function.update_of_ne hne _ st.socks

theorem OnWire.drain_eq {proto : UInt8} {n : Nat} {p pkt : Bytes}
    (h : OnWire proto s n p pkt) (hsize : pkt.length <= maxRawBytesSize)
    {f : FrameBuf} (hraw : f.rawBytes = (TunIface.rx pkt).rawBytes)
    (hbegin : f.userPayloadBegin = some n)
    (hend : f.userPayloadEnd = (TunIface.rx pkt).userPayloadEnd) :
    drainSkbufChain [f] = p := by
  have hpkt : f.rawBytes = pkt := hraw.trans (List.take_of_length_le hsize)
  have hlen : f.userPayloadEnd = some f.rawBytes.length := by
    rw [hend, hraw]
    rfl
  rw [drainSkbufChain_single hbegin hlen (by rw [hpkt, h.length]; lia), hpkt]
  exact h.payload

theorem OnWire.udp_delivered {p pkt : Bytes} (h : OnWire 17 s 28 p pkt)
    (hsize : pkt.length <= maxRawBytesSize) (uninit : SockaddrIn)
    (hr : Receives st false s r sock) :
    exists st' effects, Ip.rx st uninit pkt = some (st', effects) ∧
      Delivered st false s p r sock st' := by
  have hproto : IpHdrs.protocol (TunIface.rx pkt) = .udp := by
    rw [IpHdrs.protocol, IpHdr.protocol, byteAt_rx hsize, h.fields.protocol]
    rfl
  rcases h.tuple hsize with ⟨hsaddr, hdaddr, hsource, hdest⟩
  have hfind : Sessions.find st.lock st.udpPcbs s.laddr s.lport s.faddr
      s.fport = some r := hr.find_eq
  have hrx : Ip.rx st uninit pkt =
      some (st.deliver r (SockaddrIn.inet s.laddr s.lport)
        (receivedSkbuf pkt)) := by
    rw [h.rx_eq hsize (by decide), Ip.demultiplex, hproto]
    show some (Udp.rx st _) = _
    rw [h.withTransportHdr_eq hsize, Udp.rx, hsaddr, hdaddr, hsource, hdest,
      hfind]
  refine ⟨_, _, hrx, ?_⟩
  cases hpcb : sock.pcb with
  | tcp t =>
      have hkind := hr.kind
      rw [hpcb] at hkind
      cases hkind
  | udp t =>
      apply hr.deliver
      · rw [hpcb]
        rfl
      · constructor
        · exact h.drain_eq hsize rfl rfl rfl
        · intro _
          rfl

theorem OnWire.stripTcpHdr_begin {pkt : Bytes}
    (hdoff : byteAt pkt 32 = 0x50) (hsize : pkt.length <= maxRawBytesSize) :
    (TcpSession.stripTcpHdr (receivedSkbuf pkt).head).userPayloadBegin =
      some 40 := by
  have hbyte : byteAt ((receivedSkbuf pkt).head.pointee (some 20)) 12 =
      0x50 := by
    rw [← hdoff, ← byteAt_drop pkt 20 12, ← pointee hsize 20]
    rfl
  show some (20 + (byteAt ((receivedSkbuf pkt).head.pointee (some 20))
    12).toNat / 16 * 4) = _
  rw [hbyte]
  rfl

theorem TcpSession.recv_queues {t : TcpSession} {skbuf : Skbuf}
    (hestab : t.connState = .established)
    (hlen : (stripTcpHdr skbuf.head).userPayloadLen ≠ 0)
    (addr : SockaddrIn) (so : Endpoint) :
    (t.recv addr skbuf).2.foldl Endpoint.apply so =
      so.putToRecvQ ⟨addr, stripHead skbuf⟩ := by
  rw [recv_data hestab addr hlen]
  rfl

theorem OnWire.tcp_delivered {p pkt : Bytes} (h : OnWire 6 s 40 p pkt)
    (hdoff : byteAt pkt 32 = 0x50) (hne : p ≠ [])
    (hsize : pkt.length <= maxRawBytesSize) (uninit : SockaddrIn)
    (hr : Receives st true s r sock) :
    exists st' effects, Ip.rx st uninit pkt = some (st', effects) ∧
      Delivered st true s p r sock st' := by
  have hproto : IpHdrs.protocol (TunIface.rx pkt) = .tcp := by
    rw [IpHdrs.protocol, IpHdr.protocol, byteAt_rx hsize, h.fields.protocol]
    rfl
  rcases h.tuple hsize with ⟨hsaddr, hdaddr, hsource, hdest⟩
  have hfind : Sessions.find st.lock st.tcpPcbs s.laddr s.lport s.faddr
      s.fport = some r := hr.find_eq
  have hrx : Ip.rx st uninit pkt =
      some (st.deliver r uninit (receivedSkbuf pkt)) := by
    rw [h.rx_eq hsize (by decide), Ip.demultiplex, hproto]
    show some (Tcp.rx st uninit _) = _
    -- The ports of both transports are at the same place.
    have hports : TcpHdr.source (receivedSkbuf pkt).head = s.lport ∧
        TcpHdr.dest (receivedSkbuf pkt).head = s.fport := ⟨hsource, hdest⟩
    rw [h.withTransportHdr_eq hsize, Tcp.rx, hsaddr, hdaddr, hports.left,
      hports.right, hfind]
  have hbegin := stripTcpHdr_begin hdoff hsize
  have hpayload : (TcpSession.stripTcpHdr (receivedSkbuf pkt).head
      ).userPayloadLen ≠ 0 := by
    rw [FrameBuf.userPayloadLen, hbegin]
    show ((pkt.take maxRawBytesSize).length : Int) - ((40 : Nat) : Int) ≠ 0
    rw [List.take_of_length_le hsize, h.length]
    have hpos := List.length_pos_iff.2 hne
    omega
  refine ⟨_, _, hrx, ?_⟩
  cases hpcb : sock.pcb with
  | udp t =>
      have hkind := hr.kind
      rw [hpcb] at hkind
      cases hkind
  | tcp t =>
      apply hr.deliver
      · rw [hpcb]
        exact TcpSession.recv_queues (hr.estab t hpcb) hpayload uninit sock.so
      · constructor
        · exact h.drain_eq hsize rfl hbegin rfl
        · intro hudp
          cases hudp

end Receiving

/-!
## The round trip
-/

/-- The ways in which a session sends a payload as one packet, with the
session at the time the packet is built; `tcp` tells the protocol. -/
inductive Sends (p : Bytes) : Bool -> Session -> List Effect -> Prop where
  | datagram (s : Session) (port : UInt16) :
      Sends p false (UdpSession.send s port p).session
        (UdpSession.send s port p).effects
  | datagramTo (s : Session) (port : UInt16) (faddr : UInt32)
      (fport : UInt16) :
      Sends p false
        { (UdpSession.sendTo s port faddr fport p).session with
          faddr := faddr, fport := fport }
        (UdpSession.sendTo s port faddr fport p).effects
  | segment (s : TcpSession) (port : UInt16)
      (hestab : s.connState = .established) (hne : p ≠ []) :
      Sends p true (s.send port p).session.toSession (s.send port p).effects

theorem Session.bind_foreign (s : Session) (port : UInt16) :
    (s.bind port).1.faddr = s.faddr ∧ (s.bind port).1.fport = s.fport := by
  unfold Session.bind
  split
  · exact ⟨rfl, rfl⟩
  · exact ⟨rfl, rfl⟩

theorem Session.disconnect_connected {t : Session} {faddr : UInt32}
    {fport : UInt16} (h : t.faddr = faddr ∧ t.fport = fport) :
    t = { t.disconnect with faddr := faddr, fport := fport } := by
  rw [← h.left, ← h.right]
  rfl

theorem UdpSession.sendTo_effects (s : Session) (port : UInt16)
    (faddr : UInt32) (fport : UInt16) (p : Bytes) :
    (UdpSession.sendTo s port faddr fport p).effects =
      [.tx (UdpSession.datagram
        { (UdpSession.sendTo s port faddr fport p).session with
          faddr := faddr, fport := fport } p) p] := by
  generalize hbound : s.bind port = bound
  generalize hconnected : bound.1.connect bound.2 faddr fport = connected
  have hforeign : connected.1.faddr = faddr ∧ connected.1.fport = fport := by
    rw [← hconnected]
    exact Session.bind_foreign _ _
  have hsend := connected.1.bind_foreign connected.2
  rw [hforeign.left, hforeign.right] at hsend
  have hsession := Session.disconnect_connected hsend
  rw [UdpSession.sendTo]
  show [Effect.tx (UdpSession.datagram _ p) p] =
    [Effect.tx (UdpSession.datagram _ p) p]
  rw [Session.sendTo, hbound, hconnected]
  exact congrArg (fun t => [Effect.tx (UdpSession.datagram t p) p]) hsession

def headersSize (tcp : Bool) : Nat :=
  if tcp then 40 else 28

/-- A sent payload of at most one frame reaches the session at the other end
as one packet, and nothing else. -/
theorem Sends.delivered {p : Bytes} {tcp : Bool} {s : Session}
    {effects : List Effect} (hsends : Sends p tcp s effects)
    (hsize : headersSize tcp + p.length <= maxRawBytesSize) {ρ : Type}
    [DecidableEq ρ] {st : Stack ρ} {r : ρ} {sock : Sock}
    (hreceives : Receives st tcp s r sock) (last : UInt16)
    (uninit : SockaddrIn) :
    exists f, effects = [.tx f p] ∧
      exists st' effects',
        Ip.rx st uninit (TunIface.tx (Ip.tx last f p).1) =
          some (st', effects') ∧
        Delivered st tcp s p r sock st' := by
  cases hsends with
  | datagram s port =>
      have hwire := UdpSession.datagram_onWire (s.send port).1.1 last p
      refine ⟨_, rfl, hwire.udp_delivered ?_ uninit hreceives⟩
      rw [hwire.length]
      exact hsize
  | datagramTo s port faddr fport =>
      have hwire := UdpSession.datagram_onWire
        { (UdpSession.sendTo s port faddr fport p).session with
          faddr := faddr, fport := fport } last p
      refine ⟨_, UdpSession.sendTo_effects s port faddr fport p,
        hwire.udp_delivered ?_ uninit hreceives⟩
      rw [hwire.length]
      exact hsize
  | segment s port hestab hne =>
      have hcase := s.send_cases port p
      generalize s.send port p = result at hcase hreceives ⊢
      cases hcase with
      | data _ =>
          have hwire := (s.superSend port).data_addressed.onWire last p
          have hdoff := (s.superSend port).data_addressed.doff last p
          refine ⟨_, rfl, hwire.tcp_delivered hdoff hne ?_ uninit hreceives⟩
          rw [hwire.length]
          exact hsize
      | syn hstate =>
          rw [hestab] at hstate
          cases hstate
      | other _ hnot => exact absurd hestab hnot

def clientEnd : TcpSession where
  faddr := 0x0200a8c0
  fport := 0x5000
  laddr := 0x0100a8c0
  lport := 0x0104
  connState := .established
  onConnEstabCB := false
  sendUnack := 2
  sendNext := 2
  irs := 7
  recvNext := 8

def serverEnd : TcpSession where
  toSession := clientEnd.toSession.mirror
  connState := .established
  onConnEstabCB := false
  sendUnack := 8
  sendNext := 8
  irs := 1
  recvNext := 2

def serverStack : Stack Unit where
  groups := []
  udpPcbs := []
  tcpPcbs := [()]
  socks := fun _ => some ⟨Endpoint.create false, .tcp serverEnd⟩

theorem Sends.delivered_three_bytes :
    exists f, (clientEnd.send 1025 [104, 105, 33]).effects =
        [.tx f [104, 105, 33]] ∧
      exists st' effects',
        Ip.rx serverStack (SockaddrIn.inet 0 0)
            (TunIface.tx (Ip.tx 0 f [104, 105, 33]).1) =
          some (st', effects') ∧
        Delivered serverStack true
          (clientEnd.send 1025 [104, 105, 33]).session.toSession
          [104, 105, 33] () ⟨Endpoint.create false, .tcp serverEnd⟩ st' := by
  have hsends : Sends [104, 105, 33] true _ _ :=
    .segment clientEnd 1025 rfl (by decide)
  apply Sends.delivered hsends (by decide)
  constructor
  case listed => exact List.mem_singleton.2 rfl
  case live => rfl
  case kind => rfl
  case mirrored => rfl
  case estab =>
    intro t ht
    cases ht
    rfl
  case only =>
    intro it _ hne
    exact absurd rfl hne
  case room => rfl

end Velox
