import Velox.Tcp.TcpSession

/-!
# Layout of an outgoing segment

The frame that `socketBufferOfTcpTempl` allocates keeps its shape while the
headers are filled in: 40 free bytes, the IP header, the TCP header, and the
rest of the cleared block.  A store into a header is a store into its 20 bytes.
-/

namespace Velox

open Foundation

/-- A frame of the template's shape with the given header bytes. -/
structure LaidOut (f : FrameBuf) (ip tcp : Bytes) : Prop where
  rawBytes : f.rawBytes =
    List.replicate 40 0 ++ (ip ++ (tcp ++ List.replicate 40 0))
  networkHdr : f.networkHdr = some 40
  transportHdr : f.transportHdr = some 60
  hdrsBegin : f.hdrsBegin = some 40
  hdrsEnd : f.hdrsEnd = some 80
  ipLength : ip.length = 20
  tcpLength : tcp.length = 20

namespace LaidOut

variable {f : FrameBuf} {ip tcp : Bytes}

/-!
## Reading the headers
-/

theorem pointee_network (h : LaidOut f ip tcp) :
    f.pointee f.networkHdr = ip ++ (tcp ++ List.replicate 40 0) := by
  rw [h.networkHdr, FrameBuf.pointee, h.rawBytes]
  exact List.drop_left' (by simp)

theorem pointee_transport (h : LaidOut f ip tcp) :
    f.pointee f.transportHdr = tcp ++ List.replicate 40 0 := by
  rw [h.transportHdr, FrameBuf.pointee, h.rawBytes, ← List.append_assoc]
  exact List.drop_left' (by simp [h.ipLength])

theorem headerBytes (h : LaidOut f ip tcp) :
    f.range f.hdrsBegin f.hdrsEnd = ip ++ tcp := by
  have hdrop : f.rawBytes.drop 40 = ip ++ (tcp ++ List.replicate 40 0) := by
    rw [h.rawBytes]
    exact List.drop_left' (by simp)
  rw [h.hdrsBegin, h.hdrsEnd, FrameBuf.range, hdrop, ← List.append_assoc]
  exact List.take_left' (by simp [h.ipLength, h.tcpLength])

theorem byteAt_network (h : LaidOut f ip tcp) {i : Nat} (hi : i < 20) :
    byteAt (f.pointee f.networkHdr) i = byteAt ip i := by
  rw [h.pointee_network]
  exact byteAt_append_left _ (by rw [h.ipLength]; exact hi)

theorem byteAt_transport (h : LaidOut f ip tcp) {i : Nat} (hi : i < 20) :
    byteAt (f.pointee f.transportHdr) i = byteAt tcp i := by
  rw [h.pointee_transport]
  exact byteAt_append_left _ (by rw [h.tcpLength]; exact hi)

/-!
## Stores into the headers

Every store is a sequence of single-byte stores, so one lemma for each header
carries all of them.
-/

private theorem set_ip (hip : ip.length = 20) {i : Nat} (hi : i < 20)
    (v : UInt8) :
    (List.replicate 40 (0 : UInt8) ++
        (ip ++ (tcp ++ List.replicate 40 0))).set (40 + i) v =
      List.replicate 40 0 ++ (ip.set i v ++ (tcp ++ List.replicate 40 0)) := by
  rw [List.set_append_right _ _ (by simp)]
  simp only [List.length_replicate, Nat.add_sub_cancel_left]
  rw [List.set_append_left _ _ (by rw [hip]; exact hi)]

private theorem set_tcp (hip : ip.length = 20) (htcp : tcp.length = 20)
    {i : Nat} (hi : i < 20) (v : UInt8) :
    (List.replicate 40 (0 : UInt8) ++
        (ip ++ (tcp ++ List.replicate 40 0))).set (60 + i) v =
      List.replicate 40 0 ++ (ip ++ (tcp.set i v ++ List.replicate 40 0)) := by
  have hskip : 60 + i = 40 + (20 + i) := by lia
  rw [hskip, List.set_append_right _ _ (by simp)]
  simp only [List.length_replicate, Nat.add_sub_cancel_left]
  rw [List.set_append_right _ _ (by lia), hip, Nat.add_sub_cancel_left,
    List.set_append_left _ _ (by rw [htcp]; exact hi)]

private theorem write8_40 (h : LaidOut f ip tcp) {i : Nat} (hi : i < 20)
    (v : UInt8) : LaidOut (f.write8 (some 40) i v) (store8 ip i v) tcp := by
  refine ⟨?_, h.networkHdr, h.transportHdr, h.hdrsBegin, h.hdrsEnd, ?_,
    h.tcpLength⟩
  · simp only [FrameBuf.write8, h.rawBytes, store8]
    exact set_ip h.ipLength hi v
  · simp [h.ipLength]

private theorem write8_60 (h : LaidOut f ip tcp) {i : Nat} (hi : i < 20)
    (v : UInt8) : LaidOut (f.write8 (some 60) i v) ip (store8 tcp i v) := by
  refine ⟨?_, h.networkHdr, h.transportHdr, h.hdrsBegin, h.hdrsEnd,
    h.ipLength, ?_⟩
  · simp only [FrameBuf.write8, h.rawBytes, store8]
    exact set_tcp h.ipLength h.tcpLength hi v
  · simp [h.tcpLength]

theorem write8_network (h : LaidOut f ip tcp) {i : Nat} (hi : i < 20)
    (v : UInt8) :
    LaidOut (f.write8 f.networkHdr i v) (store8 ip i v) tcp := by
  rw [h.networkHdr]
  exact h.write8_40 hi v

theorem write8_transport (h : LaidOut f ip tcp) {i : Nat} (hi : i < 20)
    (v : UInt8) :
    LaidOut (f.write8 f.transportHdr i v) ip (store8 tcp i v) := by
  rw [h.transportHdr]
  exact h.write8_60 hi v

theorem write16_network (h : LaidOut f ip tcp) {i : Nat} (hi : i < 19)
    (v : UInt16) :
    LaidOut (f.write16 f.networkHdr i v) (store16 ip i v) tcp := by
  have h0 := h.write8_40 (i := i) (by lia) (byteOf v.toNat 0)
  rw [h.networkHdr]
  exact h0.write8_40 (i := i + 1) (by lia) (byteOf v.toNat 1)

theorem write16_transport (h : LaidOut f ip tcp) {i : Nat} (hi : i < 19)
    (v : UInt16) :
    LaidOut (f.write16 f.transportHdr i v) ip (store16 tcp i v) := by
  have h0 := h.write8_60 (i := i) (by lia) (byteOf v.toNat 0)
  rw [h.transportHdr]
  exact h0.write8_60 (i := i + 1) (by lia) (byteOf v.toNat 1)

theorem write32_network (h : LaidOut f ip tcp) {i : Nat} (hi : i < 17)
    (v : UInt32) :
    LaidOut (f.write32 f.networkHdr i v) (store32 ip i v) tcp := by
  have h0 := h.write8_40 (i := i) (by lia) (byteOf v.toNat 0)
  have h1 := h0.write8_40 (i := i + 1) (by lia) (byteOf v.toNat 1)
  have h2 := h1.write8_40 (i := i + 2) (by lia) (byteOf v.toNat 2)
  rw [h.networkHdr]
  exact h2.write8_40 (i := i + 3) (by lia) (byteOf v.toNat 3)

theorem write32_transport (h : LaidOut f ip tcp) {i : Nat} (hi : i < 17)
    (v : UInt32) :
    LaidOut (f.write32 f.transportHdr i v) ip (store32 tcp i v) := by
  have h0 := h.write8_60 (i := i) (by lia) (byteOf v.toNat 0)
  have h1 := h0.write8_60 (i := i + 1) (by lia) (byteOf v.toNat 1)
  have h2 := h1.write8_60 (i := i + 2) (by lia) (byteOf v.toNat 2)
  rw [h.transportHdr]
  exact h2.write8_60 (i := i + 3) (by lia) (byteOf v.toNat 3)

/-!
## Header fields
-/

theorem seq (h : LaidOut f ip tcp) : TcpHdr.seq f = load32 tcp 4 :=
  load32_congr fun _ _ => h.byteAt_transport (by lia)

theorem ackSeq (h : LaidOut f ip tcp) : TcpHdr.ackSeq f = load32 tcp 8 :=
  load32_congr fun _ _ => h.byteAt_transport (by lia)

theorem syn (h : LaidOut f ip tcp) :
    TcpHdr.syn f = (byteAt tcp 13).toNat.testBit 1 := by
  rw [TcpHdr.syn, h.byteAt_transport (by decide)]

theorem doff (h : LaidOut f ip tcp) :
    TcpHdr.doff f = (byteAt tcp 12).toNat / 16 := by
  rw [TcpHdr.doff, h.byteAt_transport (by decide)]

theorem setDoff (h : LaidOut f ip tcp) (v : Nat) :
    LaidOut (TcpHdr.setDoff f v) ip
      (store8 tcp 12 (UInt8.ofNat (16 * v + (byteAt tcp 12).toNat % 16))) := by
  rw [TcpHdr.setDoff, h.byteAt_transport (by decide)]
  exact h.write8_transport (by decide) _

theorem setSyn (h : LaidOut f ip tcp) :
    LaidOut (TcpHdr.setSyn f) ip
      (store8 tcp 13 (byteAt tcp 13 ||| 0x02)) := by
  rw [TcpHdr.setSyn, h.byteAt_transport (by decide)]
  exact h.write8_transport (by decide) _

theorem setAck (h : LaidOut f ip tcp) :
    LaidOut (TcpHdr.setAck f) ip
      (store8 tcp 13 (byteAt tcp 13 ||| 0x10)) := by
  rw [TcpHdr.setAck, h.byteAt_transport (by decide)]
  exact h.write8_transport (by decide) _

theorem setSeq (h : LaidOut f ip tcp) (v : UInt32) :
    LaidOut (TcpHdr.setSeq f v) ip (store32 tcp 4 v) :=
  h.write32_transport (by decide) v

theorem setAckSeq (h : LaidOut f ip tcp) (v : UInt32) :
    LaidOut (TcpHdr.setAckSeq f v) ip (store32 tcp 8 v) :=
  h.write32_transport (by decide) v

end LaidOut

/-!
## The segments of a session

The TCP headers of the template and of the three kinds of segment, before the
checksum is stored.
-/

namespace TcpSession

def portsHeader (s : TcpSession) : Bytes :=
  store16 (store16 (List.replicate 20 0) 0 s.lport) 2 s.fport

def templHeader (s : TcpSession) : Bytes :=
  store16 (store8 s.portsHeader 12 0x50) 14 (ntohs 4096)

def synHeader (s : TcpSession) : Bytes :=
  store8 (store32 s.templHeader 4 (ntohl iss)) 13 0x02

def dataHeader (s : TcpSession) : Bytes :=
  store32 (store8 (store32 s.templHeader 4 (ntohl s.sendNext)) 13 0x10) 8
    (ntohl s.recvNext)

def ackHeader (s : TcpSession) (value : UInt32) : Bytes :=
  store32 (store32 (store8 s.templHeader 13 0x10) 8 (ntohl value)) 4
    (ntohl s.sendNext)

theorem byteAt_portsHeader (s : TcpSession) {i : Nat} (hi : 4 <= i) :
    byteAt s.portsHeader i = 0 := by
  rw [portsHeader, byteAt_store16_of_disjoint _ _ (by lia),
    byteAt_store16_of_disjoint _ _ (by lia), byteAt_replicate_zero]

theorem byteAt_templHeader (s : TcpSession) {i : Nat} (hi : 4 <= i)
    (hdoff : i ≠ 12) (hwindow : i < 14 ∨ 16 <= i) :
    byteAt s.templHeader i = 0 := by
  rw [templHeader, byteAt_store16_of_disjoint _ _ (by lia),
    byteAt_store8_of_disjoint _ _ (by lia), s.byteAt_portsHeader hi]

theorem templ_laidOut (s : TcpSession) :
    LaidOut s.socketBufferOfTcpTempl (List.replicate 20 0) s.templHeader := by
  have hblock : LaidOut
      { rawBytes := List.replicate 120 0, transportHdr := some 60,
        networkHdr := some 40, hdrsBegin := some 40, hdrsEnd := some 80,
        userPayloadBegin := none, userPayloadEnd := none,
        size_le := by decide }
      (List.replicate 20 0) (List.replicate 20 0) := by
    refine ⟨?_, rfl, rfl, rfl, rfl, by simp, by simp⟩
    simp only [List.replicate_append_replicate]
  have hsource := hblock.write16_transport (i := 0) (by decide) s.lport
  have hports := hsource.write16_transport (i := 2) (by decide) s.fport
  have hdoff := hports.setDoff (20 / 4)
  have hclear : byteAt (store16 (store16 (List.replicate 20 0) 0 s.lport) 2
      s.fport) 12 = 0 := s.byteAt_portsHeader (by decide)
  rw [hclear] at hdoff
  exact hdoff.write16_transport (i := 14) (by decide) (ntohs 4096)

theorem syn_laidOut (s : TcpSession) :
    LaidOut s.synFrame (List.replicate 20 0) s.synHeader := by
  have hseq := s.templ_laidOut.setSeq (ntohl iss)
  have hsyn := hseq.setSyn
  rw [byteAt_store32_of_disjoint _ _ (by decide),
    s.byteAt_templHeader (by decide) (by decide) (by decide)] at hsyn
  exact hsyn

theorem data_laidOut (s : TcpSession) :
    LaidOut s.dataFrame (List.replicate 20 0) s.dataHeader := by
  have hseq := s.templ_laidOut.setSeq (ntohl s.sendNext)
  have hack := hseq.setAck
  rw [byteAt_store32_of_disjoint _ _ (by decide),
    s.byteAt_templHeader (by decide) (by decide) (by decide)] at hack
  exact hack.setAckSeq (ntohl s.recvNext)

theorem ack_laidOut (s : TcpSession) (value : UInt32) :
    LaidOut (s.ackFrame value) (List.replicate 20 0) (s.ackHeader value) := by
  have hack := s.templ_laidOut.setAck
  rw [s.byteAt_templHeader (by decide) (by decide) (by decide)] at hack
  exact (hack.setAckSeq (ntohl value)).setSeq (ntohl s.sendNext)

/-- The bytes that `prepareBeforeIpTx` relies on in a TCP header. -/
structure HeaderReady (tcp : Bytes) : Prop where
  doff : byteAt tcp 12 = 0x50
  checkLow : byteAt tcp 16 = 0
  checkHigh : byteAt tcp 17 = 0

theorem templHeader_ready (s : TcpSession) : HeaderReady s.templHeader where
  doff := by
    rw [templHeader, byteAt_store16_of_disjoint _ _ (by decide)]
    exact byteAt_set_self _ _ (by simp [portsHeader])
  checkLow := s.byteAt_templHeader (by decide) (by decide) (by decide)
  checkHigh := s.byteAt_templHeader (by decide) (by decide) (by decide)

theorem HeaderReady.store8 {tcp : Bytes} (h : HeaderReady tcp) (v : UInt8) :
    HeaderReady (store8 tcp 13 v) where
  doff := by rw [byteAt_store8_of_disjoint _ _ (by decide)]; exact h.doff
  checkLow := by
    rw [byteAt_store8_of_disjoint _ _ (by decide)]
    exact h.checkLow
  checkHigh := by
    rw [byteAt_store8_of_disjoint _ _ (by decide)]
    exact h.checkHigh

theorem HeaderReady.store32 {tcp : Bytes} (h : HeaderReady tcp) {i : Nat}
    (hi : i + 4 <= 12) (v : UInt32) : HeaderReady (store32 tcp i v) where
  doff := by rw [byteAt_store32_of_disjoint _ _ (by lia)]; exact h.doff
  checkLow := by
    rw [byteAt_store32_of_disjoint _ _ (by lia)]
    exact h.checkLow
  checkHigh := by
    rw [byteAt_store32_of_disjoint _ _ (by lia)]
    exact h.checkHigh

theorem synHeader_ready (s : TcpSession) : HeaderReady s.synHeader :=
  (s.templHeader_ready.store32 (by decide) _).store8 _

theorem dataHeader_ready (s : TcpSession) : HeaderReady s.dataHeader :=
  ((s.templHeader_ready.store32 (by decide) _).store8 _).store32 (by decide) _

theorem ackHeader_ready (s : TcpSession) (value : UInt32) :
    HeaderReady (s.ackHeader value) :=
  ((s.templHeader_ready.store8 _).store32 (by decide) _).store32 (by decide) _

/-!
## Preparation for the IP layer
-/

/-- The IP header as `prepareBeforeIpTx` overlays it for the checksum. -/
def overlayHeader (s : TcpSession) (buf : Bytes) : Bytes :=
  store32
    (store32
      (store16 (store8 (List.replicate 20 0) 9 6) 10
        (ntohs (UInt16.ofNat (buf.length + 20)))) 12 s.laddr) 16 s.faddr

/-- The IP header that `prepareBeforeIpTx` leaves for `Ip::tx`. -/
def preparedHeader (s : TcpSession) (buf : Bytes) : Bytes :=
  store16
    (store16 (store8 (store8 (s.overlayHeader buf) 8 64) 1 0) 2
      (ntohs (UInt16.ofNat (buf.length + 40)))) 10 0

def segmentCheck (s : TcpSession) (tcp buf : Bytes) : UInt16 :=
  (Csum16.checksum (s.overlayHeader buf ++ (tcp ++ List.replicate 40 0)) 40
    (Csum16.sumLoop buf 0).toInt32).toUInt16

def overlaid (s : TcpSession) (ip buf : Bytes) : Bytes :=
  store32
    (store32
      (store16 (store8 ip 9 6) 10 (ntohs (UInt16.ofNat (buf.length + 20))))
      12 s.laddr) 16 s.faddr

theorem fillPseudoHdr_laidOut (s : TcpSession) {f : FrameBuf}
    {ip tcp : Bytes} (buf : Bytes) (h : LaidOut f ip tcp) :
    LaidOut (s.fillPseudoHdr f buf) (s.overlaid ip buf) tcp := by
  have hproto := h.write8_network (i := 9) (by decide) 6
  have hlen := hproto.write16_network (i := 10) (by decide)
    (ntohs (UInt16.ofNat (buf.length + 20)))
  have hsaddr := hlen.write32_network (i := 12) (by decide) s.laddr
  exact hsaddr.write32_network (i := 16) (by decide) s.faddr

theorem prepareBeforeIpTx_overlaid (s : TcpSession) {f : FrameBuf}
    {ip tcp : Bytes} (buf : Bytes) (h : LaidOut f ip tcp)
    (hdoff : (byteAt tcp 12).toNat / 16 = 5) :
    LaidOut (s.prepareBeforeIpTx f buf)
      (store16
        (store16 (store8 (store8 (s.overlaid ip buf) 8 64) 1 0) 2
          (ntohs (UInt16.ofNat (buf.length + 40)))) 10 0)
      (store16 tcp 16
        (Csum16.checksum
          (s.overlaid ip buf ++ (tcp ++ List.replicate 40 0)) 40
          (Csum16.sumLoop buf 0).toInt32).toUInt16) := by
  have hoverlay := s.fillPseudoHdr_laidOut buf h
  have hcount : TcpHdr.doff (s.fillPseudoHdr f buf) * 4 + 20 = 40 := by
    rw [hoverlay.doff, hdoff]
  have hcheck := hoverlay.write16_transport (i := 16) (by decide)
    (Csum16.checksum
      (s.overlaid ip buf ++ (tcp ++ List.replicate 40 0)) 40
      (Csum16.sumLoop buf 0).toInt32).toUInt16
  have httl := hcheck.write8_network (i := 8) (by decide) 64
  have htos := httl.write8_network (i := 1) (by decide) 0
  have htotal := htos.write16_network (i := 2) (by decide)
    (ntohs (UInt16.ofNat (buf.length + 40)))
  simp only [prepareBeforeIpTx, hoverlay.pointee_network, hcount]
  exact htotal.write16_network (i := 10) (by decide) 0

theorem prepareBeforeIpTx_laidOut (s : TcpSession) {f : FrameBuf}
    {tcp : Bytes} (buf : Bytes) (h : LaidOut f (List.replicate 20 0) tcp)
    (hdoff : byteAt tcp 12 = 0x50) :
    LaidOut (s.prepareBeforeIpTx f buf) (s.preparedHeader buf)
      (store16 tcp 16 (s.segmentCheck tcp buf)) :=
  s.prepareBeforeIpTx_overlaid buf h (by rw [hdoff]; rfl)

end TcpSession

end Velox
