import Velox.Rpc
import Velox.Tcp.Layout

/-!
# Checksums of outgoing segments

The TCP checksum is computed over an overlay of the pseudo-header on the IP
header, whose fields are then overwritten; the IP checksum follows in `Ip::tx`.
A receiver that checks the finished packet by the standards accepts it.
-/

namespace Velox

open Foundation

/-- The pseudo-header of RFC 793 for a segment of `len` bytes; the addresses
are in memory order. -/
def pseudoHeader (saddr daddr : UInt32) (len : Nat) : Bytes :=
  [byteOf saddr.toNat 0, byteOf saddr.toNat 1, byteOf saddr.toNat 2,
    byteOf saddr.toNat 3, byteOf daddr.toNat 0, byteOf daddr.toNat 1,
    byteOf daddr.toNat 2, byteOf daddr.toNat 3, 0, 6, byteOf len 1,
    byteOf len 0]

/-- What a standard receiver checks of an IPv4 packet with a TCP segment. -/
structure ReceiverAccepts (saddr daddr : UInt32) (payload pkt : Bytes) :
    Prop where
  version : (byteAt pkt 0).toNat / 16 = 4
  ihl : (byteAt pkt 0).toNat % 16 = 5
  protocol : byteAt pkt 9 = 6
  saddr_eq : load32 pkt 12 = saddr
  daddr_eq : load32 pkt 16 = daddr
  totalLength : 256 * (byteAt pkt 2).toNat + (byteAt pkt 3).toNat = pkt.length
  length_eq : pkt.length = 40 + payload.length
  payload_eq : pkt.drop 40 = payload
  ipSum : foldCarry (beSum (pkt.take 20)) = 0xffff
  tcpSum : foldCarry (beSum
    (pseudoHeader saddr daddr (20 + payload.length) ++ pkt.drop 20)) = 0xffff

/-!
## The IP header

`Ip::tx` writes the first byte in two steps and stores the checksum over a
field that the transport layer has cleared.
-/

def namedHeader (last : UInt16) (ip : Bytes) : Bytes :=
  store16 (store8 (store8 ip 0 0x40) 0 0x45) 4 (IpIdGenerator.next last).1

def headerCheck (last : UInt16) (ip tcp : Bytes) : UInt16 :=
  (Csum16.checksum (namedHeader last ip ++ (tcp ++ List.replicate 40 0)) 20
    0).toUInt16

theorem LaidOut.ihl {f : FrameBuf} {ip tcp : Bytes} (h : LaidOut f ip tcp) :
    IpHdr.ihl f = (byteAt ip 0).toNat % 16 := by
  rw [IpHdr.ihl, h.byteAt_network (by decide)]

theorem LaidOut.version {f : FrameBuf} {ip tcp : Bytes}
    (h : LaidOut f ip tcp) :
    IpHdr.version f = (byteAt ip 0).toNat / 16 := by
  rw [IpHdr.version, h.byteAt_network (by decide)]

theorem ipTx_laidOut {f : FrameBuf} {ip tcp : Bytes} (last : UInt16)
    (payload : Bytes) (h : LaidOut f ip tcp) (hclear : byteAt ip 0 = 0) :
    LaidOut (Ip.tx last f payload).1.skbuf
      (store16 (namedHeader last ip) 10 (headerCheck last ip tcp)) tcp := by
  have hversion : LaidOut (IpHdr.setVersion f 4) (store8 ip 0 0x40) tcp := by
    rw [IpHdr.setVersion, h.ihl, hclear]
    exact h.write8_network (by decide) _
  have hfirst : byteAt (store8 ip 0 0x40) 0 = 0x40 :=
    byteAt_set_self ip _ (by rw [h.ipLength]; decide)
  have hihl : LaidOut (IpHdr.setIhl (IpHdr.setVersion f 4) (20 / 4))
      (store8 (store8 ip 0 0x40) 0 0x45) tcp := by
    rw [IpHdr.setIhl, hversion.version, hfirst]
    exact hversion.write8_network (by decide) _
  have hnamed := hihl.write16_network (i := 4) (by decide)
    (IpIdGenerator.next last).1
  have hsecond : byteAt (namedHeader last ip) 0 = 0x45 := by
    rw [namedHeader, byteAt_store16_of_disjoint _ _ (by decide)]
    exact byteAt_set_self _ _ (by rw [hversion.ipLength]; decide)
  have hcount : IpHdr.ihl (IpHdr.setId
      (IpHdr.setIhl (IpHdr.setVersion f 4) (20 / 4))
      (IpIdGenerator.next last).1) * 4 = 20 := by
    have hread := hnamed.ihl
    rw [show store16 (store8 (store8 ip 0 0x40) 0 0x45) 4
      (IpIdGenerator.next last).1 = namedHeader last ip from rfl,
      hsecond] at hread
    exact congrArg (fun n => n * 4) hread
  have hread : (IpHdr.setId (IpHdr.setIhl (IpHdr.setVersion f 4) (20 / 4))
      (IpIdGenerator.next last).1).pointee
        (IpHdr.setId (IpHdr.setIhl (IpHdr.setVersion f 4) (20 / 4))
          (IpIdGenerator.next last).1).networkHdr =
      namedHeader last ip ++ (tcp ++ List.replicate 40 0) :=
    hnamed.pointee_network
  have hcheck := hnamed.write16_network (i := 10) (by decide)
    (headerCheck last ip tcp)
  simp only [Ip.tx, hcount, hread]
  exact hcheck

theorem headerSum_allOnes (last : UInt16) (ip tcp : Bytes)
    (hlen : ip.length = 20) (h10 : byteAt ip 10 = 0) (h11 : byteAt ip 11 = 0) :
    foldCarry (leSum (store16 (namedHeader last ip) 10
      (headerCheck last ip tcp))) = 65535 := by
  have hnamed : (namedHeader last ip).length = 20 := by
    simp [namedHeader, hlen]
  have hkeep : forall i, 6 <= i ->
      byteAt (namedHeader last ip) i = byteAt ip i := by
    intro i hi
    rw [namedHeader, byteAt_store16_of_disjoint _ _ (by lia),
      byteAt_store8_of_disjoint _ _ (by lia),
      byteAt_store8_of_disjoint _ _ (by lia)]
  have hbound := leSum_le (namedHeader last ip)
  rw [hnamed] at hbound
  have htake : (namedHeader last ip ++ (tcp ++ List.replicate 40 0)).take 20 =
      namedHeader last ip :=
    List.take_left' hnamed
  have hcheck : (headerCheck last ip tcp).toNat =
      65535 - foldCarry (leSum (namedHeader last ip)) := by
    have hvalue := Csum16.checksum_toUInt16_toNat
      (namedHeader last ip ++ (tcp ++ List.replicate 40 0)) 20 0
      (by rw [htake, UInt32.toNat_zero]; lia)
    rw [htake, UInt32.toNat_zero, Nat.zero_add] at hvalue
    exact hvalue
  have hstore := leSum_store16 (namedHeader last ip) 5
    (headerCheck last ip tcp) (by rw [hnamed]; decide)
    (by rw [hkeep _ (by decide)]; exact h10)
    (by rw [hkeep _ (by decide)]; exact h11)
  rw [hstore, hcheck]
  exact foldCarry_add_complement _

/-!
## The segment
-/

namespace TcpSession

theorem length_overlayHeader (s : TcpSession) (buf : Bytes) :
    (s.overlayHeader buf).length = 20 := by
  rw [overlayHeader, length_store32, length_store32, length_store16,
    length_store8, List.length_replicate]

theorem overlayHeader_bytes (s : TcpSession) (buf : Bytes) :
    s.overlayHeader buf =
      [0, 0, 0, 0, 0, 0, 0, 0, 0, 6,
        byteOf (ntohs (UInt16.ofNat (buf.length + 20))).toNat 0,
        byteOf (ntohs (UInt16.ofNat (buf.length + 20))).toNat 1,
        byteOf s.laddr.toNat 0, byteOf s.laddr.toNat 1,
        byteOf s.laddr.toNat 2, byteOf s.laddr.toNat 3,
        byteOf s.faddr.toNat 0, byteOf s.faddr.toNat 1,
        byteOf s.faddr.toNat 2, byteOf s.faddr.toNat 3] :=
  rfl

/-- The overlay adds up to the pseudo-header: the fields it still lacks are
zero when the checksum is taken. -/
theorem leSum_overlayHeader (s : TcpSession) (buf : Bytes)
    (hlen : buf.length <= 65495) :
    leSum (s.overlayHeader buf) =
      leSum (pseudoHeader s.laddr s.faddr (20 + buf.length)) := by
  have hfield : (UInt16.ofNat (buf.length + 20)).toNat = 20 + buf.length := by
    rw [UInt16.toNat_ofNat']
    omega
  rw [overlayHeader_bytes, ntohs, byteOf_bswap16_zero, byteOf_bswap16_one,
    hfield]
  simp only [pseudoHeader, leSum, UInt8.toNat_zero]
  ring

/-- The stored checksum completes pseudo-header, TCP header and payload. -/
theorem segmentSum_allOnes (s : TcpSession) (tcp buf : Bytes)
    (htcp : tcp.length = 20) (h16 : byteAt tcp 16 = 0)
    (h17 : byteAt tcp 17 = 0) (hlen : buf.length <= 65495) :
    foldCarry (leSum (pseudoHeader s.laddr s.faddr (20 + buf.length) ++
      (store16 tcp 16 (s.segmentCheck tcp buf) ++ buf))) = 65535 := by
  have htake : (s.overlayHeader buf ++ (tcp ++ List.replicate 40 0)).take 40 =
      s.overlayHeader buf ++ tcp := by
    rw [← List.append_assoc]
    exact List.take_left' (by
      rw [List.length_append, htcp, s.length_overlayHeader buf])
  have heven : Even (s.overlayHeader buf).length := by
    rw [s.length_overlayHeader buf]
    decide
  have hoverlay := leSum_append tcp heven
  have hpayload := leSum_le buf
  have hoverlayLe := leSum_le (s.overlayHeader buf)
  have htcpLe := leSum_le tcp
  rw [s.length_overlayHeader buf] at hoverlayLe
  rw [htcp] at htcpLe
  have hsum : (Csum16.sumLoop buf 0).toNat = leSum buf := by
    rw [Csum16.sumLoop_toNat buf 0 (by rw [UInt32.toNat_zero]; lia),
      UInt32.toNat_zero, Nat.zero_add]
  have hcheck : (s.segmentCheck tcp buf).toNat =
      65535 - foldCarry (leSum buf + leSum (s.overlayHeader buf ++ tcp)) := by
    have hvalue := Csum16.checksum_toUInt16_toNat
      (s.overlayHeader buf ++ (tcp ++ List.replicate 40 0)) 40
      (Csum16.sumLoop buf 0) (by rw [htake, hsum, hoverlay]; lia)
    rw [htake, hsum] at hvalue
    exact hvalue
  have hstore := leSum_store16 tcp 8 (s.segmentCheck tcp buf)
    (by rw [htcp]; decide) h16 h17
  have htotal : leSum (pseudoHeader s.laddr s.faddr (20 + buf.length) ++
      (store16 tcp 16 (s.segmentCheck tcp buf) ++ buf)) =
        (leSum buf + leSum (s.overlayHeader buf ++ tcp)) +
          (s.segmentCheck tcp buf).toNat := by
    have hpseudo : Even
        (pseudoHeader s.laddr s.faddr (20 + buf.length)).length := by
      show Even 12
      decide
    have hstored :
        Even (store16 tcp 16 (s.segmentCheck tcp buf)).length := by
      rw [length_store16, htcp]
      decide
    rw [leSum_append _ hpseudo, leSum_append _ hstored, hoverlay,
      leSum_overlayHeader s buf hlen]
    show _ + (leSum (store16 tcp (2 * 8) _) + _) = _
    rw [hstore]
    ring
  rw [htotal, hcheck]
  exact foldCarry_add_complement _

/-!
## The sum in two parts

The payload is summed first, and its sum goes to `Csum16::checksum` as a
signed number.
-/

def storedCheck (f : FrameBuf) : UInt16 :=
  load16 (f.pointee f.transportHdr) 16

/-- The checksum is that of header and payload in one piece, and the sums of
the payload and of the header after it do not wrap. -/
structure OneShot (header buf : Bytes) (check : UInt16) : Prop where
  agrees : check =
    (Csum16.checksum (header ++ buf) (40 + buf.length) 0).toUInt16
  payload_noWrap : Csum16.NoWrap buf 0
  header_noWrap : Csum16.NoWrap header (Csum16.sumLoop buf 0)

theorem oneShot {header buf : Bytes} (hheader : header.length = 40)
    (hlen : buf.length <= rpcMessageMaxSize) (rest : Bytes) :
    OneShot header buf
      (Csum16.checksum (header ++ rest) 40
        (Csum16.sumLoop buf 0).toInt32).toUInt16 := by
  have hbuf := leSum_le buf
  have hhdr := leSum_le header
  rw [hheader] at hhdr
  unfold rpcMessageMaxSize at hlen
  have hpayload : Csum16.NoWrap buf 0 := by
    rw [Csum16.noWrap_iff, UInt32.toNat_zero]
    lia
  have hafter : Csum16.NoWrap header (Csum16.sumLoop buf 0) := by
    rw [Csum16.noWrap_iff, Csum16.sumLoop_toNat _ _
      ((Csum16.noWrap_iff buf 0).1 hpayload), UInt32.toNat_zero]
    lia
  have heven : Even header.length := by
    rw [hheader]
    decide
  have hparts := Csum16.checksum_of_parts heven hpayload hafter rest
  rw [hheader] at hparts
  exact ⟨hparts, hpayload, hafter⟩

theorem length_overlaid (s : TcpSession) (ip buf : Bytes) :
    (s.overlaid ip buf).length = ip.length := by
  rw [overlaid, length_store32, length_store32, length_store16, length_store8]

theorem storedCheck_prepareBeforeIpTx (s : TcpSession) {f : FrameBuf}
    {ip tcp : Bytes} (buf : Bytes) (h : LaidOut f ip tcp)
    (hdoff : (byteAt tcp 12).toNat / 16 = 5) :
    storedCheck (s.prepareBeforeIpTx f buf) =
      (Csum16.checksum
        ((s.overlaid ip buf ++ tcp) ++ List.replicate 40 0) 40
        (Csum16.sumLoop buf 0).toInt32).toUInt16 := by
  have hprepared := s.prepareBeforeIpTx_overlaid buf h hdoff
  have hread : forall k, k < 2 -> 16 + k < 20 := by
    intro k hk
    lia
  rw [storedCheck, load16_shift fun k hk =>
    hprepared.byteAt_transport (hread k hk), List.append_assoc]
  refine load16_store16 _ _ _ ?_
  rw [h.tcpLength]
  decide

/-- For every payload that a request can bring, the checksum in two parts is
the one-shot checksum, over any header of 40 bytes and in particular over the
one that `prepareBeforeIpTx` has before it. -/
theorem split_checksum_is_one_shot {buf : Bytes}
    (hlen : buf.length <= rpcMessageMaxSize) :
    (forall header : Bytes, header.length = 40 ->
        OneShot header buf (Csum16.checksum header 40
          (Csum16.sumLoop buf 0).toInt32).toUInt16) ∧
      forall (s : TcpSession) (f : FrameBuf) (ip tcp : Bytes),
        LaidOut f ip tcp -> (byteAt tcp 12).toNat / 16 = 5 ->
          OneShot (s.overlaid ip buf ++ tcp) buf
            (storedCheck (s.prepareBeforeIpTx f buf)) := by
  constructor
  · intro header hheader
    have hshot := oneShot hheader hlen []
    rw [List.append_nil] at hshot
    exact hshot
  · intro s f ip tcp hlaid hdoff
    rw [s.storedCheck_prepareBeforeIpTx buf hlaid hdoff]
    refine oneShot ?_ hlen _
    rw [List.length_append, length_overlaid, hlaid.ipLength, hlaid.tcpLength]

theorem split_checksum_of_three_bytes :
    OneShot (List.replicate 40 1) [104, 105, 33]
        (Csum16.checksum (List.replicate 40 1) 40
          (Csum16.sumLoop [104, 105, 33] 0).toInt32).toUInt16 ∧
      forall s : TcpSession,
        OneShot (s.overlaid (List.replicate 20 0) [104, 105, 33] ++
            s.dataHeader) [104, 105, 33]
          (storedCheck
            (s.prepareBeforeIpTx s.dataFrame [104, 105, 33])) := by
  have hsplit := @split_checksum_is_one_shot [104, 105, 33] (by decide)
  refine ⟨hsplit.1 _ List.length_replicate, ?_⟩
  intro s
  refine hsplit.2 s s.dataFrame _ _ s.data_laidOut ?_
  rw [s.dataHeader_ready.doff]
  rfl

theorem length_preparedHeader (s : TcpSession) (buf : Bytes) :
    (s.preparedHeader buf).length = 20 := by
  rw [preparedHeader, length_store16, length_store16, length_store8,
    length_store8, length_overlayHeader]

theorem byteAt_preparedHeader (s : TcpSession) (buf : Bytes) {i : Nat}
    (htos : i ≠ 1) (hlen : i ≠ 2 ∧ i ≠ 3) (httl : i ≠ 8)
    (hcheck : i ≠ 10 ∧ i ≠ 11) :
    byteAt (s.preparedHeader buf) i = byteAt (s.overlayHeader buf) i := by
  rw [preparedHeader, byteAt_store16_of_disjoint _ _ (by lia),
    byteAt_store16_of_disjoint _ _ (by lia),
    byteAt_store8_of_disjoint _ _ (by lia),
    byteAt_store8_of_disjoint _ _ (by lia)]

theorem load32_preparedHeader (s : TcpSession) (buf : Bytes) {i : Nat}
    (hi : 12 <= i) :
    load32 (s.preparedHeader buf) i = load32 (s.overlayHeader buf) i :=
  load32_congr fun _ _ =>
    s.byteAt_preparedHeader buf (by lia) (by lia) (by lia) (by lia)

theorem preparedHeader_check (s : TcpSession) (buf : Bytes) :
    byteAt (s.preparedHeader buf) 10 = 0 ∧
      byteAt (s.preparedHeader buf) 11 = 0 := by
  have hlen := s.length_preparedHeader buf
  rw [preparedHeader, length_store16] at hlen
  rw [preparedHeader, byteAt_store16_low _ _ (by rw [hlen]; decide),
    byteAt_store16_high _ _ (by rw [hlen]; decide)]
  exact ⟨rfl, rfl⟩

theorem preparedHeader_len (s : TcpSession) (buf : Bytes)
    (hlen : buf.length <= 65495) :
    256 * (byteAt (s.preparedHeader buf) 2).toNat +
      (byteAt (s.preparedHeader buf) 3).toNat = 40 + buf.length := by
  have hfield : (UInt16.ofNat (buf.length + 40)).toNat = 40 + buf.length := by
    rw [UInt16.toNat_ofNat']
    omega
  have hsize := s.length_preparedHeader buf
  rw [preparedHeader, length_store16, length_store16] at hsize
  rw [preparedHeader,
    byteAt_store16_of_disjoint (i := 10) (j := 2) _ _ (by decide),
    byteAt_store16_of_disjoint (i := 10) (j := 3) _ _ (by decide),
    byteAt_store16_low _ _ (by rw [hsize]; decide),
    byteAt_store16_high _ _ (by rw [hsize]; decide), ntohs,
    byteOf_bswap16_zero, byteOf_bswap16_one, hfield, byteOf_toNat,
    byteOf_toNat]
  omega

def sentHeader (s : TcpSession) (last : UInt16) (tcp buf : Bytes) : Bytes :=
  store16 (namedHeader last (s.preparedHeader buf)) 10
    (headerCheck last (s.preparedHeader buf)
      (store16 tcp 16 (s.segmentCheck tcp buf)))

theorem length_sentHeader (s : TcpSession) (last : UInt16) (tcp buf : Bytes) :
    (s.sentHeader last tcp buf).length = 20 := by
  rw [sentHeader, length_store16, namedHeader, length_store16, length_store8,
    length_store8]
  exact s.length_preparedHeader buf

theorem byteAt_sentHeader (s : TcpSession) (last : UInt16) (tcp buf : Bytes)
    {i : Nat} (hfirst : i ≠ 0) (hid : i ≠ 4 ∧ i ≠ 5)
    (hcheck : i ≠ 10 ∧ i ≠ 11) :
    byteAt (s.sentHeader last tcp buf) i = byteAt (s.preparedHeader buf) i := by
  rw [sentHeader, byteAt_store16_of_disjoint _ _ (by lia), namedHeader,
    byteAt_store16_of_disjoint _ _ (by lia),
    byteAt_store8_of_disjoint _ _ (by lia),
    byteAt_store8_of_disjoint _ _ (by lia)]

theorem sentHeader_first (s : TcpSession) (last : UInt16) (tcp buf : Bytes) :
    byteAt (s.sentHeader last tcp buf) 0 = 0x45 := by
  rw [sentHeader, byteAt_store16_of_disjoint _ _ (by decide), namedHeader,
    byteAt_store16_of_disjoint _ _ (by decide)]
  apply byteAt_set_self
  rw [length_store8, length_preparedHeader]
  decide

theorem prepared_wire (s : TcpSession) (last : UInt16) {f : FrameBuf}
    {tcp : Bytes} (buf : Bytes) (h : LaidOut f (List.replicate 20 0) tcp)
    (hdoff : byteAt tcp 12 = 0x50) :
    TunIface.tx (Ip.tx last (s.prepareBeforeIpTx f buf) buf).1 =
      s.sentHeader last tcp buf ++
        (store16 tcp 16 (s.segmentCheck tcp buf) ++ buf) := by
  have hprep := s.prepareBeforeIpTx_laidOut buf h hdoff
  have hclear : byteAt (s.preparedHeader buf) 0 = 0 := by
    rw [byteAt_preparedHeader s buf (by decide) (by decide) (by decide)
      (by decide), overlayHeader_bytes]
    rfl
  have hsent := ipTx_laidOut last buf hprep hclear
  rw [TunIface.tx, hsent.headerBytes, List.append_assoc]
  rfl

theorem sentHeader_load32 (s : TcpSession) (last : UInt16) (tcp buf : Bytes) :
    load32 (s.sentHeader last tcp buf) 12 = s.laddr ∧
      load32 (s.sentHeader last tcp buf) 16 = s.faddr := by
  have hkeep : forall i, 12 <= i ->
      load32 (s.sentHeader last tcp buf) i =
        load32 (s.overlayHeader buf) i := by
    intro i hi
    rw [← s.load32_preparedHeader buf hi]
    exact load32_congr fun _ _ =>
      s.byteAt_sentHeader last tcp buf (by lia) (by lia) (by lia)
  rw [hkeep 12 (by decide), hkeep 16 (by decide), overlayHeader]
  constructor
  · rw [load32_store32_of_disjoint _ _ (by decide)]
    exact load32_store32 _ _ _ (by simp)
  · exact load32_store32 _ _ _ (by simp)

theorem prepared_accepted (s : TcpSession) (last : UInt16) {f : FrameBuf}
    {tcp : Bytes} (buf : Bytes) (h : LaidOut f (List.replicate 20 0) tcp)
    (hdoff : byteAt tcp 12 = 0x50) (h16 : byteAt tcp 16 = 0)
    (h17 : byteAt tcp 17 = 0) (hlen : buf.length <= 65495) :
    ReceiverAccepts s.laddr s.faddr buf
      (TunIface.tx (Ip.tx last (s.prepareBeforeIpTx f buf) buf).1) := by
  have hip := s.length_sentHeader last tcp buf
  have htcp : (store16 tcp 16 (s.segmentCheck tcp buf)).length = 20 := by
    rw [length_store16]
    exact h.tcpLength
  have hread : forall i, i < 20 ->
      byteAt (s.sentHeader last tcp buf ++
        (store16 tcp 16 (s.segmentCheck tcp buf) ++ buf)) i =
          byteAt (s.sentHeader last tcp buf) i := by
    intro i hi
    exact byteAt_append_left _ (by rw [hip]; exact hi)
  have hload : forall i, i + 4 <= 20 ->
      load32 (s.sentHeader last tcp buf ++
        (store16 tcp 16 (s.segmentCheck tcp buf) ++ buf)) i =
          load32 (s.sentHeader last tcp buf) i := by
    intro i hi
    exact load32_congr fun k hk => hread _ (by lia)
  have htotal : (s.sentHeader last tcp buf ++
      (store16 tcp 16 (s.segmentCheck tcp buf) ++ buf)).length =
        40 + buf.length := by
    rw [List.length_append, List.length_append, hip, htcp]
    lia
  have hdrop : (s.sentHeader last tcp buf ++
      (store16 tcp 16 (s.segmentCheck tcp buf) ++ buf)).drop 20 =
        store16 tcp 16 (s.segmentCheck tcp buf) ++ buf :=
    List.drop_left' hip
  rw [s.prepared_wire last buf h hdoff]
  constructor
  case version =>
    rw [hread 0 (by decide), sentHeader_first]
    rfl
  case ihl =>
    rw [hread 0 (by decide), sentHeader_first]
    rfl
  case protocol =>
    rw [hread 9 (by decide), byteAt_sentHeader _ _ _ _ (by decide) (by decide)
      (by decide), byteAt_preparedHeader _ _ (by decide) (by decide)
      (by decide) (by decide), overlayHeader_bytes]
    rfl
  case saddr_eq =>
    rw [hload 12 (by decide)]
    exact (s.sentHeader_load32 last tcp buf).1
  case daddr_eq =>
    rw [hload 16 (by decide)]
    exact (s.sentHeader_load32 last tcp buf).2
  case totalLength =>
    rw [hread 2 (by decide), hread 3 (by decide),
      byteAt_sentHeader _ _ _ _ (by decide) (by decide) (by decide),
      byteAt_sentHeader _ _ _ _ (by decide) (by decide) (by decide),
      s.preparedHeader_len buf hlen, htotal]
  case length_eq => exact htotal
  case payload_eq =>
    rw [show 40 = 20 + 20 from rfl, ← List.drop_drop, hdrop]
    exact List.drop_left' htcp
  case ipSum =>
    rw [List.take_left' hip, foldCarry_beSum_eq_allOnes_iff]
    exact headerSum_allOnes last _ _ (s.length_preparedHeader buf)
      (s.preparedHeader_check buf).1 (s.preparedHeader_check buf).2
  case tcpSum =>
    rw [hdrop, foldCarry_beSum_eq_allOnes_iff]
    exact s.segmentSum_allOnes tcp buf h.tcpLength h16 h17 hlen

/-!
## Every packet of a session

The three kinds of segment differ in the flags, the sequence number and the
acknowledgement, none of which the checks look at.
-/

/-- Every packet among the effects is accepted, whatever identification
`Ip::tx` gives it. -/
def PacketsVerify (saddr daddr : UInt32) (effects : List Effect) : Prop :=
  forall last f payload, Effect.tx f payload ∈ effects ->
    ReceiverAccepts saddr daddr payload (TunIface.tx (Ip.tx last f payload).1)

theorem packetsVerify_nil (saddr daddr : UInt32) :
    PacketsVerify saddr daddr [] := by
  intro last f payload hmem
  cases hmem

theorem packetsVerify_cons {saddr daddr : UInt32} {e : Effect}
    {effects : List Effect} (hhead : PacketsVerify saddr daddr [e])
    (htail : PacketsVerify saddr daddr effects) :
    PacketsVerify saddr daddr (e :: effects) := by
  intro last f payload hmem
  rcases List.mem_cons.1 hmem with heq | hrest
  · exact hhead last f payload (List.mem_singleton.2 heq)
  · exact htail last f payload hrest

theorem packetsVerify_other {saddr daddr : UInt32} {e : Effect}
    (hother : forall f payload, .tx f payload ≠ e) :
    PacketsVerify saddr daddr [e] := by
  intro last f payload hmem
  exact absurd (List.mem_singleton.1 hmem) (hother f payload)

theorem packetsVerify_prepared (s : TcpSession) {f : FrameBuf} {tcp : Bytes}
    (buf : Bytes) (h : LaidOut f (List.replicate 20 0) tcp)
    (hready : HeaderReady tcp) (hlen : buf.length <= 65495) :
    PacketsVerify s.laddr s.faddr [.tx (s.prepareBeforeIpTx f buf) buf] := by
  intro last g payload hmem
  have hinj := Effect.tx.inj (List.mem_singleton.1 hmem)
  rw [hinj.1, hinj.2]
  exact s.prepared_accepted last buf h hready.doff hready.checkLow
    hready.checkHigh hlen

theorem packetsVerify_syn (s : TcpSession) (buf : Bytes)
    (hlen : buf.length <= 65495) :
    PacketsVerify s.laddr s.faddr [s.synSegment buf] :=
  s.packetsVerify_prepared buf s.syn_laidOut
    s.synHeader_ready hlen

theorem packetsVerify_data (s : TcpSession) (buf : Bytes)
    (hlen : buf.length <= 65495) :
    PacketsVerify s.laddr s.faddr [s.dataSegment buf] :=
  s.packetsVerify_prepared buf s.data_laidOut
    s.dataHeader_ready hlen

theorem packetsVerify_ack (s : TcpSession) (value : UInt32) :
    PacketsVerify s.laddr s.faddr [s.ack2peer value] :=
  s.packetsVerify_prepared [] (s.ack_laidOut value)
    (s.ackHeader_ready value) (by decide)

theorem packetsVerify_send (s : TcpSession) (port : UInt16) (buf : Bytes)
    (hlen : buf.length <= 65495) :
    PacketsVerify (s.send port buf).session.laddr
      (s.send port buf).session.faddr (s.send port buf).effects := by
  generalize hresult : s.send port buf = result
  cases hresult ▸ s.send_cases port buf with
  | syn hstate => exact (s.superSend port).packetsVerify_syn buf hlen
  | data hstate => exact (s.superSend port).packetsVerify_data buf hlen
  | other hclosed hestab => exact packetsVerify_nil _ _

theorem packetsVerify_recv (s : TcpSession) (peerAddr : SockaddrIn)
    (skbuf : Skbuf) :
    PacketsVerify (s.recv peerAddr skbuf).1.laddr
      (s.recv peerAddr skbuf).1.faddr (s.recv peerAddr skbuf).2 := by
  generalize hresult : s.recv peerAddr skbuf = result
  cases hresult ▸ s.recv_cases peerAddr skbuf with
  | syn hstate =>
      refine packetsVerify_cons (packetsVerify_other ?_) ?_
      · nofun
      apply packetsVerify_cons
      · exact (s.synReceived skbuf.head).packetsVerify_ack _
      · exact packetsVerify_other nofun
  | data hstate hlen =>
      refine packetsVerify_cons (packetsVerify_other ?_) ?_
      · nofun
      · exact (s.dataReceived skbuf.head).packetsVerify_ack _
  | empty hstate hlen => exact packetsVerify_nil _ _
  | other hsyn hestab => exact packetsVerify_nil _ _

/-- Whatever an operation puts on the wire, a standard receiver accepts. -/
theorem emitted_packets_verify (s : TcpSession) (port : UInt16) (buf : Bytes)
    (hlen : buf.length <= 65495) :
    PacketsVerify (s.send port buf).session.laddr
        (s.send port buf).session.faddr (s.send port buf).effects ∧
      (forall faddr fport,
        PacketsVerify (s.connect port faddr fport).session.laddr
          (s.connect port faddr fport).session.faddr
          (s.connect port faddr fport).effects) ∧
      (forall peerAddr skbuf,
        PacketsVerify (s.recv peerAddr skbuf).1.laddr
          (s.recv peerAddr skbuf).1.faddr (s.recv peerAddr skbuf).2) ∧
      (forall value, PacketsVerify s.laddr s.faddr [s.ack2peer value]) := by
  refine ⟨s.packetsVerify_send port buf hlen, ?_, s.packetsVerify_recv,
    s.packetsVerify_ack⟩
  intro faddr fport
  exact packetsVerify_send _ _ [] (by decide)

def midStream : TcpSession where
  faddr := 0x0200a8c0
  fport := 0x5000
  laddr := 0x0100a8c0
  lport := 0x0104
  connState := .established
  onConnEstabCB := false
  sendUnack := 2
  sendNext := 2
  irs := 7
  recvNext := 8

theorem emitted_packets_verify_odd_payload :
    (exists f, (midStream.send 1025 [104, 105, 33]).effects =
        [Effect.tx f [104, 105, 33]]) ∧
      PacketsVerify 0x0100a8c0 0x0200a8c0
        (midStream.send 1025 [104, 105, 33]).effects :=
  ⟨⟨_, rfl⟩, (emitted_packets_verify midStream 1025 [104, 105, 33]
    (by decide)).1⟩

end TcpSession

end Velox
