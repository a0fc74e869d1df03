import Velox.Arbiter.RpcDispatch
import Velox.Ip.RoundTrip

/-!
# Sending

What `sendtoCall` does with a buffer: the packets that leave, the session
afterwards and the answer.  The error numbers of `Session::send` reach nobody,
the address of a one-shot datagram replaces that of the session, and the
length fields have 16 bits.
-/

namespace Velox

open Foundation

def Session.SameButPort (s s' : Session) : Prop :=
  s' = { s with lport := s'.lport }

theorem Session.bind_sameButPort (s : Session) (port : UInt16) :
    s.SameButPort (s.bind port).1 := by
  unfold SameButPort bind
  split
  · rfl
  · rfl

theorem Session.laddr_bind (s : Session) (port : UInt16) :
    (s.bind port).1.laddr = s.laddr := by
  unfold bind
  split
  · rfl
  · rfl

namespace Pcb

def sendResult (pcb : Pcb) (port : UInt16) (buf : Bytes)
    (addr : Option Bytes) : SendResult Pcb :=
  match pcb, addr with
  | .udp s, some bytes =>
      let destAddr := SockaddrIn.ofBytes bytes
      let sent := UdpSession.sendTo s port destAddr.sinAddr destAddr.sinPort buf
      { session := .udp sent.session, port := sent.port, ret := sent.ret,
        effects := sent.effects }
  | .udp s, none =>
      let sent := UdpSession.send s port buf
      { session := .udp sent.session, port := sent.port, ret := sent.ret,
        effects := sent.effects }
  | .tcp s, _ =>
      let sent := s.send port buf
      { session := .tcp sent.session, port := sent.port, ret := sent.ret,
        effects := sent.effects }

theorem sendto_eq_sendResult (pcb : Pcb) (port : UInt16) (buf : Bytes)
    (addr : Option Bytes) :
    pcb.sendto port buf addr =
      ((pcb.sendResult port buf addr).session,
        (pcb.sendResult port buf addr).ret) := by
  cases pcb with
  | udp s =>
      cases addr with
      | none => rfl
      | some bytes => rfl
  | tcp s => rfl

def SameButPort : Pcb -> Pcb -> Prop
  | .udp s, .udp s' => s.SameButPort s'
  | .tcp s, .tcp s' =>
      s' = { s with toSession := { s.toSession with lport := s'.lport } }
  | _, _ => False

/-!
## Unconnected sessions
-/

def SendsNothing (pcb : Pcb) (port : UInt16) (buf : Bytes) : Prop :=
  (pcb.sendResult port buf none).effects = [] ∧
    SameButPort pcb (pcb.sendResult port buf none).session

/-- Besides, the answer is the error number of `Session::send`. -/
def FailsCleanly (pcb : Pcb) (port : UInt16) (buf : Bytes) : Prop :=
  pcb.SendsNothing port buf ∧
    (RpcDispatch.sendtoCall pcb port buf none).2.returning =
      .sendtoCall { ret := -1, errno := some eNotConn }

/-- A session without a peer fails cleanly. -/
def UnconnectedLaw (pcb : Pcb) (port : UInt16) (buf : Bytes) : Prop :=
  pcb.session.fport = 0 -> buf ≠ [] -> pcb.FailsCleanly port buf

theorem sendtoCall_ne_error (pcb : Pcb) (port : UInt16) (buf : Bytes)
    (addr : Option Bytes) (n errno : Int32) :
    (RpcDispatch.sendtoCall pcb port buf addr).2.returning ≠
      .sendtoCall { ret := n, errno := some errno } := by
  intro h
  cases congrArg CallRet.errno (Returning.sendtoCall.inj h)

/-- Only a TCP session between the states `CLOSED` and `ESTABLISHED`, or past
them, keeps still. -/
theorem sendsNothing_iff (pcb : Pcb) (port : UInt16) (buf : Bytes) :
    pcb.SendsNothing port buf <->
      exists s, pcb = .tcp s ∧ s.connState ≠ .closed ∧
        s.connState ≠ .established := by
  cases pcb with
  | udp s =>
      constructor
      · intro h
        cases h.1
      · rintro ⟨s', heq, _⟩
        cases heq
  | tcp s =>
      have hcase := s.send_cases port buf
      unfold SendsNothing sendResult
      dsimp only
      generalize s.send port buf = sent at hcase ⊢
      cases hcase with
      | syn hstate =>
          constructor
          · intro h
            cases h.1
          · rintro ⟨s', heq, hclosed, _⟩
            cases heq
            exact absurd hstate hclosed
      | data hstate =>
          constructor
          · intro h
            cases h.1
          · rintro ⟨s', heq, _, hestab⟩
            cases heq
            exact absurd hstate hestab
      | other hclosed hestab =>
          constructor
          · intro _
            exact ⟨s, rfl, hclosed, hestab⟩
          · intro _
            refine ⟨rfl, ?_⟩
            exact congrArg (fun base => ({ s with toSession := base } :
              TcpSession)) (s.toSession.bind_sameButPort port)

/-- The law fails for every session without a peer; no packet leaves exactly
if the session is a TCP session in a state without a segment to send. -/
theorem unconnectedLaw_iff (pcb : Pcb) (port : UInt16) (buf : Bytes) :
    (pcb.UnconnectedLaw port buf <->
      pcb.session.fport ≠ 0 ∨ buf = []) ∧
      (pcb.SendsNothing port buf <->
        exists s, pcb = .tcp s ∧ s.connState ≠ .closed ∧
          s.connState ≠ .established) := by
  refine ⟨?_, pcb.sendsNothing_iff port buf⟩
  constructor
  · intro hlaw
    by_contra hcond
    rw [not_or, not_not] at hcond
    exact pcb.sendtoCall_ne_error port buf none _ _
      (hlaw hcond.1 hcond.2).2
  · intro hcond hfport hbuf
    rcases hcond with hne | hnil
    · exact absurd hfport hne
    · exact absurd hnil hbuf

def freshTcp : TcpSession :=
  TcpSession.fresh (Session.create 0x0200a8c0) 0 0 0 0

/-- A `send` on the fresh socket sends a SYN to nobody and is answered with
the length of the buffer. -/
theorem unconnected_send_sends_syn :
    (Pcb.tcp freshTcp).session.fport = 0 ∧
      ((Pcb.tcp freshTcp).sendResult 1024 [104, 105] none).effects.length = 1 ∧
      (freshTcp.send 1024 [104, 105]).session.connState = .synSent ∧
      (RpcDispatch.sendtoCall (.tcp freshTcp) 1024 [104, 105] none).2 =
        RpcDispatch.okResponse (.sendtoCall { ret := 2, errno := none }) ∧
      ¬ (Pcb.tcp freshTcp).UnconnectedLaw 1024 [104, 105] := by
  refine ⟨rfl, rfl, rfl, rfl, ?_⟩
  intro hlaw
  exact (Pcb.tcp freshTcp).sendtoCall_ne_error _ _ none _ _
    (hlaw rfl (by decide)).2

end Pcb

/-!
## The association of a UDP session
-/

namespace UdpSession

theorem sendTo_session (s : Session) (port : UInt16) (faddr : UInt32)
    (fport : UInt16) (buf : Bytes) :
    (sendTo s port faddr fport buf).session.faddr = 0 ∧
      (sendTo s port faddr fport buf).session.fport = 0 ∧
      (sendTo s port faddr fport buf).session.laddr = s.laddr := by
  rw [(sendTo_eq s port faddr fport buf).left]
  refine ⟨rfl, rfl, ?_⟩
  rw [Session.disconnect, Session.laddr_bind, Session.connect,
    Session.laddr_bind]
  exact s.laddr_bind port

/-- A one-shot datagram leaves the association of the session alone exactly if
the session has none. -/
theorem sendTo_sameButPort_iff (s : Session) (port : UInt16) (faddr : UInt32)
    (fport : UInt16) (buf : Bytes) :
    s.SameButPort (sendTo s port faddr fport buf).session <->
      s.faddr = 0 ∧ s.fport = 0 := by
  rcases sendTo_session s port faddr fport buf with ⟨hfaddr, hfport, hladdr⟩
  generalize (sendTo s port faddr fport buf).session = after at *
  unfold Session.SameButPort
  constructor
  · intro h
    rw [h] at hfaddr hfport
    exact ⟨hfaddr, hfport⟩
  · rintro ⟨hzero, hport⟩
    cases after
    cases s
    simp_all

def connectedSession : Session where
  faddr := 0x0100a8c0
  fport := 0x3500
  laddr := 0x0200a8c0
  lport := 0x0104

/-- A datagram to another host ends the association, which `getpeername`
shows. -/
theorem sendTo_ends_association :
    RpcDispatch.getpeernameCall (.udp connectedSession) ≠
        RpcDispatch.getpeernameCall (.udp
          (sendTo connectedSession 1025 0x0300a8c0 0x3500 [1]).session) ∧
      ¬ connectedSession.SameButPort
        (sendTo connectedSession 1025 0x0300a8c0 0x3500 [1]).session := by
  refine ⟨by decide, ?_⟩
  intro h
  cases congrArg Session.fport h

end UdpSession

/-!
## Length fields
-/

def wireTotLen (pkt : Bytes) : Nat :=
  (ntohs (load16 pkt 2)).toNat

def wireUdpLen (pkt : Bytes) : Nat :=
  (ntohs (load16 pkt 24)).toNat

/-- The length fields of a packet are its length, and that of what lies behind
the IP header. -/
def LengthsRight (tcp : Bool) (pkt : Bytes) : Prop :=
  wireTotLen pkt = pkt.length ∧
    (tcp = false -> 20 + wireUdpLen pkt = pkt.length)

instance (tcp : Bool) (pkt : Bytes) : Decidable (LengthsRight tcp pkt) :=
  inferInstanceAs (Decidable (_ ∧ _))

/-- What is handed to the interface, each packet with its payload; `last` is
the state of the identification generator. -/
def sentPackets (last : UInt16) : List Effect -> List (Bytes × Bytes)
  | [] => []
  | .tx head payload :: rest =>
      (TunIface.tx (Ip.tx last head payload).1, payload) ::
        sentPackets (Ip.tx last head payload).2 rest
  | _ :: rest => sentPackets last rest

/-- Every packet has the right length fields, and the number returned is that
of the payload bytes in such packets. -/
def LengthsLaw (tcp : Bool) (last : UInt16) (sent : SendResult Pcb) : Prop :=
  (forall p, p ∈ sentPackets last sent.effects -> LengthsRight tcp p.1) ∧
    sent.ret.toInt =
      (((sentPackets last sent.effects).filter fun p =>
        LengthsRight tcp p.1).map fun p => p.2.length).sum

theorem lengthsLaw_of_single {tcp : Bool} {last : UInt16}
    {sent : SendResult Pcb} {pkt buf : Bytes} {n : Nat}
    (hpackets : sentPackets last sent.effects = [(pkt, buf)])
    (hret : sent.ret = Int32.ofNat buf.length)
    (hright : LengthsRight tcp pkt <-> n + buf.length <= 65535) :
    LengthsLaw tcp last sent <-> n + buf.length <= 65535 := by
  rw [LengthsLaw, hpackets, ← hright]
  constructor
  · intro h
    exact h.1 (pkt, buf) (List.mem_singleton.2 rfl)
  · intro h
    have hfits := hright.1 h
    constructor
    · intro p hp
      cases List.mem_singleton.1 hp
      exact h
    · rw [hret, List.filter_cons_of_pos (by simpa using h), List.filter_nil,
        List.map_singleton, List.sum_singleton, Int32.toInt_ofNat_of_lt]
      exact Nat.lt_of_le_of_lt (Nat.le_of_add_left_le hfits) (by decide)

theorem lengthsRight_iff_fits {tcp : Bool} {pkt : Bytes} {n len : Nat}
    (hlen : pkt.length = n + len)
    (htotal : load16 pkt 2 = ntohs (UInt16.ofNat (len + n)))
    (hudp : tcp = false ->
      n = 28 ∧ load16 pkt 24 = ntohs (UInt16.ofNat (len + 8))) :
    LengthsRight tcp pkt <-> n + len <= 65535 := by
  have hswap : forall m,
      (ntohs (ntohs (UInt16.ofNat m))).toNat = m % 65536 := by
    intro m
    rw [ntohs, ntohs, bswap16_bswap16, UInt16.toNat_ofNat']
  rw [LengthsRight, wireTotLen, htotal, hswap, hlen]
  constructor
  · intro h
    have hmod := h.1
    lia
  · intro hfits
    refine ⟨by lia, ?_⟩
    intro htcp
    rcases hudp htcp with ⟨rfl, hfield⟩
    rw [wireUdpLen, hfield, hswap]
    lia

section Udp

variable (s : Session) (last : UInt16) (buf : Bytes)

theorem UdpSession.load16_datagram {i : Nat} (hpos : 0 < i)
    (hhigh : i + 2 <= 28) (hid : i + 2 <= 4 ∨ 6 <= i)
    (hcheck : i + 2 <= 10 ∨ 12 <= i) :
    load16 (TunIface.tx (Ip.tx last (datagram s buf) buf).1) i =
      load16 (datagramBytes s buf) (40 + i) :=
  (datagram_headed s buf).load16_wire
    (Nat.le_of_eq (length_datagramBytes s buf).symm)
    (datagramBytes_first s buf) last buf hpos hhigh hid hcheck

theorem UdpSession.load16_totLen :
    load16 (TunIface.tx (Ip.tx last (datagram s buf) buf).1) 2 =
      ntohs (UInt16.ofNat (buf.length + 28)) := by
  rw [load16_datagram s last buf (by decide) (by decide) (by decide)
    (by decide), datagramBytes, load16_store16_of_disjoint _ _ (by decide)]
  exact load16_store16 _ _ _ (by simp)

theorem UdpSession.load16_udpLen :
    load16 (TunIface.tx (Ip.tx last (datagram s buf) buf).1) 24 =
      ntohs (UInt16.ofNat (buf.length + 8)) := by
  rw [load16_datagram s last buf (by decide) (by decide) (by decide)
    (by decide), datagramBytes]
  simp (disch := decide) only [Nat.reduceAdd, load16_store8_of_disjoint,
    load16_store16_of_disjoint]
  exact load16_store16 _ _ _ (by simp)

theorem UdpSession.lengthsRight_iff :
    LengthsRight false (TunIface.tx (Ip.tx last (datagram s buf) buf).1) <->
      28 + buf.length <= 65535 :=
  lengthsRight_iff_fits (datagram_onWire s last buf).length
    (load16_totLen s last buf) fun _ => ⟨rfl, load16_udpLen s last buf⟩

end Udp

theorem TcpSession.load16_totLen (s : TcpSession) (last : UInt16)
    (buf : Bytes) :
    load16 (TunIface.tx
        (Ip.tx last (s.prepareBeforeIpTx s.dataFrame buf) buf).1) 2 =
      ntohs (UInt16.ofNat (buf.length + 40)) := by
  have haddressed := s.data_addressed
  have hprepared := haddressed.prepared buf
  have hbytes : load16 (s.prepareBeforeIpTx s.dataFrame buf).rawBytes (40 + 2) =
      load16 (s.preparedHeader buf) 2 := by
    refine load16_shift fun k hk => ?_
    rw [Nat.add_assoc]
    exact hprepared.byteAt_ip (by lia)
  rw [hprepared.headed.load16_wire (haddressed.size buf)
    (haddressed.first buf) last buf (by decide) (by decide) (by decide)
    (by decide), hbytes, preparedHeader,
    load16_store16_of_disjoint _ _ (by decide)]
  exact load16_store16 _ _ _ (by simp [overlayHeader])

theorem TcpSession.lengthsRight_iff (s : TcpSession) (last : UInt16)
    (buf : Bytes) :
    LengthsRight true
        (TunIface.tx (Ip.tx last (s.prepareBeforeIpTx s.dataFrame buf) buf).1)
      <-> 40 + buf.length <= 65535 :=
  lengthsRight_iff_fits (s.data_addressed.onWire last buf).length
    (s.load16_totLen last buf) nofun

def Pcb.headersSize (pcb : Pcb) : Nat :=
  if pcb.isTcp then 40 else 28

/-- For a UDP session, and for a TCP session that is established, the lengths
are right exactly if the packet is no longer than its 16-bit field can say. -/
theorem lengthsLaw_iff_fits {pcb : Pcb}
    (hpcb : forall s, pcb = .tcp s -> s.connState = .established)
    (port : UInt16) (buf : Bytes) (addr : Option Bytes) (last : UInt16) :
    LengthsLaw pcb.isTcp last (pcb.sendResult port buf addr) <->
      pcb.headersSize + buf.length <= 65535 := by
  cases pcb with
  | udp s =>
      cases addr with
      | none =>
          exact lengthsLaw_of_single rfl rfl
            (UdpSession.lengthsRight_iff _ last buf)
      | some bytes =>
          exact lengthsLaw_of_single rfl rfl
            (UdpSession.lengthsRight_iff _ last buf)
  | tcp s =>
      have hcase := s.send_cases port buf
      unfold Pcb.sendResult
      dsimp only
      generalize s.send port buf = sent at hcase ⊢
      cases hcase with
      | syn hstate =>
          rw [hpcb s rfl] at hstate
          cases hstate
      | data hstate =>
          exact lengthsLaw_of_single rfl rfl
            ((s.superSend port).lengthsRight_iff last buf)
      | other hclosed hestab => exact absurd (hpcb s rfl) hestab

theorem lengthsLaw_of_short_datagram :
    LengthsLaw false 0
      ((Pcb.udp UdpSession.connectedSession).sendResult 1025 [1, 2] none) :=
  (@lengthsLaw_iff_fits (.udp UdpSession.connectedSession) nofun 1025 [1, 2]
    none 0).2 (by decide)

def longBuf : Bytes := List.replicate 65508 0

theorem length_longBuf : longBuf.length = 65508 :=
  List.length_replicate

/-- The request for the buffer is admitted, and the total length of its packet
is written as zero. -/
theorem long_datagram_wraps :
    (Calling.sendtoCall longBuf 0 none).requestSize 1 <= rpcMessageMaxSize ∧
      wireTotLen (TunIface.tx (Ip.tx 0 (UdpSession.datagram
        UdpSession.connectedSession longBuf) longBuf).1) = 0 ∧
      ¬ LengthsLaw false 0 ((Pcb.udp
        UdpSession.connectedSession).sendResult 1025 longBuf none) := by
  refine ⟨?_, ?_, ?_⟩
  · rw [Calling.requestSize_sendtoCall, length_longBuf]
    decide
  · rw [wireTotLen, UdpSession.load16_totLen, length_longBuf]
    decide
  · intro h
    have hright := h.1 _ (List.mem_singleton.2 rfl)
    have hfits := (UdpSession.lengthsRight_iff _ 0 longBuf).1 hright
    rw [length_longBuf] at hfits
    exact absurd hfits (by decide)

end Velox
