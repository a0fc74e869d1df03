import Velox.Ip.Identification
import Velox.Ip.RoundTrip

/-!
# A host and its datagrams

A host runs the daemon on its device.  Its applications open sockets, connect,
send, receive and close; frames arrive at the device.  What a UDP socket has
been given and what it has answered is kept as a history of messages: a message
is a datagram as its sender means it, without headers or bytes on the wire.
-/

namespace Velox

open Foundation

/-!
## Packets that pass a device
-/

namespace OnWire

variable {proto : UInt8} {s : Session} {n : Nat} {payload pkt : Bytes}

/-- The bytes that a frame buffer has no room for are payload. -/
theorem truncate (h : OnWire proto s n payload pkt) (hlow : 24 <= n)
    (hhigh : n <= maxRawBytesSize) :
    OnWire proto s n (payload.take (maxRawBytesSize - n))
      (pkt.take maxRawBytesSize) where
  first := by
    rw [byteAt_take _ (by lia)]
    exact h.first
  fields := by
    refine h.fields.of_bytes fun i _ hi _ => ?_
    exact byteAt_take _ (by lia)
  length := by
    rw [List.length_take, List.length_take, h.length]
    lia
  payload := by
    rw [List.drop_take, h.payload]

end OnWire

theorem TunIface.rx_take (frame : Bytes) :
    TunIface.rx (frame.take maxRawBytesSize) = TunIface.rx frame := by
  simp only [TunIface.rx, List.take_take, Nat.min_self]

theorem Ip.rx_take {ρ : Type} [DecidableEq ρ] (st : Stack ρ)
    (uninit : SockaddrIn) (frame : Bytes) :
    Ip.rx st uninit (frame.take maxRawBytesSize) = Ip.rx st uninit frame := by
  simp only [Ip.rx, TunIface.rx_take]

section

variable {ρ : Type} [DecidableEq ρ] {s : Session} {p pkt : Bytes}

/-- A datagram of any size goes to the session that matches best. -/
theorem OnWire.rx_datagram (h : OnWire 17 s 28 p pkt) (st : Stack ρ)
    (uninit : SockaddrIn) :
    Ip.rx st uninit pkt =
      some ((Sessions.find st.lock st.udpPcbs s.laddr s.lport s.faddr
          s.fport).elim (st, []) fun r =>
        st.deliver r (SockaddrIn.inet s.laddr s.lport)
          (receivedSkbuf pkt)) := by
  have hcut := h.truncate (by decide) (by decide)
  have hsize : (pkt.take maxRawBytesSize).length <= maxRawBytesSize :=
    List.length_take_le _ _
  have hproto : IpHdrs.protocol (TunIface.rx (pkt.take maxRawBytesSize)) =
      .udp := by
    rw [IpHdrs.protocol, IpHdr.protocol, OnWire.byteAt_rx hsize,
      hcut.fields.protocol]
    rfl
  rcases hcut.tuple hsize with ⟨hsaddr, hdaddr, hsource, hdest⟩
  have hskbuf : receivedSkbuf (pkt.take maxRawBytesSize) =
      receivedSkbuf pkt := by
    simp only [receivedSkbuf, TunIface.rx_take]
  rw [← Ip.rx_take, hcut.rx_eq hsize (by decide), Ip.demultiplex, hproto]
  show some (Udp.rx st _) = _
  rw [hcut.withTransportHdr_eq hsize, Udp.rx, hsaddr, hdaddr, hsource, hdest,
    hskbuf]
  cases Sessions.find st.lock st.udpPcbs s.laddr s.lport s.faddr s.fport with
  | none => rfl
  | some r => rfl

theorem OnWire.rx_segment (h : OnWire 6 s 40 p pkt) (st : Stack ρ)
    (uninit : SockaddrIn) :
    Ip.rx st uninit pkt = some (Tcp.rx st uninit (receivedSkbuf pkt)) := by
  have hcut := h.truncate (by decide) (by decide)
  have hsize : (pkt.take maxRawBytesSize).length <= maxRawBytesSize :=
    List.length_take_le _ _
  have hproto : IpHdrs.protocol (TunIface.rx (pkt.take maxRawBytesSize)) =
      .tcp := by
    rw [IpHdrs.protocol, IpHdr.protocol, OnWire.byteAt_rx hsize,
      hcut.fields.protocol]
    rfl
  have hskbuf : receivedSkbuf (pkt.take maxRawBytesSize) =
      receivedSkbuf pkt := by
    simp only [receivedSkbuf, TunIface.rx_take]
  rw [← Ip.rx_take, hcut.rx_eq hsize (by decide), Ip.demultiplex, hproto]
  show some (Tcp.rx st uninit _) = _
  rw [hcut.withTransportHdr_eq hsize, hskbuf]

theorem OnWire.drain_datagram (h : OnWire 17 s 28 p pkt) {f : FrameBuf}
    (hraw : f.rawBytes = (TunIface.rx pkt).rawBytes)
    (hbegin : f.userPayloadBegin = some 28)
    (hend : f.userPayloadEnd = (TunIface.rx pkt).userPayloadEnd) :
    drainSkbufChain [f] = p.take (maxRawBytesSize - 28) := by
  have hcut := h.truncate (by decide) (by decide)
  rw [← TunIface.rx_take] at hraw hend
  exact hcut.drain_eq (List.length_take_le _ _) hraw hbegin hend

end

/-- What a packet does to the stack: nothing, or one socket of the list gets
it. -/
inductive Stack.Given {ρ : Type} [DecidableEq ρ] (st : Stack ρ)
    (pcbs : List ρ) (result : Stack ρ × List Effect) : Prop where
  | nobody (h : result = (st, []))
  | socket (r : ρ) (sock : Sock) (peerAddr : SockaddrIn) (skbuf : Skbuf)
      (hmem : r ∈ pcbs) (hlive : st.socks r = some sock)
      (h : result =
        ({ st with
            socks := Function.update st.socks r
              (some ⟨(sock.pcb.recv peerAddr skbuf).2.foldl Endpoint.apply
                sock.so, (sock.pcb.recv peerAddr skbuf).1⟩) },
          (sock.pcb.recv peerAddr skbuf).2))

theorem Tcp.rx_given {ρ : Type} [DecidableEq ρ] (st : Stack ρ)
    (uninit : SockaddrIn) (skbuf : Skbuf) :
    st.Given st.tcpPcbs (Tcp.rx st uninit skbuf) := by
  cases hfind : Sessions.find st.lock st.tcpPcbs (IpHdr.saddr skbuf.head)
      (TcpHdr.source skbuf.head) (IpHdr.daddr skbuf.head)
      (TcpHdr.dest skbuf.head) with
  | none =>
      refine .nobody ?_
      simp only [Tcp.rx, hfind]
  | some r =>
      rcases Sessions.find_live hfind with ⟨hmem, curr, hlock⟩
      rcases Option.map_eq_some_iff.1 hlock with ⟨sock, hlive, _⟩
      refine .socket r sock uninit skbuf hmem hlive ?_
      simp only [Tcp.rx, hfind, Stack.deliver, hlive]

def Effect.IsSegment : Effect -> Prop
  | .tx f p => forall last, exists s,
      OnWire 6 s 40 p (TunIface.tx (Ip.tx last f p).1)
  | _ => True

namespace TcpSession

theorem Addressed.isSegment {s : TcpSession} {f : FrameBuf} {tcp : Bytes}
    (h : s.Addressed f tcp) (buf : Bytes) :
    (Effect.tx (s.prepareBeforeIpTx f buf) buf).IsSegment :=
  fun last => ⟨s.toSession, h.onWire last buf⟩

theorem send_isSegment (s : TcpSession) (port : UInt16) (buf : Bytes) :
    forall e, e ∈ (s.send port buf).effects -> e.IsSegment := by
  have hcase := s.send_cases port buf
  generalize s.send port buf = result at hcase ⊢
  cases hcase with
  | syn _ =>
      exact List.forall_mem_singleton.2
        ((s.superSend port).syn_addressed.isSegment buf)
  | data _ =>
      exact List.forall_mem_singleton.2
        ((s.superSend port).data_addressed.isSegment buf)
  | other _ _ => exact List.forall_mem_nil _

theorem recv_isSegment (s : TcpSession) (peerAddr : SockaddrIn)
    (skbuf : Skbuf) :
    forall e, e ∈ (s.recv peerAddr skbuf).2 -> e.IsSegment := by
  have hcase := s.recv_cases peerAddr skbuf
  generalize s.recv peerAddr skbuf = result at hcase ⊢
  cases hcase with
  | syn _ =>
      have hack := ((s.synReceived skbuf.head).ack_addressed
        (ntohl (TcpHdr.seq skbuf.head) + 1)).isSegment []
      exact List.forall_mem_cons.2 ⟨trivial,
        List.forall_mem_cons.2 ⟨hack, List.forall_mem_singleton.2 trivial⟩⟩
  | data _ _ =>
      have hack := ((s.dataReceived skbuf.head).ack_addressed
        (s.dataReceived skbuf.head).recvNext).isSegment []
      exact List.forall_mem_cons.2 ⟨trivial,
        List.forall_mem_singleton.2 hack⟩
  | empty _ _ => exact List.forall_mem_nil _
  | other _ _ => exact List.forall_mem_nil _

end TcpSession

/-!
## Hosts
-/

/-- A datagram: the four-tuple of the session that sends it, at that moment,
and the payload. -/
structure Message where
  tuple : Session
  payload : Bytes

/-- The message that an operation sends; a segment is none. -/
def Pcb.message (pcb : Pcb) (port : UInt16) (op : BindingOp) :
    Option Message :=
  match pcb, op with
  | .udp s, .send buf =>
      some ⟨(UdpSession.send s port buf).session, buf⟩
  | .udp s, .sendTo faddr fport buf =>
      some ⟨{ (UdpSession.sendTo s port faddr fport buf).session with
        faddr := faddr, fport := fport }, buf⟩
  | _, _ => none

/-- The daemon of one host.  Sockets are numbered as they are opened; for each
of them the messages that its queue has been given, with the session at that
moment, and the answers to `recvfrom` that gave data. -/
structure Host where
  next : Nat
  stack : Stack Nat
  port : Bool -> UInt16
  last : UInt16
  arrived : Nat -> List (Message × Session)
  received : Nat -> List Response

namespace Host

def init : Host where
  next := 0
  stack :=
    { groups := []
      udpPcbs := []
      tcpPcbs := []
      socks := fun _ => none }
  port := fun _ => 1024
  last := IpIdGenerator.fresh
  arrived := fun _ => []
  received := fun _ => []

def packets (host : Host) (effects : List Effect) (m : Option Message) :
    List (Bytes × Option Message) :=
  (sentPackets host.last effects).map fun p => (p.1, m)

def setSock (host : Host) (r : Nat) (sock : Sock)
    (arrived : List (Message × Session)) (received : List Response) : Host :=
  { host with
    stack :=
      { host.stack with socks := Function.update host.stack.socks r sock }
    arrived := Function.update host.arrived r arrived
    received := Function.update host.received r received }

def openSocket (host : Host) (sock : Sock) : Host :=
  { host.setSock host.next sock [] [] with
    next := host.next + 1
    stack :=
      { (host.setSock host.next sock [] []).stack with
        udpPcbs := if sock.pcb.isTcp then host.stack.udpPcbs
          else host.stack.udpPcbs ++ [host.next]
        tcpPcbs := if sock.pcb.isTcp then host.stack.tcpPcbs ++ [host.next]
          else host.stack.tcpPcbs } }

/-- What the applications of a host do; `notify` is the event loop that finds
the notify pipe of a socket readable. -/
inductive Act where
  | socketCall (laddr uninit : UInt32) (type : Int32)
  | perform (r : Nat) (op : BindingOp)
  | recvfromCall (r : Nat) (requireAddr : Bool)
  | notify (r : Nat)
  | close (r : Nat)

def perform (host : Host) (r : Nat) (sock : Sock) (op : BindingOp) :
    Host × List (Bytes × Option Message) :=
  let port := host.port sock.pcb.isTcp
  let effects := sock.pcb.performEffects port op
  ({ host.setSock r { sock with pcb := (sock.pcb.perform port op).1 }
        (host.arrived r) (host.received r) with
      port := Function.update host.port sock.pcb.isTcp
        (sock.pcb.perform port op).2
      last := lastSent host.last effects },
    host.packets effects (sock.pcb.message port op))

def recvfromCall (host : Host) (r : Nat) (sock : Sock) (requireAddr : Bool) :
    Host :=
  host.setSock r (RpcDispatch.recvfromCall sock requireAddr).1
    (host.arrived r)
    (match sock.so.recvQ with
      | [] => host.received r
      | _ :: _ => host.received r ++
          [(RpcDispatch.recvfromCall sock requireAddr).2])

def act (host : Host) : Act -> Option (Host × List (Bytes × Option Message))
  | .socketCall laddr uninit type =>
      (RpcDispatch.socketCall laddr uninit type).map fun made =>
        (host.openSocket made.1, [])
  | .perform r op =>
      (host.stack.socks r).map fun sock => host.perform r sock op
  | .recvfromCall r requireAddr =>
      (host.stack.socks r).map fun sock =>
        (host.recvfromCall r sock requireAddr, [])
  | .notify r =>
      (host.stack.socks r).bind fun sock =>
        (RpcDispatch.sChannelReadCb sock.so).map fun handled =>
          (host.setSock r { sock with so := handled.1 } (host.arrived r)
            (host.received r ++ handled.2.toList), [])
  | .close r =>
      some ({ host with
        stack :=
          { host.stack with
            socks := Function.update host.stack.socks r none } }, [])

def find (host : Host) (m : Message) : Option Nat :=
  Sessions.find host.stack.lock host.stack.udpPcbs m.tuple.laddr
    m.tuple.lport m.tuple.faddr m.tuple.fport

/-- The histories after a packet: a message is recorded for the socket found,
if its queue has room. -/
def record (host : Host) : Option Message -> Nat -> List (Message × Session)
  | none => host.arrived
  | some m =>
      match host.find m with
      | none => host.arrived
      | some r =>
          match host.stack.socks r with
          | none => host.arrived
          | some sock =>
              if sock.so.recvQOverLimit then host.arrived
              else Function.update host.arrived r
                (host.arrived r ++ [(m, sock.pcb.session)])

/-- A packet arrives at the device; the result is `none` where the receive
path dereferences a null pointer. -/
def arrive (host : Host) (uninit : SockaddrIn) (pkt : Bytes)
    (m : Option Message) : Option (Host × List (Bytes × Option Message)) :=
  (Ip.rx host.stack uninit pkt).map fun result =>
    ({ host with
        stack := result.1
        last := lastSent host.last result.2
        arrived := host.record m },
      host.packets result.2 none)

end Host

end Velox
