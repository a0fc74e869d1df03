import Velox.Arbiter.Ports
import Velox.Foundation.Runs
import Velox.Ip.RoundTrip
import Velox.Tcp.Handshake
import Velox.Tcp.Sequence

/-!
# The calls that reach a TCP session

`connectCall`, `sendtoCall` and the segments of the peer, with the packets
that they cause.  The four-tuple of a session belongs to its superclass, which
does not look at the state of the connection, so a later call can change it;
and the two modes of an endpoint give `connectCall` two different effects.
-/

namespace Velox

open Foundation

/-!
## The four-tuple after an operation
-/

namespace Session

theorem bind_eq_self_iff (s : Session) (port : UInt16) :
    (s.bind port).1 = s <-> (s.lport = 0 -> port = 65535) := by
  by_cases hbound : s.lport = 0
  · rw [bind_of_unbound hbound, imp_iff_right hbound,
      ← nextAvailPort_eq_zero_iff]
    constructor
    · intro h
      rw [← hbound]
      exact congrArg lport h
    · intro h
      dsimp only
      rw [h, ← hbound]
  · rw [bind_of_bound hbound]
    exact ⟨fun _ h => absurd h hbound, fun _ => rfl⟩

theorem bind_bind_lport (s : Session) (port : UInt16) :
    ((s.bind port).1.bind (s.bind port).2).1.lport ≠ 0 := by
  by_cases hbound : s.lport = 0
  · rw [bind_of_unbound hbound]
    by_cases hlast : port = 65535
    · rw [hlast, bind_of_unbound rfl]
      show ntohs 1 ≠ 0
      decide
    · have hnext : (nextAvailPort port).1 ≠ 0 :=
        fun h => hlast ((nextAvailPort_eq_zero_iff port).1 h)
      rw [bind_of_bound hnext]
      exact hnext
  · rw [bind_of_bound hbound, bind_of_bound hbound]
    exact hbound

end Session

namespace TcpSession

theorem send_toSession (s : TcpSession) (port : UInt16) (buf : Bytes) :
    (s.send port buf).session.toSession = (s.toSession.bind port).1 := by
  have hcase := s.send_cases port buf
  generalize s.send port buf = result at hcase ⊢
  cases hcase with
  | syn _ => rfl
  | data _ => rfl
  | other _ _ => rfl

theorem recv_toSession (s : TcpSession) (peerAddr : SockaddrIn)
    (skbuf : Skbuf) : (s.recv peerAddr skbuf).1.toSession = s.toSession := by
  have hcase := s.recv_cases peerAddr skbuf
  generalize s.recv peerAddr skbuf = result at hcase ⊢
  rcases s.readAck_eq skbuf.head with ⟨una, hread⟩
  cases hcase with
  | syn _ => rfl
  | data _ _ =>
      show (s.dataReceived skbuf.head).toSession = _
      rw [dataReceived, hread]
  | empty _ _ =>
      show (s.readAck skbuf.head).toSession = _
      rw [hread]
  | other _ _ => rfl

theorem connect_toSession_eq_iff (s : TcpSession) (port : UInt16)
    (faddr : UInt32) (fport : UInt16) :
    (s.connect port faddr fport).session.toSession = s.toSession <->
      faddr = s.faddr ∧ fport = s.fport ∧ s.lport ≠ 0 := by
  have hsent : (s.connect port faddr fport).session.toSession =
      ((s.toSession.connect port faddr fport).1.bind
        (s.toSession.connect port faddr fport).2).1 :=
    send_toSession { s with toSession := (s.toSession.connect port faddr
      fport).1 } _ []
  rw [hsent]
  constructor
  · intro h
    have hlport : s.lport ≠ 0 := by
      rw [← h]
      exact Session.bind_bind_lport { s.toSession with
        faddr := faddr, fport := fport } port
    rw [Session.connect, Session.bind_of_bound (s := { s.toSession with
      faddr := faddr, fport := fport }) hlport,
      Session.bind_of_bound (s := { s.toSession with
        faddr := faddr, fport := fport }) hlport] at h
    exact ⟨congrArg Session.faddr h, congrArg Session.fport h, hlport⟩
  · rintro ⟨rfl, rfl, hlport⟩
    show ((s.toSession.bind port).1.bind (s.toSession.bind port).2).1 = _
    rw [Session.bind_of_bound hlport, Session.bind_of_bound hlport]

/-!
## The packets of an operation
-/

def PacketsCarry (t : Session) (segments : List (FrameBuf × Bytes)) : Prop :=
  forall f payload, (f, payload) ∈ segments -> forall last,
    OnWire 6 t 40 payload (TunIface.tx (Ip.tx last f payload).1)

theorem PacketsCarry.append {t : Session}
    {xs ys : List (FrameBuf × Bytes)} (hxs : PacketsCarry t xs)
    (hys : PacketsCarry t ys) : PacketsCarry t (xs ++ ys) := by
  intro f payload hmem
  rcases List.mem_append.1 hmem with h | h
  · exact hxs f payload h
  · exact hys f payload h

theorem Addressed.packetsCarry {s : TcpSession} {f : FrameBuf} {tcp : Bytes}
    (h : s.Addressed f tcp) (buf : Bytes) :
    PacketsCarry s.toSession
      (emitted [.tx (s.prepareBeforeIpTx f buf) buf]) := by
  intro g payload hmem last
  rcases Prod.mk.inj (List.mem_singleton.1 hmem) with ⟨hg, hpayload⟩
  rw [hg, hpayload]
  exact h.onWire last buf

theorem send_packetsCarry (s : TcpSession) (port : UInt16) (buf : Bytes) :
    PacketsCarry (s.send port buf).session.toSession
      (emitted (s.send port buf).effects) := by
  have hcase := s.send_cases port buf
  generalize s.send port buf = result at hcase ⊢
  cases hcase with
  | syn _ => exact (s.superSend port).syn_addressed.packetsCarry buf
  | data _ => exact (s.superSend port).data_addressed.packetsCarry buf
  | other _ _ =>
      intro f payload hmem
      cases hmem

theorem apply_packetsCarry (s : TcpSession) (op : Op) :
    PacketsCarry (s.apply op).1.toSession (emitted (s.apply op).2) := by
  cases op with
  | connect port faddr fport => exact send_packetsCarry _ _ []
  | send port buf => exact s.send_packetsCarry port buf
  | recv peerAddr skbuf =>
      show PacketsCarry (s.recv peerAddr skbuf).1.toSession
        (emitted (s.recv peerAddr skbuf).2)
      have hcase := s.recv_cases peerAddr skbuf
      generalize s.recv peerAddr skbuf = result at hcase ⊢
      cases hcase with
      | syn _ =>
          exact ((s.synReceived skbuf.head).ack_addressed _).packetsCarry []
      | data _ _ =>
          exact ((s.dataReceived skbuf.head).ack_addressed _).packetsCarry []
      | empty _ _ =>
          intro f payload hmem
          cases hmem
      | other _ _ =>
          intro f payload hmem
          cases hmem

/-!
## Calls on the endpoint of a session
-/

/-- What reaches the session; a call comes with the value of the port counter
at its time. -/
inductive Call where
  | connectCall (port : UInt16) (addr : Bytes)
  | sendtoCall (port : UInt16) (buf : Bytes) (addr : Option Bytes)
  | segment (peerAddr : SockaddrIn) (skbuf : Skbuf)

def call (nonblocking : Bool) (s : TcpSession) :
    Call -> TcpSession × List Effect
  | .connectCall port addr =>
      let destAddr := SockaddrIn.ofBytes addr
      if nonblocking then (s, [])
      else apply { s with onConnEstabCB := true }
        (.connect port destAddr.sinAddr destAddr.sinPort)
  | .sendtoCall port buf _ => s.apply (.send port buf)
  | .segment peerAddr skbuf => s.apply (.recv peerAddr skbuf)

theorem call_connectCall (so : Endpoint) (s : TcpSession) (port : UInt16)
    (addr : Bytes) :
    (RpcDispatch.connectCall ⟨so, .tcp s⟩ port addr).1 =
      ⟨so, .tcp (s.call so.nonblocking (.connectCall port addr)).1⟩ := by
  unfold RpcDispatch.connectCall call
  cases so.nonblocking with
  | true => rfl
  | false => rfl

theorem call_sendtoCall (nonblocking : Bool) (s : TcpSession) (port : UInt16)
    (buf : Bytes) (addr : Option Bytes) :
    (RpcDispatch.sendtoCall (.tcp s) port buf addr).1 =
      .tcp (s.call nonblocking (.sendtoCall port buf addr)).1 :=
  rfl

theorem call_segment (nonblocking : Bool) (s : TcpSession)
    (peerAddr : SockaddrIn) (skbuf : Skbuf) :
    ((Pcb.tcp s).recv peerAddr skbuf) =
      (.tcp (s.call nonblocking (.segment peerAddr skbuf)).1,
        (s.call nonblocking (.segment peerAddr skbuf)).2) :=
  rfl

theorem call_packetsCarry (nonblocking : Bool) (s : TcpSession) (c : Call) :
    PacketsCarry (s.call nonblocking c).1.toSession
      (emitted (s.call nonblocking c).2) := by
  cases c with
  | connectCall port addr =>
      cases nonblocking with
      | true =>
          intro f payload hmem
          cases hmem
      | false =>
          exact apply_packetsCarry { s with onConnEstabCB := true }
            (.connect port _ _)
  | sendtoCall port buf addr => exact s.apply_packetsCarry _
  | segment peerAddr skbuf => exact s.apply_packetsCarry _

/-- The call leaves the four-tuple: a `connectCall` on a blocking endpoint
names the address that the session has, and finds the session bound; and a
`sendtoCall` finds it bound, or the counter at its end. -/
def SameAddress (nonblocking : Bool) (s : TcpSession) : Call -> Prop
  | .connectCall _ addr =>
      nonblocking = false ->
        (SockaddrIn.ofBytes addr).sinAddr = s.faddr ∧
          (SockaddrIn.ofBytes addr).sinPort = s.fport ∧ s.lport ≠ 0
  | .sendtoCall port _ _ => s.lport = 0 -> port = 65535
  | .segment _ _ => True

theorem call_toSession_eq_iff (nonblocking : Bool) (s : TcpSession)
    (c : Call) :
    (s.call nonblocking c).1.toSession = s.toSession <->
      s.SameAddress nonblocking c := by
  cases c with
  | connectCall port addr =>
      cases nonblocking with
      | true => exact ⟨fun _ h => absurd h nofun, fun _ => rfl⟩
      | false =>
          refine Iff.trans ?_ (imp_iff_right rfl).symm
          exact connect_toSession_eq_iff { s with onConnEstabCB := true } port
            _ _
  | sendtoCall port buf addr =>
      show (s.send port buf).session.toSession = s.toSession <-> _
      rw [send_toSession]
      exact s.toSession.bind_eq_self_iff port
  | segment peerAddr skbuf =>
      exact ⟨fun _ => trivial, fun _ => s.recv_toSession peerAddr skbuf⟩

end TcpSession

/-!
## The identity of a connection
-/

structure Connection where
  session : TcpSession
  sent : List (FrameBuf × Bytes)

namespace Connection

open TcpSession

def opened (nonblocking : Bool) (s : TcpSession) (c : Call) :
    Option Connection :=
  if s.connState = .closed ∧
      (s.call nonblocking c).1.connState = .synSent then
    some ⟨(s.call nonblocking c).1, emitted (s.call nonblocking c).2⟩
  else none

def step (nonblocking : Bool) (conn : Connection) (c : Call) :
    Option Connection :=
  some ⟨(conn.session.call nonblocking c).1,
    conn.sent ++ emitted (conn.session.call nonblocking c).2⟩

/-- The connection is the one with the four-tuple: the session has it, every
packet carries it, and the session matches what the peer replies. -/
structure Keeps (t : Session) (conn : Connection) : Prop where
  tuple : conn.session.toSession = t
  packets : PacketsCarry t conn.sent
  replies : Sessions.Matches conn.session.toSession t.faddr t.fport t.laddr
    t.lport

theorem keeps_of_tuple {t : Session} {conn : Connection}
    (htuple : conn.session.toSession = t) (hsent : PacketsCarry t conn.sent) :
    Keeps t conn := by
  refine ⟨htuple, hsent, ?_⟩
  rw [htuple]
  exact ⟨rfl, .inr rfl, .inr rfl, .inr rfl⟩

theorem Keeps.step {t : Session} {nonblocking : Bool} {conn conn' : Connection}
    {c : Call} (h : Keeps t conn)
    (hsame : conn.session.SameAddress nonblocking c)
    (hstep : step nonblocking conn c = some conn') : Keeps t conn' := by
  have htuple : (conn.session.call nonblocking c).1.toSession = t :=
    ((conn.session.call_toSession_eq_iff nonblocking c).2 hsame).trans h.tuple
  have hpackets := conn.session.call_packetsCarry nonblocking c
  rw [htuple] at hpackets
  cases hstep
  exact keeps_of_tuple htuple (h.packets.append hpackets)

theorem opened_keeps {nonblocking : Bool} {s : TcpSession} {c : Call}
    {conn : Connection} (h : opened nonblocking s c = some conn) :
    Keeps conn.session.toSession conn := by
  unfold opened at h
  split at h
  · cases h
    exact keeps_of_tuple rfl (s.call_packetsCarry nonblocking c)
  · cases h

/-- From its SYN on, a connection keeps its identity exactly if every call
leaves the four-tuple. -/
theorem keeps_iff_sameAddress {nonblocking : Bool} {s : TcpSession} {c : Call}
    {conn : Connection} (hopen : opened nonblocking s c = some conn)
    (calls : List Call) :
    (forall n conn', run (step nonblocking) conn (calls.take n) = some conn' ->
        Keeps conn.session.toSession conn') <->
      StepsMeet (step nonblocking)
        (fun conn c => conn.session.SameAddress nonblocking c) conn calls := by
  apply prefixes_iff_stepsMeet (fun _ _ _ h hsame hstep => h.step hsame hstep)
    (fun _ h => h) ?_ (opened_keeps hopen)
  intro conn' c' hkeeps hchange
  refine ⟨_, rfl, ?_⟩
  intro hkeeps'
  have htuple := hkeeps'.tuple.trans hkeeps.tuple.symm
  exact hchange ((conn'.session.call_toSession_eq_iff nonblocking c').1 htuple)

def freshSession : TcpSession :=
  fresh (Session.create 0x0100a8c0) 0 0 0 0

def hostAddr (host port : UInt8) : Bytes :=
  [2, 0, 0, port, 192, 168, 0, host] ++ List.replicate 8 0

def dialed : Connection :=
  (opened false freshSession (.connectCall 1024 (hostAddr 2 80))).getD
    ⟨freshSession, []⟩

theorem keeps_while_sending :
    opened false freshSession (.connectCall 1024 (hostAddr 2 80)) =
        some dialed ∧
      forall n conn', run (step false) dialed
        ([.segment (SockaddrIn.inet 0 0) (peerControl 0x12 7 2),
          .sendtoCall 1025 [104, 105] none].take n) = some conn' ->
          Keeps dialed.session.toSession conn' := by
  have hopen : opened false freshSession (.connectCall 1024 (hostAddr 2 80)) =
      some dialed := rfl
  refine ⟨hopen, (keeps_iff_sameAddress hopen _).2 ⟨trivial, ?_, trivial⟩⟩
  intro hunbound
  exact absurd hunbound (by decide)

/-- A second `connectCall` moves the connection to another peer. -/
theorem second_connect_changes_identity :
    opened false freshSession (.connectCall 1024 (hostAddr 2 80)) =
        some dialed ∧
      dialed.session.faddr = 0x0200a8c0 ∧
      (dialed.session.call false
        (.connectCall 1025 (hostAddr 3 81))).1.connState = .synSent ∧
      (dialed.session.call false
        (.connectCall 1025 (hostAddr 3 81))).1.faddr = 0x0300a8c0 ∧
      ¬ (forall n conn', run (step false) dialed
        ([.connectCall 1025 (hostAddr 3 81)].take n) = some conn' ->
          Keeps dialed.session.toSession conn') := by
  refine ⟨rfl, by decide, by decide, by decide, ?_⟩
  intro hall
  have hkeeps := hall 1 _ rfl
  exact absurd (congrArg Session.faddr hkeeps.tuple) (by decide)

end Connection

/-!
## The two modes of an endpoint
-/

namespace TcpSession

/-- `connectCall` in the two modes leaves the same session and emits the same
packets; it answers with `EINPROGRESS` in one mode and waits in the other. -/
structure SameHandshake (so : Endpoint) (s : TcpSession) (port : UInt16)
    (addr : Bytes) : Prop where
  tuple : (s.call true (.connectCall port addr)).1.toSession =
    (s.call false (.connectCall port addr)).1.toSession
  connState : (s.call true (.connectCall port addr)).1.connState =
    (s.call false (.connectCall port addr)).1.connState
  sendNext : (s.call true (.connectCall port addr)).1.sendNext =
    (s.call false (.connectCall port addr)).1.sendNext
  sendUnack : (s.call true (.connectCall port addr)).1.sendUnack =
    (s.call false (.connectCall port addr)).1.sendUnack
  packets : emitted (s.call true (.connectCall port addr)).2 =
    emitted (s.call false (.connectCall port addr)).2
  refused : (RpcDispatch.connectCall ⟨{ so with nonblocking := true }, .tcp s⟩
    port addr).2.returning =
      .connectCall ⟨-1, some RpcDispatch.eInProgress⟩
  waits : (RpcDispatch.connectCall ⟨{ so with nonblocking := false }, .tcp s⟩
    port addr).2 = RpcDispatch.waitNextResponse

theorem send_closed {s : TcpSession} (hclosed : s.connState = .closed)
    (port : UInt16) (buf : Bytes) :
    (s.send port buf).session.connState = .synSent ∧
      (s.send port buf).effects = [(s.superSend port).synSegment buf] := by
  have hcase := s.send_cases port buf
  generalize s.send port buf = result at hcase ⊢
  cases hcase with
  | syn _ => exact ⟨rfl, rfl⟩
  | data hestab =>
      rw [hclosed] at hestab
      cases hestab
  | other hopen _ => exact absurd hclosed hopen

/-- On a blocking endpoint the handshake starts.  On a non-blocking one nothing
happens to the session, no packet is emitted, and the answer is the error
number as the result of a `recvfrom`; so the modes agree for no session and no
address. -/
theorem sameHandshake_iff_false {s : TcpSession}
    (hclosed : s.connState = .closed) (so : Endpoint) (port : UInt16)
    (addr : Bytes) :
    (SameHandshake so s port addr <-> False) ∧
      s.call true (.connectCall port addr) = (s, []) ∧
      (RpcDispatch.connectCall ⟨{ so with nonblocking := true }, .tcp s⟩ port
        addr).2 = RpcDispatch.tcpInProgress ∧
      (s.call false (.connectCall port addr)).1.connState = .synSent ∧
      (emitted (s.call false (.connectCall port addr)).2).length = 1 := by
  have hsent := fun (base : Session) (port : UInt16) =>
    send_closed (s := { s with onConnEstabCB := true, toSession := base })
      hclosed port []
  have hsyn : (s.call false (.connectCall port addr)).1.connState =
      .synSent := (hsent _ _).left
  have hpackets : emitted (s.call false (.connectCall port addr)).2 =
      emitted [_] := congrArg emitted (hsent _ _).right
  refine ⟨⟨?_, False.elim⟩, rfl, rfl, hsyn, ?_⟩
  · intro hsame
    have hstate : s.connState = .synSent := hsame.connState.trans hsyn
    rw [hclosed] at hstate
    cases hstate
  · rw [hpackets]
    rfl

theorem fresh_modes_differ :
    Connection.freshSession.connState = .closed ∧
      (SameHandshake (Endpoint.create false) Connection.freshSession 1024
        (Connection.hostAddr 2 80) <-> False) :=
  ⟨rfl, (sameHandshake_iff_false rfl (Endpoint.create false) 1024
    (Connection.hostAddr 2 80)).left⟩

/-- A non-blocking `connect` to 192.168.0.2:80 on a new socket. -/
theorem nonblocking_connect_sends_nothing :
    (RpcDispatch.connectCall
        ⟨Endpoint.create true, .tcp Connection.freshSession⟩ 1024
        (Connection.hostAddr 2 80)) =
      (⟨Endpoint.create true, .tcp Connection.freshSession⟩,
        RpcDispatch.tcpInProgress) ∧
      emitted (Connection.freshSession.call true
        (.connectCall 1024 (Connection.hostAddr 2 80))).2 = [] ∧
      (emitted (Connection.freshSession.call false
        (.connectCall 1024 (Connection.hostAddr 2 80))).2).length = 1 ∧
      ¬ SameHandshake (Endpoint.create false) Connection.freshSession 1024
        (Connection.hostAddr 2 80) := by
  refine ⟨rfl, rfl, rfl, ?_⟩
  intro hsame
  exact absurd hsame.connState (by decide)

end TcpSession

end Velox
