import Velox.Arbiter.Connect
import Velox.Ip.Identification

/-!
# The names of a socket

`getpeername` and `getsockname` read the four-tuple of the session, which
`connectCall` and `sendtoCall` write.  A run is any sequence of requests on one
channel, packets for its session and events of its notify pipe.

What `getpeername` answers is given by `Peer`, which knows only the requests:
the address of the last `connect`, or none after a datagram with an address of
its own.  The local name, once the session is bound, is the same for the rest
of the run, and every packet carries it as its source.
-/

namespace Velox

open Foundation

/-!
## Runs
-/

def Sock.receive (sock : Sock) (given : SockaddrIn × Skbuf) : Sock :=
  ⟨(sock.pcb.recv given.1 given.2).2.foldl Endpoint.apply sock.so,
    (sock.pcb.recv given.1 given.2).1⟩

structure Naming where
  socket : Option Sock
  effects : List Effect

/-- A request comes with the value of the port counter at its time. -/
inductive NamingAct where
  | request (port : UInt16) (calling : Calling)
  | packet (peerAddr : SockaddrIn) (skbuf : Skbuf)
  | notify

namespace RpcDispatch

def requestEffects (port : UInt16) (sock : Sock) : Calling -> List Effect
  | .connectCall addr =>
      if sock.pcb.isTcp && sock.so.nonblocking then []
      else sock.pcb.setOnConnEstabCB.performEffects port
        (.connect (SockaddrIn.ofBytes addr).sinAddr
          (SockaddrIn.ofBytes addr).sinPort)
  | .sendtoCall buf _ addr => (sock.pcb.sendResult port buf addr).effects
  | _ => []

end RpcDispatch

namespace Naming

variable (laddr uninit : UInt32)

def init : Naming where
  socket := none
  effects := []

def step (s : Naming) : NamingAct -> Option Naming
  | .request port calling =>
      (RpcDispatch.handleRequest laddr uninit port s.socket calling).map
        fun handled =>
          { socket := handled.1
            effects := s.effects ++ s.socket.elim []
              fun sock => RpcDispatch.requestEffects port sock calling }
  | .packet peerAddr skbuf =>
      s.socket.map fun sock =>
        { socket := some (sock.receive (peerAddr, skbuf))
          effects := s.effects ++ (sock.pcb.recv peerAddr skbuf).2 }
  | .notify =>
      s.socket.bind fun sock =>
        (RpcDispatch.sChannelReadCb sock.so).map fun handled =>
          { s with socket := some { sock with so := handled.1 } }

end Naming

/-!
## The name of the peer
-/

structure Peer where
  isTcp : Bool
  nonblocking : Bool
  faddr : UInt32
  fport : UInt16
  deriving DecidableEq

namespace Peer

def ofSock (sock : Sock) : Peer where
  isTcp := sock.pcb.isTcp
  nonblocking := sock.so.nonblocking
  faddr := sock.pcb.session.faddr
  fport := sock.pcb.session.fport

def ofType (type : Int32) : Peer where
  isTcp := type &&& RpcDispatch.sockStream != 0
  nonblocking := type &&& RpcDispatch.sockNonblock != 0
  faddr := 0
  fport := 0

def setName (p : Peer) (addr : SockaddrIn) : Peer :=
  { p with faddr := addr.sinAddr, fport := addr.sinPort }

/-- A TCP socket that does not block never gets a peer, and a datagram with an
address of its own leaves none. -/
def after (p : Option Peer) : Calling -> Option Peer
  | .socketCall _ type _ => some (ofType type)
  | .connectCall addr =>
      p.map fun p =>
        if p.isTcp && p.nonblocking then p
        else p.setName (SockaddrIn.ofBytes addr)
  | .sendtoCall _ _ (some _) =>
      p.map fun p =>
        if p.isTcp then p else { p with faddr := 0, fport := 0 }
  | _ => p

def response (p : Peer) : Response :=
  RpcDispatch.okResponse (.getpeernameCall (RpcDispatch.ret 0)
    (some (SockaddrIn.inet p.faddr p.fport).toBytes))

/-!
### One request
-/

theorem ofSock_eq {sock : Sock} {p : Peer} (htype : sock.pcb.isTcp = p.isTcp)
    (hmode : sock.so.nonblocking = p.nonblocking)
    (hname : sock.pcb.session.faddr = p.faddr ∧
      sock.pcb.session.fport = p.fport) : ofSock sock = p := by
  unfold ofSock
  rw [htype, hmode, hname.1, hname.2]

theorem ofSock_socketCall {laddr uninit : UInt32} {type : Int32}
    {made : Sock × Response}
    (h : RpcDispatch.socketCall laddr uninit type = some made) :
    ofSock made.1 = ofType type := by
  unfold RpcDispatch.socketCall at h
  split at h
  case isTrue hstream =>
    cases h
    exact ofSock_eq hstream.symm rfl ⟨rfl, rfl⟩
  case isFalse hstream =>
    split at h
    · cases h
      exact ofSock_eq (Bool.eq_false_iff.mpr hstream).symm rfl ⟨rfl, rfl⟩
    · cases h

theorem connect_name (s : Session) (port : UInt16) (faddr : UInt32)
    (fport : UInt16) :
    (s.connect port faddr fport).1.faddr = faddr ∧
      (s.connect port faddr fport).1.fport = fport :=
  Session.bind_foreign { s with faddr := faddr, fport := fport } port

theorem tcp_connect_name (s : TcpSession) (port : UInt16) (faddr : UInt32)
    (fport : UInt16) :
    (s.connect port faddr fport).session.faddr = faddr ∧
      (s.connect port faddr fport).session.fport = fport := by
  have hsent : (s.connect port faddr fport).session.toSession =
      ((s.toSession.connect port faddr fport).1.bind
        (s.toSession.connect port faddr fport).2).1 :=
    TcpSession.send_toSession { s with
      toSession := (s.toSession.connect port faddr fport).1 } _ []
  rw [hsent]
  have hbind := (s.toSession.connect port faddr fport).1.bind_foreign
    (s.toSession.connect port faddr fport).2
  have hconnect := connect_name s.toSession port faddr fport
  exact ⟨hbind.1.trans hconnect.1, hbind.2.trans hconnect.2⟩

theorem ofSock_connectCall (sock : Sock) (port : UInt16) (addr : Bytes) :
    some (ofSock (RpcDispatch.connectCall sock port addr).1) =
      after (some (ofSock sock)) (.connectCall addr) := by
  rcases sock with ⟨so, pcb⟩
  refine congrArg some ?_
  cases pcb with
  | udp s => exact ofSock_eq rfl rfl (connect_name s port _ _)
  | tcp s =>
      cases hmode : so.nonblocking with
      | true =>
          simp only [RpcDispatch.connectCall, ofSock, Pcb.isTcp, hmode,
            Bool.and_true, if_true]
      | false =>
          refine ofSock_eq ?_ ?_ ?_ <;>
            simp only [RpcDispatch.connectCall, ofSock, Pcb.isTcp, hmode,
              Bool.and_false, Bool.false_eq_true, if_false]
          · rfl
          · rfl
          · exact tcp_connect_name { s with onConnEstabCB := true } port _ _

theorem ofSock_sendtoCall (sock : Sock) (port : UInt16) (buf : Bytes)
    (flags : Int32) (addr : Option Bytes) :
    some (ofSock { sock with
        pcb := (RpcDispatch.sendtoCall sock.pcb port buf addr).1 }) =
      after (some (ofSock sock)) (.sendtoCall buf flags addr) := by
  rcases sock with ⟨so, pcb⟩
  cases pcb with
  | udp s =>
      cases addr with
      | none => exact congrArg some (ofSock_eq rfl rfl (s.bind_foreign port))
      | some bytes => rfl
  | tcp s =>
      have hname : (s.send port buf).session.faddr = s.faddr ∧
          (s.send port buf).session.fport = s.fport := by
        rw [TcpSession.send_toSession]
        exact s.toSession.bind_foreign port
      cases addr with
      | none => exact congrArg some (ofSock_eq rfl rfl hname)
      | some bytes => exact congrArg some (ofSock_eq rfl rfl hname)

theorem ofSock_recvfromCall (sock : Sock) (requireAddr : Bool) :
    ofSock (RpcDispatch.recvfromCall sock requireAddr).1 = ofSock sock := by
  rcases sock with ⟨so, pcb⟩
  unfold RpcDispatch.recvfromCall Endpoint.tryTakeFromRecvQ
  cases so.recvQ with
  | nil =>
      dsimp only
      split
      · rfl
      · rfl
  | cons packet rest => rfl

theorem ofSock_handleRequest {laddr uninit : UInt32} {port : UInt16}
    {socket : Option Sock} {calling : Calling}
    {handled : Option Sock × Response}
    (h : RpcDispatch.handleRequest laddr uninit port socket calling =
      some handled) :
    handled.1.map ofSock = after (socket.map ofSock) calling := by
  cases calling with
  | socketCall domain type protocol =>
      rcases Option.map_eq_some_iff.mp h with ⟨made, hmade, rfl⟩
      exact congrArg some (ofSock_socketCall hmade)
  | connectCall addr =>
      cases socket with
      | none => cases h
      | some sock =>
          cases h
          exact ofSock_connectCall sock port addr
  | recvfromCall len flags requireAddr =>
      cases socket with
      | none => cases h
      | some sock =>
          cases h
          exact congrArg some (ofSock_recvfromCall sock requireAddr)
  | sendtoCall buf flags addr =>
      cases socket with
      | none => cases h
      | some sock =>
          cases h
          exact ofSock_sendtoCall sock port buf flags addr
  | getpeernameCall =>
      cases socket with
      | none => cases h
      | some sock =>
          cases h
          rfl
  | getsocknameCall =>
      cases socket with
      | none => cases h
      | some sock =>
          cases h
          rfl
  | _ =>
      cases h
      rfl

end Peer

namespace Endpoint

theorem nonblocking_putToRecvQ (so : Endpoint) (packet : Packet) :
    (so.putToRecvQ packet).nonblocking = so.nonblocking := by
  unfold putToRecvQ
  split
  · rfl
  · rfl

theorem nonblocking_apply (so : Endpoint) (e : Effect) :
    (so.apply e).nonblocking = so.nonblocking := by
  cases e with
  | putToRecvQ peerAddr skbuf => exact so.nonblocking_putToRecvQ _
  | _ => rfl

theorem nonblocking_foldl_apply (so : Endpoint) (effects : List Effect) :
    (effects.foldl apply so).nonblocking = so.nonblocking := by
  induction effects generalizing so with
  | nil => rfl
  | cons e rest ih => exact (ih (so.apply e)).trans (so.nonblocking_apply e)

theorem nonblocking_sChannelReadCb {so : Endpoint}
    {handled : Endpoint × Option Response}
    (h : RpcDispatch.sChannelReadCb so = some handled) :
    handled.1.nonblocking = so.nonblocking := by
  unfold RpcDispatch.sChannelReadCb tryTakeFromRecvQ at h
  split at h
  · split at h
    · cases h
      rfl
    · cases hq : so.recvQ with
      | nil =>
          rw [hq] at h
          cases h
      | cons packet rest =>
          rw [hq] at h
          cases h
          rfl
  · cases h
    rfl

end Endpoint

theorem Pcb.session_recv (pcb : Pcb) (peerAddr : SockaddrIn) (skbuf : Skbuf) :
    (pcb.recv peerAddr skbuf).1.session = pcb.session := by
  cases pcb with
  | udp s => rfl
  | tcp s => exact s.recv_toSession peerAddr skbuf

theorem Sock.session_receive (sock : Sock) (given : SockaddrIn × Skbuf) :
    (sock.receive given).pcb.session = sock.pcb.session :=
  sock.pcb.session_recv given.1 given.2

namespace Naming

variable {laddr uninit : UInt32}

def requests : List NamingAct -> List Calling
  | [] => []
  | .request _ calling :: rest => calling :: requests rest
  | _ :: rest => requests rest

theorem peer_packet (sock : Sock) (given : SockaddrIn × Skbuf) :
    Peer.ofSock (sock.receive given) = Peer.ofSock sock := by
  refine Peer.ofSock_eq (sock.pcb.recv_isTcp given.1 given.2)
    (Endpoint.nonblocking_foldl_apply _ _) ?_
  rw [sock.session_receive given]
  exact ⟨rfl, rfl⟩

theorem peer_run {s s' : Naming} {acts : List NamingAct}
    (hrun : run (step laddr uninit) s acts = some s') :
    s'.socket.map Peer.ofSock =
      (requests acts).foldl Peer.after (s.socket.map Peer.ofSock) := by
  induction acts generalizing s with
  | nil =>
      cases hrun
      rfl
  | cons a rest ih =>
      rcases run_cons hrun with ⟨mid, hstep, hrest⟩
      rw [ih hrest]
      cases a with
      | request port calling =>
          rcases Option.map_eq_some_iff.mp hstep with ⟨handled, hhandled, rfl⟩
          rw [Peer.ofSock_handleRequest hhandled]
          rfl
      | packet peerAddr skbuf =>
          rcases Option.map_eq_some_iff.mp hstep with ⟨sock, hsock, rfl⟩
          rw [hsock, Option.map_some, Option.map_some, peer_packet]
          rfl
      | notify =>
          rcases Option.bind_eq_some_iff.mp hstep with ⟨sock, hsock, hread⟩
          rcases Option.map_eq_some_iff.mp hread with ⟨handled, hhandled, rfl⟩
          have hpeer : Peer.ofSock { sock with so := handled.1 } =
              Peer.ofSock sock :=
            Peer.ofSock_eq rfl
              (Endpoint.nonblocking_sChannelReadCb hhandled) ⟨rfl, rfl⟩
          rw [hsock, Option.map_some, Option.map_some, hpeer]
          rfl

/-- In every run `getpeername` answers with the name that the requests alone
determine, whatever packets have arrived. -/
theorem getpeername_of_run {s : Naming} {acts : List NamingAct}
    (hrun : run (step laddr uninit) init acts = some s) :
    s.socket.map (fun sock => RpcDispatch.getpeernameCall sock.pcb) =
      ((requests acts).foldl Peer.after none).map Peer.response := by
  have hpeer := peer_run hrun
  rw [init, Option.map_none] at hpeer
  rw [← hpeer, Option.map_map]
  rfl

def datagramBetween : List NamingAct :=
  [.request 1024 (.socketCall 2 2 0),
    .request 1024 (.connectCall (SockaddrIn.inet 2 5).toBytes),
    .request 1025 (.sendtoCall [7] 0
      (some (SockaddrIn.inet 3 6).toBytes))]

theorem getpeername_datagramBetween :
    exists s, run (step 0x0100a8c0 0) init datagramBetween = some s ∧
      s.socket.map (fun sock => RpcDispatch.getpeernameCall sock.pcb) =
        ((requests datagramBetween).foldl Peer.after none).map
          Peer.response := by
  have hruns : exists s,
      run (step 0x0100a8c0 0) init datagramBetween = some s := ⟨_, rfl⟩
  rcases hruns with ⟨s, hrun⟩
  exact ⟨s, hrun, getpeername_of_run hrun⟩

end Naming

/-!
## The local name
-/

/-- The effect is no packet, or a packet from the address and port. -/
def Effect.From (laddr : UInt32) (lport : UInt16) : Effect -> Prop
  | .tx f payload => forall last, exists proto t n,
      OnWire proto t n payload (TunIface.tx (Ip.tx last f payload).1) ∧
        t.laddr = laddr ∧ t.lport = lport
  | _ => True

namespace Session

def SameLocal (s s' : Session) : Prop :=
  s'.laddr = s.laddr ∧ s'.lport = s.lport

theorem bind_sameLocal {s : Session} (h : s.lport ≠ 0) (port : UInt16) :
    s.SameLocal (s.bind port).1 := by
  rw [bind_of_bound h]
  exact ⟨rfl, rfl⟩

theorem SameLocal.trans {s t u : Session} (hst : s.SameLocal t)
    (htu : t.SameLocal u) : s.SameLocal u :=
  ⟨htu.1.trans hst.1, htu.2.trans hst.2⟩

theorem connect_sameLocal {s : Session} (h : s.lport ≠ 0) (port : UInt16)
    (faddr : UInt32) (fport : UInt16) :
    s.SameLocal (s.connect port faddr fport).1 := by
  have hbind := bind_sameLocal
    (s := { s with faddr := faddr, fport := fport }) h port
  exact hbind

theorem disconnect_sameLocal {s t : Session} (h : s.SameLocal t) :
    s.SameLocal t.disconnect :=
  h

end Session

theorem Effect.From.of_sameLocal {s t : Session} (h : s.SameLocal t)
    {e : Effect} (he : e.From t.laddr t.lport) : e.From s.laddr s.lport := by
  rw [← h.1, ← h.2]
  exact he

namespace UdpSession

theorem datagram_from (s : Session) (buf : Bytes) :
    (Effect.tx (datagram s buf) buf).From s.laddr s.lport :=
  fun last => ⟨17, s, 28, datagram_onWire s last buf, rfl, rfl⟩

theorem send_sameLocal {s : Session} (h : s.lport ≠ 0) (port : UInt16)
    (buf : Bytes) : s.SameLocal (send s port buf).session :=
  Session.bind_sameLocal h port

theorem send_from {s : Session} (h : s.lport ≠ 0) (port : UInt16)
    (buf : Bytes) :
    forall e, e ∈ (send s port buf).effects -> e.From s.laddr s.lport := by
  have hlocal := send_sameLocal h port buf
  exact List.forall_mem_singleton.mpr
    (Effect.From.of_sameLocal hlocal (datagram_from _ buf))

/-- The three calls of `bind` in a one-shot datagram find the port set. -/
theorem sendTo_sameLocal {s : Session} (h : s.lport ≠ 0) (port : UInt16)
    (faddr : UInt32) (fport : UInt16) (buf : Bytes) :
    s.SameLocal (sendTo s port faddr fport buf).session := by
  have hsession := (sendTo_eq s port faddr fport buf).1
  rw [Session.bind_of_bound h] at hsession
  rw [hsession]
  have hconnect := Session.connect_sameLocal h port faddr fport
  have hlport : (s.connect port faddr fport).1.lport ≠ 0 := by
    rw [hconnect.2]
    exact h
  exact Session.disconnect_sameLocal
    (hconnect.trans (Session.bind_sameLocal hlport _))

theorem sendTo_from {s : Session} (h : s.lport ≠ 0) (port : UInt16)
    (faddr : UInt32) (fport : UInt16) (buf : Bytes) :
    forall e, e ∈ (sendTo s port faddr fport buf).effects ->
      e.From s.laddr s.lport := by
  have hlocal := sendTo_sameLocal h port faddr fport buf
  rw [sendTo_effects]
  generalize (sendTo s port faddr fport buf).session = t at hlocal ⊢
  have hfrom := datagram_from { t with faddr := faddr, fport := fport } buf
  exact List.forall_mem_singleton.mpr
    (Effect.From.of_sameLocal hlocal hfrom)

end UdpSession

namespace TcpSession

theorem packetsCarry_from {t : Session} {effects : List Effect}
    (h : PacketsCarry t (emitted effects)) :
    forall e, e ∈ effects -> e.From t.laddr t.lport := by
  intro e he
  cases e with
  | tx f payload =>
      intro last
      have hmem : (f, payload) ∈ emitted effects :=
        List.mem_filterMap.mpr ⟨_, he, rfl⟩
      exact ⟨6, t, 40, h f payload hmem last, rfl, rfl⟩
  | _ => trivial

theorem send_sameLocal {s : TcpSession} (h : s.lport ≠ 0) (port : UInt16)
    (buf : Bytes) :
    s.toSession.SameLocal (s.send port buf).session.toSession := by
  rw [send_toSession]
  exact Session.bind_sameLocal h port

theorem connect_sameLocal {s : TcpSession} (h : s.lport ≠ 0) (port : UInt16)
    (faddr : UInt32) (fport : UInt16) :
    s.toSession.SameLocal
      (s.connect port faddr fport).session.toSession := by
  have hconnect := Session.connect_sameLocal h port faddr fport
  have hlport : (s.toSession.connect port faddr fport).1.lport ≠ 0 := by
    rw [hconnect.2]
    exact h
  exact hconnect.trans (send_sameLocal (s := { s with
    toSession := (s.toSession.connect port faddr fport).1 }) hlport _ [])

end TcpSession

namespace Pcb

/-- What an operation or a packet does to a bound session: the local name
stays, and the packets come from it. -/
structure KeepsLocal (pcb pcb' : Pcb) (effects : List Effect) : Prop where
  name : pcb.session.SameLocal pcb'.session
  from_name : forall e, e ∈ effects ->
    e.From pcb.session.laddr pcb.session.lport

theorem keepsLocal_sendResult {pcb : Pcb} (h : pcb.lport ≠ 0) (port : UInt16)
    (buf : Bytes) (addr : Option Bytes) :
    pcb.KeepsLocal (pcb.sendResult port buf addr).session
      (pcb.sendResult port buf addr).effects := by
  cases pcb with
  | udp s =>
      cases addr with
      | none =>
          exact ⟨UdpSession.send_sameLocal h port buf,
            UdpSession.send_from h port buf⟩
      | some bytes =>
          exact ⟨UdpSession.sendTo_sameLocal h port _ _ buf,
            UdpSession.sendTo_from h port _ _ buf⟩
  | tcp s =>
      have hlocal := TcpSession.send_sameLocal h port buf
      have hcarry := TcpSession.packetsCarry_from (s.send_packetsCarry port buf)
      exact ⟨hlocal, fun e he => Effect.From.of_sameLocal hlocal (hcarry e he)⟩

theorem keepsLocal_recv (pcb : Pcb) (peerAddr : SockaddrIn) (skbuf : Skbuf) :
    pcb.KeepsLocal (pcb.recv peerAddr skbuf).1 (pcb.recv peerAddr skbuf).2 := by
  have hsession := pcb.session_recv peerAddr skbuf
  refine ⟨?_, ?_⟩
  · rw [hsession]
    exact ⟨rfl, rfl⟩
  · cases pcb with
    | udp s =>
        exact List.forall_mem_singleton.mpr trivial
    | tcp s =>
        have hcarry := TcpSession.packetsCarry_from
          (s.apply_packetsCarry (.recv peerAddr skbuf))
        have htuple : (s.apply (.recv peerAddr skbuf)).1.toSession =
            s.toSession := s.recv_toSession peerAddr skbuf
        rw [htuple] at hcarry
        exact hcarry

theorem keepsLocal_same (pcb : Pcb) : pcb.KeepsLocal pcb [] :=
  ⟨⟨rfl, rfl⟩, fun _ he => absurd he List.not_mem_nil⟩

end Pcb

namespace RpcDispatch

theorem keepsLocal_connectCall {sock : Sock} (h : sock.pcb.lport ≠ 0)
    (port : UInt16) (addr : Bytes) :
    sock.pcb.KeepsLocal (connectCall sock port addr).1.pcb
      (requestEffects port sock (.connectCall addr)) := by
  rcases sock with ⟨so, pcb⟩
  cases pcb with
  | udp s =>
      exact ⟨Session.connect_sameLocal h port _ _,
        fun _ he => absurd he List.not_mem_nil⟩
  | tcp s =>
      cases hmode : so.nonblocking with
      | true =>
          simp only [connectCall, requestEffects, Pcb.isTcp, hmode,
            Bool.and_true, if_true]
          exact Pcb.keepsLocal_same _
      | false =>
          simp only [connectCall, requestEffects, Pcb.isTcp, hmode,
            Bool.and_false, Bool.false_eq_true, if_false]
          have hlocal := TcpSession.connect_sameLocal
            (s := { s with onConnEstabCB := true }) h port
            (SockaddrIn.ofBytes addr).sinAddr (SockaddrIn.ofBytes addr).sinPort
          have hcarry := TcpSession.packetsCarry_from
            (TcpSession.apply_packetsCarry { s with onConnEstabCB := true }
              (.connect port (SockaddrIn.ofBytes addr).sinAddr
                (SockaddrIn.ofBytes addr).sinPort))
          exact ⟨hlocal,
            fun e he => Effect.From.of_sameLocal hlocal (hcarry e he)⟩

theorem keepsLocal_handleRequest {laddr uninit : UInt32} {port : UInt16}
    {sock : Sock} {calling : Calling} {handled : Option Sock × Response}
    (hbound : sock.pcb.lport ≠ 0)
    (hcalling : forall domain type protocol,
      calling ≠ .socketCall domain type protocol)
    (h : handleRequest laddr uninit port (some sock) calling =
      some handled) :
    exists sock', handled.1 = some sock' ∧
      sock.pcb.KeepsLocal sock'.pcb (requestEffects port sock calling) := by
  cases calling with
  | socketCall domain type protocol =>
      exact absurd rfl (hcalling domain type protocol)
  | connectCall addr =>
      cases h
      exact ⟨_, rfl, keepsLocal_connectCall hbound port addr⟩
  | recvfromCall len flags requireAddr =>
      cases h
      refine ⟨_, rfl, ?_⟩
      have hpcb : (recvfromCall sock requireAddr).1.pcb = sock.pcb := by
        unfold recvfromCall
        split
        · rfl
        · split
          · rfl
          · rfl
      rw [hpcb]
      exact sock.pcb.keepsLocal_same
  | sendtoCall buf flags addr =>
      cases h
      refine ⟨_, rfl, ?_⟩
      have hkeeps := Pcb.keepsLocal_sendResult hbound port buf addr
      have hpcb : (sendtoCall sock.pcb port buf addr).1 =
          (sock.pcb.sendResult port buf addr).session :=
        congrArg Prod.fst (sock.pcb.sendto_eq_sendResult port buf addr)
      rw [hpcb]
      exact hkeeps
  | _ =>
      cases h
      exact ⟨sock, rfl, sock.pcb.keepsLocal_same⟩

end RpcDispatch

namespace Naming

variable {laddr uninit : UInt32}

def SameSocket (acts : List NamingAct) : Prop :=
  forall domain type protocol,
    Calling.socketCall domain type protocol ∉ requests acts

theorem SameSocket.tail {a : NamingAct} {rest : List NamingAct}
    (h : SameSocket (a :: rest)) : SameSocket rest := by
  intro domain type protocol hmem
  apply h domain type protocol
  cases a with
  | request port calling => exact List.mem_cons_of_mem calling hmem
  | _ => exact hmem

theorem keepsLocal_step {s s' : Naming} {a : NamingAct} {sock : Sock}
    (hsock : s.socket = some sock) (hbound : sock.pcb.lport ≠ 0)
    (hsame : SameSocket [a]) (hstep : s.step laddr uninit a = some s') :
    exists sock' new, s'.socket = some sock' ∧ s'.effects = s.effects ++ new ∧
      sock.pcb.KeepsLocal sock'.pcb new := by
  cases a with
  | request port calling =>
      rcases Option.map_eq_some_iff.mp hstep with ⟨handled, hhandled, rfl⟩
      rw [hsock] at hhandled ⊢
      have hcalling : forall domain type protocol,
          calling ≠ .socketCall domain type protocol :=
        fun domain type protocol heq =>
          hsame domain type protocol (heq ▸ List.mem_cons_self)
      rcases RpcDispatch.keepsLocal_handleRequest hbound hcalling hhandled with
        ⟨sock', hnew, hkeeps⟩
      exact ⟨sock', _, hnew, rfl, hkeeps⟩
  | packet peerAddr skbuf =>
      rcases Option.map_eq_some_iff.mp hstep with ⟨found, hfound, rfl⟩
      cases Option.some.inj (hsock.symm.trans hfound)
      exact ⟨_, _, rfl, rfl, sock.pcb.keepsLocal_recv peerAddr skbuf⟩
  | notify =>
      rcases Option.bind_eq_some_iff.mp hstep with ⟨found, hfound, hread⟩
      cases Option.some.inj (hsock.symm.trans hfound)
      rcases Option.map_eq_some_iff.mp hread with ⟨handled, _, rfl⟩
      exact ⟨_, [], rfl, (List.append_nil _).symm, sock.pcb.keepsLocal_same⟩

/-- From the moment a socket has a port, `getsockname` gives the same answer in
the rest of every run, and every packet of the socket, acknowledgements
included, has that address and port as its source. -/
theorem getsockname_of_run {s s' : Naming} {acts : List NamingAct}
    {sock : Sock} (hsock : s.socket = some sock)
    (hbound : sock.pcb.lport ≠ 0) (hsame : SameSocket acts)
    (hrun : run (step laddr uninit) s acts = some s') :
    exists sock' new, s'.socket = some sock' ∧
      RpcDispatch.getsocknameCall sock'.pcb =
        RpcDispatch.getsocknameCall sock.pcb ∧
      s'.effects = s.effects ++ new ∧
      forall e, e ∈ new ->
        e.From sock.pcb.session.laddr sock.pcb.session.lport := by
  induction acts generalizing s sock with
  | nil =>
      cases hrun
      exact ⟨sock, [], hsock, rfl, (List.append_nil _).symm,
        fun _ he => absurd he List.not_mem_nil⟩
  | cons a rest ih =>
      rcases run_cons hrun with ⟨mid, hstep, hrest⟩
      have hhead : SameSocket [a] := by
        intro domain type protocol hmem
        apply hsame domain type protocol
        cases a with
        | request port calling =>
            rw [List.mem_singleton.mp hmem]
            exact List.mem_cons_self
        | _ => exact absurd hmem List.not_mem_nil
      rcases keepsLocal_step hsock hbound hhead hstep with
        ⟨sock₁, new₁, hsock₁, heffects₁, hkeeps⟩
      have hbound₁ : sock₁.pcb.lport ≠ 0 := by
        rw [Pcb.lport, hkeeps.name.2]
        exact hbound
      rcases ih hsock₁ hbound₁ hsame.tail hrest with
        ⟨sock', new, hsock', hname, heffects, hfrom⟩
      refine ⟨sock', new₁ ++ new, hsock', ?_, ?_, ?_⟩
      · rw [hname]
        unfold RpcDispatch.getsocknameCall
        rw [hkeeps.name.1, hkeeps.name.2]
      · rw [heffects, heffects₁, List.append_assoc]
      · intro e he
        rcases List.mem_append.mp he with he | he
        · exact hkeeps.from_name e he
        · exact Effect.From.of_sameLocal hkeeps.name (hfrom e he)

def boundSock : Sock where
  so := Endpoint.create false
  pcb := .udp ⟨2, 5, 0x0100a8c0, 0x0104⟩

def twoDatagrams : List NamingAct :=
  [.request 1030 (.sendtoCall [7] 0 none),
    .request 1030 (.sendtoCall [8] 0 (some (SockaddrIn.inet 3 6).toBytes))]

theorem sameSocket_twoDatagrams : SameSocket twoDatagrams := by
  intro domain type protocol hmem
  simp [twoDatagrams, requests] at hmem

theorem getsockname_twoDatagrams :
    exists s, run (step 0x0100a8c0 0) ⟨some boundSock, []⟩ twoDatagrams =
        some s ∧
      exists sock' new, s.socket = some sock' ∧
        RpcDispatch.getsocknameCall sock'.pcb =
          RpcDispatch.getsocknameCall boundSock.pcb ∧
        s.effects = [] ++ new ∧
        forall e, e ∈ new -> e.From 0x0100a8c0 0x0104 := by
  have hruns : exists s, run (step 0x0100a8c0 0) ⟨some boundSock, []⟩
      twoDatagrams = some s := ⟨_, rfl⟩
  rcases hruns with ⟨s, hrun⟩
  exact ⟨s, hrun,
    getsockname_of_run rfl (by decide) sameSocket_twoDatagrams hrun⟩

end Naming

end Velox
