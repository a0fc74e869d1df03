import Velox.Arbiter.Channel

/-!
# The steps of a channel

The step function as a relation with one constructor for each thing that can
happen, and what the calls that return at once do to the session.
-/

namespace Velox

/-!
## Sessions
-/

namespace Pcb

/-- The handshake is not over: a SYN of the peer would end it. -/
def handshaking : Pcb -> Bool
  | .udp _ => false
  | .tcp s => decide (s.connState = .closed ∨ s.connState = .synSent)

/-- An operation that neither sets the callback nor ends the handshake. -/
structure Keeps (pcb pcb' : Pcb) : Prop where
  kind : pcb'.isTcp = pcb.isTcp
  callback : pcb'.onConnEstabCB = pcb.onConnEstabCB
  handshake : pcb'.handshaking = pcb.handshaking

theorem Keeps.refl (pcb : Pcb) : Keeps pcb pcb :=
  ⟨rfl, rfl, rfl⟩

theorem keeps_tcpSend (s : TcpSession) (port : UInt16)
    (buf : Foundation.Bytes) :
    Keeps (.tcp s) (.tcp (s.send port buf).session) := by
  generalize hresult : s.send port buf = result
  cases hresult ▸ s.send_cases port buf with
  | syn hstate =>
      refine ⟨rfl, rfl, ?_⟩
      simp [handshaking, hstate]
  | data hstate => exact ⟨rfl, rfl, rfl⟩
  | other hclosed hestab => exact ⟨rfl, rfl, rfl⟩

theorem keeps_sendto (pcb : Pcb) (port : UInt16) (buf : Foundation.Bytes)
    (addr : Option Foundation.Bytes) : Keeps pcb (pcb.sendto port buf addr).1 := by
  cases pcb with
  | tcp s => exact keeps_tcpSend s port buf
  | udp s =>
      cases addr with
      | none => exact ⟨rfl, rfl, rfl⟩
      | some bytes => exact ⟨rfl, rfl, rfl⟩

theorem keeps_connect (pcb : Pcb) (port : UInt16) (addr : SockaddrIn) :
    Keeps pcb (pcb.connect port addr) := by
  cases pcb with
  | udp s => exact ⟨rfl, rfl, rfl⟩
  | tcp s =>
      have hsend := keeps_tcpSend
        { s with toSession :=
          (s.toSession.connect port addr.sinAddr addr.sinPort).1 }
        (s.toSession.connect port addr.sinAddr addr.sinPort).2 []
      exact ⟨hsend.kind, hsend.callback, hsend.handshake⟩

theorem recv_callback (pcb : Pcb) (peerAddr : SockaddrIn) (skbuf : Skbuf) :
    (pcb.recv peerAddr skbuf).1.onConnEstabCB = pcb.onConnEstabCB := by
  cases pcb with
  | udp s => rfl
  | tcp s =>
      rcases s.readAck_eq skbuf.head with ⟨una, hread⟩
      show (s.recv peerAddr skbuf).1.onConnEstabCB = s.onConnEstabCB
      generalize hresult : s.recv peerAddr skbuf = result
      cases hresult ▸ s.recv_cases peerAddr skbuf with
      | syn hstate => rfl
      | data hstate hlen =>
          show (s.readAck skbuf.head).onConnEstabCB = _
          rw [hread]
      | empty hstate hlen =>
          show (s.readAck skbuf.head).onConnEstabCB = _
          rw [hread]
      | other hsyn hestab => rfl

theorem recv_handshaking (pcb : Pcb) (peerAddr : SockaddrIn)
    (skbuf : Skbuf) :
    (pcb.recv peerAddr skbuf).2.count .runOnConnEstabCB +
      (pcb.recv peerAddr skbuf).1.handshaking.toNat =
        pcb.handshaking.toNat := by
  cases pcb with
  | udp s => rfl
  | tcp s =>
      rcases s.readAck_eq skbuf.head with ⟨una, hread⟩
      show (s.recv peerAddr skbuf).2.count .runOnConnEstabCB +
        (decide ((s.recv peerAddr skbuf).1.connState = .closed ∨
          (s.recv peerAddr skbuf).1.connState = .synSent)).toNat =
        (decide (s.connState = .closed ∨ s.connState = .synSent)).toNat
      generalize hresult : s.recv peerAddr skbuf = result
      cases hresult ▸ s.recv_cases peerAddr skbuf with
      | syn hstate =>
          rw [hstate]
          rfl
      | data hstate hlen =>
          have hkeep : (s.dataReceived skbuf.head).connState =
              .established := by
            rw [TcpSession.dataReceived, hread]
            exact hstate
          show _ + (decide ((s.dataReceived skbuf.head).connState = .closed ∨
            (s.dataReceived skbuf.head).connState = .synSent)).toNat = _
          rw [hkeep, hstate]
          rfl
      | empty hstate hlen =>
          have hkeep : (s.readAck skbuf.head).connState = .established := by
            rw [hread]
            exact hstate
          show _ + (decide ((s.readAck skbuf.head).connState = .closed ∨
            (s.readAck skbuf.head).connState = .synSent)).toNat = _
          rw [hkeep, hstate]
          rfl
      | other hsyn hestab => exact Nat.zero_add _

end Pcb

/-!
## Responses
-/

namespace RpcDispatch

/-- The responses that can settle a call, with the packet that they carry.
The callback for a new packet of a TCP session leaves the address out. -/
inductive Answers (tcp : Bool) : Calling -> Option Packet -> Response -> Prop
    where
  | socket (domain type protocol : Int32) :
      Answers tcp (.socketCall domain type protocol) none
        (okResponse (.socketCall (ret 0)))
  | packet (len flags : Int32) (requireAddr gives : Bool) (packet : Packet)
      (hudp : tcp = false -> gives = requireAddr) :
      Answers tcp (.recvfromCall len flags requireAddr) (some packet)
        (recvfromPacket gives packet)
  | again (len flags : Int32) (requireAddr : Bool) :
      Answers tcp (.recvfromCall len flags requireAddr) none recvfromAgain
  | estab (addr : Foundation.Bytes) :
      Answers tcp (.connectCall addr) none connEstabResponse
  | inProgress (addr : Foundation.Bytes) :
      Answers tcp (.connectCall addr) none tcpInProgress
  | connectUdp (pcb : Pcb) (port : UInt16) (addr : Foundation.Bytes) :
      Answers tcp (.connectCall addr) none (connectUdp pcb port addr).2
  | sendto (buf : Foundation.Bytes) (flags : Int32)
      (addr : Option Foundation.Bytes) (pcb : Pcb) (port : UInt16) :
      Answers tcp (.sendtoCall buf flags addr) none
        (sendtoCall pcb port buf addr).2
  | close : Answers tcp .closeCall none closeCall
  | poll : Answers tcp .pollCall none emptyResponse
  | select : Answers tcp .selectCall none emptyResponse
  | getpeername (pcb : Pcb) :
      Answers tcp .getpeernameCall none (getpeernameCall pcb)
  | getsockname (pcb : Pcb) :
      Answers tcp .getsocknameCall none (getsocknameCall pcb)
  | getsockopt : Answers tcp .getsockoptCall none getsockoptCall
  | setsockopt : Answers tcp .setsockoptCall none setsockoptCall
  | fcntl : Answers tcp .fcntlCall none fcntlCall
  | atstart (progname : Foundation.Bytes) :
      Answers tcp (.atstartAction progname) none atstartAction
  | notSet : Answers tcp .notSet none emptyResponse

theorem Answers.final {tcp : Bool} {calling : Calling}
    {packet : Option Packet} {resp : Response}
    (h : Answers tcp calling packet resp) : resp.Final := by
  cases h <;> nofun

theorem Answers.packetData {tcp : Bool} {calling : Calling}
    {packet : Option Packet} {resp : Response}
    (h : Answers tcp calling packet resp) :
    resp.packetData =
      packet.map fun p => drainSkbufChain p.skbuf.frames := by
  cases h <;> rfl

theorem asyncCallback_eq (pcb : Pcb) (requireAddr : Bool) :
    asyncCallback pcb requireAddr =
      bif pcb.isTcp then .tcp else .udp requireAddr := by
  cases pcb <;> rfl

theorem answers_async (tcp : Bool) (len flags : Int32) (requireAddr : Bool)
    (packet : Packet) :
    Answers tcp (.recvfromCall len flags requireAddr) (some packet)
      (asyncResponse (bif tcp then .tcp else .udp requireAddr) packet) := by
  cases tcp with
  | false => exact .packet len flags requireAddr requireAddr packet fun _ => rfl
  | true => exact .packet len flags requireAddr false packet nofun

end RpcDispatch

/-!
## Steps
-/

namespace Channel

variable {ι : Type}

theorem Opened.eq_opened {s : Channel ι} (h : Opened s) :
    exists c domain type protocol nonblocking pcb,
      pcb.onConnEstabCB = false ∧
        s = opened c domain type protocol ⟨Endpoint.create nonblocking, pcb⟩
          (RpcDispatch.okResponse (.socketCall (RpcDispatch.ret 0))) := by
  rcases h with
    ⟨c, laddr, uninit, port, domain, type, protocol, sock, resp, hcall, rfl⟩
  rcases Option.map_eq_some_iff.1 hcall with ⟨made, hmade, heq⟩
  unfold RpcDispatch.socketCall at hmade
  simp only at hmade
  split at hmade
  · cases hmade
    cases heq
    exact ⟨c, domain, type, protocol, _, _, rfl, rfl⟩
  · split at hmade
    · cases hmade
      cases heq
      exact ⟨c, domain, type, protocol, _, _, rfl, rfl⟩
    · cases hmade

variable [DecidableEq ι]

inductive Step (s : Channel ι) : Action ι -> Channel ι -> Prop where
  | send (c : ι) (calling : Calling) (hout : s.outstanding c = none) :
      Step s (.chanSend c calling)
        { s with
          outstanding := Function.update s.outstanding c (some s.sent.length)
          toDaemon := s.toDaemon ++ [(s.sent.length, calling)]
          sent := s.sent ++ [(c, calling)] }
  | skip (c : ι) (k : Nat) (r : Reply) (rest : List Reply)
      (hout : s.outstanding c = some k) (hmsg : s.toClient = r :: rest)
      (hwait : ¬ r.resp.Final) :
      Step s (.chanRecv c) { s with toClient := rest }
  | receive (c : ι) (k : Nat) (r : Reply) (rest : List Reply)
      (hout : s.outstanding c = some k) (hmsg : s.toClient = r :: rest)
      (hfinal : r.resp.Final) :
      Step s (.chanRecv c)
        { s with
          toClient := rest
          outstanding := Function.update s.outstanding c none
          returned := s.returned ++ [(c, r)] }
  | read (k : Nat) (calling : Calling) (rest : List (Nat × Calling))
      (hloop : s.loop = .idle) (hmsg : s.toDaemon = (k, calling) :: rest) :
      Step s .readReady
        { s with toDaemon := rest, loop := .handling k calling }
  | pipe (hloop : s.loop = .idle) (hpipe : 0 < s.so.pipe) :
      Step s .pipeReady { s with loop := .draining }
  | finish (port : UInt16) (k : Nat) (calling : Calling) (pcb : Pcb)
      (resp : Response) (hloop : s.loop = .handling k calling)
      (hpcb : s.pcb.Keeps pcb)
      (hans : RpcDispatch.Answers s.pcb.isTcp calling none resp) :
      Step s (.loopStep port) (s.finish k pcb resp)
  | take (port : UInt16) (k : Nat) (len flags : Int32) (requireAddr : Bool)
      (packet : Packet) (rest : List Packet)
      (hloop : s.loop = .handling k (.recvfromCall len flags requireAddr))
      (hq : s.so.recvQ = packet :: rest) :
      Step s (.loopStep port)
        { s with
          so := { s.so with recvQ := rest }
          loop := .writing
            ⟨k, RpcDispatch.recvfromPacket requireAddr packet, some packet⟩ }
  | empty (port : UInt16) (k : Nat) (len flags : Int32) (requireAddr : Bool)
      (hloop : s.loop = .handling k (.recvfromCall len flags requireAddr))
      (hq : s.so.recvQ = []) (hblock : s.so.nonblocking = false) :
      Step s (.loopStep port) { s with loop := .recvfromEmpty k requireAddr }
  | bindRecv (port : UInt16) (k : Nat) (requireAddr : Bool)
      (hloop : s.loop = .recvfromEmpty k requireAddr) :
      Step s (.loopStep port)
        { s with
          so := s.so.setOnAsyncNewPacketCB
            (RpcDispatch.asyncCallback s.pcb requireAddr)
          recvArmed := k
          loop := .recvfromBound k }
  | wait (port : UInt16) (k : Nat) (hloop : s.loop = .recvfromBound k) :
      Step s (.loopStep port)
        { s with
          so := s.so.setWaiting true
          loop := .writing ⟨k, RpcDispatch.waitNextResponse, none⟩ }
  | bindConn (port : UInt16) (k : Nat) (addr : Foundation.Bytes)
      (session : TcpSession) (hloop : s.loop = .handling k (.connectCall addr))
      (hpcb : s.pcb = .tcp session) :
      Step s (.loopStep port)
        { s with
          pcb := .tcp { session with onConnEstabCB := true }
          connArmed := k
          loop := .connectBound k (SockaddrIn.ofBytes addr) }
  | connect (port : UInt16) (k : Nat) (addr : SockaddrIn)
      (hloop : s.loop = .connectBound k addr) :
      Step s (.loopStep port)
        { s with
          pcb := s.pcb.connect port addr
          loop := .writing ⟨k, RpcDispatch.waitNextResponse, none⟩ }
  | writeLoop (port : UInt16) (r : Reply) (hloop : s.loop = .writing r)
      (hfits : r.resp.byteSize <= rpcMessageMaxSize) :
      Step s (.loopStep port) { s.post r with loop := .idle }
  | drainMore (port : UInt16) (hloop : s.loop = .draining)
      (hpipe : s.so.pipe ≠ 0) :
      Step s (.loopStep port)
        { s with
          so := { s.so with pipe := s.so.pipe - 8 }
          loop := .draining }
  | drainDone (port : UInt16) (hloop : s.loop = .draining)
      (hpipe : s.so.pipe = 0) :
      Step s (.loopStep port) { s with loop := .drained }
  | notWaiting (port : UInt16) (hloop : s.loop = .drained)
      (hwaiting : s.so.waiting = false) :
      Step s (.loopStep port) { s with loop := .idle }
  | call (port : UInt16) (hloop : s.loop = .drained)
      (hwaiting : s.so.waiting = true) :
      Step s (.loopStep port) { s with loop := .calling }
  | noCallback (port : UInt16) (hloop : s.loop = .calling)
      (hcb : s.so.onAsyncNewPacket = none) :
      Step s (.loopStep port) { s with loop := .called }
  | takeAsync (port : UInt16) (cb : AsyncNewPacket) (packet : Packet)
      (rest : List Packet) (hloop : s.loop = .calling)
      (hcb : s.so.onAsyncNewPacket = some cb)
      (hq : s.so.recvQ = packet :: rest) :
      Step s (.loopStep port)
        { s with
          so := { s.so with recvQ := rest }
          loop := .taken ⟨s.recvArmed, RpcDispatch.asyncResponse cb packet,
            some packet⟩ }
  | writeAsync (port : UInt16) (r : Reply) (hloop : s.loop = .taken r)
      (hfits : r.resp.byteSize <= rpcMessageMaxSize) :
      Step s (.loopStep port) { s.post r with loop := .called }
  | finishAsync (port : UInt16) (hloop : s.loop = .called) :
      Step s (.loopStep port)
        { s with so := s.so.setWaiting false, loop := .idle }
  | deliver (peerAddr : SockaddrIn) (skbuf : Skbuf) (hip : s.ip = []) :
      Step s (.ipDeliver peerAddr skbuf)
        { s with
          pcb := (s.pcb.recv peerAddr skbuf).1
          ip := (s.pcb.recv peerAddr skbuf).2.map IpOp.effect }
  | ipDrop (e : Effect) (rest : List IpOp) (hip : s.ip = .effect e :: rest)
      (hcb : e = .runOnConnEstabCB -> s.pcb.onConnEstabCB = false) :
      Step s .ipStep { s with ip := rest }
  | ipPut (peerAddr : SockaddrIn) (skbuf : Skbuf) (rest : List IpOp)
      (hip : s.ip = .effect (.putToRecvQ peerAddr skbuf) :: rest) :
      Step s .ipStep { s with ip := .enqueue ⟨peerAddr, skbuf⟩ :: rest }
  | ipRun (rest : List IpOp) (hip : s.ip = .effect .runOnConnEstabCB :: rest)
      (hcb : s.pcb.onConnEstabCB = true) :
      Step s .ipStep
        { s with
          ip := .write
            ⟨s.connArmed, RpcDispatch.connEstabResponse, none⟩ :: rest }
  | ipEnqueue (packet : Packet) (rest : List IpOp)
      (hip : s.ip = .enqueue packet :: rest) :
      Step s .ipStep
        { s with
          so := s.so.enqueue packet
          accepted := s.accepted ++ [packet]
          ip := .markSChannelAsReadable :: rest }
  | ipMark (rest : List IpOp) (hip : s.ip = .markSChannelAsReadable :: rest) :
      Step s .ipStep { s with so := s.so.markSChannelAsReadable, ip := rest }
  | ipWrite (r : Reply) (rest : List IpOp) (hip : s.ip = .write r :: rest)
      (hfits : r.resp.byteSize <= rpcMessageMaxSize) :
      Step s .ipStep { s.post r with ip := rest }

theorem step_of_stepSend {s s' : Channel ι} {c : ι} {calling : Calling}
    (h : s.stepSend c calling = some s') : Step s (.chanSend c calling) s' := by
  unfold stepSend at h
  cases hout : s.outstanding c with
  | some k =>
      rw [hout] at h
      cases h
  | none =>
      rw [hout] at h
      cases calling with
      | socketCall domain type protocol => cases h
      | connectCall | closeCall | recvfromCall | sendtoCall | pollCall |
        selectCall | getpeernameCall | getsocknameCall | getsockoptCall |
        setsockoptCall | fcntlCall | atstartAction | notSet =>
          cases h
          exact .send c _ hout

theorem step_of_stepRecv {s s' : Channel ι} {c : ι}
    (h : s.stepRecv c = some s') : Step s (.chanRecv c) s' := by
  unfold stepRecv at h
  cases hout : s.outstanding c with
  | none =>
      rw [hout] at h
      cases h
  | some k =>
      cases hmsg : s.toClient with
      | nil =>
          rw [hout, hmsg] at h
          cases h
      | cons r rest =>
          rw [hout, hmsg] at h
          simp only at h
          cases hcode : r.resp.retCode with
          | none =>
              rw [hcode] at h
              cases h
          | some code =>
              rw [hcode] at h
              cases code with
              | waitNext =>
                  cases h
                  exact .skip c k r rest hout hmsg fun hfinal => hfinal hcode
              | ok =>
                  cases h
                  refine .receive c k r rest hout hmsg ?_
                  rw [Response.Final, hcode]
                  nofun
              | error =>
                  cases h
                  refine .receive c k r rest hout hmsg ?_
                  rw [Response.Final, hcode]
                  nofun

theorem step_of_stepRecvfrom (s : Channel ι) (port : UInt16) {k : Nat}
    {len flags : Int32} {requireAddr : Bool}
    (hloop : s.loop = .handling k (.recvfromCall len flags requireAddr)) :
    Step s (.loopStep port) (s.stepRecvfrom k requireAddr) := by
  unfold stepRecvfrom Endpoint.tryTakeFromRecvQ
  cases hq : s.so.recvQ with
  | cons packet rest =>
      exact .take port k len flags requireAddr packet rest hloop hq
  | nil =>
      cases hblock : s.so.nonblocking with
      | true =>
          exact .finish port k _ s.pcb _ hloop (Pcb.Keeps.refl _)
            (.again len flags requireAddr)
      | false =>
          exact .empty port k len flags requireAddr hloop hq hblock

theorem step_of_stepConnect (s : Channel ι) (port : UInt16) {k : Nat}
    {addr : Foundation.Bytes} (hloop : s.loop = .handling k (.connectCall addr)) :
    Step s (.loopStep port) (s.stepConnect port k addr) := by
  unfold stepConnect
  cases hpcb : s.pcb with
  | udp session =>
      refine .finish port k _ _ _ hloop ?_ (.connectUdp _ port addr)
      rw [hpcb]
      exact Pcb.keeps_connect _ port _
  | tcp session =>
      cases hblock : s.so.nonblocking with
      | true =>
          refine .finish port k _ _ _ hloop ?_ (.inProgress addr)
          rw [hpcb]
          exact Pcb.Keeps.refl _
      | false => exact .bindConn port k addr session hloop hpcb

theorem step_of_stepHandling {s s' : Channel ι} {port : UInt16} {k : Nat}
    {calling : Calling} (hloop : s.loop = .handling k calling)
    (h : s.stepHandling port k calling = some s') :
    Step s (.loopStep port) s' := by
  cases calling with
  | socketCall domain type protocol => cases h
  | recvfromCall len flags requireAddr =>
      cases h
      exact s.step_of_stepRecvfrom port hloop
  | connectCall addr =>
      cases h
      exact s.step_of_stepConnect port hloop
  | sendtoCall buf flags addr =>
      cases h
      exact .finish port k _ _ _ hloop (Pcb.keeps_sendto s.pcb port buf addr)
        (.sendto buf flags addr s.pcb port)
  | closeCall =>
      cases h
      exact .finish port k _ _ _ hloop (Pcb.Keeps.refl _) .close
  | pollCall =>
      cases h
      exact .finish port k _ _ _ hloop (Pcb.Keeps.refl _) .poll
  | selectCall =>
      cases h
      exact .finish port k _ _ _ hloop (Pcb.Keeps.refl _) .select
  | getpeernameCall =>
      cases h
      exact .finish port k _ _ _ hloop (Pcb.Keeps.refl _) (.getpeername s.pcb)
  | getsocknameCall =>
      cases h
      exact .finish port k _ _ _ hloop (Pcb.Keeps.refl _) (.getsockname s.pcb)
  | getsockoptCall =>
      cases h
      exact .finish port k _ _ _ hloop (Pcb.Keeps.refl _) .getsockopt
  | setsockoptCall =>
      cases h
      exact .finish port k _ _ _ hloop (Pcb.Keeps.refl _) .setsockopt
  | fcntlCall =>
      cases h
      exact .finish port k _ _ _ hloop (Pcb.Keeps.refl _) .fcntl
  | atstartAction progname =>
      cases h
      exact .finish port k _ _ _ hloop (Pcb.Keeps.refl _) (.atstart progname)
  | notSet =>
      cases h
      exact .finish port k _ _ _ hloop (Pcb.Keeps.refl _) .notSet

omit [DecidableEq ι] in
theorem write_of_fits {s : Channel ι} {r : Reply}
    (h : r.resp.byteSize <= rpcMessageMaxSize) : s.write r = some (s.post r) :=
  if_pos h

omit [DecidableEq ι] in
theorem write_map_eq_some {s s' : Channel ι} {r : Reply}
    {f : Channel ι -> Channel ι} (h : (s.write r).map f = some s') :
    r.resp.byteSize <= rpcMessageMaxSize ∧ s' = f (s.post r) := by
  by_cases hfits : r.resp.byteSize <= rpcMessageMaxSize
  · rw [write_of_fits hfits] at h
    exact ⟨hfits, (Option.some.inj h).symm⟩
  · rw [write, if_neg hfits] at h
    cases h

theorem step_of_stepLoop {s s' : Channel ι} {port : UInt16}
    (h : s.stepLoop port = some s') : Step s (.loopStep port) s' := by
  unfold stepLoop at h
  cases hloop : s.loop with
  | idle =>
      rw [hloop] at h
      cases h
  | handling k calling =>
      rw [hloop] at h
      exact step_of_stepHandling hloop h
  | recvfromEmpty k requireAddr =>
      rw [hloop] at h
      cases h
      exact .bindRecv port k requireAddr hloop
  | recvfromBound k =>
      rw [hloop] at h
      cases h
      exact .wait port k hloop
  | connectBound k addr =>
      rw [hloop] at h
      cases h
      exact .connect port k addr hloop
  | writing r =>
      rw [hloop] at h
      rcases write_map_eq_some h with ⟨hfits, rfl⟩
      exact .writeLoop port r hloop hfits
  | draining =>
      rw [hloop] at h
      simp only at h
      by_cases hpipe : s.so.pipe = 0
      · rw [if_pos hpipe] at h
        cases h
        exact .drainDone port hloop hpipe
      · rw [if_neg hpipe] at h
        cases h
        exact .drainMore port hloop hpipe
  | drained =>
      rw [hloop] at h
      simp only at h
      cases hwaiting : s.so.waiting with
      | true =>
          rw [hwaiting, if_pos rfl] at h
          cases h
          exact .call port hloop hwaiting
      | false =>
          rw [hwaiting, if_neg nofun] at h
          cases h
          exact .notWaiting port hloop hwaiting
  | calling =>
      rw [hloop] at h
      simp only at h
      cases hcb : s.so.onAsyncNewPacket with
      | none =>
          rw [hcb] at h
          cases h
          exact .noCallback port hloop hcb
      | some cb =>
          rw [hcb] at h
          unfold Endpoint.tryTakeFromRecvQ at h
          cases hq : s.so.recvQ with
          | nil =>
              rw [hq] at h
              cases h
          | cons packet rest =>
              rw [hq] at h
              cases h
              exact .takeAsync port cb packet rest hloop hcb hq
  | taken r =>
      rw [hloop] at h
      rcases write_map_eq_some h with ⟨hfits, rfl⟩
      exact .writeAsync port r hloop hfits
  | called =>
      rw [hloop] at h
      cases h
      exact .finishAsync port hloop

theorem step_of_stepIp {s s' : Channel ι} (h : s.stepIp = some s') :
    Step s .ipStep s' := by
  unfold stepIp at h
  cases hip : s.ip with
  | nil =>
      rw [hip] at h
      cases h
  | cons op rest =>
      rw [hip] at h
      cases op with
      | enqueue packet =>
          cases h
          exact .ipEnqueue packet rest hip
      | markSChannelAsReadable =>
          cases h
          exact .ipMark rest hip
      | write r =>
          rcases write_map_eq_some h with ⟨hfits, rfl⟩
          exact .ipWrite r rest hip hfits
      | effect e =>
          cases e with
          | tx f payload =>
              cases h
              exact .ipDrop _ rest hip nofun
          | assertion holds =>
              cases h
              exact .ipDrop _ rest hip nofun
          | putToRecvQ peerAddr skbuf =>
              simp only at h
              cases hlimit : s.so.recvQOverLimit with
              | true =>
                  rw [hlimit, if_pos rfl] at h
                  cases h
                  exact .ipDrop _ rest hip nofun
              | false =>
                  rw [hlimit, if_neg nofun] at h
                  cases h
                  exact .ipPut peerAddr skbuf rest hip
          | runOnConnEstabCB =>
              simp only at h
              cases hcb : s.pcb.onConnEstabCB with
              | true =>
                  rw [hcb, if_pos rfl] at h
                  cases h
                  exact .ipRun rest hip hcb
              | false =>
                  rw [hcb, if_neg nofun] at h
                  cases h
                  exact .ipDrop _ rest hip fun _ => hcb

theorem step_cases {s s' : Channel ι} {a : Action ι} (h : s.step a = some s') :
    Step s a s' := by
  cases a with
  | chanSend c calling => exact step_of_stepSend h
  | chanRecv c => exact step_of_stepRecv h
  | loopStep port => exact step_of_stepLoop h
  | ipStep => exact step_of_stepIp h
  | readReady =>
      unfold step at h
      cases hloop : s.loop with
      | idle =>
          cases hmsg : s.toDaemon with
          | nil =>
              simp only [hloop, hmsg] at h
              cases h
          | cons msg rest =>
              simp only [hloop, hmsg] at h
              cases h
              exact .read msg.1 msg.2 rest hloop hmsg
      | handling | recvfromEmpty | recvfromBound | connectBound | writing |
        draining | drained | calling | taken | called =>
          simp only [hloop] at h
          cases h
  | pipeReady =>
      unfold step at h
      simp only at h
      by_cases hready : s.loop = .idle ∧ 0 < s.so.pipe
      · rw [if_pos hready] at h
        cases h
        exact .pipe hready.1 hready.2
      · rw [if_neg hready] at h
        cases h
  | ipDeliver peerAddr skbuf =>
      unfold step at h
      cases hip : s.ip with
      | nil =>
          simp only [hip] at h
          cases h
          exact .deliver peerAddr skbuf hip
      | cons op rest =>
          simp only [hip] at h
          cases h

/-!
## Frames
-/

theorem loopStep_frame {s s' : Channel ι} {port : UInt16}
    (h : Step s (.loopStep port) s') :
    s'.sent = s.sent ∧ s'.returned = s.returned := by
  cases h <;> exact ⟨rfl, rfl⟩

theorem ipStep_frame {s s' : Channel ι} (h : Step s .ipStep s') :
    s'.sent = s.sent ∧ s'.returned = s.returned := by
  cases h <;> exact ⟨rfl, rfl⟩

/-!
## Invariants
-/

theorem reachable_invariant {Inv : Channel ι -> Prop}
    (hinit : forall s, Opened s -> Inv s)
    (hstep : forall s a s', Inv s -> Step s a s' -> Inv s') {s : Channel ι}
    (h : Reachable s) : Inv s := by
  rcases h with ⟨s₀, actions, hopened, hrun⟩
  exact Foundation.run_invariant
    (fun s a s' hinv hs => hstep s a s' hinv (step_cases hs))
    (hinit s₀ hopened) hrun

theorem Reachable.run {s s' : Channel ι} (h : Reachable s)
    {actions : List (Action ι)}
    (hrun : Foundation.run step s actions = some s') : Reachable s' := by
  rcases h with ⟨s₀, before, hopened, hbefore⟩
  exact ⟨s₀, before ++ actions, hopened,
    (Foundation.run_append hbefore actions).trans hrun⟩

theorem reachableBy_invariant {Guard : Channel ι -> Action ι -> Prop}
    {Inv : Channel ι -> Prop} (hinit : forall s, Opened s -> Inv s)
    (hstep : forall s a s', Inv s -> Guard s a -> Step s a s' -> Inv s')
    {s : Channel ι} (h : ReachableBy Guard s) : Inv s := by
  rcases h with ⟨s₀, actions, hopened, hmeet, hrun⟩
  exact Foundation.guardedRun_invariant
    (fun s a s' hinv hguard hs => hstep s a s' hinv hguard (step_cases hs))
    (hinit s₀ hopened) hmeet hrun

theorem ReachableBy.reachable {Guard : Channel ι -> Action ι -> Prop}
    {s : Channel ι} (h : ReachableBy Guard s) : Reachable s := by
  rcases h with ⟨s₀, actions, hopened, _, hrun⟩
  exact ⟨s₀, actions, hopened, hrun⟩

end Channel

end Velox
