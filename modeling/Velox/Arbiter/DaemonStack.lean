import Velox.Arbiter.DeliveryRace

/-!
# The daemon as a stack

The receive path is a function of a stack: one call finds the session of a
packet and puts the packet in the queue of its socket.  The daemon does this in
up to three steps of the IP thread, and the socket is spread over an endpoint
and a session.  If the event loop does not come in between, the steps do to the
live sockets what the call does to the stack that they form.
-/

namespace Velox

open Foundation

namespace Daemon

variable {d d' : Daemon}

/-!
## The live sockets
-/

def sockOf (d : Daemon) (s : Nat) : Option Sock :=
  if s ∈ d.liveSessions then
    (d.session s).socket.map fun e => ⟨(d.endpoint e).so, (d.session s).pcb⟩
  else none

def toStack (d : Daemon) : Stack Nat where
  groups := []
  udpPcbs := d.udpPcbs
  tcpPcbs := d.tcpPcbs
  socks := d.sockOf

theorem Links.sockOf_live (h : d.Links) {o : Opened} (ho : o ∈ d.opened)
    (hlive : o.session ∈ d.liveSessions) :
    d.sockOf o.session =
      some ⟨(d.endpoint o.endpoint).so, (d.session o.session).pcb⟩ := by
  rw [sockOf, if_pos hlive, h.opened_socket o ho]
  rfl

theorem Links.toStack_lock (h : d.Links) (hidle : d.delivery = .idle) :
    d.toStack.lock = d.lockSession := by
  funext s
  show (d.sockOf s).map _ = d.lockSession s
  unfold lockSession
  by_cases hlive : s ∈ d.liveSessions
  · rcases h.opened_of_live hidle hlive with ⟨o, ho, rfl⟩
    rw [h.sockOf_live ho hlive, if_pos hlive]
    rfl
  · rw [sockOf, if_neg hlive, if_neg hlive]
    rfl

theorem SameLinks.liveSessions_eq (h : SameLinks d d')
    (hidle : d.delivery = .idle) (hidle' : d'.delivery = .idle) :
    d'.liveSessions = d.liveSessions := by
  have hpcb : (fun e => (d'.endpoint e).pcb) = fun e => (d.endpoint e).pcb :=
    funext h.pcb
  unfold liveSessions liveEndpoints
  rw [h.rrChannels, h.channel, hpcb, hidle, hidle']

theorem Links.sockOf_setSock (h : d.Links) (hidle : d.delivery = .idle)
    {o : Opened} (ho : o ∈ d.opened) (hlive : o.session ∈ d.liveSessions)
    (so : Endpoint) (pcb : Pcb) :
    (d.setSock o.endpoint o.session so pcb).sockOf =
      Function.update d.sockOf o.session (some ⟨so, pcb⟩) := by
  have hsame := sameLinks_setSock d o.endpoint o.session so pcb
  have hlinks := h.of_sameLinks hsame
  have hsessions := hsame.liveSessions_eq hidle hidle
  funext s
  by_cases hs : s ∈ d.liveSessions
  · have hs' := hs
    rw [← hsessions] at hs'
    rcases h.opened_of_live hidle hs with ⟨o', ho', rfl⟩
    rw [hlinks.sockOf_live ho' hs']
    show some (Sock.mk (Function.update d.endpoint o.endpoint _
      o'.endpoint).so (Function.update d.session o.session _
        o'.session).pcb) = _
    by_cases hsocket : o' = o
    · rw [hsocket, Function.update_self, Function.update_self,
        Function.update_self]
    · have hsession : o'.session ≠ o.session :=
        fun heq => hsocket (h.sessions_apart o' o ho' ho heq)
      have hendpoint : o'.endpoint ≠ o.endpoint :=
        fun heq => hsocket (h.endpoints_apart o' o ho' ho heq)
      rw [Function.update_of_ne hsession, Function.update_of_ne hsession,
        Function.update_of_ne hendpoint, h.sockOf_live ho' hs]
  · have hne : s ≠ o.session := by
      intro heq
      rw [heq] at hs
      exact hs hlive
    rw [Function.update_of_ne hne, sockOf, sockOf, hsessions, if_neg hs,
      if_neg hs]

theorem toStack_delivered (hidle : d.delivery = .idle)
    (queued : List (Nat × Nat)) :
    toStack { d with delivery := .idle, queued := queued } = d.toStack := by
  unfold toStack sockOf liveSessions liveEndpoints
  rw [hidle]

/-!
## The receive path
-/

def stackRx (tcp : Bool) (st : Stack Nat) (uninit : SockaddrIn)
    (skbuf : Skbuf) : Stack Nat × List Effect :=
  if tcp then Tcp.rx st uninit skbuf else Udp.rx st skbuf

def peerAddrOf (tcp : Bool) (uninit : SockaddrIn) (skbuf : Skbuf) :
    SockaddrIn :=
  if tcp then uninit
  else SockaddrIn.inet (IpHdr.saddr skbuf.head) (UdpHdr.source skbuf.head)

def findSession (d : Daemon) (tcp : Bool) (skbuf : Skbuf) : Option Nat :=
  Sessions.find d.lockSession (d.pcbs tcp) (IpHdr.saddr skbuf.head)
    (UdpHdr.source skbuf.head) (IpHdr.daddr skbuf.head)
    (UdpHdr.dest skbuf.head)

theorem find_of_findSession {tcp : Bool} {skbuf : Skbuf} {s : Nat}
    (uninit : SockaddrIn) (hfind : d.findSession tcp skbuf = some s) :
    d.find tcp uninit skbuf =
      { d with delivery := .found s (peerAddrOf tcp uninit skbuf) skbuf } := by
  unfold findSession at hfind
  simp only [find, hfind]
  rfl

theorem find_of_findSession_none {tcp : Bool} {skbuf : Skbuf}
    (uninit : SockaddrIn) (hfind : d.findSession tcp skbuf = none) :
    d.find tcp uninit skbuf = d := by
  unfold findSession at hfind
  simp only [find, hfind]

theorem Links.stackRx_eq (h : d.Links) (hidle : d.delivery = .idle)
    (tcp : Bool) (uninit : SockaddrIn) (skbuf : Skbuf) :
    stackRx tcp d.toStack uninit skbuf =
      (d.findSession tcp skbuf).elim (d.toStack, []) fun s =>
        d.toStack.deliver s (peerAddrOf tcp uninit skbuf) skbuf := by
  rw [findSession, ← h.toStack_lock hidle]
  cases tcp with
  | true =>
      show Tcp.rx d.toStack uninit skbuf =
        (Sessions.find d.toStack.lock d.toStack.tcpPcbs
          (IpHdr.saddr skbuf.head) (TcpHdr.source skbuf.head)
          (IpHdr.daddr skbuf.head) (TcpHdr.dest skbuf.head)).elim _ _
      unfold Tcp.rx
      dsimp only
      cases Sessions.find d.toStack.lock d.toStack.tcpPcbs
          (IpHdr.saddr skbuf.head) (TcpHdr.source skbuf.head)
          (IpHdr.daddr skbuf.head) (TcpHdr.dest skbuf.head) with
      | none => rfl
      | some _ => rfl
  | false =>
      show Udp.rx d.toStack skbuf =
        (Sessions.find d.toStack.lock d.toStack.udpPcbs
          (IpHdr.saddr skbuf.head) (UdpHdr.source skbuf.head)
          (IpHdr.daddr skbuf.head) (UdpHdr.dest skbuf.head)).elim _ _
      unfold Udp.rx
      dsimp only
      cases Sessions.find d.toStack.lock d.toStack.udpPcbs
          (IpHdr.saddr skbuf.head) (UdpHdr.source skbuf.head)
          (IpHdr.daddr skbuf.head) (UdpHdr.dest skbuf.head) with
      | none => rfl
      | some _ => rfl

/-!
## The steps of a delivery
-/

theorem foldl_apply_of_not_queues {pcb : Pcb} {peerAddr : SockaddrIn}
    {skbuf : Skbuf} (h : queues pcb peerAddr skbuf = false) (so : Endpoint) :
    (pcb.recv peerAddr skbuf).2.foldl Endpoint.apply so = so := by
  unfold queues at h
  generalize (pcb.recv peerAddr skbuf).2 = effects at h
  induction effects with
  | nil => rfl
  | cons effect rest ih =>
      rw [List.any_cons, Bool.or_eq_false_iff] at h
      have happly : so.apply effect = so := by
        cases effect with
        | putToRecvQ _ _ => cases h.left
        | _ => rfl
      rw [List.foldl_cons, happly]
      exact ih h.right

theorem Links.toStack_deliver (h : d.Links) {o : Opened} (ho : o ∈ d.opened)
    (hidle : d.delivery = .idle) (hlive : o.session ∈ d.liveSessions)
    (peerAddr : SockaddrIn) (skbuf : Skbuf) :
    (d.toStack.deliver o.session peerAddr skbuf).1 =
      (d.setSock o.endpoint o.session
        (((d.session o.session).pcb.recv peerAddr skbuf).2.foldl
          Endpoint.apply (d.endpoint o.endpoint).so)
        ((d.session o.session).pcb.recv peerAddr skbuf).1).toStack := by
  have hsock : d.toStack.socks o.session =
      some ⟨(d.endpoint o.endpoint).so, (d.session o.session).pcb⟩ :=
    h.sockOf_live ho hlive
  simp only [Stack.deliver, hsock]
  show Stack.mk [] d.udpPcbs d.tcpPcbs (Function.update d.sockOf _ _) =
    Stack.mk [] d.udpPcbs d.tcpPcbs (sockOf _)
  rw [h.sockOf_setSock hidle ho hlive]

theorem setSock_so (d : Daemon) (e s : Nat) (pcb : Pcb) :
    d.setSock e s (d.endpoint e).so pcb =
      { d with
        session :=
          Function.update d.session s { d.session s with pcb := pcb } } := by
  show { d with
      endpoint := Function.update d.endpoint e (d.endpoint e)
      session :=
        Function.update d.session s { d.session s with pcb := pcb } } = _
  rw [Function.update_eq_self]

theorem Links.ignored_toStack (h : d.Links) {o : Opened} (ho : o ∈ d.opened)
    (hidle : d.delivery = .idle) (hlive : o.session ∈ d.liveSessions)
    {peerAddr : SockaddrIn} {skbuf : Skbuf}
    (hqueues : queues (d.session o.session).pcb peerAddr skbuf = false) :
    exists d',
      step { d with delivery := .found o.session peerAddr skbuf } .recv =
        some d' ∧ d'.delivery = .idle ∧
      d'.toStack = (d.toStack.deliver o.session peerAddr skbuf).1 := by
  refine ⟨{ d with
    session := Function.update d.session o.session { d.session o.session with
      pcb := ((d.session o.session).pcb.recv peerAddr skbuf).1 }
    delivery := .idle }, ?_, rfl, ?_⟩
  · simp only [step, recv, hqueues, if_neg Bool.false_ne_true]
  · rw [h.toStack_deliver ho hidle hlive, foldl_apply_of_not_queues hqueues,
      ← toStack_delivered (d := d.setSock _ _ _ _) hidle d.queued,
      setSock_so]

theorem Links.queued_toStack (h : d.Links) {o : Opened} (ho : o ∈ d.opened)
    (hidle : d.delivery = .idle) (hlive : o.session ∈ d.liveSessions)
    (peerAddr : SockaddrIn) (skbuf : Skbuf) :
    exists d',
      step { d with delivery := .locked o.session o.endpoint peerAddr skbuf }
        .putToRecvQ = some d' ∧ d'.delivery = .idle ∧
      d'.toStack = (d.toStack.deliver o.session peerAddr skbuf).1 := by
  refine ⟨_, rfl, rfl, ?_⟩
  rw [h.toStack_deliver ho hidle hlive]
  exact toStack_delivered (d := d.setSock _ _ _ _) hidle _

theorem Links.lockSocket_found (h : d.Links) {o : Opened} (ho : o ∈ d.opened)
    (hidle : d.delivery = .idle) (hlive : o.session ∈ d.liveSessions)
    (peerAddr : SockaddrIn) (skbuf : Skbuf) :
    lockSocket { d with delivery := .found o.session peerAddr skbuf }
      o.session = some o.endpoint := by
  have hlinks := h.of_sameLinks
    (sameLinks_delivery d (.found o.session peerAddr skbuf))
  have hcurrent := (h.live_iff hidle ho).1 hlive
  simp only [lockSocket, h.opened_socket o ho]
  exact if_pos ((hlinks.endpoint_live_iff rfl ho).2 hcurrent)

/-- The IP thread alone brings every delivery to its end, and the live sockets
are then those of the receive path. -/
theorem delivery_refines_rx {before : List DaemonAct}
    (hbefore : run step init before = some d) (hidle : d.delivery = .idle)
    (tcp : Bool) (uninit : SockaddrIn) (skbuf : Skbuf) :
    exists acts d', (forall a, a ∈ acts -> ¬ a.IsEventLoop) ∧
      run step d (.find tcp uninit skbuf :: acts) = some d' ∧
      d'.delivery = .idle ∧
      d'.toStack = (stackRx tcp d.toStack uninit skbuf).1 := by
  have h := (invariants_of_run hbefore).left
  have hstep : d.step (.find tcp uninit skbuf) =
      some (d.find tcp uninit skbuf) := by
    simp only [step, hidle]
  rw [h.stackRx_eq hidle]
  cases hfind : d.findSession tcp skbuf with
  | none =>
      refine ⟨[], d, List.forall_mem_nil _, ?_, hidle, rfl⟩
      rw [run_of_step hstep, find_of_findSession_none uninit hfind]
      rfl
  | some s =>
      rw [find_of_findSession uninit hfind] at hstep
      rw [Option.elim_some]
      generalize peerAddrOf tcp uninit skbuf = peerAddr at hstep ⊢
      have hlive := (live_of_find hfind).right
      rcases h.opened_of_live hidle hlive with ⟨o, ho, rfl⟩
      cases hqueues : queues (d.session o.session).pcb peerAddr skbuf with
      | false =>
          rcases h.ignored_toStack ho hidle hlive hqueues with
            ⟨d', hrecv, hdone⟩
          refine ⟨[.recv], d', ?_, ?_, hdone⟩
          · intro a ha
            rw [List.mem_singleton.1 ha]
            exact id
          · rw [run_of_step hstep, run_of_step hrecv]
            rfl
      | true =>
          have hrecv : step
              { d with delivery := .found o.session peerAddr skbuf } .recv =
              some { d with
                delivery := .locked o.session o.endpoint peerAddr skbuf } := by
            simp only [step, recv, hqueues, if_true,
              h.lockSocket_found ho hidle hlive peerAddr skbuf]
          rcases h.queued_toStack ho hidle hlive peerAddr skbuf with
            ⟨d', hput, hdone⟩
          refine ⟨[.recv, .putToRecvQ], d', ?_, ?_, hdone⟩
          · intro a ha
            rcases List.mem_pair.1 ha with rfl | rfl
            · exact id
            · exact id
          · rw [run_of_step hstep, run_of_step hrecv, run_of_step hput]
            rfl

end Daemon

end Velox
