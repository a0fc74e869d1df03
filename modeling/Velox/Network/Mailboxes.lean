import Velox.Network.Host

/-!
# Mailboxes

A UDP socket is a mailbox: what it has answered, followed by what is in its
queue, is what it has been given, message for message and in this order.
-/

namespace Velox

open Foundation

def Message.kept (m : Message) : Bytes :=
  m.payload.take (maxRawBytesSize - 28)

structure Message.Holds (packet : Packet) (m : Message) : Prop where
  payload : drainSkbufChain packet.skbuf.frames = m.kept
  peerAddr : packet.peerAddr = SockaddrIn.inet m.tuple.laddr m.tuple.lport

/-- The answer to a `recvfrom` that takes a message; `requireAddr` is what the
request asks for. -/
def Message.Answers (resp : Response) (m : Message) : Prop :=
  exists requireAddr : Bool, resp =
    RpcDispatch.okResponse
      (.recvfromCall (RpcDispatch.ret (Int32.ofNat m.kept.length))
        (some m.kept)
        (if requireAddr then
          some (SockaddrIn.inet m.tuple.laddr m.tuple.lport).toBytes
        else none))

theorem Message.Holds.answers {packet : Packet} {m : Message}
    (h : m.Holds packet) (requireAddr : Bool) :
    m.Answers (RpcDispatch.recvfromPacket requireAddr packet) := by
  refine ⟨requireAddr, ?_⟩
  rw [RpcDispatch.recvfromPacket, h.payload, h.peerAddr]

theorem Message.Holds.answers_async {packet : Packet} {m : Message}
    (h : m.Holds packet) (cb : AsyncNewPacket) :
    m.Answers (RpcDispatch.asyncResponse cb packet) := by
  cases cb with
  | udp requireAddr => exact h.answers requireAddr
  | tcp => exact h.answers false

namespace RpcDispatch

theorem recvfromCall_pcb (sock : Sock) (requireAddr : Bool) :
    (recvfromCall sock requireAddr).1.pcb = sock.pcb := by
  unfold recvfromCall
  cases sock.so.tryTakeFromRecvQ with
  | some taken => rfl
  | none => cases sock.so.nonblocking <;> rfl

theorem recvfromCall_nil {sock : Sock} (h : sock.so.recvQ = [])
    (requireAddr : Bool) :
    (recvfromCall sock requireAddr).1.so.recvQ = [] := by
  have htake : sock.so.tryTakeFromRecvQ = none := by
    rw [Endpoint.tryTakeFromRecvQ, h]
  rw [recvfromCall, htake]
  cases sock.so.nonblocking <;> exact h

theorem recvfromCall_cons {sock : Sock} {packet : Packet}
    {rest : List Packet} (h : sock.so.recvQ = packet :: rest)
    (requireAddr : Bool) :
    recvfromCall sock requireAddr =
      ({ sock with so := { sock.so with recvQ := rest } },
        recvfromPacket requireAddr packet) := by
  have htake : sock.so.tryTakeFromRecvQ =
      some (packet, { sock.so with recvQ := rest }) := by
    rw [Endpoint.tryTakeFromRecvQ, h]
  rw [recvfromCall, htake]

end RpcDispatch

/-- What a socket has answered and what it has queued, beside what it has been
given. -/
def MailboxLaw (arrived : List (Message × Session)) (received : List Response)
    (queue : Option (List Packet)) : Prop :=
  exists taken left, arrived.map Prod.fst = taken ++ left ∧
    List.Forall₂ (fun resp m => Message.Answers resp m) received taken ∧
    forall q, queue = some q ->
      List.Forall₂ (fun packet m => Message.Holds packet m) q left

namespace MailboxLaw

variable {arrived : List (Message × Session)} {received : List Response}
  {q : List Packet}

theorem nil : MailboxLaw [] [] (some []) := by
  refine ⟨[], [], rfl, .nil, ?_⟩
  intro q hq
  cases hq
  exact .nil

theorem closed {queue : Option (List Packet)}
    (h : MailboxLaw arrived received queue) :
    MailboxLaw arrived received none := by
  rcases h with ⟨taken, left, hsplit, hanswers, _⟩
  refine ⟨taken, left, hsplit, hanswers, ?_⟩
  intro q hq
  cases hq

theorem take {packet : Packet} {resp : Response}
    (h : MailboxLaw arrived received (some (packet :: q)))
    (hresp : forall m : Message, m.Holds packet -> m.Answers resp) :
    MailboxLaw arrived (received ++ [resp]) (some q) := by
  rcases h with ⟨taken, left, hsplit, hanswers, hqueue⟩
  cases hqueue _ rfl with
  | cons hfirst hrest =>
      rename_i m rest
      refine ⟨taken ++ [m], rest, ?_, ?_, ?_⟩
      · rw [hsplit, List.append_assoc]
        rfl
      · exact List.rel_append hanswers (.cons (hresp m hfirst) .nil)
      · intro q' hq'
        cases hq'
        exact hrest

theorem put {packet : Packet} {m : Message}
    (h : MailboxLaw arrived received (some q)) (hholds : m.Holds packet)
    (s : Session) :
    MailboxLaw (arrived ++ [(m, s)]) received (some (q ++ [packet])) := by
  rcases h with ⟨taken, left, hsplit, hanswers, hqueue⟩
  refine ⟨taken, left ++ [m], ?_, hanswers, ?_⟩
  · rw [List.map_append, hsplit, List.append_assoc]
    rfl
  · intro q' hq'
    cases hq'
    exact List.rel_append (hqueue _ rfl) (.cons hholds .nil)

end MailboxLaw

/-- The invariant of a host: references lead to sockets of the right kind,
what has arrived has been sent to the session it was given to, and UDP sockets
are mailboxes. -/
structure Mailboxes (sent : List Message) (host : Host) : Prop where
  udp_lt : forall r, r ∈ host.stack.udpPcbs -> r < host.next
  tcp_lt : forall r, r ∈ host.stack.tcpPcbs -> r < host.next
  udp_kind : forall r sock, r ∈ host.stack.udpPcbs ->
    host.stack.socks r = some sock -> sock.pcb.isTcp = false
  tcp_kind : forall r sock, r ∈ host.stack.tcpPcbs ->
    host.stack.socks r = some sock -> sock.pcb.isTcp = true
  arrivals : forall r m s, (m, s) ∈ host.arrived r -> m ∈ sent ∧
    Sessions.Matches s m.tuple.laddr m.tuple.lport m.tuple.faddr m.tuple.fport
  mailbox : forall r, r ∈ host.stack.udpPcbs ->
    MailboxLaw (host.arrived r) (host.received r)
      ((host.stack.socks r).map fun sock => sock.so.recvQ)

theorem Host.setSock_live {host : Host} {r r' : Nat} {sock sock' found : Sock}
    {arrived : List (Message × Session)} {received : List Response}
    (hlive : host.stack.socks r = some sock)
    (hkind : sock'.pcb.isTcp = sock.pcb.isTcp)
    (hfound : (host.setSock r sock' arrived received).stack.socks r' =
      some found) :
    exists old, host.stack.socks r' = some old ∧
      found.pcb.isTcp = old.pcb.isTcp := by
  have hupdate : Function.update host.stack.socks r (some sock') r' =
      some found := hfound
  by_cases heq : r' = r
  · rw [heq, Function.update_self] at hupdate
    cases hupdate
    exact ⟨sock, heq ▸ hlive, hkind⟩
  · rw [Function.update_of_ne heq] at hupdate
    exact ⟨found, hupdate, rfl⟩

namespace Mailboxes

variable {sent : List Message} {host : Host}

theorem init (sent : List Message) : Mailboxes sent Host.init where
  udp_lt := List.forall_mem_nil _
  tcp_lt := List.forall_mem_nil _
  udp_kind := fun _ _ hmem _ => absurd hmem List.not_mem_nil
  tcp_kind := fun _ _ hmem _ => absurd hmem List.not_mem_nil
  arrivals := fun _ _ _ hmem => absurd hmem List.not_mem_nil
  mailbox := List.forall_mem_nil _

theorem mono (h : Mailboxes sent host) (more : List Message) :
    Mailboxes (sent ++ more) host :=
  { h with
    arrivals := fun r m s hmem =>
      ⟨List.mem_append_left _ (h.arrivals r m s hmem).1,
        (h.arrivals r m s hmem).2⟩ }

theorem setSock (h : Mailboxes sent host) {r : Nat} {sock sock' : Sock}
    (hlive : host.stack.socks r = some sock)
    (hkind : sock'.pcb.isTcp = sock.pcb.isTcp)
    {arrived : List (Message × Session)} {received : List Response}
    (harrived : forall m s, (m, s) ∈ arrived -> m ∈ sent ∧
      Sessions.Matches s m.tuple.laddr m.tuple.lport m.tuple.faddr
        m.tuple.fport)
    (hbox : r ∈ host.stack.udpPcbs ->
      MailboxLaw arrived received (some sock'.so.recvQ)) :
    Mailboxes sent (host.setSock r sock' arrived received) where
  udp_lt := h.udp_lt
  tcp_lt := h.tcp_lt
  udp_kind := by
    intro r' found hmem hfound
    rcases Host.setSock_live hlive hkind hfound with ⟨old, hold, hsame⟩
    exact hsame.trans (h.udp_kind r' old hmem hold)
  tcp_kind := by
    intro r' found hmem hfound
    rcases Host.setSock_live hlive hkind hfound with ⟨old, hold, hsame⟩
    exact hsame.trans (h.tcp_kind r' old hmem hold)
  arrivals := by
    intro r' m s hmem
    by_cases heq : r' = r
    · subst heq
      have hnew : (m, s) ∈ arrived := by
        simpa [Host.setSock] using hmem
      exact harrived m s hnew
    · refine h.arrivals r' m s ?_
      simpa [Host.setSock, Function.update_of_ne heq] using hmem
  mailbox := by
    intro r' hmem
    simp only [Host.setSock]
    by_cases heq : r' = r
    · subst heq
      simp only [Function.update_self, Option.map_some]
      exact hbox hmem
    · simp only [Function.update_of_ne heq]
      exact h.mailbox r' hmem

theorem congr {host' : Host} (h : Mailboxes sent host)
    (hnext : host'.next = host.next)
    (hstack : host'.stack = host.stack)
    (harrived : host'.arrived = host.arrived)
    (hreceived : host'.received = host.received) : Mailboxes sent host' where
  udp_lt := by rw [hstack, hnext]; exact h.udp_lt
  tcp_lt := by rw [hstack, hnext]; exact h.tcp_lt
  udp_kind := by rw [hstack]; exact h.udp_kind
  tcp_kind := by rw [hstack]; exact h.tcp_kind
  arrivals := by rw [harrived]; exact h.arrivals
  mailbox := by rw [hstack, harrived, hreceived]; exact h.mailbox

theorem mailbox_live (h : Mailboxes sent host) {r : Nat} {sock : Sock}
    (hlive : host.stack.socks r = some sock)
    (hmem : r ∈ host.stack.udpPcbs) :
    MailboxLaw (host.arrived r) (host.received r) (some sock.so.recvQ) := by
  have hbox := h.mailbox r hmem
  rw [hlive] at hbox
  exact hbox

/-!
## What the applications do
-/

theorem openSocket_old {r : Nat} (hlt : r < host.next) (sock : Sock) :
    (host.openSocket sock).stack.socks r = host.stack.socks r ∧
      (host.openSocket sock).arrived r = host.arrived r ∧
      (host.openSocket sock).received r = host.received r := by
  have hne : r ≠ host.next := Nat.ne_of_lt hlt
  exact ⟨Function.update_of_ne hne _ _, Function.update_of_ne hne _ _,
    Function.update_of_ne hne _ _⟩

theorem openSocket_new (host : Host) (sock : Sock) :
    (host.openSocket sock).stack.socks host.next = some sock ∧
      (host.openSocket sock).arrived host.next = [] ∧
      (host.openSocket sock).received host.next = [] :=
  ⟨Function.update_self .., Function.update_self .., Function.update_self ..⟩

theorem mem_openSocket {sock : Sock} {r : Nat} :
    (r ∈ (host.openSocket sock).stack.udpPcbs ->
      r ∈ host.stack.udpPcbs ∨ r = host.next ∧ sock.pcb.isTcp = false) ∧
    (r ∈ (host.openSocket sock).stack.tcpPcbs ->
      r ∈ host.stack.tcpPcbs ∨ r = host.next ∧ sock.pcb.isTcp = true) := by
  simp only [Host.openSocket]
  cases hkind : sock.pcb.isTcp with
  | true =>
      refine ⟨Or.inl, ?_⟩
      intro hmem
      rcases List.mem_append.1 hmem with hold | hnew
      · exact Or.inl hold
      · exact Or.inr ⟨List.mem_singleton.1 hnew, rfl⟩
  | false =>
      refine ⟨?_, Or.inl⟩
      intro hmem
      rcases List.mem_append.1 hmem with hold | hnew
      · exact Or.inl hold
      · exact Or.inr ⟨List.mem_singleton.1 hnew, rfl⟩

theorem openSocket (h : Mailboxes sent host) {sock : Sock}
    (hempty : sock.so.recvQ = []) :
    Mailboxes sent (host.openSocket sock) where
  udp_lt := by
    intro r hmem
    rcases mem_openSocket.1 hmem with hold | ⟨rfl, _⟩
    · exact Nat.lt_succ_of_lt (h.udp_lt r hold)
    · exact Nat.lt_succ_self _
  tcp_lt := by
    intro r hmem
    rcases mem_openSocket.2 hmem with hold | ⟨rfl, _⟩
    · exact Nat.lt_succ_of_lt (h.tcp_lt r hold)
    · exact Nat.lt_succ_self _
  udp_kind := by
    intro r found hmem hfound
    rcases mem_openSocket.1 hmem with hold | ⟨rfl, hkind⟩
    · rw [(openSocket_old (h.udp_lt r hold) sock).1] at hfound
      exact h.udp_kind r found hold hfound
    · rw [(openSocket_new host sock).1] at hfound
      cases hfound
      exact hkind
  tcp_kind := by
    intro r found hmem hfound
    rcases mem_openSocket.2 hmem with hold | ⟨rfl, hkind⟩
    · rw [(openSocket_old (h.tcp_lt r hold) sock).1] at hfound
      exact h.tcp_kind r found hold hfound
    · rw [(openSocket_new host sock).1] at hfound
      cases hfound
      exact hkind
  arrivals := by
    intro r m s hmem
    have harrived : (m, s) ∈
        Function.update host.arrived host.next [] r := hmem
    by_cases heq : r = host.next
    · rw [heq, Function.update_self] at harrived
      cases harrived
    · rw [Function.update_of_ne heq] at harrived
      exact h.arrivals r m s harrived
  mailbox := by
    intro r hmem
    rcases mem_openSocket.1 hmem with hold | ⟨rfl, _⟩
    · rcases openSocket_old (h.udp_lt r hold) sock with ⟨hsocks, harr, hrec⟩
      rw [hsocks, harr, hrec]
      exact h.mailbox r hold
    · rcases openSocket_new host sock with ⟨hsocks, harr, hrec⟩
      rw [hsocks, harr, hrec]
      have hqueue : (some sock).map (fun sock => sock.so.recvQ) = some [] :=
        congrArg some hempty
      rw [hqueue]
      exact MailboxLaw.nil

theorem perform (h : Mailboxes sent host) {r : Nat} {sock : Sock}
    (hlive : host.stack.socks r = some sock) (op : BindingOp) :
    Mailboxes sent (host.perform r sock op).1 := by
  have hbox : r ∈ host.stack.udpPcbs -> MailboxLaw (host.arrived r)
      (host.received r) (some sock.so.recvQ) := h.mailbox_live hlive
  have hkind := sock.pcb.perform_isTcp (host.port sock.pcb.isTcp) op
  have hset : Mailboxes sent (host.setSock r
      { sock with pcb := (sock.pcb.perform (host.port sock.pcb.isTcp) op).1 }
      (host.arrived r) (host.received r)) :=
    h.setSock hlive hkind (h.arrivals r) hbox
  exact hset.congr rfl rfl rfl rfl

theorem recvfromCall (h : Mailboxes sent host) {r : Nat} {sock : Sock}
    (hlive : host.stack.socks r = some sock) (requireAddr : Bool) :
    Mailboxes sent (host.recvfromCall r sock requireAddr) := by
  have hpcb := RpcDispatch.recvfromCall_pcb sock requireAddr
  refine h.setSock hlive (by rw [hpcb]) (h.arrivals r) ?_
  intro hmem
  have hbox := h.mailbox_live hlive hmem
  cases hqueue : sock.so.recvQ with
  | nil =>
      rw [hqueue] at hbox
      rw [RpcDispatch.recvfromCall_nil hqueue]
      exact hbox
  | cons packet rest =>
      rw [hqueue] at hbox
      rw [RpcDispatch.recvfromCall_cons hqueue]
      exact hbox.take fun m hholds => hholds.answers requireAddr

theorem notify (h : Mailboxes sent host) {r : Nat} {sock : Sock}
    (hlive : host.stack.socks r = some sock)
    {handled : Endpoint × Option Response}
    (hread : RpcDispatch.sChannelReadCb sock.so = some handled) :
    Mailboxes sent (host.setSock r { sock with so := handled.1 }
      (host.arrived r) (host.received r ++ handled.2.toList)) := by
  have hkind : (Sock.mk handled.1 sock.pcb).pcb.isTcp = sock.pcb.isTcp := rfl
  refine h.setSock hlive hkind (h.arrivals r) ?_
  intro hmem
  have hbox := h.mailbox_live hlive hmem
  unfold RpcDispatch.sChannelReadCb Endpoint.tryTakeFromRecvQ at hread
  split at hread
  · split at hread
    · cases hread
      rw [Option.toList_none, List.append_nil]
      exact hbox
    · next cb _ =>
        cases hqueue : sock.so.recvQ with
        | nil =>
            rw [hqueue] at hread
            cases hread
        | cons packet rest =>
            rw [hqueue] at hread hbox
            cases hread
            exact hbox.take fun m hholds => hholds.answers_async cb
  · cases hread
    rw [Option.toList_none, List.append_nil]
    exact hbox

theorem live_of_close {r r' : Nat} {sock : Sock}
    (hlive : Function.update host.stack.socks r none r' = some sock) :
    host.stack.socks r' = some sock := by
  by_cases heq : r' = r
  · rw [heq, Function.update_self] at hlive
    cases hlive
  · rw [Function.update_of_ne heq] at hlive
    exact hlive

theorem close (h : Mailboxes sent host) (r : Nat) :
    Mailboxes sent { host with
      stack :=
        { host.stack with
          socks := Function.update host.stack.socks r none } } where
  udp_lt := h.udp_lt
  tcp_lt := h.tcp_lt
  udp_kind := fun r' sock hmem hlive =>
    h.udp_kind r' sock hmem (live_of_close hlive)
  tcp_kind := fun r' sock hmem hlive =>
    h.tcp_kind r' sock hmem (live_of_close hlive)
  arrivals := h.arrivals
  mailbox := by
    intro r' hmem
    have hbox := h.mailbox r' hmem
    show MailboxLaw _ _
      ((Function.update host.stack.socks r none r').map _)
    by_cases heq : r' = r
    · rw [heq, Function.update_self]
      rw [heq] at hbox
      exact hbox.closed
    · rw [Function.update_of_ne heq]
      exact hbox

/-!
## What arrives
-/

theorem lock_live {r : Nat} {s : Session} (h : host.stack.lock r = some s) :
    exists sock, host.stack.socks r = some sock ∧ sock.pcb.session = s :=
  Option.map_eq_some_iff.1 h

theorem find_matches {m : Message} {r : Nat} (hfind : host.find m = some r) :
    r ∈ host.stack.udpPcbs ∧
      exists sock, host.stack.socks r = some sock ∧
        Sessions.Matches sock.pcb.session m.tuple.laddr m.tuple.lport
          m.tuple.faddr m.tuple.fport := by
  rcases (Sessions.find_bestMatch _ _ _ _ _ _).2.1 r hfind with
    ⟨before, after, n, hsplit, ⟨curr, hlock, hmatch, _⟩, _⟩
  rcases lock_live hlock with ⟨sock, hlive, rfl⟩
  refine ⟨?_, sock, hlive, hmatch⟩
  rw [hsplit]
  exact List.mem_append_right _ (List.mem_cons_self ..)

def queuedPacket (s : Session) (pkt : Bytes) : Packet where
  peerAddr := SockaddrIn.inet s.laddr s.lport
  skbuf :=
    ⟨{ (receivedSkbuf pkt).head with userPayloadBegin := some 28 }, []⟩

theorem queuedPacket_holds {m : Message} {pkt : Bytes}
    (h : OnWire 17 m.tuple 28 m.payload pkt) :
    m.Holds (queuedPacket m.tuple pkt) where
  payload := h.drain_datagram rfl rfl rfl
  peerAddr := rfl

theorem deliver_udp {r : Nat} {sock : Sock}
    (hlive : host.stack.socks r = some sock)
    (hkind : sock.pcb.isTcp = false) (s : Session) (pkt : Bytes) :
    host.stack.deliver r (SockaddrIn.inet s.laddr s.lport)
        (receivedSkbuf pkt) =
      ({ host.stack with
          socks := Function.update host.stack.socks r
            (some { sock with
              so := sock.so.putToRecvQ (queuedPacket s pkt) }) },
        [.putToRecvQ (queuedPacket s pkt).peerAddr
          (queuedPacket s pkt).skbuf]) := by
  rw [Stack.deliver, hlive]
  rcases sock with ⟨so, pcb⟩
  cases pcb with
  | udp t => rfl
  | tcp t => cases hkind

theorem arrive_datagram (h : Mailboxes sent host) {m : Message} {pkt : Bytes}
    (hsent : m ∈ sent) (hwire : OnWire 17 m.tuple 28 m.payload pkt)
    (uninit : SockaddrIn) {result : Host × List (Bytes × Option Message)}
    (harrive : host.arrive uninit pkt (some m) = some result) :
    Mailboxes sent result.1 ∧ result.2 = [] := by
  rw [Host.arrive, hwire.rx_datagram, Option.map_some] at harrive
  cases harrive
  have hfound : Sessions.find host.stack.lock host.stack.udpPcbs m.tuple.laddr
      m.tuple.lport m.tuple.faddr m.tuple.fport = host.find m := rfl
  rw [hfound]
  cases hfind : host.find m with
  | none =>
      refine ⟨h.congr rfl rfl ?_ rfl, rfl⟩
      simp only [Host.record, hfind]
  | some r =>
      rcases find_matches hfind with ⟨hmem, sock, hlive, hmatch⟩
      have hkind := h.udp_kind r sock hmem hlive
      simp only [Option.elim, deliver_udp hlive hkind]
      refine ⟨?_, rfl⟩
      have hbox := h.mailbox_live hlive hmem
      by_cases hfull : sock.so.recvQOverLimit = true
      · -- the queue is full and the datagram is lost
        have hput : sock.so.putToRecvQ (queuedPacket m.tuple pkt) =
            sock.so := by
          rw [Endpoint.putToRecvQ, if_pos hfull]
        have hrecord : host.record (some m) = host.arrived := by
          simp only [Host.record, hfind, hlive, hfull, if_true]
        refine h.congr rfl ?_ hrecord rfl
        simp only [hput]
        rw [← hlive, Function.update_eq_self]
      · have hput : (sock.so.putToRecvQ (queuedPacket m.tuple pkt)).recvQ =
            sock.so.recvQ ++ [queuedPacket m.tuple pkt] :=
          Endpoint.recvQ_putToRecvQ _ (by simpa using hfull)
        have hrecord : host.record (some m) =
            Function.update host.arrived r
              (host.arrived r ++ [(m, sock.pcb.session)]) := by
          simp only [Host.record, hfind, hlive, hfull]
          rfl
        have hset : Mailboxes sent (host.setSock r
            { sock with so := sock.so.putToRecvQ (queuedPacket m.tuple pkt) }
            (host.arrived r ++ [(m, sock.pcb.session)])
            (host.received r)) := by
          have hsame : (Sock.mk (sock.so.putToRecvQ
            (queuedPacket m.tuple pkt)) sock.pcb).pcb.isTcp =
              sock.pcb.isTcp := rfl
          refine h.setSock hlive hsame ?_ ?_
          · intro m' s' hmem'
            rcases List.mem_append.1 hmem' with hold | hnew
            · exact h.arrivals r m' s' hold
            · cases List.mem_singleton.1 hnew
              exact ⟨hsent, hmatch⟩
          · intro _
            rw [hput]
            exact hbox.put (queuedPacket_holds hwire) _
        refine hset.congr rfl rfl hrecord ?_
        exact (Function.update_eq_self r host.received).symm

theorem arrive_segment (h : Mailboxes sent host) {s : Session}
    {p pkt : Bytes} (hwire : OnWire 6 s 40 p pkt) (uninit : SockaddrIn)
    {result : Host × List (Bytes × Option Message)}
    (harrive : host.arrive uninit pkt none = some result) :
    Mailboxes sent result.1 ∧
      exists effects, result.2 = host.packets effects none ∧
        forall e, e ∈ effects -> e.IsSegment := by
  rw [Host.arrive, hwire.rx_segment, Option.map_some] at harrive
  cases harrive
  cases Tcp.rx_given host.stack uninit (receivedSkbuf pkt) with
  | nobody hnone =>
      rw [hnone]
      exact ⟨h.congr rfl rfl rfl rfl, [], rfl, List.forall_mem_nil _⟩
  | socket r sock peerAddr skbuf hmem hlive hgiven =>
      have hkind := h.tcp_kind r sock hmem hlive
      have hset : Mailboxes sent (host.setSock r
          ⟨(sock.pcb.recv peerAddr skbuf).2.foldl Endpoint.apply sock.so,
            (sock.pcb.recv peerAddr skbuf).1⟩
          (host.arrived r) (host.received r)) := by
        refine h.setSock hlive (sock.pcb.recv_isTcp ..) (h.arrivals r) ?_
        intro hudp
        exact absurd ((h.udp_kind r sock hudp hlive).symm.trans hkind)
          (by decide)
      rw [hgiven]
      refine ⟨hset.congr rfl rfl ?_ ?_, _, rfl, ?_⟩
      · exact (Function.update_eq_self r host.arrived).symm
      · exact (Function.update_eq_self r host.received).symm
      · rcases sock with ⟨so, pcb⟩
        cases pcb with
        | udp t => cases hkind
        | tcp t => exact t.recv_isSegment peerAddr skbuf

end Mailboxes

end Velox
