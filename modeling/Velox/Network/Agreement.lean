import Velox.Arbiter.Connect
import Velox.Foundation.Runs
import Velox.Network.Conversation

/-!
# Agreement on the streams

The connection of a conversation goes through stages, from the SYN to the open
connection, and keeps to them whatever the two sides do.  Hence both byte
streams arrive as they were sent, each byte once and in order, and what is
still missing is on its way.
-/

namespace Velox

open Foundation

/-!
## Stages of the connection
-/

namespace Exchange

variable {t : Session}

structure Waiting (x : Exchange t) (s : TcpSession) : Prop where
  state : s.connState = .synSent
  next : s.sendNext = TcpSession.iss + 1
  taken : x.taken = []
  received : x.server.received = []
  handed : x.handed = []

structure Open (x : Exchange t) (s : TcpSession) : Prop where
  state : s.connState = .established
  outgoing : Outgoing t x.server x.toServer x.taken s.sendNext s.recvNext
  incoming : Incoming x.server x.toClient x.handed s.recvNext

/-- The handshake: the SYN is on its way, the server has it, and the server
has answered and may go on sending. -/
inductive Handshake (x : Exchange t) : Prop where
  | calling (pkt : Bytes) (hphase : x.server.phase = .listen)
      (hwritten : x.server.written = []) (hout : x.toServer = [pkt])
      (hpkt : Carries t ⟨true, false, TcpSession.iss, 0, []⟩ pkt)
      (hin : x.toClient = [])
  | called (hphase : x.server.phase = .synReceived)
      (hirs : x.server.irs = TcpSession.iss)
      (hwritten : x.server.written = []) (hout : x.toServer = [])
      (hin : x.toClient = [])
  | answering (p : Inbound t.mirror) (rest : List (Inbound t.mirror))
      (hphase : x.server.phase = .answered)
      (hirs : x.server.irs = TcpSession.iss) (hout : x.toServer = [])
      (hin : x.toClient = p :: rest) (hsyn : p.segment.syn = true)
      (hack : p.segment.ack = true) (hseq : p.segment.seq = x.server.iss)
      (hpayload : p.segment.payload = [])
      (hrest : Incoming x.server rest [] (x.server.iss + 1))

inductive Stage (x : Exchange t) (s : TcpSession) : Prop where
  | waiting (hwaiting : x.Waiting s) (h : x.Handshake)
  | opened (h : x.Open s)

def afterSend (x : Exchange t) (last : UInt16) (buf : Bytes)
    (sent : SendResult TcpSession) : Exchange t :=
  { x with
    toServer := x.toServer ++ transmitted last sent.effects
    taken := x.taken ++ buf.take sent.ret.toInt.toNat }

def afterRecv (x : Exchange t) (last : UInt16)
    (rest : List (Inbound t.mirror)) (effects : List Effect) : Exchange t :=
  { x with
    toClient := rest
    toServer := x.toServer ++ transmitted last effects
    handed := x.handed ++ TcpSession.handedBytes effects
    failed := x.failed || decide (.assertion false ∈ effects) }

end Exchange

/-!
### Calls of `send`
-/

namespace TcpSession

theorem connect_closed {s : TcpSession} (hclosed : s.connState = .closed)
    (port last : UInt16) (faddr : UInt32) (fport : UInt16) :
    (s.connect port faddr fport).session.connState = .synSent ∧
      (s.connect port faddr fport).session.sendNext = iss + 1 ∧
      exists pkt,
        transmitted last (s.connect port faddr fport).effects = [pkt] ∧
        Carries (s.connect port faddr fport).session.toSession
          ⟨true, false, iss, 0, []⟩ pkt := by
  have hcase := send_cases
    { s with toSession := (s.toSession.connect port faddr fport).1 }
    (s.toSession.connect port faddr fport).2 []
  unfold connect
  dsimp only
  generalize TcpSession.send _ _ _ = sent at hcase ⊢
  cases hcase with
  | syn _ => exact ⟨rfl, rfl, _, rfl, syn_carries _ last⟩
  | data hestab =>
      rw [hclosed] at hestab
      cases hestab
  | other hother _ => exact absurd hclosed hother

theorem superSend_bound {s : TcpSession} (hbound : s.lport ≠ 0)
    (port : UInt16) : s.superSend port = s := by
  rw [superSend, Session.send, Session.bind, if_neg hbound]

end TcpSession

namespace Exchange

variable {t : Session} {x : Exchange t} {s : TcpSession}

/-- Until the answer arrives, `send` takes nothing. -/
theorem Waiting.send_eq (h : x.Waiting s) (hbound : s.lport ≠ 0)
    (port last : UInt16) (buf : Bytes) :
    (s.send port buf).session = s ∧
      x.afterSend last buf (s.send port buf) = x := by
  have hcase := s.send_cases port buf
  generalize s.send port buf = sent at hcase ⊢
  cases hcase with
  | syn hstate =>
      rw [h.state] at hstate
      cases hstate
  | data hstate =>
      rw [h.state] at hstate
      cases hstate
  | other _ _ =>
      refine ⟨TcpSession.superSend_bound hbound port, ?_⟩
      show { x with toServer := x.toServer ++ [], taken := x.taken ++ [] } = x
      rw [List.append_nil, List.append_nil]

theorem take_ret {buf : Bytes} (hlen : buf.length <= 1460) :
    buf.take (Int32.ofNat buf.length).toInt.toNat = buf := by
  rw [Int32.toInt_ofNat_of_lt (by lia)]
  exact List.take_length

theorem Open.send (h : x.Open s) (htuple : s.toSession = t)
    (hbound : s.lport ≠ 0) (port last : UInt16) {buf : Bytes}
    (hlen : buf.length <= 1460) :
    (x.afterSend last buf (s.send port buf)).Open
      (s.send port buf).session := by
  have hcase := s.send_cases port buf
  generalize s.send port buf = sent at hcase ⊢
  cases hcase with
  | syn hstate =>
      rw [h.state] at hstate
      cases hstate
  | other _ hestab => exact absurd h.state hestab
  | data _ =>
      have hpkt := s.data_carries last (Nat.le_trans hlen (by decide))
      rw [htuple] at hpkt
      rw [TcpSession.superSend_bound hbound]
      constructor
      · exact h.state
      · show Outgoing t x.server _ (x.taken ++ buf.take _) _ _
        rw [take_ret hlen]
        exact h.outgoing.push hpkt
      · exact h.incoming

theorem Stage.send (h : x.Stage s) (htuple : s.toSession = t)
    (hbound : s.lport ≠ 0) (port last : UInt16) {buf : Bytes}
    (hlen : buf.length <= 1460) :
    (x.afterSend last buf (s.send port buf)).Stage
      (s.send port buf).session := by
  cases h with
  | waiting hwaiting h =>
      rcases hwaiting.send_eq hbound port last buf with ⟨hs, hx⟩
      rw [hs, hx]
      exact .waiting hwaiting h
  | opened h => exact .opened (h.send htuple hbound port last hlen)

/-!
### Packets that arrive at the client
-/

theorem advance_nil (n : UInt32) :
    n + UInt32.ofNat ([] : Bytes).length = n :=
  wireNumbering.advance_zero n

def OpenedBy (x : Exchange t) (last : UInt16)
    (rest : List (Inbound t.mirror)) (result : TcpSession × List Effect) :
    Prop :=
  (x.afterRecv last rest result.2).Open result.1 ∧
    .assertion false ∉ result.2

theorem openedBy_acknowledges {last : UInt16} {value ack : UInt32}
    {payload : Bytes} {result : TcpSession × List Effect}
    {rest : List (Inbound t.mirror)}
    (h : Acknowledges s last value payload result) (htuple : s.toSession = t)
    (hout : Outgoing t x.server x.toServer x.taken s.sendNext ack)
    (hin : Incoming x.server rest (x.handed ++ payload) value) :
    x.OpenedBy last rest result := by
  rcases h.packet with ⟨pkt, hpkt, hcarries⟩
  rw [htuple] at hcarries
  have hpush := hout.push hcarries
  rw [advance_nil, List.append_nil, ← h.sendNext, ← h.recvNext,
    ← hpkt] at hpush
  rw [← h.handed, ← h.recvNext] at hin
  exact ⟨⟨h.state, hpush, hin⟩, h.asserted⟩

theorem Open.recv_empty (h : x.Open s) {p : Inbound t.mirror}
    {rest : List (Inbound t.mirror)} (hin : x.toClient = p :: rest)
    (hpayload : p.segment.payload = []) (uninit : SockaddrIn)
    (last : UInt16) : x.OpenedBy last rest (s.recv uninit p.skbuf) := by
  have hincoming := h.incoming
  rw [hin] at hincoming
  have hpop := hincoming.pop
  have hlen := p.payloadLen_eq
  rw [hpayload] at hpop hlen
  rcases s.readAck_eq p.skbuf.head with ⟨una, hread⟩
  rw [TcpSession.recv_empty h.state uninit hlen, hread]
  refine ⟨⟨h.state, ?_, ?_⟩, List.not_mem_nil⟩
  · show Outgoing t x.server (x.toServer ++ []) _ _ _
    rw [List.append_nil]
    exact h.outgoing
  · show Incoming x.server rest (x.handed ++ []) s.recvNext
    rw [advance_nil] at hpop
    exact hpop

theorem Open.recv (h : x.Open s) (htuple : s.toSession = t)
    {p : Inbound t.mirror} {rest : List (Inbound t.mirror)}
    (hin : x.toClient = p :: rest) (uninit : SockaddrIn) (last : UInt16) :
    x.OpenedBy last rest (s.recv uninit p.skbuf) := by
  by_cases hpayload : p.segment.payload = []
  · exact h.recv_empty hin hpayload uninit last
  · have hincoming := h.incoming
    rw [hin] at hincoming
    have hpop := hincoming.pop
    rw [← hincoming.seq_eq] at hpop
    exact openedBy_acknowledges
      (TcpSession.recv_payload h.state hpayload uninit last) htuple h.outgoing
      hpop

theorem Handshake.recv (h : x.Handshake) (hwaiting : x.Waiting s)
    (htuple : s.toSession = t) {p : Inbound t.mirror}
    {rest : List (Inbound t.mirror)} (hin : x.toClient = p :: rest)
    (uninit : SockaddrIn) (last : UInt16) :
    x.OpenedBy last rest (s.recv uninit p.skbuf) := by
  cases h with
  | calling _ _ _ _ _ hnone =>
      rw [hnone] at hin
      cases hin
  | called _ _ _ _ hnone =>
      rw [hnone] at hin
      cases hin
  | answering q rest' hphase hirs hout hline hsyn hack hseq _ hrest =>
      rcases List.cons.inj (hline.symm.trans hin) with ⟨rfl, rfl⟩
      have hstart := Outgoing.start (t := t) hphase hirs hwaiting.received
      rw [← hout, ← hwaiting.taken, ← hwaiting.next] at hstart
      rw [← hseq, ← hwaiting.handed, ← List.append_nil x.handed] at hrest
      exact openedBy_acknowledges
        (TcpSession.recv_answer hwaiting.state hsyn hack uninit last) htuple
        hstart hrest

theorem Stage.recv (h : x.Stage s) (htuple : s.toSession = t)
    {p : Inbound t.mirror} {rest : List (Inbound t.mirror)}
    (hin : x.toClient = p :: rest) (uninit : SockaddrIn) (last : UInt16) :
    x.OpenedBy last rest (s.recv uninit p.skbuf) := by
  cases h with
  | waiting hwaiting h => exact h.recv hwaiting htuple hin uninit last
  | opened h => exact h.recv htuple hin uninit last

/-!
### Packets that arrive at the server, and packets it sends
-/

def afterReceive (x : Exchange t) (pkt : Bytes) (rest : List Bytes) :
    Exchange t :=
  { x with server := x.server.receive t pkt, toServer := rest }

def afterEmit (x : Exchange t) (srv : Server) (p : Inbound t.mirror) :
    Exchange t :=
  { x with server := srv, toClient := x.toClient ++ [p] }

theorem Handshake.receive (h : x.Handshake) {pkt : Bytes} {rest : List Bytes}
    (hout : x.toServer = pkt :: rest) :
    (x.afterReceive pkt rest).Handshake ∧
      (x.server.receive t pkt).received = x.server.received ∧
      (x.server.receive t pkt).refused = x.server.refused := by
  cases h with
  | calling syn hphase hwritten hline hpkt hin =>
      rcases List.cons.inj (hline.symm.trans hout) with ⟨rfl, rfl⟩
      have hreceive : x.server.receive t syn =
          { x.server with phase := .synReceived, irs := TcpSession.iss } := by
        unfold Server.receive
        rw [hphase, hpkt.segment]
        exact if_pos ⟨hpkt.verified, rfl, rfl⟩
      rw [afterReceive, hreceive]
      exact ⟨.called rfl rfl hwritten rfl hin, rfl, rfl⟩
  | called _ _ _ hnone _ =>
      rw [hnone] at hout
      cases hout
  | answering _ _ _ _ hnone _ _ _ _ _ _ =>
      rw [hnone] at hout
      cases hout

theorem Stage.receive (h : x.Stage s) {pkt : Bytes} {rest : List Bytes}
    (hout : x.toServer = pkt :: rest) :
    (x.afterReceive pkt rest).Stage s ∧
      (x.server.receive t pkt).refused = x.server.refused := by
  cases h with
  | waiting hwaiting h =>
      rcases h.receive hout with ⟨hnext, hreceived, hrefused⟩
      exact ⟨.waiting ⟨hwaiting.state, hwaiting.next, hwaiting.taken,
        hreceived.trans hwaiting.received, hwaiting.handed⟩ hnext, hrefused⟩
  | opened h =>
      have houtgoing := h.outgoing
      rw [hout] at houtgoing
      have hpop := houtgoing.pop
      rw [afterReceive]
      rw [houtgoing.receive_eq] at hpop ⊢
      exact ⟨.opened ⟨h.state, hpop, h.incoming.congr rfl rfl⟩, rfl⟩

theorem emit_answered {srv srv' : Server} {seg : Seg}
    (hphase : srv.phase = .answered) (h : srv.emit seg = some srv') :
    seg.seq = srv.sndNxt ∧
      srv' = { srv with written := srv.written ++ seg.payload } := by
  unfold Server.emit at h
  rw [hphase] at h
  dsimp only at h
  split at h
  case isFalse => cases h
  case isTrue hseg =>
    cases h
    exact ⟨hseg.2.2.1, by rw [hphase]⟩

theorem Handshake.emit (h : x.Handshake) {srv : Server}
    {p : Inbound t.mirror} (hemit : x.server.emit p.segment = some srv) :
    (x.afterEmit srv p).Handshake ∧ srv.received = x.server.received ∧
      srv.refused = x.server.refused := by
  cases h with
  | calling _ hphase _ _ _ _ =>
      unfold Server.emit at hemit
      rw [hphase] at hemit
      cases hemit
  | called hphase hirs hwritten hout hin =>
      unfold Server.emit at hemit
      rw [hphase] at hemit
      dsimp only at hemit
      split at hemit
      case isFalse => cases hemit
      case isTrue hseg =>
        cases hemit
        have hline : x.toClient ++ [p] = [p] := by
          rw [hin]
          rfl
        exact ⟨.answering p [] rfl hirs hout hline (by rw [hseg])
          (by rw [hseg]) (by rw [hseg]; rfl) (by rw [hseg])
          (Incoming.start hwritten), rfl, rfl⟩
  | answering q rest hphase hirs hout hin hsyn hack hseq hpayload hrest =>
      rcases emit_answered hphase hemit with ⟨hnumber, rfl⟩
      have hline : x.toClient ++ [p] = q :: (rest ++ [p]) := by
        rw [hin]
        rfl
      exact ⟨.answering q (rest ++ [p]) hphase hirs hout hline hsyn hack hseq
        hpayload (hrest.push hnumber), rfl, rfl⟩

theorem Stage.emit (h : x.Stage s) {srv : Server} {p : Inbound t.mirror}
    (hemit : x.server.emit p.segment = some srv) :
    (x.afterEmit srv p).Stage s ∧ srv.refused = x.server.refused := by
  cases h with
  | waiting hwaiting h =>
      rcases h.emit hemit with ⟨hnext, hreceived, hrefused⟩
      exact ⟨.waiting ⟨hwaiting.state, hwaiting.next, hwaiting.taken,
        hreceived.trans hwaiting.received, hwaiting.handed⟩ hnext, hrefused⟩
  | opened h =>
      have hout := h.outgoing
      rcases emit_answered hout.phase hemit with ⟨hnumber, rfl⟩
      exact ⟨.opened ⟨h.state, ⟨hout.phase, hout.irs, hout.next_eq,
        hout.acceptable, hout.flight, hout.acked⟩,
        h.incoming.push hnumber⟩, rfl⟩

/-- A stage depends on three members of the session only. -/
theorem Stage.congr (h : x.Stage s) {s' : TcpSession}
    (hstate : s'.connState = s.connState) (hsend : s'.sendNext = s.sendNext)
    (hrecv : s'.recvNext = s.recvNext) : x.Stage s' := by
  cases h with
  | waiting h hshake =>
      exact .waiting ⟨hstate.trans h.state, hsend.trans h.next, h.taken,
        h.received, h.handed⟩ hshake
  | opened h =>
      refine .opened ⟨hstate.trans h.state, ?_, ?_⟩
      · rw [hsend, hrecv]
        exact h.outgoing
      · rw [hrecv]
        exact h.incoming

/-- Before the connection is open no bytes are on their way to the server, and
all that it has written is on its way to the client. -/
theorem Handshake.agreement (h : x.Handshake) :
    (x.toServer.flatMap fun pkt => (segmentOf pkt).payload) = [] ∧
      x.server.written = (x.toClient.flatMap fun p => p.segment.payload) ∧
      (x.server.phase = .answered -> x.toServer = [] -> x.toClient = [] ->
        x.server.acked = x.server.sndNxt) := by
  cases h with
  | calling pkt hphase hwritten hout hpkt hin =>
      rw [hout, hin, hphase, hwritten, List.flatMap_singleton, hpkt.segment]
      exact ⟨rfl, rfl, nofun⟩
  | called hphase _ hwritten hout hin =>
      rw [hout, hin, hphase, hwritten]
      exact ⟨rfl, rfl, nofun⟩
  | answering p rest _ _ hout hin _ _ _ hpayload hrest =>
      have hcontent := hrest.flight.content
      rw [List.flatMap_map] at hcontent
      rw [hout, hin, List.flatMap_cons, hpayload]
      exact ⟨rfl, hcontent, nofun⟩

end Exchange

/-!
## Whole conversations
-/

namespace Conversation

variable {ρ : Type} {t : Session} {r : ρ}

/-- What holds at all times: the socket has the session `t` for itself, the
connection is at one of its stages, the server has refused nothing, and no
assertion has failed. -/
structure Invariant (r : ρ) (c : Conversation ρ t) : Prop where
  alone : c.stack.Alone r t
  client : exists so s, c.stack.socks r = some ⟨so, .tcp s⟩ ∧
    s.toSession = t ∧ c.toExchange.Stage s
  refused : c.server.refused = 0
  asserted : c.failed = false

namespace Invariant

variable {c : Conversation ρ t}

theorem receive (h : c.Invariant r) {pkt : Bytes} {rest : List Bytes}
    (hout : c.toServer = pkt :: rest) :
    Invariant r
      { c with server := c.server.receive t pkt, toServer := rest } := by
  rcases h.client with ⟨so, s, hsock, htuple, hstage⟩
  have hreceive := hstage.receive hout
  exact ⟨h.alone, ⟨so, s, hsock, htuple, hreceive.1⟩,
    hreceive.2.trans h.refused, h.asserted⟩

theorem emit (h : c.Invariant r) {srv : Server} {p : Inbound t.mirror}
    (hemit : c.server.emit p.segment = some srv) :
    Invariant r { c with server := srv, toClient := c.toClient ++ [p] } := by
  rcases h.client with ⟨so, s, hsock, htuple, hstage⟩
  have hemitted := hstage.emit hemit
  exact ⟨h.alone, ⟨so, s, hsock, htuple, hemitted.1⟩,
    hemitted.2.trans h.refused, h.asserted⟩

theorem others (h : c.Invariant r) {st : Stack ρ}
    (hspares : Spares r c.stack st) (halone : st.Alone r t) :
    Invariant r { c with stack := st } := by
  rcases h.client with ⟨so, s, hsock, htuple, hstage⟩
  rw [Spares, hsock] at hspares
  rcases Option.map_eq_some_iff.1 hspares with ⟨⟨so', pcb⟩, hsock', hpcb⟩
  cases pcb with
  | udp s' => cases hpcb
  | tcp s' =>
      rcases TcpSession.mk.inj (Pcb.tcp.inj hpcb) with
        ⟨hbase, hstate, _, _, hsend, _, hrecv⟩
      exact ⟨halone, ⟨so', s', hsock', hbase.trans htuple,
        hstage.congr hstate hsend hrecv⟩, h.refused, h.asserted⟩

end Invariant

/-- What both sides may rely on: each line holds what its receiver lacks of
the stream, the server has refused nothing, no assertion has failed, and once
nothing is on the way the server's stream is acknowledged to its end. -/
structure Agreement (c : Conversation ρ t) : Prop where
  outgoing : c.taken = c.server.received ++
    c.toServer.flatMap fun pkt => (segmentOf pkt).payload
  incoming : c.server.written = c.handed ++
    c.toClient.flatMap fun p => p.segment.payload
  refused : c.server.refused = 0
  asserted : c.failed = false
  acknowledged : c.server.phase = .answered -> c.toServer = [] ->
    c.toClient = [] -> c.server.acked = c.server.sndNxt

theorem Invariant.agreement {c : Conversation ρ t} (h : c.Invariant r) :
    c.Agreement := by
  rcases h.client with ⟨_, s, _, _, hstage⟩
  cases hstage with
  | waiting hwaiting hshake =>
      rcases hshake.agreement with ⟨hout, hin, hacked⟩
      refine ⟨?_, ?_, h.refused, h.asserted, hacked⟩
      · rw [hwaiting.taken, hwaiting.received, hout]
        rfl
      · rw [hwaiting.handed]
        exact hin
  | opened hopen =>
      have hcontent := hopen.incoming.flight.content
      rw [List.flatMap_map] at hcontent
      refine ⟨hopen.outgoing.flight.content, hcontent, h.refused, h.asserted,
        ?_⟩
      intro _ hout hin
      have hflight := hopen.incoming.flight
      have hacked := hopen.outgoing.acked
      rw [hin] at hflight
      rw [hout] at hacked
      rw [Server.sndNxt, hflight.arrived]
      exact hacked.trans hopen.incoming.next_eq

variable [DecidableEq ρ]

theorem alone_put {st : Stack ρ} (h : st.Alone r t) (sock : Sock) :
    (st.put r sock).Alone r t := by
  refine ⟨h.1, fun it hit hne => ?_⟩
  show Option.map _ (Function.update st.socks r (some sock) it) ≠ _
  rw [Function.update_of_ne hne]
  exact h.2 it hit hne

theorem put_self (st : Stack ρ) (r : ρ) (sock : Sock) :
    (st.put r sock).socks r = some sock := by
  show Function.update st.socks r (some sock) r = _
  exact Function.update_self _ _ _

theorem rx_eq {st : Stack ρ} (halone : st.Alone r t) {so : Endpoint}
    {s : TcpSession} (hsock : st.socks r = some ⟨so, .tcp s⟩)
    (htuple : s.toSession = t) (uninit : SockaddrIn)
    (p : Inbound t.mirror) :
    Ip.rx st uninit p.bytes =
      some (st.put r ⟨(s.recv uninit p.skbuf).2.foldl Endpoint.apply so,
          .tcp (s.recv uninit p.skbuf).1⟩, (s.recv uninit p.skbuf).2) := by
  have hlock : st.lock r = some t := by
    rw [Stack.lock, hsock, ← htuple]
    rfl
  have hfind : Sessions.find st.lock st.tcpPcbs t.mirror.laddr t.mirror.lport
      t.mirror.faddr t.mirror.fport = some r :=
    Sessions.find_eq halone.1 hlock halone.2
  rcases p.tuple_eq with ⟨hsaddr, hsource, hdaddr, hdest⟩
  rw [p.rx_eq, Tcp.rx, hsaddr, hsource, hdaddr, hdest]
  simp only [hfind, Stack.deliver, hsock]
  rfl

def afterPacket (c : Conversation ρ t) (r : ρ) (so : Endpoint)
    (s : TcpSession) (p : Inbound t.mirror) (rest : List (Inbound t.mirror))
    (uninit : SockaddrIn) (last : UInt16) : Conversation ρ t where
  toExchange := c.toExchange.afterRecv last rest (s.recv uninit p.skbuf).2
  stack := c.stack.put r
    ⟨(s.recv uninit p.skbuf).2.foldl Endpoint.apply so,
      .tcp (s.recv uninit p.skbuf).1⟩

namespace Invariant

variable {c c' : Conversation ρ t}

theorem send (h : c.Invariant r) (hbound : t.lport ≠ 0)
    {port last : UInt16} {buf : Bytes}
    (hstep : c.clientSend r port last buf = some c') : c'.Invariant r := by
  rcases h.client with ⟨so, s, hsock, htuple, hstage⟩
  unfold clientSend at hstep
  rw [hsock] at hstep
  dsimp only at hstep
  split at hstep
  case isFalse => cases hstep
  case isTrue hlen =>
    cases hstep
    have hs : s.lport ≠ 0 := by
      rw [htuple]
      exact hbound
    have hkeep : (s.send port buf).session.toSession = t := by
      rw [TcpSession.send_toSession, Session.bind, if_neg hs]
      exact htuple
    exact ⟨alone_put h.alone _, ⟨so, _, put_self _ _ _, hkeep,
      hstage.send htuple hs port last hlen⟩, h.refused, h.asserted⟩

theorem recv (h : c.Invariant r) {so : Endpoint} {s : TcpSession}
    (hsock : c.stack.socks r = some ⟨so, .tcp s⟩) {p : Inbound t.mirror}
    {rest : List (Inbound t.mirror)} (hin : c.toClient = p :: rest)
    (uninit : SockaddrIn) (last : UInt16) :
    c.step r (.toClient uninit last) =
        some (c.afterPacket r so s p rest uninit last) ∧
      (c.afterPacket r so s p rest uninit last).Invariant r := by
  rcases h.client with ⟨so', s', hsock', htuple, hstage⟩
  cases hsock.symm.trans hsock'
  have hrx := rx_eq h.alone hsock htuple uninit p
  have hkeep : (s.recv uninit p.skbuf).1.toSession = t :=
    (s.recv_toSession uninit p.skbuf).trans htuple
  rcases hstage.recv htuple hin uninit last with ⟨hopen, hasserted⟩
  have hfailed : (c.failed || decide
      (.assertion false ∈ (s.recv uninit p.skbuf).2)) = false := by
    rw [h.asserted, decide_eq_false hasserted]
    rfl
  constructor
  · simp only [Conversation.step, hin, hrx]
    rfl
  · exact ⟨alone_put h.alone _, ⟨_, _, put_self _ _ _, hkeep, .opened hopen⟩,
      h.refused, hfailed⟩

theorem step (h : c.Invariant r) (hbound : t.lport ≠ 0) {a : Act ρ t}
    (hstep : c.step r a = some c') : c'.Invariant r := by
  cases a with
  | send port last buf => exact h.send hbound hstep
  | emit p =>
      rcases Option.map_eq_some_iff.1 hstep with ⟨srv, hemit, rfl⟩
      exact h.emit hemit
  | toServer =>
      simp only [Conversation.step] at hstep
      split at hstep
      · cases hstep
      case h_2 pkt rest hout =>
        cases hstep
        exact h.receive hout
  | toClient uninit last =>
      cases hin : c.toClient with
      | nil =>
          simp only [Conversation.step, hin] at hstep
          cases hstep
      | cons p rest =>
          rcases h.client with ⟨so, s, hsock, _⟩
          rcases h.recv hsock hin uninit last with ⟨hnext, hinv⟩
          cases hnext.symm.trans hstep
          exact hinv
  | others st =>
      simp only [Conversation.step] at hstep
      split at hstep
      case isFalse => cases hstep
      case isTrue hothers =>
        cases hstep
        exact h.others hothers.1 hothers.2

end Invariant

/-!
### What is on its way can arrive
-/

/-- Deliveries alone lead from the one to the other, and neither side has
sent anything more. -/
structure Delivers (r : ρ) (c c' : Conversation ρ t) : Prop where
  taken : c'.taken = c.taken
  written : c'.server.written = c.server.written
  leads : Leads (step r) (fun a => a.isDelivery = true) c c'

theorem Delivers.refl (c : Conversation ρ t) : Delivers r c c :=
  ⟨rfl, rfl, .refl c⟩

theorem Delivers.trans {c mid c' : Conversation ρ t}
    (h : Delivers r c mid) (h' : Delivers r mid c') : Delivers r c c' :=
  ⟨h'.taken.trans h.taken, h'.written.trans h.written,
    h.leads.trans h'.leads⟩

theorem Invariant.empties_toClient {c : Conversation ρ t}
    (h : c.Invariant r) :
    exists c', Delivers r c c' ∧ c'.Invariant r ∧ c'.toClient = [] := by
  generalize hline : c.toClient = line
  induction line generalizing c with
  | nil => exact ⟨c, .refl c, h, hline⟩
  | cons p rest ih =>
      rcases h.client with ⟨so, s, hsock, _⟩
      rcases h.recv hsock hline (SockaddrIn.inet 0 0) 0 with ⟨hstep, hinv⟩
      rcases ih hinv rfl with ⟨c', hdelivers, hinv', hempty⟩
      exact ⟨c', ⟨hdelivers.taken, hdelivers.written,
        hdelivers.leads.cons rfl hstep⟩, hinv', hempty⟩

theorem Invariant.empties_toServer {c : Conversation ρ t}
    (h : c.Invariant r) :
    exists c', Delivers r c c' ∧ c'.Invariant r ∧ c'.toServer = [] ∧
      c'.toClient = c.toClient := by
  generalize hline : c.toServer = line
  induction line generalizing c with
  | nil => exact ⟨c, .refl c, h, hline, rfl⟩
  | cons pkt rest ih =>
      have hstep : c.step r .toServer = some
          { c with server := c.server.receive t pkt, toServer := rest } := by
        simp only [Conversation.step, hline]
      rcases ih (h.receive hline) rfl with ⟨c', hdelivers, hinv', hempty, hin⟩
      have hwritten := c.server.receive_written t pkt
      exact ⟨c', ⟨hdelivers.taken, hdelivers.written.trans hwritten,
        hdelivers.leads.cons rfl hstep⟩, hinv', hempty, hin⟩

/-- The socket `r` calls `connect`, and the server at the address listens. -/
def start (st : Stack ρ) (r : ρ) (so : Endpoint) (s : TcpSession)
    (port last : UInt16) (faddr : UInt32) (fport : UInt16) (iss : UInt32) :
    Conversation ρ (s.connect port faddr fport).session.toSession where
  server := Server.listening iss
  toServer := transmitted last (s.connect port faddr fport).effects
  toClient := []
  taken := []
  handed := []
  failed := false
  stack := st.put r ⟨so, .tcp (s.connect port faddr fport).session⟩

section Runs

variable {st : Stack ρ} {so : Endpoint} {s : TcpSession} {port last : UInt16}
  {faddr : UInt32} {fport : UInt16} {iss : UInt32}
  {c : Conversation ρ (s.connect port faddr fport).session.toSession}
  {acts : List (Act ρ (s.connect port faddr fport).session.toSession)}

theorem start_invariant (hclosed : s.connState = .closed)
    (halone : st.Alone r (s.connect port faddr fport).session.toSession) :
    (start st r so s port last faddr fport iss).Invariant r := by
  rcases TcpSession.connect_closed hclosed port last faddr fport with
    ⟨hstate, hnext, pkt, hpkt, hcarries⟩
  exact ⟨alone_put halone _, ⟨so, _, put_self _ _ _, rfl,
    .waiting ⟨hstate, hnext, rfl, rfl, rfl⟩
      (.calling pkt rfl rfl hpkt hcarries rfl)⟩, rfl, rfl⟩

theorem run_invariant (hclosed : s.connState = .closed)
    (hbound : (s.connect port faddr fport).session.lport ≠ 0)
    (halone : st.Alone r (s.connect port faddr fport).session.toSession)
    (hrun : run (step r) (start st r so s port last faddr fport iss) acts =
      some c) : c.Invariant r :=
  Foundation.run_invariant (fun _ _ _ h hstep => Invariant.step h hbound hstep)
    (start_invariant hclosed halone) hrun

/-- In every conversation both streams arrive as they were sent. -/
theorem streams_agree (hclosed : s.connState = .closed)
    (hbound : (s.connect port faddr fport).session.lport ≠ 0)
    (halone : st.Alone r (s.connect port faddr fport).session.toSession)
    (hrun : run (step r) (start st r so s port last faddr fport iss) acts =
      some c) : c.Agreement :=
  (run_invariant hclosed hbound halone hrun).agreement

/-- At any time the packets on the way can all be delivered, and then each
side has the whole of what the other has sent so far. -/
theorem deliveries_complete (hclosed : s.connState = .closed)
    (hbound : (s.connect port faddr fport).session.lport ≠ 0)
    (halone : st.Alone r (s.connect port faddr fport).session.toSession)
    (hrun : run (step r) (start st r so s port last faddr fport iss) acts =
      some c) :
    exists c', Delivers r c c' ∧ c'.toServer = [] ∧ c'.toClient = [] ∧
      c'.server.received = c.taken ∧ c'.handed = c.server.written := by
  rcases (run_invariant hclosed hbound halone hrun).empties_toClient with
    ⟨mid, hclient, hmid, hin⟩
  rcases hmid.empties_toServer with ⟨c', hserver, hinv, hout, hkeep⟩
  have hdelivers := hclient.trans hserver
  have hagree := hinv.agreement
  have hin' := hkeep.trans hin
  refine ⟨c', hdelivers, hout, hin', ?_, ?_⟩
  · rw [← hdelivers.taken, hagree.outgoing, hout, List.flatMap_nil,
      List.append_nil]
  · rw [← hdelivers.written, hagree.incoming, hin', List.flatMap_nil,
      List.append_nil]

end Runs

/-!
### A dialogue

The client says two bytes and the server one.
-/

def caller : TcpSession :=
  TcpSession.fresh (Session.create 0x0100a8c0) 0 0 0 0

def callerTuple : Session :=
  (caller.connect 0x400 0x0200a8c0 0x5000).session.toSession

/-- The headers of the server's packets, which must not be fragmented. -/
def serverHeader (totLen seq ack flags : UInt8) : Bytes :=
  [0x45, 0, 0, totLen, 0, 0, 0x40, 0, 64, 6, 0, 0, 192, 168, 0, 2, 192, 168,
    0, 1, 0, 80, 4, 1, 0, 0, 0, seq, 0, 0, 0, ack, 0x50, flags, 16, 0, 0, 0,
    0, 0]

def serverAnswer : Inbound callerTuple.mirror where
  bytes := serverHeader 40 7 2 0x12
  first := rfl
  fragOff := by decide
  moreFragments := by decide
  protocol := rfl
  saddr := by decide
  daddr := by decide
  source := by decide
  dest := by decide
  size := by decide
  header := by decide

def serverByte : Inbound callerTuple.mirror where
  bytes := serverHeader 41 8 2 0x10 ++ [111]
  first := rfl
  fragOff := by decide
  moreFragments := by decide
  protocol := rfl
  saddr := by decide
  daddr := by decide
  source := by decide
  dest := by decide
  size := by decide
  header := by decide

def callerStack : Stack Unit where
  groups := []
  udpPcbs := []
  tcpPcbs := [()]
  socks := fun _ => none

theorem callerStack_alone : callerStack.Alone () callerTuple := by
  decide

def callerStart : Conversation Unit callerTuple :=
  start callerStack () (Endpoint.create false) caller 0x400 0 0x0200a8c0
    0x5000 7

/-- The server sends its byte before the client has its answer. -/
def greeting : List (Act Unit callerTuple) :=
  [.toServer, .emit serverAnswer, .emit serverByte,
    .toClient (SockaddrIn.inet 0 0) 1, .send 0x401 2 [104, 105]]

def dialogue : List (Act Unit callerTuple) :=
  greeting ++ [.toClient (SockaddrIn.inet 0 0) 3, .toServer, .toServer,
    .toServer]

theorem streams_agree_dialogue :
    exists c, run (step ()) callerStart dialogue = some c ∧
      (c.server.received, c.handed) = ([104, 105], [111]) ∧ c.Agreement := by
  have hruns : (run (step ()) callerStart dialogue).map
      (fun c => (c.server.received, c.handed)) =
        some ([104, 105], [111]) := by
    decide +kernel
  rcases Option.map_eq_some_iff.1 hruns with ⟨c, hrun, hstreams⟩
  exact ⟨c, hrun, hstreams, streams_agree rfl (by decide) callerStack_alone
    hrun⟩

theorem deliveries_complete_greeting :
    exists c, run (step ()) callerStart greeting = some c ∧
      (c.taken, c.server.written) = ([104, 105], [111]) ∧
      exists c', Delivers () c c' ∧ c'.toServer = [] ∧ c'.toClient = [] ∧
        c'.server.received = c.taken ∧ c'.handed = c.server.written := by
  have hruns : (run (step ()) callerStart greeting).map
      (fun c => (c.taken, c.server.written)) = some ([104, 105], [111]) := by
    decide +kernel
  rcases Option.map_eq_some_iff.1 hruns with ⟨c, hrun, hstreams⟩
  exact ⟨c, hrun, hstreams, deliveries_complete rfl (by decide)
    callerStack_alone hrun⟩

end Conversation

end Velox
