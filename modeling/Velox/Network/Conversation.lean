import Velox.Foundation.Line
import Velox.Network.Segments

/-!
# A conversation with a server

A socket of the daemon has called `connect`, and a server answers it over a
network that neither loses packets nor changes their order.  The server sends
each byte of its stream once and in order: it does not retransmit, sends neither
FIN nor RST, and takes whatever has the number it expects, without a window.
Its packets are no fragments, have no IP options and fit into a frame.  Within
these limits both sides send whenever they like, packets stay on the way for
any time, and the other sockets of the daemon do what they like.  Calls on the
session do not overlap, and there is no second `connect` and no close.  The
rules for the two lines say what is on its way at any time.
-/

namespace Velox

open Foundation

/-!
## The server
-/

inductive ServerPhase where
  | listen
  | synReceived
  | answered
  deriving DecidableEq

/-- One connection of the server: its initial number and the client's, the
last number the client has acknowledged, and the two streams; `refused` counts
the packets it has not accepted. -/
structure Server where
  phase : ServerPhase
  iss : UInt32
  irs : UInt32
  acked : UInt32
  written : Bytes
  received : Bytes
  refused : Nat

namespace Server

def listening (iss : UInt32) : Server where
  phase := .listen
  iss := iss
  irs := 0
  acked := iss
  written := []
  received := []
  refused := 0

def sndNxt (srv : Server) : UInt32 :=
  srv.iss + 1 + UInt32.ofNat srv.written.length

def rcvNxt (srv : Server) : UInt32 :=
  srv.irs + 1 + UInt32.ofNat srv.received.length

def refuse (srv : Server) : Server :=
  { srv with refused := srv.refused + 1 }

/-- A packet arrives from the client `t`.  There is room for any payload with
the number that is expected. -/
def receive (t : Session) (srv : Server) (pkt : Bytes) : Server :=
  match srv.phase with
  | .listen =>
      if Verified t pkt ∧ (segmentOf pkt).syn = true ∧
          (segmentOf pkt).ack = false then
        { srv with phase := .synReceived, irs := (segmentOf pkt).seq }
      else srv.refuse
  | .synReceived => srv.refuse
  | .answered =>
      if Verified t pkt ∧ (segmentOf pkt).syn = false ∧
          (segmentOf pkt).ack = true ∧ (segmentOf pkt).seq = srv.rcvNxt then
        { srv with
          received := srv.received ++ (segmentOf pkt).payload
          acked := (segmentOf pkt).ackSeq }
      else srv.refuse

theorem receive_written (t : Session) (srv : Server) (pkt : Bytes) :
    (srv.receive t pkt).written = srv.written := by
  unfold receive
  split
  · split <;> rfl
  · rfl
  · split <;> rfl

/-- The server transmits the answer to the SYN once, and then the next pieces
of its stream and acknowledgements.  It sends nothing twice. -/
def emit (srv : Server) (seg : Seg) : Option Server :=
  match srv.phase with
  | .listen => none
  | .synReceived =>
      if seg = ⟨true, true, srv.iss, srv.rcvNxt, []⟩ then
        some { srv with phase := .answered }
      else none
  | .answered =>
      if seg.syn = false ∧ seg.ack = true ∧ seg.seq = srv.sndNxt ∧
          seg.ackSeq = srv.rcvNxt then
        some { srv with written := srv.written ++ seg.payload }
      else none

end Server

/-!
## The conversation
-/

/-- The server, the packets on the way in either direction, the bytes that
`send` has reported as taken, those passed to `putToRecvQ`, whether it queues
them or not, and whether an assertion has failed. -/
structure Exchange (t : Session) where
  server : Server
  toServer : List Bytes
  toClient : List (Inbound t.mirror)
  taken : Bytes
  handed : Bytes
  failed : Bool

structure Conversation (ρ : Type) (t : Session) extends Exchange t where
  stack : Stack ρ

/-- The socket is in the list of `Tcp`, and no other there has the session. -/
def Stack.Alone {ρ : Type} (st : Stack ρ) (r : ρ) (t : Session) : Prop :=
  r ∈ st.tcpPcbs ∧
    forall it, it ∈ st.tcpPcbs -> it ≠ r -> st.lock it ≠ some t

instance {ρ : Type} [DecidableEq ρ] (st : Stack ρ) (r : ρ) (t : Session) :
    Decidable (st.Alone r t) :=
  inferInstanceAs (Decidable (_ ∧ _))

def Stack.put {ρ : Type} [DecidableEq ρ] (st : Stack ρ) (r : ρ)
    (sock : Sock) : Stack ρ :=
  { st with socks := Function.update st.socks r (some sock) }

namespace Conversation

variable {ρ : Type} {t : Session}

/-- What can happen.  Ports and identifications are handed out to other
sockets as well, so `send` and `toClient` get the state of their counters. -/
inductive Act (ρ : Type) (t : Session) where
  | send (port last : UInt16) (buf : Bytes)
  | emit (p : Inbound t.mirror)
  | toServer
  | toClient (uninit : SockaddrIn) (last : UInt16)
  | others (stack : Stack ρ)

def Act.isDelivery : Act ρ t -> Bool
  | .toServer => true
  | .toClient _ _ => true
  | _ => false

/-- The daemon does something else: the session of the socket stays, but its
callback may be set and its queue be read. -/
def Spares (r : ρ) (st st' : Stack ρ) : Prop :=
  (st'.socks r).map (fun sock => sock.pcb.setOnConnEstabCB) =
    (st.socks r).map fun sock => sock.pcb.setOnConnEstabCB

instance (r : ρ) (st st' : Stack ρ) : Decidable (Spares r st st') :=
  inferInstanceAs (Decidable (_ = _))

variable [DecidableEq ρ]

/-- A call of `send` whose buffer fits into a packet. -/
def clientSend (r : ρ) (c : Conversation ρ t) (port last : UInt16)
    (buf : Bytes) : Option (Conversation ρ t) :=
  match c.stack.socks r with
  | some ⟨so, .tcp s⟩ =>
      if buf.length <= 1460 then
        let sent := s.send port buf
        some
          { c with
            stack := c.stack.put r ⟨so, .tcp sent.session⟩
            toServer := c.toServer ++ transmitted last sent.effects
            taken := c.taken ++ buf.take sent.ret.toInt.toNat }
      else none
  | _ => none

def step (r : ρ) (c : Conversation ρ t) :
    Act ρ t -> Option (Conversation ρ t)
  | .send port last buf => c.clientSend r port last buf
  | .emit p =>
      (c.server.emit p.segment).map fun srv =>
        { c with server := srv, toClient := c.toClient ++ [p] }
  | .toServer =>
      match c.toServer with
      | [] => none
      | pkt :: rest =>
          some { c with server := c.server.receive t pkt, toServer := rest }
  | .toClient uninit last =>
      match c.toClient with
      | [] => none
      | p :: rest =>
          (Ip.rx c.stack uninit p.bytes).map fun result =>
            { c with
              stack := result.1
              toClient := rest
              toServer := c.toServer ++ transmitted last result.2
              handed := c.handed ++ TcpSession.handedBytes result.2
              failed := c.failed || decide (.assertion false ∈ result.2) }
  | .others stack =>
      if Spares r c.stack stack ∧ stack.Alone r t then
        some { c with stack := stack }
      else none

end Conversation

/-!
## The two lines
-/

/-- Packets as pieces of a stream, numbered modulo `2 ^ 32`. -/
def wireNumbering : Numbering Bytes UInt32 UInt8 where
  number pkt := (segmentOf pkt).seq
  content pkt := (segmentOf pkt).payload
  advance n k := n + UInt32.ofNat k
  advance_zero n := UInt32.add_zero n
  advance_add n a b := by rw [UInt32.ofNat_add, UInt32.add_assoc]

/-- The line from the client to a server that has answered: it holds what the
server lacks of the bytes taken, the next number is `next`, and `ack` has been
acknowledged, or will be by the packets on the line. -/
structure Outgoing (t : Session) (srv : Server) (line : List Bytes)
    (taken : Bytes) (next ack : UInt32) : Prop where
  phase : srv.phase = .answered
  irs : srv.irs = TcpSession.iss
  next_eq : next = wireNumbering.advance (TcpSession.iss + 1) taken.length
  acceptable : forall pkt, pkt ∈ line -> Verified t pkt ∧
    (segmentOf pkt).syn = false ∧ (segmentOf pkt).ack = true
  flight : wireNumbering.InFlight (TcpSession.iss + 1) taken srv.received line
  acked : (line.map fun pkt => (segmentOf pkt).ackSeq).getLastD srv.acked = ack

/-- The line from the server: it holds what the endpoint lacks of the bytes
that the server has written, and `next` is the number it expects. -/
structure Incoming {t : Session} (srv : Server) (line : List (Inbound t))
    (handed : Bytes) (next : UInt32) : Prop where
  next_eq : next = wireNumbering.advance (srv.iss + 1) handed.length
  flight : wireNumbering.InFlight (srv.iss + 1) srv.written handed
    (line.map Inbound.bytes)

namespace Outgoing

variable {t : Session} {srv : Server} {line : List Bytes} {taken : Bytes}
  {next ack : UInt32} {pkt : Bytes}

theorem start (hphase : srv.phase = .answered)
    (hirs : srv.irs = TcpSession.iss) (hreceived : srv.received = []) :
    Outgoing t srv [] [] (TcpSession.iss + 1) srv.acked where
  phase := hphase
  irs := hirs
  next_eq := (wireNumbering.advance_zero _).symm
  acceptable := List.forall_mem_nil _
  flight := by
    rw [hreceived]
    exact .empty
  acked := rfl

theorem push (h : Outgoing t srv line taken next ack) {ack' : UInt32}
    {payload : Bytes}
    (hpkt : Carries t ⟨false, true, next, ack', payload⟩ pkt) :
    Outgoing t srv (line ++ [pkt]) (taken ++ payload)
      (next + UInt32.ofNat payload.length) ack' where
  phase := h.phase
  irs := h.irs
  next_eq := by
    rw [h.next_eq, List.length_append, ← wireNumbering.advance_add]
    rfl
  acceptable := by
    intro q hq
    rcases List.mem_append.1 hq with hq | hq
    · exact h.acceptable q hq
    · cases List.mem_singleton.1 hq
      exact ⟨hpkt.verified, by rw [hpkt.segment], by rw [hpkt.segment]⟩
  flight := by
    have hnumber : wireNumbering.number pkt =
        wireNumbering.advance (TcpSession.iss + 1) taken.length := by
      show (segmentOf pkt).seq = _
      rw [hpkt.segment, h.next_eq]
    have hcontent : wireNumbering.content pkt = payload := by
      show (segmentOf pkt).payload = _
      rw [hpkt.segment]
    rw [← hcontent]
    exact h.flight.push hnumber
  acked := by
    rw [List.map_append, List.map_singleton, List.getLastD_concat,
      hpkt.segment]

theorem receive_eq (h : Outgoing t srv (pkt :: line) taken next ack) :
    srv.receive t pkt =
      { srv with
        received := srv.received ++ (segmentOf pkt).payload
        acked := (segmentOf pkt).ackSeq } := by
  rcases h.acceptable pkt List.mem_cons_self with ⟨hverified, hsyn, hack⟩
  have hseq : (segmentOf pkt).seq = srv.rcvNxt := by
    rw [Server.rcvNxt, h.irs]
    exact h.flight.number_eq
  unfold Server.receive
  rw [h.phase]
  exact if_pos ⟨hverified, hsyn, hack, hseq⟩

theorem pop (h : Outgoing t srv (pkt :: line) taken next ack) :
    Outgoing t (srv.receive t pkt) line taken next ack := by
  rw [h.receive_eq]
  exact
    { phase := h.phase
      irs := h.irs
      next_eq := h.next_eq
      acceptable := (List.forall_mem_cons.1 h.acceptable).2
      flight := h.flight.pop
      acked := by
        rw [← h.acked, List.map_cons, List.getLastD_cons] }

end Outgoing

namespace Incoming

variable {t : Session} {srv : Server} {line : List (Inbound t)}
  {handed : Bytes} {next : UInt32} {p : Inbound t}

theorem start (hwritten : srv.written = []) :
    Incoming srv ([] : List (Inbound t)) [] (srv.iss + 1) where
  next_eq := (wireNumbering.advance_zero _).symm
  flight := by
    rw [hwritten]
    exact .empty

theorem congr (h : Incoming srv line handed next) {srv' : Server}
    (hiss : srv'.iss = srv.iss) (hwritten : srv'.written = srv.written) :
    Incoming srv' line handed next where
  next_eq := by
    rw [hiss]
    exact h.next_eq
  flight := by
    rw [hiss, hwritten]
    exact h.flight

theorem push (h : Incoming srv line handed next)
    (hseq : p.segment.seq = srv.sndNxt) :
    Incoming { srv with written := srv.written ++ p.segment.payload }
      (line ++ [p]) handed next where
  next_eq := h.next_eq
  flight := by
    rw [List.map_append, List.map_singleton]
    exact h.flight.push hseq

theorem seq_eq (h : Incoming srv (p :: line) handed next) :
    p.segment.seq = next :=
  h.flight.number_eq.trans h.next_eq.symm

theorem pop (h : Incoming srv (p :: line) handed next) :
    Incoming srv line (handed ++ p.segment.payload)
      (next + UInt32.ofNat p.segment.payload.length) where
  next_eq := by
    rw [h.next_eq, List.length_append, ← wireNumbering.advance_add]
    rfl
  flight := h.flight.pop

end Incoming

end Velox
