import Velox.Network.Agreement
import Velox.Network.Mailboxes

/-!
# What the program reads

The program above the socket of a conversation calls `recvfrom`; it is answered
at once, or later by the callback of the endpoint.  A segment is acknowledged
even if the queue of the endpoint is over its limit and refuses it, so the
answers are the stream of the server exactly as long as that does not happen.
-/

namespace Velox

open Foundation

def Endpoint.unread (so : Endpoint) : Bytes :=
  so.recvQ.flatMap fun packet => drainSkbufChain packet.skbuf.frames

def Response.bytes (resp : Option Response) : Bytes :=
  (resp.bind Response.packetData).getD []

/-- A conversation with the bytes that the program has been answered, and
those that the queue has refused. -/
structure Reading (ρ : Type) (t : Session) extends Conversation ρ t where
  answers : Bytes
  lost : Bytes

def Stack.unread {ρ : Type} (st : Stack ρ) (r : ρ) : Bytes :=
  ((st.socks r).map fun sock => sock.so.unread).getD []

def Stack.full {ρ : Type} (st : Stack ρ) (r : ρ) : Bool :=
  (st.socks r).any fun sock => sock.so.recvQOverLimit

namespace Reading

variable {ρ : Type} {t : Session}

/-- The steps of the conversation, the requests of the program, and the event
loop that finds the notify pipe readable. -/
inductive Act (ρ : Type) (t : Session) where
  | talk (a : Conversation.Act ρ t)
  | recvfromCall (requireAddr : Bool)
  | notify

def Act.isDrain : Act ρ t -> Bool
  | .talk a => a.isDelivery
  | .recvfromCall _ => true
  | .notify => true

/-- The rest of the daemon leaves the endpoint of the socket to the program. -/
def KeepsEndpoint (r : ρ) (st : Stack ρ) : Conversation.Act ρ t -> Prop
  | .others st' => (st'.socks r).map Sock.so = (st.socks r).map Sock.so
  | _ => True

instance (r : ρ) (st : Stack ρ) :
    (a : Conversation.Act ρ t) -> Decidable (KeepsEndpoint r st a)
  | .others _ => inferInstanceAs (Decidable (_ = _))
  | .send _ _ _ => isTrue trivial
  | .emit _ => isTrue trivial
  | .toServer => isTrue trivial
  | .toClient _ _ => isTrue trivial

variable [DecidableEq ρ]

def answer (x : Reading ρ t) (r : ρ) (sock : Sock) (resp : Option Response) :
    Reading ρ t :=
  { x with
    stack := x.stack.put r sock
    answers := x.answers ++ Response.bytes resp }

def step (r : ρ) (x : Reading ρ t) : Act ρ t -> Option (Reading ρ t)
  | .talk a =>
      if KeepsEndpoint r x.stack a then
        (x.toConversation.step r a).map fun c =>
          { toConversation := c
            answers := x.answers
            lost := x.lost ++
              if x.stack.full r then c.handed.drop x.handed.length else [] }
      else none
  | .recvfromCall requireAddr =>
      (x.stack.socks r).map fun sock =>
        x.answer r (RpcDispatch.recvfromCall sock requireAddr).1
          (some (RpcDispatch.recvfromCall sock requireAddr).2)
  | .notify =>
      (x.stack.socks r).bind fun sock =>
        (RpcDispatch.sChannelReadCb sock.so).map fun handled =>
          x.answer r { sock with so := handled.1 } handled.2

end Reading

/-!
## Reads
-/

namespace RpcDispatch

theorem unread_of_tryTake {so so' : Endpoint} {packet : Packet}
    (h : so.tryTakeFromRecvQ = some (packet, so')) :
    so.unread = drainSkbufChain packet.skbuf.frames ++ so'.unread := by
  unfold Endpoint.tryTakeFromRecvQ at h
  cases hq : so.recvQ with
  | nil =>
      rw [hq] at h
      cases h
  | cons head rest =>
      rw [hq] at h
      cases h
      rw [Endpoint.unread, hq]
      rfl

theorem recvfromCall_unread (sock : Sock) (requireAddr : Bool) :
    Response.bytes (some (recvfromCall sock requireAddr).2) ++
      (recvfromCall sock requireAddr).1.so.unread = sock.so.unread := by
  unfold recvfromCall
  cases htake : sock.so.tryTakeFromRecvQ with
  | none =>
      dsimp only
      split
      · rfl
      · rfl
  | some taken =>
      rw [unread_of_tryTake htake]
      rfl

theorem sChannelReadCb_unread {so : Endpoint}
    {handled : Endpoint × Option Response}
    (h : sChannelReadCb so = some handled) :
    Response.bytes handled.2 ++ handled.1.unread = so.unread := by
  unfold sChannelReadCb at h
  split at h
  case isFalse =>
    cases h
    rfl
  case isTrue =>
    cases hcb : so.onAsyncNewPacket with
    | none =>
        rw [hcb] at h
        cases h
        rfl
    | some cb =>
        cases htake : so.tryTakeFromRecvQ with
        | none =>
            rw [hcb, htake] at h
            cases h
        | some taken =>
            rw [hcb, htake] at h
            cases h
            rw [unread_of_tryTake htake]
            cases cb with
            | udp requireAddr => rfl
            | tcp => rfl

end RpcDispatch

/-!
## Arrivals
-/

/-- A packet whose bytes are handed on is queued, unless the queue is over its
limit. -/
theorem TcpSession.recv_unread (s : TcpSession) (uninit : SockaddrIn)
    (skbuf : Skbuf) (so : Endpoint) :
    ((s.recv uninit skbuf).2.foldl Endpoint.apply so).unread =
      so.unread ++ if so.recvQOverLimit then [] else
        handedBytes (s.recv uninit skbuf).2 := by
  have hcase := s.recv_cases uninit skbuf
  generalize s.recv uninit skbuf = result at hcase ⊢
  have hnothing : so.unread =
      so.unread ++ if so.recvQOverLimit then [] else [] := by
    rw [ite_self, List.append_nil]
  cases hcase with
  | syn _ => exact hnothing
  | empty _ _ => exact hnothing
  | other _ _ => exact hnothing
  | data _ _ =>
      show (so.putToRecvQ ⟨uninit, stripHead skbuf⟩).unread = _
      rw [Endpoint.putToRecvQ]
      cases so.recvQOverLimit with
      | true => exact (List.append_nil _).symm
      | false =>
          show (so.recvQ ++ [_]).flatMap _ = _
          rw [List.flatMap_append]
          rfl

namespace Stack

variable {ρ : Type} {st : Stack ρ} {r : ρ}

theorem unread_of_sock {sock : Sock} (h : st.socks r = some sock) :
    st.unread r = sock.so.unread := by
  rw [unread, h]
  rfl

theorem full_of_sock {sock : Sock} (h : st.socks r = some sock) :
    st.full r = sock.so.recvQOverLimit := by
  rw [full, h]
  rfl

theorem unread_congr {st' : Stack ρ}
    (h : (st'.socks r).map Sock.so = (st.socks r).map Sock.so) :
    st'.unread r = st.unread r := by
  have hmap : forall st : Stack ρ, st.unread r =
      (((st.socks r).map Sock.so).map Endpoint.unread).getD [] := by
    intro st
    rw [Option.map_map]
    rfl
  rw [hmap, hmap, h]

end Stack

/-!
## Whole readings
-/

namespace Reading

variable {ρ : Type} {t : Session} {r : ρ}

/-- The bytes handed to the endpoint have been answered, wait in the queue or
are lost. -/
structure Invariant (r : ρ) (x : Reading ρ t) : Prop where
  talk : x.toConversation.Invariant r
  count : x.handed.length =
    (x.answers ++ x.stack.unread r).length + x.lost.length
  exact : x.lost = [] -> x.handed = x.answers ++ x.stack.unread r

/-- Nothing is lost exactly if the answers, the queue and the line make up the
stream of the server. -/
theorem Invariant.lost_iff {x : Reading ρ t} (h : x.Invariant r) :
    x.lost = [] <-> x.server.written = x.answers ++ x.stack.unread r ++
      x.toClient.flatMap fun p => p.segment.payload := by
  have hincoming := h.talk.agreement.incoming
  rw [hincoming]
  constructor
  · intro hlost
    rw [h.exact hlost]
  · intro heq
    have hhanded := List.append_cancel_right heq
    have hcount := h.count
    rw [hhanded] at hcount
    apply List.eq_nil_of_length_eq_zero
    omega

variable [DecidableEq ρ]

theorem talk_unread {c c' : Conversation ρ t} {a : Conversation.Act ρ t}
    (h : c.Invariant r) (hkeep : KeepsEndpoint r c.stack a)
    (hstep : c.step r a = some c') :
    exists new, c'.handed = c.handed ++ new ∧ c'.stack.unread r =
      c.stack.unread r ++ if c.stack.full r then [] else new := by
  rcases h.client with ⟨so, s, hsock, _⟩
  -- Only a packet for the client hands on anything.
  have hquiet : c'.handed = c.handed ->
      (c'.stack.socks r).map Sock.so = (c.stack.socks r).map Sock.so ->
      exists new, c'.handed = c.handed ++ new ∧ c'.stack.unread r =
        c.stack.unread r ++ if c.stack.full r then [] else new := by
    intro hhanded hso
    refine ⟨[], ?_, ?_⟩
    · rw [hhanded, List.append_nil]
    · rw [Stack.unread_congr hso, ite_self, List.append_nil]
  cases a with
  | send port last buf =>
      simp only [Conversation.step, Conversation.clientSend, hsock] at hstep
      split at hstep
      case isFalse => cases hstep
      case isTrue =>
        cases hstep
        refine hquiet rfl ?_
        rw [hsock, Conversation.put_self]
        rfl
  | emit p =>
      rcases Option.map_eq_some_iff.1 hstep with ⟨srv, _, rfl⟩
      exact hquiet rfl rfl
  | toServer =>
      simp only [Conversation.step] at hstep
      split at hstep
      · cases hstep
      · cases hstep
        exact hquiet rfl rfl
  | others st =>
      simp only [Conversation.step] at hstep
      split at hstep
      case isFalse => cases hstep
      case isTrue =>
        cases hstep
        exact hquiet rfl hkeep
  | toClient uninit last =>
      cases hin : c.toClient with
      | nil =>
          simp only [Conversation.step, hin] at hstep
          cases hstep
      | cons p rest =>
          cases (h.recv hsock hin uninit last).1.symm.trans hstep
          have hsock' : (c.afterPacket r so s p rest uninit last).stack.socks
              r = some _ := Conversation.put_self _ _ _
          refine ⟨_, rfl, ?_⟩
          rw [Stack.unread_of_sock hsock', Stack.unread_of_sock hsock,
            Stack.full_of_sock hsock]
          exact s.recv_unread uninit p.skbuf so

namespace Invariant

variable {x x' : Reading ρ t}

theorem talks (h : x.Invariant r) (hbound : t.lport ≠ 0)
    {a : Conversation.Act ρ t}
    (hstep : x.step r (.talk a) = some x') : x'.Invariant r := by
  simp only [Reading.step] at hstep
  split at hstep
  case isFalse => cases hstep
  case isTrue hkeep =>
    rcases Option.map_eq_some_iff.1 hstep with ⟨c, hc, rfl⟩
    rcases talk_unread h.talk hkeep hc with ⟨new, hhanded, hunread⟩
    have hnew : c.handed.drop x.handed.length = new := by
      rw [hhanded]
      exact List.drop_left
    refine ⟨h.talk.step hbound hc, ?_, ?_⟩
    · dsimp only
      rw [hnew, hhanded, hunread]
      have hcount := h.count
      cases x.stack.full r with
      | true =>
          simp only [List.length_append, if_pos, List.length_nil] at hcount ⊢
          omega
      | false =>
          simp only [List.length_append, Bool.false_eq_true, if_false,
            List.length_nil] at hcount ⊢
          omega
    · dsimp only
      rw [hnew, hhanded, hunread]
      intro hlost
      rcases List.append_eq_nil_iff.1 hlost with ⟨hbefore, hnow⟩
      rw [h.exact hbefore]
      cases hfull : x.stack.full r with
      | true =>
          rw [hfull] at hnow
          rw [show new = [] from hnow]
          exact List.append_assoc _ _ _
      | false => exact List.append_assoc _ _ _

theorem answers (h : x.Invariant r) {old sock : Sock}
    {resp : Option Response} (hold : x.stack.socks r = some old)
    (hpcb : sock.pcb = old.pcb)
    (hunread : Response.bytes resp ++ sock.so.unread = old.so.unread) :
    (x.answer r sock resp).Invariant r := by
  have hspares : Conversation.Spares r x.stack (x.stack.put r sock) := by
    rw [Conversation.Spares, Conversation.put_self, hold]
    show some sock.pcb.setOnConnEstabCB = some old.pcb.setOnConnEstabCB
    rw [hpcb]
  have hqueue : x.answers ++ x.stack.unread r =
      (x.answer r sock resp).answers ++
        (x.answer r sock resp).stack.unread r := by
    show _ = x.answers ++ Response.bytes resp ++
      (x.stack.put r sock).unread r
    rw [Stack.unread_of_sock hold,
      Stack.unread_of_sock (Conversation.put_self _ _ _), List.append_assoc,
      hunread]
  refine ⟨h.talk.others hspares (Conversation.alone_put h.talk.alone sock),
    ?_, ?_⟩
  · rw [← hqueue]
    exact h.count
  · rw [← hqueue]
    exact h.exact

theorem step (h : x.Invariant r) (hbound : t.lport ≠ 0) {a : Act ρ t}
    (hstep : x.step r a = some x') : x'.Invariant r := by
  cases a with
  | talk a => exact h.talks hbound hstep
  | recvfromCall requireAddr =>
      rcases Option.map_eq_some_iff.1 hstep with ⟨sock, hsock, rfl⟩
      exact h.answers hsock (RpcDispatch.recvfromCall_pcb sock requireAddr)
        (RpcDispatch.recvfromCall_unread sock requireAddr)
  | notify =>
      rcases Option.bind_eq_some_iff.1 hstep with ⟨sock, hsock, hread⟩
      rcases Option.map_eq_some_iff.1 hread with ⟨handled, hhandled, rfl⟩
      exact h.answers hsock rfl (RpcDispatch.sChannelReadCb_unread hhandled)

end Invariant

/-!
### Deliveries and reads
-/

/-- Deliveries and reads lead from the one to the other; the server has not
written anything more and nothing more is lost. -/
structure Drains (r : ρ) (x x' : Reading ρ t) : Prop where
  lost : x'.lost = x.lost
  written : x'.server.written = x.server.written
  leads : Leads (step r) (fun a => a.isDrain = true) x x'

theorem Drains.trans {x mid x' : Reading ρ t} (h : Drains r x mid)
    (h' : Drains r mid x') : Drains r x x' :=
  ⟨h'.lost.trans h.lost, h'.written.trans h.written, h.leads.trans h'.leads⟩

theorem Invariant.empties_queue {x : Reading ρ t} (h : x.Invariant r)
    {sock : Sock} (hsock : x.stack.socks r = some sock) :
    exists x' sock', Drains r x x' ∧ x'.Invariant r ∧
      x'.toClient = x.toClient ∧ x'.stack.socks r = some sock' ∧
      sock'.so.recvQ = [] := by
  generalize hq : sock.so.recvQ = q
  induction q generalizing x sock with
  | nil => exact ⟨x, sock, ⟨rfl, rfl, .refl x⟩, h, rfl, hsock, hq⟩
  | cons packet rest ih =>
      have hunread := RpcDispatch.recvfromCall_unread sock false
      have hstep : x.step r (.recvfromCall false) = some (x.answer r
          (RpcDispatch.recvfromCall sock false).1
          (some (RpcDispatch.recvfromCall sock false).2)) := by
        rw [Reading.step, hsock]
        rfl
      rw [RpcDispatch.recvfromCall_cons hq] at hstep hunread
      have hread : (x.answer r
          { sock with so := { sock.so with recvQ := rest } }
          (some (RpcDispatch.recvfromPacket false packet))).Invariant r :=
        h.answers hsock rfl hunread
      rcases ih hread (Conversation.put_self _ _ _) rfl with
        ⟨x', sock', hdrains, hinv, hin, hsock', hempty⟩
      exact ⟨x', sock', ⟨hdrains.lost, hdrains.written,
        hdrains.leads.cons rfl hstep⟩, hinv, hin, hsock', hempty⟩

theorem Invariant.delivers {x : Reading ρ t} (h : x.Invariant r)
    (hbound : t.lport ≠ 0) {sock : Sock}
    (hsock : x.stack.socks r = some sock) (hempty : sock.so.recvQ = [])
    {p : Inbound t.mirror} {rest : List (Inbound t.mirror)}
    (hin : x.toClient = p :: rest) :
    exists x' sock', Drains r x x' ∧ x'.Invariant r ∧ x'.toClient = rest ∧
      x'.stack.socks r = some sock' := by
  rcases h.talk.client with ⟨so, s, hclient, _⟩
  cases hsock.symm.trans hclient
  have hroom : x.stack.full r = false := by
    rw [Stack.full_of_sock hsock, Endpoint.recvQOverLimit, hempty]
    rfl
  have hnext := (h.talk.recv hsock hin (SockaddrIn.inet 0 0) 0).1
  have hkeep : KeepsEndpoint r x.stack (t := t)
      (.toClient (SockaddrIn.inet 0 0) 0) := trivial
  have hstep : x.step r (.talk (.toClient (SockaddrIn.inet 0 0) 0)) =
      some ⟨x.afterPacket r so s p rest (SockaddrIn.inet 0 0) 0, x.answers,
        x.lost ++ []⟩ := by
    rw [Reading.step, if_pos hkeep, hnext, hroom]
    rfl
  exact ⟨⟨x.afterPacket r so s p rest (SockaddrIn.inet 0 0) 0, x.answers,
    x.lost ++ []⟩, _, ⟨List.append_nil _, rfl, .cons rfl hstep (.refl _)⟩,
    h.step hbound hstep, rfl, Conversation.put_self _ _ _⟩

theorem Invariant.drains {x : Reading ρ t} (h : x.Invariant r)
    (hbound : t.lport ≠ 0) :
    exists x', Drains r x x' ∧ x'.Invariant r ∧ x'.toClient = [] ∧
      x'.stack.unread r = [] := by
  generalize hline : x.toClient = line
  induction line generalizing x with
  | nil =>
      rcases h.talk.client with ⟨so, s, hsock, _⟩
      rcases h.empties_queue hsock with
        ⟨x', sock', hdrains, hinv, hin, hsock', hempty⟩
      refine ⟨x', hdrains, hinv, hin.trans hline, ?_⟩
      rw [Stack.unread_of_sock hsock', Endpoint.unread, hempty]
      rfl
  | cons p rest ih =>
      rcases h.talk.client with ⟨so, s, hsock, _⟩
      rcases h.empties_queue hsock with
        ⟨mid, sock, hreads, hmid, hkeep, hsock', hempty⟩
      rcases hmid.delivers hbound hsock' hempty (hkeep.trans hline) with
        ⟨next, _, harrives, hnext, hrest, _⟩
      rcases ih hnext hrest with ⟨x', hdrains, hinv, hdone⟩
      exact ⟨x', (hreads.trans harrives).trans hdrains, hinv, hdone⟩

def start (st : Stack ρ) (r : ρ) (so : Endpoint) (s : TcpSession)
    (port last : UInt16) (faddr : UInt32) (fport : UInt16) (iss : UInt32) :
    Reading ρ (s.connect port faddr fport).session.toSession where
  toConversation := Conversation.start st r so s port last faddr fport iss
  answers := []
  lost := []

section Runs

variable {st : Stack ρ} {so : Endpoint} {s : TcpSession} {port last : UInt16}
  {faddr : UInt32} {fport : UInt16} {iss : UInt32}
  {x : Reading ρ (s.connect port faddr fport).session.toSession}
  {acts : List (Act ρ (s.connect port faddr fport).session.toSession)}

theorem run_invariant (hclosed : s.connState = .closed)
    (hbound : (s.connect port faddr fport).session.lport ≠ 0)
    (halone : st.Alone r (s.connect port faddr fport).session.toSession)
    (hempty : so.recvQ = [])
    (hrun : run (step r) (start st r so s port last faddr fport iss) acts =
      some x) : x.Invariant r := by
  have hsock : (start st r so s port last faddr fport iss).stack.socks r =
      some _ := Conversation.put_self _ _ _
  have hunread : (start st r so s port last faddr fport iss).stack.unread r =
      [] := by
    rw [Stack.unread_of_sock hsock, Endpoint.unread, hempty]
    rfl
  refine Foundation.run_invariant
    (fun _ _ _ h hstep => Invariant.step h hbound hstep) ?_ hrun
  refine ⟨Conversation.start_invariant hclosed halone, ?_, fun _ => ?_⟩
  · rw [hunread]
    rfl
  · rw [hunread]
    rfl

/-- The answers to the program, what waits in the queue and what is on its way
are the stream of the server exactly if no packet has found the queue over its
limit. -/
theorem reads_stream_iff (hclosed : s.connState = .closed)
    (hbound : (s.connect port faddr fport).session.lport ≠ 0)
    (halone : st.Alone r (s.connect port faddr fport).session.toSession)
    (hempty : so.recvQ = [])
    (hrun : run (step r) (start st r so s port last faddr fport iss) acts =
      some x) :
    x.lost = [] <-> x.server.written = x.answers ++ x.stack.unread r ++
      x.toClient.flatMap fun p => p.segment.payload :=
  (run_invariant hclosed hbound halone hempty hrun).lost_iff

/-- As long as nothing is lost, deliveries and reads can give the program all
that the server has written. -/
theorem reads_complete (hclosed : s.connState = .closed)
    (hbound : (s.connect port faddr fport).session.lport ≠ 0)
    (halone : st.Alone r (s.connect port faddr fport).session.toSession)
    (hempty : so.recvQ = [])
    (hrun : run (step r) (start st r so s port last faddr fport iss) acts =
      some x) (hlost : x.lost = []) :
    exists x', Drains r x x' ∧ x'.answers = x.server.written := by
  rcases (run_invariant hclosed hbound halone hempty hrun).drains hbound with
    ⟨x', hdrains, hinv, hin, hunread⟩
  refine ⟨x', hdrains, ?_⟩
  rw [← hdrains.written, hinv.lost_iff.1 (hdrains.lost.trans hlost), hin,
    hunread, List.flatMap_nil, List.append_nil, List.append_nil]

end Runs

def callerReading : Reading Unit Conversation.callerTuple :=
  start Conversation.callerStack () (Endpoint.create false)
    Conversation.caller 0x400 0 0x0200a8c0 0x5000 7

def greetingActs : List (Act Unit Conversation.callerTuple) :=
  Conversation.greeting.map .talk

/-- The program asks before the byte of the server is there. -/
def readingActs : List (Act Unit Conversation.callerTuple) :=
  greetingActs ++ [.recvfromCall false,
    .talk (.toClient (SockaddrIn.inet 0 0) 3), .notify]

theorem reads_stream_iff_dialogue :
    exists x, run (step ()) callerReading readingActs = some x ∧
      (x.answers, x.lost) = ([111], []) ∧
      (x.lost = [] <-> x.server.written = x.answers ++ x.stack.unread () ++
        x.toClient.flatMap fun p => p.segment.payload) := by
  have hruns : (run (step ()) callerReading readingActs).map
      (fun x => (x.answers, x.lost)) = some ([111], []) := by
    decide +kernel
  rcases Option.map_eq_some_iff.1 hruns with ⟨x, hrun, hread⟩
  exact ⟨x, hrun, hread, reads_stream_iff rfl (by decide)
    Conversation.callerStack_alone rfl hrun⟩

theorem reads_complete_greeting :
    exists x, run (step ()) callerReading greetingActs = some x ∧
      (x.answers, x.server.written) = ([], [111]) ∧ x.lost = [] ∧
      exists x', Drains () x x' ∧ x'.answers = x.server.written := by
  have hruns : (run (step ()) callerReading greetingActs).map
      (fun x => ((x.answers, x.server.written), x.lost)) =
        some (([], [111]), []) := by
    decide +kernel
  rcases Option.map_eq_some_iff.1 hruns with ⟨x, hrun, hstate⟩
  rcases Prod.mk.inj hstate with ⟨hbytes, hlost⟩
  exact ⟨x, hrun, hbytes, hlost, reads_complete rfl (by decide)
    Conversation.callerStack_alone rfl hrun hlost⟩

end Reading

end Velox
