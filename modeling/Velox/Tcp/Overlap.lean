import Velox.Tcp.Threads

/-!
# A session in the middle of its calls

A call of the event loop takes effect at one access: the store of `conn_state`
if it sends the SYN, the load of `recv_next` if it sends data, the test of
`conn_state` if it sends nothing.  A segment takes effect at the store of
`conn_state` or of `recv_next`, or where `recv` decides to do no more.  Between
these accesses the shared session differs from the session of the whole calls
only in members that the thread in question has written early; this module
says in which, and what each thread may assume of the other.
-/

namespace Velox

open Foundation

namespace TcpSession

/-!
## Whole calls by connection state
-/

namespace LoopCall

variable (call : LoopCall)

def connected (base : Session) : LoopCall -> Session × UInt16
  | .connect port faddr fport => base.connect port faddr fport
  | .send port _ => (base, port)

def bound (s : TcpSession) : TcpSession :=
  { s with
    toSession :=
      ((call.connected s.toSession).1.bind (call.connected s.toSession).2).1 }

inductive PerformCase (s : TcpSession) (result : SendResult TcpSession) :
    Prop where
  | syn (hstate : s.connState = .closed)
      (hsession : result.session =
        { call.bound s with
          sendUnack := iss
          sendNext := iss + 1
          connState := .synSent })
      (heffects : result.effects = [(call.bound s).synSegment call.buf])
      (hret : result.ret = call.returns (Int32.ofNat call.buf.length))
  | data (hstate : s.connState = .established)
      (hsession : result.session =
        { call.bound s with
          sendNext := s.sendNext + UInt32.ofNat call.buf.length })
      (heffects : result.effects = [(call.bound s).dataSegment call.buf])
      (hret : result.ret = call.returns (Int32.ofNat call.buf.length))
  | other (hclosed : s.connState ≠ .closed)
      (hestab : s.connState ≠ .established)
      (hsession : result.session = call.bound s)
      (heffects : result.effects = [])
      (hret : result.ret = call.returns 0)

theorem perform_cases (s : TcpSession) :
    call.PerformCase s (call.perform s) := by
  cases call with
  | connect port faddr fport =>
      have hcase := send_cases
        { s with toSession := (s.toSession.connect port faddr fport).1 }
        (s.toSession.connect port faddr fport).2 []
      simp only [perform, TcpSession.connect]
      generalize TcpSession.send _ _ _ = result at hcase ⊢
      cases hcase with
      | syn hstate => exact .syn hstate rfl rfl rfl
      | data hstate => exact .data hstate rfl rfl rfl
      | other hclosed hestab => exact .other hclosed hestab rfl rfl rfl
  | send port buf =>
      have hcase := s.send_cases port buf
      simp only [perform]
      generalize s.send port buf = result at hcase ⊢
      cases hcase with
      | syn hstate => exact .syn hstate rfl rfl rfl
      | data hstate => exact .data hstate rfl rfl rfl
      | other hclosed hestab => exact .other hclosed hestab rfl rfl rfl

theorem perform_keeps (s : TcpSession) :
    (call.perform s).session.irs = s.irs ∧
      (call.perform s).session.recvNext = s.recvNext ∧
      (call.perform s).session.onConnEstabCB = s.onConnEstabCB := by
  cases call.perform_cases s with
  | syn _ hsession _ _ =>
      rw [hsession]
      exact ⟨rfl, rfl, rfl⟩
  | data _ hsession _ _ =>
      rw [hsession]
      exact ⟨rfl, rfl, rfl⟩
  | other _ _ hsession _ _ =>
      rw [hsession]
      exact ⟨rfl, rfl, rfl⟩

end LoopCall

/-!
## What a frame depends on
-/

theorem templ_congr {s t : TcpSession} (hlport : s.lport = t.lport)
    (hfport : s.fport = t.fport) :
    s.socketBufferOfTcpTempl = t.socketBufferOfTcpTempl := by
  simp only [socketBufferOfTcpTempl, hlport, hfport]

theorem prepareBeforeIpTx_congr {s t : TcpSession} (hladdr : s.laddr = t.laddr)
    (hfaddr : s.faddr = t.faddr) (f : FrameBuf) (buf : Bytes) :
    s.prepareBeforeIpTx f buf = t.prepareBeforeIpTx f buf := by
  simp only [prepareBeforeIpTx, fillPseudoHdr, hladdr, hfaddr]

theorem LoopCall.bound_congr (call : LoopCall) {s t : TcpSession}
    (h : s.toSession = t.toSession) :
    (call.bound s).toSession = (call.bound t).toSession := by
  simp only [LoopCall.bound, h]

/-!
## The event loop beside the whole calls
-/

namespace SendPoint

def effective : SendPoint -> Bool
  | .prepare _ | .tx _ | .leave _ => true
  | _ => false

def base (call : LoopCall) (s : TcpSession) : SendPoint -> Session
  | .bind _ => (call.connected s.toSession).1
  | .prepare _ | .tx _ | .leave _ => s.toSession
  | _ => (call.bound s).toSession

def next (call : LoopCall) (s : TcpSession) : SendPoint -> UInt32
  | .storeUnack _ | .synSeq _ | .synLoad _ | .synStore _ _ => iss
  | .storeState _ => iss + 1
  | .dataAck _ => s.sendNext + UInt32.ofNat call.buf.length
  | _ => s.sendNext

/-- `send_unack` of the shared session, if the packet thread leaves `unack`. -/
def unack (unack : UInt32) : SendPoint -> UInt32
  | .synSeq _ | .synLoad _ | .synStore _ _ | .storeState _ => iss
  | _ => unack

/-- The branch taken fits the connection state, and the local variables hold
what the whole call puts into its header. -/
def Agrees (call : LoopCall) (s : TcpSession) : SendPoint -> Prop
  | .bind port => port = (call.connected s.toSession).2
  | .switch f => f = (call.bound s).socketBufferOfTcpTempl
  | .storeIss f | .storeUnack f | .synSeq f =>
      s.connState = .closed ∧ f = (call.bound s).socketBufferOfTcpTempl
  | .synLoad f =>
      s.connState = .closed ∧
        f = TcpHdr.setSeq (call.bound s).socketBufferOfTcpTempl (ntohl iss)
  | .synStore f next =>
      s.connState = .closed ∧ next = iss + 1 ∧
        f = TcpHdr.setSeq (call.bound s).socketBufferOfTcpTempl (ntohl iss)
  | .storeState f => s.connState = .closed ∧ f = (call.bound s).synFrame
  | .dataSeq f =>
      s.connState = .established ∧ f = (call.bound s).socketBufferOfTcpTempl
  | .dataLoad f =>
      s.connState = .established ∧
        f = TcpHdr.setSeq (call.bound s).socketBufferOfTcpTempl
          (ntohl s.sendNext)
  | .dataStore f next =>
      s.connState = .established ∧
        next = s.sendNext + UInt32.ofNat call.buf.length ∧
        f = TcpHdr.setSeq (call.bound s).socketBufferOfTcpTempl
          (ntohl s.sendNext)
  | .dataAck f =>
      s.connState = .established ∧
        f = TcpHdr.setAck
          (TcpHdr.setSeq (call.bound s).socketBufferOfTcpTempl
            (ntohl s.sendNext))
  | .templ | .prepare _ | .tx _ | .leave _ => True

def unsent (call : LoopCall) (s : TcpSession) : SendPoint -> List Effect
  | .prepare f => [.tx (s.prepareBeforeIpTx f call.buf) call.buf]
  | .tx f => [.tx f call.buf]
  | _ => []

def unreturned (call : LoopCall) : SendPoint -> List Int32
  | .prepare _ | .tx _ => [call.returns (Int32.ofNat call.buf.length)]
  | .leave value => [call.returns value]
  | _ => []

end SendPoint

namespace CallState

/-- The call that has begun and not yet taken effect. -/
def pending : CallState -> List LoopCall
  | .idle => []
  | .storeFaddr port faddr fport | .storeFport port faddr fport
  | .connectBind port faddr fport => [.connect port faddr fport]
  | .sending call point => if point.effective then [] else [call]

def base (s : TcpSession) : CallState -> Session
  | .idle | .storeFaddr _ _ _ => s.toSession
  | .storeFport _ faddr _ => { s.toSession with faddr := faddr }
  | .connectBind _ faddr fport =>
      { s.toSession with faddr := faddr, fport := fport }
  | .sending call point => point.base call s

def next (s : TcpSession) : CallState -> UInt32
  | .sending call point => point.next call s
  | _ => s.sendNext

def unack (ev : CallState) (unack : UInt32) : UInt32 :=
  match ev with
  | .sending _ point => point.unack unack
  | _ => unack

def Agrees (s : TcpSession) : CallState -> Prop
  | .sending call point => point.Agrees call s
  | _ => True

def unsent (s : TcpSession) : CallState -> List Effect
  | .sending call point => point.unsent call s
  | _ => []

def unreturned : CallState -> List Int32
  | .sending call point => point.unreturned call
  | _ => []

end CallState

/-!
## The packet thread beside the whole calls
-/

/-- What is compared of the packet thread's effects.  Its segments are built
while the event loop may change ports, addresses and `send_next`, hence only
the acknowledged number is compared. -/
inductive Seen where
  | ack (number : UInt32)
  | effect (e : Effect)

def seen : Effect -> Seen
  | .tx f _ => .ack (ntohl (TcpHdr.ackSeq f))
  | e => .effect e

namespace RecvPoint

def effective : RecvPoint -> Bool
  | .synAck | .dataAck | .ackSource _ _ | .ackDest _ _ _ | .ackSeq _ _ _
  | .ackPrepare _ _ _ | .ackTx _ _ _ | .callback => true
  | _ => false

def irs (skbuf : Skbuf) (irs : UInt32) : RecvPoint -> UInt32
  | .storeRecvNext | .unackLoad | .unackStore _ | .storeState =>
      ntohl (TcpHdr.seq skbuf.head)
  | _ => irs

def recvNext (skbuf : Skbuf) (next : UInt32) : RecvPoint -> UInt32
  | .unackLoad | .unackStore _ | .storeState =>
      ntohl (TcpHdr.seq skbuf.head) + 1
  | _ => next

def unack (skbuf : Skbuf) (s : TcpSession) : RecvPoint -> UInt32
  | .storeState => s.sendUnack + 1
  | .put | .storeNext => (s.readAck skbuf.head).sendUnack
  | _ => s.sendUnack

/-- The branch taken fits the connection state, and the header of the
acknowledgement is one that `ack2peer` builds. -/
def Agrees (skbuf : Skbuf) (s : TcpSession) : RecvPoint -> Prop
  | .storeIrs | .storeRecvNext | .unackLoad | .storeState =>
      s.connState = .synSent
  | .unackStore unack =>
      s.connState = .synSent ∧ unack = s.sendUnack + 1
  | .readAck | .put => s.connState = .established
  | .storeAck =>
      s.connState = .established ∧ (s.readAck skbuf.head).sendUnack =
        ntohl (TcpHdr.ackSeq skbuf.head)
  | .storeNext =>
      s.connState = .established ∧
        (stripTcpHdr skbuf.head).userPayloadLen ≠ 0
  | .ackSeq _ value f =>
      exists v : TcpSession, f = TcpHdr.setAckSeq
        (TcpHdr.setAck v.socketBufferOfTcpTempl) (ntohl value)
  | .ackPrepare _ value f => exists v : TcpSession, f = v.ackFrame value
  | .ackTx _ value f =>
      exists v : TcpSession, f = v.prepareBeforeIpTx (v.ackFrame value) []
  | .switch | .synAck | .dataAck | .ackSource _ _ | .ackDest _ _ _
  | .callback => True

def ahead (peerAddr : SockaddrIn) (skbuf : Skbuf) : RecvPoint -> List Seen
  | .storeIrs | .storeRecvNext | .unackLoad | .unackStore _ | .storeState =>
      [.effect
        (.assertion (TcpHdr.syn skbuf.head && TcpHdr.ack skbuf.head))]
  | .storeNext => [.effect (.putToRecvQ peerAddr (stripHead skbuf))]
  | _ => []

def established (estab : Bool) : List Seen :=
  if estab then [.effect .runOnConnEstabCB] else []

def unsent (s : TcpSession) : RecvPoint -> List Seen
  | .synAck => .ack s.recvNext :: established true
  | .dataAck => .ack s.recvNext :: established false
  | .ackSource estab value | .ackDest estab value _ | .ackSeq estab value _
  | .ackPrepare estab value _ | .ackTx estab value _ =>
      .ack value :: established estab
  | .callback => established true
  | _ => []

end RecvPoint

namespace RecvState

def pending : RecvState -> List (SockaddrIn × Skbuf)
  | .idle => []
  | .receiving peerAddr skbuf point =>
      if point.effective then [] else [(peerAddr, skbuf)]

def irs (ip : RecvState) (irs : UInt32) : UInt32 :=
  match ip with
  | .idle => irs
  | .receiving _ skbuf point => point.irs skbuf irs

def recvNext (ip : RecvState) (next : UInt32) : UInt32 :=
  match ip with
  | .idle => next
  | .receiving _ skbuf point => point.recvNext skbuf next

def unack (s : TcpSession) : RecvState -> UInt32
  | .idle => s.sendUnack
  | .receiving _ skbuf point => point.unack skbuf s

def Agrees (s : TcpSession) : RecvState -> Prop
  | .idle => True
  | .receiving _ skbuf point => point.Agrees skbuf s

def ahead : RecvState -> List Seen
  | .idle => []
  | .receiving peerAddr skbuf point => point.ahead peerAddr skbuf

def unsent (s : TcpSession) : RecvState -> List Seen
  | .idle => []
  | .receiving _ _ point => point.unsent s

end RecvState

/-!
## The relation
-/

/-- The threads in the middle of their calls, beside the whole calls that have
taken effect so far. -/
structure Linked (t : Threads) (p : Progress) : Prop where
  base : t.session.toSession = t.eventLoop.base p.session
  connState : t.session.connState = p.session.connState
  callback : t.session.onConnEstabCB = p.session.onConnEstabCB
  next : t.session.sendNext = t.eventLoop.next p.session
  unack : t.session.sendUnack = t.eventLoop.unack (t.ip.unack p.session)
  irs : t.session.irs = t.ip.irs p.session.irs
  recvNext : t.session.recvNext = t.ip.recvNext p.session.recvNext
  callAgrees : t.eventLoop.Agrees p.session
  recvAgrees : t.ip.Agrees p.session
  calls : p.calls = t.eventLoop.pending ++ t.calls
  segments : p.segments = t.ip.pending ++ t.segments
  sent : p.sent = t.sent ++ t.eventLoop.unsent p.session
  returned : p.returned = t.returned ++ t.eventLoop.unreturned
  received : p.received.map seen ++ t.ip.ahead =
    t.received.map seen ++ t.ip.unsent p.session

/-!
## What one thread may assume of the other
-/

structure RecvKeeps (s s' : TcpSession) : Prop where
  base : s'.toSession = s.toSession
  callback : s'.onConnEstabCB = s.onConnEstabCB
  next : s'.sendNext = s.sendNext
  closed : s.connState = .closed -> s'.connState = .closed
  synSent : s.connState = .synSent -> s'.connState = .established
  established : s.connState = .established -> s'.connState = .established

theorem recv_keeps (s : TcpSession) (peerAddr : SockaddrIn) (skbuf : Skbuf) :
    RecvKeeps s (s.recv peerAddr skbuf).1 := by
  rcases s.readAck_eq skbuf.head with ⟨una, hread⟩
  have hcase := s.recv_cases peerAddr skbuf
  generalize s.recv peerAddr skbuf = result at hcase ⊢
  cases hcase with
  | syn hstate =>
      refine ⟨rfl, rfl, rfl, ?_, fun _ => rfl, fun _ => rfl⟩
      intro hclosed
      exact absurd (hstate.symm.trans hclosed) (by decide)
  | data hstate _ =>
      simp only [dataReceived, hread]
      exact ⟨rfl, rfl, rfl, id, fun _ => hstate, id⟩
  | empty hstate _ =>
      simp only [hread]
      exact ⟨rfl, rfl, rfl, id, fun _ => hstate, id⟩
  | other hsyn _ => exact ⟨rfl, rfl, rfl, id, fun h => absurd h hsyn, id⟩

theorem RecvPoint.not_effective_members {point : RecvPoint}
    (h : point.effective = false) (s : TcpSession) : point.unsent s = [] := by
  cases point with
  | synAck | dataAck | ackSource _ _ | ackDest _ _ _ | ackSeq _ _ _
  | ackPrepare _ _ _ | ackTx _ _ _ | callback => cases h
  | _ => rfl

namespace RecvState

def effective : RecvState -> Bool
  | .idle => true
  | .receiving _ _ point => point.effective

structure Settled (ip : RecvState) (s : TcpSession) : Prop where
  unack : ip.unack s = s.sendUnack
  irs : forall irs, ip.irs irs = irs
  recvNext : forall next, ip.recvNext next = next
  pending : ip.pending = []
  ahead : ip.ahead = []

theorem effective_members {ip : RecvState} (h : ip.effective = true)
    (s : TcpSession) : Settled ip s := by
  cases ip with
  | idle => exact ⟨rfl, fun _ => rfl, fun _ => rfl, rfl, rfl⟩
  | receiving peerAddr skbuf point =>
      cases point with
      | synAck | dataAck | ackSource _ _ | ackDest _ _ _ | ackSeq _ _ _
      | ackPrepare _ _ _ | ackTx _ _ _ | callback =>
          exact ⟨rfl, fun _ => rfl, fun _ => rfl, rfl, rfl⟩
      | _ => cases h

end RecvState

namespace RecvState

variable {ip : RecvState} {s s' : TcpSession}

theorem readAck_unack (s : TcpSession) (f : FrameBuf) :
    (s.readAck f).sendUnack =
      if TcpHdr.ack f && decide (s.sendUnack < ntohl (TcpHdr.ackSeq f))
        then ntohl (TcpHdr.ackSeq f) else s.sendUnack := by
  unfold readAck
  split <;> rfl

theorem readAck_unack_congr (h : s'.sendUnack = s.sendUnack) (f : FrameBuf) :
    (s'.readAck f).sendUnack = (s.readAck f).sendUnack := by
  rw [readAck_unack, readAck_unack, h]

theorem closed (h : ip.Agrees s) (hclosed : s.connState = .closed)
    (s' : TcpSession) : ip.Agrees s' ∧ ip.unack s' = s'.sendUnack := by
  cases ip with
  | idle => exact ⟨trivial, rfl⟩
  | receiving peerAddr skbuf point =>
      cases point with
      | switch | synAck | dataAck | ackSource _ _ | ackDest _ _ _ | callback =>
          exact ⟨trivial, rfl⟩
      | ackSeq _ _ _ | ackPrepare _ _ _ | ackTx _ _ _ => exact ⟨h, rfl⟩
      | storeIrs | storeRecvNext | unackLoad | storeState | readAck | put =>
          exact absurd (hclosed.symm.trans h) (by decide)
      | unackStore _ | storeAck | storeNext =>
          exact absurd (hclosed.symm.trans h.1) (by decide)

/-- Once the session is established, `recv_next` is written only where the
segment takes effect. -/
theorem established (h : ip.Agrees s) (hestab : s.connState = .established)
    (next : UInt32) : ip.recvNext next = next := by
  cases ip with
  | idle => rfl
  | receiving peerAddr skbuf point =>
      cases point with
      | unackLoad => exact absurd (hestab.symm.trans h) (by decide)
      | unackStore _ => exact absurd (hestab.symm.trans h.1) (by decide)
      | storeState => exact absurd (hestab.symm.trans h) (by decide)
      | _ => rfl

theorem congr (ip : RecvState) (hstate : s'.connState = s.connState)
    (hunack : s'.sendUnack = s.sendUnack) :
    (ip.Agrees s -> ip.Agrees s') ∧ ip.unack s' = ip.unack s := by
  cases ip with
  | idle => exact ⟨id, hunack⟩
  | receiving peerAddr skbuf point =>
      cases point with
      | storeIrs | storeRecvNext | unackLoad | readAck =>
          exact ⟨hstate.trans, hunack⟩
      | storeState => exact ⟨hstate.trans, congrArg (· + 1) hunack⟩
      | put => exact ⟨hstate.trans, readAck_unack_congr hunack _⟩
      | unackStore u =>
          exact ⟨fun h => ⟨hstate.trans h.1, by rw [hunack]; exact h.2⟩,
            hunack⟩
      | storeAck =>
          refine ⟨fun h => ⟨hstate.trans h.1, ?_⟩, hunack⟩
          exact (readAck_unack_congr hunack _).trans h.2
      | storeNext =>
          exact ⟨fun h => ⟨hstate.trans h.1, h.2⟩,
            readAck_unack_congr hunack _⟩
      | switch | synAck | dataAck | ackSource _ _ | ackDest _ _ _
      | ackSeq _ _ _ | ackPrepare _ _ _ | ackTx _ _ _ | callback =>
          exact ⟨id, hunack⟩

theorem unsent_congr (h : s'.recvNext = s.recvNext) :
    ip.unsent s' = ip.unsent s := by
  cases ip with
  | idle => rfl
  | receiving peerAddr skbuf point =>
      cases point with
      | synAck | dataAck => simp only [unsent, RecvPoint.unsent, h]
      | _ => rfl

end RecvState

namespace SendPoint

variable {point : SendPoint}

theorem effective_members (h : point.effective = true) (call : LoopCall)
    (s : TcpSession) :
    point.base call s = s.toSession ∧ point.next call s = s.sendNext ∧
      (forall u, point.unack u = u) ∧ point.Agrees call s := by
  cases point with
  | prepare _ | tx _ | leave _ => exact ⟨rfl, rfl, fun _ => rfl, trivial⟩
  | _ => cases h

theorem not_effective_members (h : point.effective = false) (call : LoopCall)
    (s : TcpSession) :
    point.unsent call s = [] ∧ point.unreturned call = [] := by
  cases point with
  | prepare _ | tx _ | leave _ => cases h
  | _ => exact ⟨rfl, rfl⟩

end SendPoint

theorem Threads.sendBranch_other {state : TcpState} (hclosed : state ≠ .closed)
    (hestab : state ≠ .established) (f : FrameBuf) :
    sendBranch f state = .leave 0 := by
  cases state with
  | closed => exact absurd rfl hclosed
  | established => exact absurd rfl hestab
  | _ => rfl

namespace CallState

variable {ev : CallState} {s s' : TcpSession}

/-- Once the session is open, the event loop leaves `send_unack` alone. -/
theorem unack_of_open (h : ev.Agrees s) (hopen : s.connState ≠ .closed)
    (u : UInt32) : ev.unack u = u := by
  cases ev with
  | sending call point =>
      cases point with
      | synSeq _ | synLoad _ | storeState _ | synStore _ _ =>
          exact absurd h.1 hopen
      | _ => rfl
  | _ => rfl

theorem congr (ev : CallState) (hbase : s'.toSession = s.toSession)
    (hnext : s'.sendNext = s.sendNext) :
    ev.base s' = ev.base s ∧ ev.next s' = ev.next s ∧
      ev.unsent s' = ev.unsent s := by
  have hladdr : s'.laddr = s.laddr := congrArg Session.laddr hbase
  have hfaddr : s'.faddr = s.faddr := congrArg Session.faddr hbase
  cases ev with
  | sending call point =>
      cases point with
      | prepare f =>
          refine ⟨hbase, hnext, ?_⟩
          simp only [unsent, SendPoint.unsent,
            prepareBeforeIpTx_congr hladdr hfaddr]
      | bind _ =>
          exact ⟨by simp only [base, SendPoint.base, hbase], hnext, rfl⟩
      | tx _ | leave _ => exact ⟨hbase, hnext, rfl⟩
      | dataAck _ =>
          exact ⟨call.bound_congr hbase, congrArg (· + _) hnext, rfl⟩
      | storeUnack _ | synSeq _ | synLoad _ | synStore _ _ | storeState _ =>
          exact ⟨call.bound_congr hbase, rfl, rfl⟩
      | _ => exact ⟨call.bound_congr hbase, hnext, rfl⟩
  | _ => exact ⟨by simp only [base, hbase], hnext, rfl⟩

theorem agrees_congr (hbase : s'.toSession = s.toSession)
    (hnext : s'.sendNext = s.sendNext)
    (hclosed : s.connState = .closed -> s'.connState = .closed)
    (hestab : s.connState = .established -> s'.connState = .established)
    (h : ev.Agrees s) : ev.Agrees s' := by
  cases ev with
  | sending call point =>
      have hbound := call.bound_congr hbase
      have htempl := templ_congr (congrArg Session.lport hbound)
        (congrArg Session.fport hbound)
      cases point with
      | bind _ =>
          exact h.trans (by rw [hbase])
      | switch _ => exact h.trans htempl.symm
      | storeIss _ | storeUnack _ | synSeq _ =>
          exact ⟨hclosed h.1, h.2.trans htempl.symm⟩
      | synLoad _ => exact ⟨hclosed h.1, by rw [htempl]; exact h.2⟩
      | synStore _ _ => exact ⟨hclosed h.1, h.2.1, by rw [htempl]; exact h.2.2⟩
      | storeState _ =>
          refine ⟨hclosed h.1, ?_⟩
          rw [h.2, synFrame, synFrame, htempl]
      | dataSeq _ => exact ⟨hestab h.1, h.2.trans htempl.symm⟩
      | dataLoad _ => exact ⟨hestab h.1, by rw [htempl, hnext]; exact h.2⟩
      | dataStore _ _ =>
          exact ⟨hestab h.1, by rw [hnext]; exact h.2.1,
            by rw [htempl, hnext]; exact h.2.2⟩
      | dataAck _ => exact ⟨hestab h.1, by rw [htempl, hnext]; exact h.2⟩
      | templ | prepare _ | tx _ | leave _ => trivial
  | _ => trivial

end CallState

end TcpSession

end Velox
