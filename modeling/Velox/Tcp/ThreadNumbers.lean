import Velox.Tcp.Linearization
import Velox.Tcp.Sequence

/-!
# Sequence numbers across interleavings

The event loop takes a number for its segment before it hands the segment to
`Ip::tx`, and the packet thread copies `send_next` into its acknowledgements at
any time in between.  The segments of the event loop are numbered without gap
or overlap all the same, and an acknowledgement carries the number of a place
between two of them.
-/

namespace Velox

open Foundation

namespace TcpSession

/-!
## Whole calls
-/

def LoopCall.op : LoopCall -> Op
  | .connect port faddr fport => .connect port faddr fport
  | .send port buf => .send port buf

theorem LoopCall.apply_op (call : LoopCall) (s : TcpSession) :
    s.apply call.op =
      ((call.perform s).session, (call.perform s).effects) := by
  cases call with
  | connect port faddr fport => rfl
  | send port buf => rfl

/-- The application is still to make its first call, a `connect`; or the
segments of the event loop are numbered so far. -/
inductive Progress.InOrder (p : Progress) : Prop where
  | fresh {base : Session} {sendUnack sendNext irs recvNext : UInt32}
      {port : UInt16} {faddr : UInt32} {fport : UInt16} {rest : List LoopCall}
      (hsession : p.session = fresh base sendUnack sendNext irs recvNext)
      (hcalls : p.calls = .connect port faddr fport :: rest)
      (hsent : p.sent = [])
  | sending (h : Sending p.session (emitted p.sent))

namespace Progress

variable {p p' : Progress}

theorem InOrder.called {call : LoopCall} {rest : List LoopCall} (h : p.InOrder)
    (hcalls : p.calls = call :: rest) : (p.called call rest).InOrder := by
  cases h with
  | fresh hsession hfirst hsent =>
      rw [hfirst] at hcalls
      cases hcalls
      refine .sending ?_
      simp only [Progress.called, hsent, hsession, List.nil_append]
      exact fresh_connect ..
  | sending h =>
      have happly := h.apply call.op
      rw [call.apply_op, ← emitted_append] at happly
      exact .sending happly

theorem InOrder.arrived {peerAddr : SockaddrIn} {skbuf : Skbuf}
    {rest : List (SockaddrIn × Skbuf)} (h : p.InOrder) :
    (p.arrived peerAddr skbuf rest).InOrder := by
  cases h with
  | fresh hsession hfirst hsent =>
      have hclosed : (p.session.recv peerAddr skbuf).1 = p.session := by
        rw [hsession]
        rfl
      exact .fresh (hclosed.trans hsession) hfirst hsent
  | sending h =>
      have hkept := p.session.recv_keeps peerAddr skbuf
      refine .sending ⟨?_, hkept.next.trans h.next, h.numbered⟩
      rcases h.state with hsyn | hestab
      · exact Or.inr (hkept.synSent hsyn)
      · exact Or.inr (hkept.established hestab)

theorem InOrder.step {thread : Thread} (h : p.InOrder)
    (hstep : p.step thread = some p') : p'.InOrder := by
  rcases p with ⟨session, calls, segments, sent, returned, received⟩
  cases thread with
  | eventLoop =>
      cases calls with
      | nil => cases hstep
      | cons call rest =>
          cases hstep
          exact h.called rfl
  | ip =>
      cases segments with
      | nil => cases hstep
      | cons segment rest =>
          cases hstep
          exact h.arrived

end Progress

/-!
## Numbers taken and copied
-/

/-- The bytes whose numbers the event loop has taken and whose segment is not
out yet. -/
def SendPoint.taken (call : LoopCall) : SendPoint -> Nat
  | .dataAck _ | .prepare _ | .tx _ => call.buf.length
  | _ => 0

def CallState.taken : CallState -> Nat
  | .sending call point => point.taken call
  | _ => 0

namespace Threads

def numberAfter (n : Nat) : UInt32 :=
  iss + 1 + UInt32.ofNat n

/-- The number of a place between two segments of the event loop, the one it
is about to hand to `Ip::tx` included. -/
def Boundary (t : Threads) (number : UInt32) : Prop :=
  (exists before, before <+: emitted t.sent ∧
      number = numberAfter (payloadBytes before)) ∨
    number = numberAfter (payloadBytes (emitted t.sent) + t.eventLoop.taken)

def Stamped (Boundary : UInt32 -> Prop) : RecvState -> Prop
  | .receiving _ _ (.ackPrepare _ value f) =>
      exists v : TcpSession, f = v.ackFrame value ∧ Boundary v.sendNext
  | .receiving _ _ (.ackTx _ value f) =>
      exists v : TcpSession, f = v.prepareBeforeIpTx (v.ackFrame value) [] ∧
        Boundary v.sendNext
  | _ => True

/-- The SYN is not out: the first call is a `connect` and the packet thread
has acknowledged nothing. -/
structure Opening (t : Threads) : Prop where
  sent : t.sent = []
  acks : emitted t.received = []
  call : match t.eventLoop with
    | .idle => exists port faddr fport rest,
        t.calls = .connect port faddr fport :: rest
    | .sending call point => call.buf = [] ∧ point.effective = false
    | _ => True
  ip : match t.ip with
    | .idle => True
    | .receiving _ _ point => point = .switch

structure Opened (t : Threads) : Prop where
  next : t.session.sendNext =
    numberAfter (payloadBytes (emitted t.sent) + t.eventLoop.taken)
  acks : forall f payload, (f, payload) ∈ emitted t.received ->
    payload = [] ∧ t.Boundary (ntohl (TcpHdr.seq f))
  stamped : Stamped t.Boundary t.ip

structure Counted (t : Threads) : Prop where
  linked : exists p, Linked t p
  opening : t.session.connState = .closed -> t.Opening
  opened : t.session.connState ≠ .closed -> t.Opened

/-!
## One access
-/

theorem numberAfter_add (m n : Nat) :
    numberAfter m + UInt32.ofNat n = numberAfter (m + n) := by
  rw [numberAfter, numberAfter, UInt32.ofNat_add, UInt32.add_assoc]

theorem taken_sendBranch (call : LoopCall) (f : FrameBuf) (state : TcpState) :
    (sendBranch f state).taken call = 0 := by
  cases state <;> rfl

theorem Stamped.mono {B B' : UInt32 -> Prop} (hmono : forall n, B n -> B' n)
    {ip : RecvState} (h : Stamped B ip) : Stamped B' ip := by
  cases ip with
  | idle => trivial
  | receiving peerAddr skbuf point =>
      cases point with
      | ackPrepare estab value f =>
          rcases h with ⟨v, hframe, hnumber⟩
          exact ⟨v, hframe, hmono _ hnumber⟩
      | ackTx estab value f =>
          rcases h with ⟨v, hframe, hnumber⟩
          exact ⟨v, hframe, hmono _ hnumber⟩
      | _ => trivial

variable {q : Progress} {ev : CallState} {ip : RecvState}

theorem Opened.advance {t t' : Threads} (h : t.Opened)
    (hreceived : t'.received = t.received) (hip : t'.ip = t.ip)
    (hnext : t'.session.sendNext = numberAfter
      (payloadBytes (emitted t'.sent) + t'.eventLoop.taken))
    (hmono : forall n, t.Boundary n -> t'.Boundary n) : t'.Opened where
  next := hnext
  acks := by
    intro f payload hmem
    rw [hreceived] at hmem
    exact ⟨(h.acks f payload hmem).1, hmono _ (h.acks f payload hmem).2⟩
  stamped := by
    rw [hip]
    exact Stamped.mono hmono h.stamped

theorem Opened.quiet {ev' : CallState} (h : Opened ⟨q, ev, ip⟩)
    {session' : TcpSession} {calls' : List LoopCall} {returned' : List Int32}
    (hnext : session'.sendNext = q.session.sendNext)
    (htaken : ev'.taken = ev.taken) :
    Opened ⟨{ q with
      session := session', calls := calls', returned := returned' }, ev',
      ip⟩ := by
  refine h.advance rfl rfl ?_ ?_
  · rw [htaken]
    exact hnext.trans h.next
  · intro n hn
    rw [Boundary, htaken]
    exact hn

theorem Opened.dataStore {call : LoopCall} {f : FrameBuf} {next : UInt32}
    (h : Opened ⟨q, .sending call (.dataStore f next), ip⟩)
    (hload : next = q.session.sendNext + UInt32.ofNat call.buf.length) :
    Opened (stepSend ⟨q, .sending call (.dataStore f next), ip⟩ call
      (.dataStore f next)) := by
  refine h.advance rfl rfl ?_ ?_
  · have hnext : q.session.sendNext =
        numberAfter (payloadBytes (emitted q.sent) + 0) := h.next
    show next = _
    rw [hload, hnext, numberAfter_add]
    rfl
  · intro n hn
    rcases hn with hbefore | hall
    · exact Or.inl hbefore
    · exact Or.inl ⟨emitted q.sent, List.prefix_rfl, hall⟩

theorem Opened.tx {call : LoopCall} {f : FrameBuf}
    (h : Opened ⟨q, .sending call (.tx f), ip⟩) :
    Opened (stepSend ⟨q, .sending call (.tx f), ip⟩ call (.tx f)) := by
  have hemitted : emitted (q.sent ++ [.tx f call.buf]) =
      emitted q.sent ++ [(f, call.buf)] := by
    rw [emitted_append]
    rfl
  have hbytes : payloadBytes (emitted (q.sent ++ [.tx f call.buf])) =
      payloadBytes (emitted q.sent) + call.buf.length := by
    rw [hemitted, payloadBytes_append]
    simp [payloadBytes]
  refine h.advance rfl rfl ?_ ?_
  · have hnext : q.session.sendNext = numberAfter
        (payloadBytes (emitted q.sent) + call.buf.length) := h.next
    rw [← hbytes] at hnext
    exact hnext
  · intro n hn
    rcases hn with ⟨before, hbefore, hnumber⟩ | hall
    · refine Or.inl ⟨before, ?_, hnumber⟩
      show before <+: emitted (q.sent ++ [.tx f call.buf])
      rw [hemitted]
      exact hbefore.trans (List.prefix_append ..)
    · refine Or.inl
        ⟨emitted (q.sent ++ [.tx f call.buf]), List.prefix_rfl, ?_⟩
      exact hall.trans (congrArg numberAfter hbytes.symm)

theorem Opened.stepSend {call : LoopCall} {point : SendPoint} {p : Progress}
    (h : Opened ⟨q, .sending call point, ip⟩)
    (hlinked : Linked ⟨q, .sending call point, ip⟩ p)
    (hopen : q.session.connState ≠ .closed) :
    Opened (stepSend ⟨q, .sending call point, ip⟩ call point) := by
  have hclosed : p.session.connState ≠ .closed := by
    rw [← hlinked.connState]
    exact hopen
  cases point with
  | bind port => exact h.quiet rfl rfl
  | templ => exact h.quiet rfl rfl
  | switch f => exact h.quiet rfl (taken_sendBranch call f _)
  | storeIss f => exact absurd hlinked.callAgrees.1 hclosed
  | storeUnack f => exact h.quiet rfl rfl
  | synSeq f => exact h.quiet rfl rfl
  | synLoad f => exact h.quiet rfl rfl
  | synStore f next => exact absurd hlinked.callAgrees.1 hclosed
  | storeState f => exact absurd hlinked.callAgrees.1 hclosed
  | dataSeq f => exact h.quiet rfl rfl
  | dataLoad f => exact h.quiet rfl rfl
  | dataStore f next =>
      have hnext : q.session.sendNext = p.session.sendNext := hlinked.next
      refine h.dataStore ?_
      rw [hnext]
      exact hlinked.callAgrees.2.1
  | dataAck f => exact h.quiet rfl rfl
  | prepare f => exact h.quiet rfl rfl
  | tx f => exact h.tx
  | leave value => exact h.quiet rfl rfl

theorem Opened.stepRecv {peerAddr : SockaddrIn} {skbuf : Skbuf}
    {point : RecvPoint} {p : Progress}
    (h : Opened ⟨q, ev, .receiving peerAddr skbuf point⟩)
    (hlinked : Linked ⟨q, ev, .receiving peerAddr skbuf point⟩ p) :
    Opened (stepRecv ⟨q, ev, .receiving peerAddr skbuf point⟩ peerAddr skbuf
      point) := by
  cases point with
  | switch =>
      have hassert : emitted
          (q.received ++ recvAssert skbuf q.session.connState) =
            emitted q.received := by
        rw [emitted_append]
        cases q.session.connState <;> exact List.append_nil _
      refine ⟨h.next, ?_, ?_⟩
      · intro f payload hmem
        exact h.acks f payload (hassert ▸ hmem)
      · show Stamped _ (recvBranch peerAddr skbuf q.session.connState)
        cases q.session.connState <;> trivial
  | storeIrs | storeRecvNext | unackLoad | unackStore _ | storeState | synAck
  | storeAck | storeNext | dataAck | ackSource _ _ | ackDest _ _ _ =>
      exact ⟨h.next, h.acks, trivial⟩
  | readAck =>
      refine ⟨h.next, h.acks, ?_⟩
      simp only [Threads.stepRecv]
      split <;> trivial
  | put =>
      simp only [Threads.stepRecv]
      split
      · refine ⟨h.next, ?_, trivial⟩
        intro f payload hmem
        refine h.acks f payload ?_
        rw [emitted_append] at hmem
        exact (List.append_nil (emitted q.received)) ▸ hmem
      · exact ⟨h.next, h.acks, trivial⟩
  | ackSeq estab value f =>
      rcases hlinked.recvAgrees with ⟨v, hframe⟩
      refine ⟨h.next, h.acks, { v with sendNext := q.session.sendNext }, ?_,
        Or.inr h.next⟩
      rw [hframe]
      rfl
  | ackPrepare estab value f =>
      rcases h.stamped with ⟨v, hframe, hnumber⟩
      refine ⟨h.next, h.acks, { v with
        laddr := q.session.laddr, faddr := q.session.faddr }, ?_, hnumber⟩
      rw [hframe]
      rfl
  | ackTx estab value f =>
      rcases h.stamped with ⟨v, hframe, hnumber⟩
      refine ⟨h.next, ?_, ?_⟩
      · intro g payload hmem
        have hmem' : (g, payload) ∈ emitted (q.received ++ [.tx f []]) := hmem
        rw [emitted_append, List.mem_append] at hmem'
        rcases hmem' with hold | hnew
        · exact h.acks g payload hold
        · cases List.mem_singleton.1 hnew
          refine ⟨rfl, ?_⟩
          rw [hframe, (v.ackSegment_fields value).1]
          exact hnumber
      · cases estab <;> trivial
  | callback =>
      refine ⟨h.next, ?_, trivial⟩
      intro f payload hmem
      refine h.acks f payload ?_
      have hmem' : (f, payload) ∈
          emitted (q.received ++ [.runOnConnEstabCB]) := hmem
      rw [emitted_append] at hmem'
      exact (List.append_nil (emitted q.received)) ▸ hmem'

/-- Before the SYN: every access of `connect` up to the store of
`conn_state`. -/
theorem Opening.stepSend {call : LoopCall} {point : SendPoint} {p : Progress}
    (h : Opening ⟨q, .sending call point, ip⟩)
    (hlinked : Linked ⟨q, .sending call point, ip⟩ p)
    (hclosed : q.session.connState = .closed)
    (hpoint : forall f, point ≠ .storeState f) :
    Opening (stepSend ⟨q, .sending call point, ip⟩ call point) := by
  have hstate : p.session.connState = .closed :=
    hlinked.connState.symm.trans hclosed
  have hcall : call.buf = [] ∧ point.effective = false := h.call
  cases point with
  | bind _ | templ | storeIss _ | storeUnack _ | synSeq _ | synLoad _
  | synStore _ _ => exact ⟨h.sent, h.acks, ⟨hcall.1, rfl⟩, h.ip⟩
  | switch f =>
      refine ⟨h.sent, h.acks, ⟨hcall.1, ?_⟩, h.ip⟩
      rw [hclosed]
      rfl
  | storeState f => exact absurd rfl (hpoint f)
  | dataSeq f | dataLoad f | dataAck f | dataStore f next =>
      exact absurd (hstate.symm.trans hlinked.callAgrees.1) (by decide)
  | prepare f | tx f | leave value => cases hcall.2

theorem stepSend_connState (t : Threads) (call : LoopCall) {point : SendPoint}
    (hpoint : forall f, point ≠ .storeState f) :
    (t.stepSend call point).session.connState = t.session.connState := by
  cases point with
  | storeState f => exact absurd rfl (hpoint f)
  | _ => rfl

theorem stepRecv_closed {t : Threads} {peerAddr : SockaddrIn} {skbuf : Skbuf}
    {point : RecvPoint}
    (h : (t.stepRecv peerAddr skbuf point).session.connState = .closed) :
    t.session.connState = .closed := by
  cases point with
  | storeState => cases h
  | put =>
      simp only [stepRecv] at h
      split at h <;> exact h
  | _ => exact h

theorem Opening.storeState {call : LoopCall} {f : FrameBuf} {p : Progress}
    (h : Opening ⟨q, .sending call (.storeState f), ip⟩)
    (hlinked : Linked ⟨q, .sending call (.storeState f), ip⟩ p) :
    Opened (Threads.stepSend ⟨q, .sending call (.storeState f), ip⟩ call
      (.storeState f)) := by
  have hsent : q.sent = [] := h.sent
  have hcall : call.buf = [] ∧ _ := h.call
  have hnext : q.session.sendNext = iss + 1 := hlinked.next
  refine ⟨?_, ?_, ?_⟩
  · show q.session.sendNext =
      numberAfter (payloadBytes (emitted q.sent) + call.buf.length)
    rw [hsent, hcall.1, hnext]
    rfl
  · intro g payload hmem
    have hnone : emitted q.received = [] := h.acks
    have hmem' : (g, payload) ∈ emitted q.received := hmem
    rw [hnone] at hmem'
    cases hmem'
  · have hip := h.ip
    cases ip with
    | idle => trivial
    | receiving peerAddr skbuf point =>
        cases hip
        trivial

end Threads

namespace Threads.Counted

variable {t t' : Threads}

theorem eventLoop (h : t.Counted) (hstep : t.stepEventLoop = some t') :
    (t'.session.connState = .closed -> t'.Opening) ∧
      (t'.session.connState ≠ .closed -> t'.Opened) := by
  rcases h.linked with ⟨p, hlinked⟩
  rcases t with ⟨q, ev, ip⟩
  cases ev with
  | idle =>
      rcases q with ⟨session, calls, segments, sent, returned, received⟩
      cases calls with
      | nil => cases hstep
      | cons call rest =>
          cases hstep
          constructor
          · intro hclosed
            have hold := h.opening hclosed
            rcases hold.call with ⟨port, faddr, fport, more, hcalls⟩
            cases hcalls
            exact ⟨hold.sent, hold.acks, trivial, hold.ip⟩
          · intro hopen
            refine (h.opened hopen).quiet rfl ?_
            cases call <;> rfl
  | storeFaddr port faddr fport =>
      cases hstep
      exact ⟨fun hclosed => ⟨(h.opening hclosed).sent, (h.opening hclosed).acks,
        trivial, (h.opening hclosed).ip⟩,
        fun hopen => (h.opened hopen).quiet rfl rfl⟩
  | storeFport port faddr fport =>
      cases hstep
      exact ⟨fun hclosed => ⟨(h.opening hclosed).sent, (h.opening hclosed).acks,
        trivial, (h.opening hclosed).ip⟩,
        fun hopen => (h.opened hopen).quiet rfl rfl⟩
  | connectBind port faddr fport =>
      cases hstep
      exact ⟨fun hclosed => ⟨(h.opening hclosed).sent, (h.opening hclosed).acks,
        ⟨rfl, rfl⟩, (h.opening hclosed).ip⟩,
        fun hopen => (h.opened hopen).quiet rfl rfl⟩
  | sending call point =>
      cases hstep
      by_cases hpoint : exists f, point = .storeState f
      · rcases hpoint with ⟨f, rfl⟩
        have hclosed : q.session.connState = .closed :=
          hlinked.connState.trans hlinked.callAgrees.1
        refine ⟨?_, fun _ => (h.opening hclosed).storeState hlinked⟩
        intro hsyn
        cases hsyn
      · have hother : forall f, point ≠ .storeState f :=
          fun f heq => hpoint ⟨f, heq⟩
        have hkept := stepSend_connState ⟨q, .sending call point, ip⟩ call
          hother
        constructor
        · intro hclosed
          have hbefore := hkept.symm.trans hclosed
          exact (h.opening hbefore).stepSend hlinked hbefore hother
        · intro hopen
          have hbefore := hkept ▸ hopen
          exact (h.opened hbefore).stepSend hlinked hbefore

theorem ip (h : t.Counted) (hstep : t.stepIp = some t') :
    (t'.session.connState = .closed -> t'.Opening) ∧
      (t'.session.connState ≠ .closed -> t'.Opened) := by
  rcases h.linked with ⟨p, hlinked⟩
  rcases t with ⟨q, ev, ip⟩
  cases ip with
  | idle =>
      rcases q with ⟨session, calls, segments, sent, returned, received⟩
      cases segments with
      | nil => cases hstep
      | cons segment rest =>
          cases hstep
          constructor
          · intro hclosed
            have hold := h.opening hclosed
            exact ⟨hold.sent, hold.acks, hold.call, rfl⟩
          · intro hopen
            have hold := h.opened hopen
            exact ⟨hold.next, hold.acks, trivial⟩
  | receiving peerAddr skbuf point =>
      cases hstep
      by_cases hclosed : q.session.connState = .closed
      · have hold := h.opening hclosed
        cases show point = .switch from hold.ip
        simp only [stepRecv, hclosed, recvAssert, recvBranch, List.append_nil]
        exact ⟨fun _ => ⟨hold.sent, hold.acks, hold.call, trivial⟩,
          fun hopen => absurd rfl hopen⟩
      · refine ⟨?_, fun _ => (h.opened hclosed).stepRecv hlinked⟩
        intro hafter
        exact absurd (stepRecv_closed hafter) hclosed

theorem step {thread : Thread} (h : t.Counted)
    (hstep : t.step thread = some t') : t'.Counted := by
  rcases h.linked with ⟨p, hlinked⟩
  rcases Linked.simulates t p thread t' hlinked hstep with
    ⟨moves, p', _, hlinked'⟩
  cases thread with
  | eventLoop =>
      have hphase := h.eventLoop hstep
      exact ⟨⟨p', hlinked'⟩, hphase.1, hphase.2⟩
  | ip =>
      have hphase := h.ip hstep
      exact ⟨⟨p', hlinked'⟩, hphase.1, hphase.2⟩

end Threads.Counted

/-!
## Whole runs
-/

structure Progress.Begins (p : Progress) : Prop where
  session : exists base sendUnack sendNext irs recvNext,
    p.session = fresh base sendUnack sendNext irs recvNext
  calls : exists port faddr fport rest,
    p.calls = .connect port faddr fport :: rest
  sent : p.sent = []
  received : p.received = []

/-- However the threads interleave, the segments of the event loop are the SYN
and then data numbered without gap or overlap, and every acknowledgement is
empty and carries the number of a place between two of them. -/
theorem interleaving_numbered {p : Progress} (hbegin : p.Begins)
    {schedule : List Thread} {t : Threads}
    (hrun : run Threads.step p.start schedule = some t) (hidle : t.Idle) :
    (emitted t.sent = [] ∨ Numbered (emitted t.sent)) ∧
      forall f payload, (f, payload) ∈ emitted t.received ->
        payload = [] ∧ exists before, before <+: emitted t.sent ∧
          ntohl (TcpHdr.seq f) =
            iss + 1 + UInt32.ofNat (payloadBytes before) := by
  rcases hbegin.session with ⟨base, unack, next, irs, recvNext, hsession⟩
  rcases hbegin.calls with ⟨port, faddr, fport, rest, hcalls⟩
  constructor
  · rcases Linked.simulates.run (Linked.start p) hrun with
      ⟨order, p', horder, hlinked⟩
    have hsent : p'.sent = t.sent := (hlinked.of_idle hidle).2.2.2.1
    have hinit : p.InOrder := .fresh hsession hcalls hbegin.sent
    have hend : p'.InOrder :=
      run_invariant (fun _ _ _ h hstep => h.step hstep) hinit horder
    cases hend with
    | fresh _ _ hnone =>
        left
        rw [← hsent, hnone]
        rfl
    | sending h =>
        right
        rw [← hsent]
        exact h.numbered
  · have hinit : Threads.Counted p.start :=
      { linked := ⟨p, Linked.start p⟩
        opening := fun _ =>
          { sent := hbegin.sent
            acks := by
              show emitted p.received = []
              rw [hbegin.received]
              rfl
            call := ⟨port, faddr, fport, rest, hcalls⟩
            ip := trivial }
        opened := by
          intro hopen
          refine absurd ?_ hopen
          show p.session.connState = .closed
          rw [hsession]
          rfl }
    have hend : t.Counted :=
      run_invariant (fun _ _ _ h hstep => h.step hstep) hinit hrun
    intro f payload hmem
    by_cases hclosed : t.session.connState = .closed
    · rw [(hend.opening hclosed).acks] at hmem
      cases hmem
    · rcases (hend.opened hclosed).acks f payload hmem with
        ⟨hempty, hbefore | hall⟩
      · exact ⟨hempty, hbefore⟩
      · refine ⟨hempty, emitted t.sent, List.prefix_rfl, ?_⟩
        rw [hidle.1] at hall
        exact hall

theorem racing_emits :
    exists t, run Threads.step racing.start racingSchedule = some t ∧
      t.Idle ∧ (emitted t.sent).length = 2 ∧
      (emitted t.received).length = 2 :=
  ⟨_, rfl, ⟨rfl, rfl⟩, rfl, rfl⟩

theorem racing_numbered :
    racing.Begins ∧
      exists t, run Threads.step racing.start racingSchedule = some t ∧
        t.Idle ∧ Numbered (emitted t.sent) ∧
        (emitted t.received).length = 2 ∧
        forall f payload, (f, payload) ∈ emitted t.received ->
          payload = [] ∧ exists before, before <+: emitted t.sent ∧
            ntohl (TcpHdr.seq f) =
              iss + 1 + UInt32.ofNat (payloadBytes before) := by
  have hbegin : racing.Begins :=
    ⟨⟨_, _, _, _, _, rfl⟩, ⟨_, _, _, _, rfl⟩, rfl, rfl⟩
  rcases racing_emits with ⟨t, hrun, hidle, hsent, hreceived⟩
  have hnumbers := interleaving_numbered hbegin hrun hidle
  refine ⟨hbegin, t, hrun, hidle, ?_, hreceived, hnumbers.2⟩
  refine hnumbers.1.resolve_left ?_
  intro hnone
  rw [hnone] at hsent
  cases hsent

end TcpSession

end Velox
