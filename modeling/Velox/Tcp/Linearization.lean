import Velox.Tcp.Overlap
import Velox.Tcp.Acknowledge
import Velox.Tcp.Handshake

/-!
# Interleaved calls behave like whole calls

Every access of either thread is matched by the whole call that takes effect
there, if one does.  Hence the calls of the two threads, interleaved in any
way, leave the session that some order of whole calls leaves.
-/

namespace Velox

open Foundation

namespace TcpSession

/-!
## Steps of the event loop
-/

/-- Some whole calls lead from `p` to a state beside `t`. -/
def Follows (t : Threads) (p : Progress) : Prop :=
  exists moves p', run Progress.step p moves = some p' ∧ Linked t p'

namespace Linked

variable {q p : Progress} {ev : CallState} {ip : RecvState}

/-- The call takes effect: the event loop has written its members already,
and what is left is to transmit and to return. -/
theorem call_effective {call : LoopCall} {point point' : SendPoint}
    {connState : TcpState} (h : Linked ⟨q, .sending call point, ip⟩ p)
    (hbefore : point.effective = false) (hafter : point'.effective = true)
    (hbase : q.session.toSession =
      (call.perform p.session).session.toSession)
    (hstate : connState = (call.perform p.session).session.connState)
    (hnext : q.session.sendNext = (call.perform p.session).session.sendNext)
    (hunack : q.session.sendUnack =
      ip.unack (call.perform p.session).session)
    (hrecv : ip.Agrees (call.perform p.session).session)
    (hsent : point'.unsent call (call.perform p.session).session =
      (call.perform p.session).effects)
    (hret : point'.unreturned call = [(call.perform p.session).ret]) :
    Follows
      ⟨{ q with session := { q.session with connState := connState } },
        .sending call point', ip⟩ p := by
  have hcalls := h.calls
  simp only [CallState.pending, hbefore] at hcalls
  have hstep : p.step .eventLoop = some (p.called call q.calls) := by
    rw [Progress.step, hcalls]
    rfl
  have hkept := call.perform_keeps p.session
  have hafter' := SendPoint.effective_members hafter call
    (call.perform p.session).session
  exact matched hstep
    { base := hbase.trans hafter'.1.symm
      connState := hstate
      callback := h.callback.trans hkept.2.2.symm
      next := hnext.trans hafter'.2.1.symm
      unack := hunack.trans (hafter'.2.2.1 _).symm
      irs := h.irs.trans (congrArg ip.irs hkept.1.symm)
      recvNext := h.recvNext.trans (congrArg ip.recvNext hkept.2.1.symm)
      callAgrees := hafter'.2.2.2
      recvAgrees := hrecv
      calls := by
        simp only [CallState.pending, hafter]
        rfl
      segments := h.segments
      sent := by
        have hsent' := h.sent
        simp only [CallState.unsent,
          (SendPoint.not_effective_members hbefore call p.session).1,
          List.append_nil] at hsent'
        simp only [CallState.unsent, hsent, Progress.called, hsent']
      returned := by
        have hret' := h.returned
        simp only [CallState.unreturned,
          (SendPoint.not_effective_members hbefore call p.session).2,
          List.append_nil] at hret'
        simp only [CallState.unreturned, hret, Progress.called, hret']
      received := h.received.trans
        (congrArg _ (RecvState.unsent_congr hkept.2.1).symm) }

theorem send_switch {call : LoopCall} {f : FrameBuf}
    (h : Linked ⟨q, .sending call (.switch f), ip⟩ p) :
    Follows (Threads.stepSend ⟨q, .sending call (.switch f), ip⟩ call
      (.switch f)) p := by
  have hstate : q.session.connState = p.session.connState := h.connState
  have hframe : f = _ := h.callAgrees
  simp only [Threads.stepSend, hstate]
  cases call.perform_cases p.session with
  | syn hclosed _ _ _ =>
      rw [hclosed]
      exact unmatched { h with callAgrees := ⟨hclosed, hframe⟩ }
  | data hestab _ _ _ =>
      rw [hestab]
      exact unmatched { h with callAgrees := ⟨hestab, hframe⟩ }
  | other hclosed hestab hsession heffects hret =>
      rw [Threads.sendBranch_other hclosed hestab f]
      have hkept : (call.perform p.session).session.connState =
          p.session.connState ∧ (call.perform p.session).session.sendUnack =
          p.session.sendUnack := by
        rw [hsession]
        exact ⟨rfl, rfl⟩
      have hrecv := RecvState.congr ip hkept.1 hkept.2
      exact h.call_effective rfl rfl (by rw [hsession]; exact h.base)
        (by rw [hsession]; exact hstate) (by rw [hsession]; exact h.next)
        (by rw [hrecv.2]; exact h.unack) (hrecv.1 h.recvAgrees)
        heffects.symm (by rw [hret]; rfl)

theorem send_storeState {call : LoopCall} {f : FrameBuf}
    (h : Linked ⟨q, .sending call (.storeState f), ip⟩ p) :
    Follows (Threads.stepSend ⟨q, .sending call (.storeState f), ip⟩ call
      (.storeState f)) p := by
  have hframe : p.session.connState = .closed ∧ f = _ := h.callAgrees
  cases call.perform_cases p.session with
  | syn hclosed hsession heffects hret =>
      have hrecv := RecvState.closed h.recvAgrees hclosed
        (call.perform p.session).session
      refine h.call_effective rfl rfl (by rw [hsession]; exact h.base)
        (by rw [hsession]) (by rw [hsession]; exact h.next)
        (by rw [hrecv.2, hsession]; exact h.unack) hrecv.1 ?_
        (by rw [hret]; rfl)
      rw [heffects, hsession, hframe.2]
      rfl
  | data hestab _ _ _ =>
      exact absurd (hframe.1.symm.trans hestab) (by decide)
  | other hclosed _ _ _ _ => exact absurd hframe.1 hclosed

theorem send_dataAck {call : LoopCall} {f : FrameBuf}
    (h : Linked ⟨q, .sending call (.dataAck f), ip⟩ p) :
    Follows (Threads.stepSend ⟨q, .sending call (.dataAck f), ip⟩ call
      (.dataAck f)) p := by
  have hframe : p.session.connState = .established ∧ f = _ := h.callAgrees
  cases call.perform_cases p.session with
  | syn hclosed _ _ _ =>
      exact absurd (hframe.1.symm.trans hclosed) (by decide)
  | data hestab hsession heffects hret =>
      have hnext : q.session.recvNext = p.session.recvNext :=
        h.recvNext.trans (RecvState.established h.recvAgrees hestab _)
      have hkept : (call.perform p.session).session.connState =
          p.session.connState ∧ (call.perform p.session).session.sendUnack =
          p.session.sendUnack := by
        rw [hsession]
        exact ⟨rfl, rfl⟩
      have hrecv := RecvState.congr ip hkept.1 hkept.2
      refine h.call_effective rfl rfl (by rw [hsession]; exact h.base)
        (by rw [hsession]; exact h.connState) (by rw [hsession]; exact h.next)
        (by rw [hrecv.2]; exact h.unack) (hrecv.1 h.recvAgrees) ?_
        (by rw [hret]; rfl)
      rw [heffects, hsession, hframe.2, hnext]
      rfl
  | other _ hother _ _ _ => exact absurd hframe.1 hother

theorem stepSend {call : LoopCall} {point : SendPoint}
    (h : Linked ⟨q, .sending call point, ip⟩ p) :
    Follows (Threads.stepSend ⟨q, .sending call point, ip⟩ call point) p := by
  cases point with
  | bind port =>
      have hport : port = _ := h.callAgrees
      have hbase : q.session.toSession = _ := h.base
      refine unmatched { h with base := ?_, callAgrees := trivial }
      show (q.session.toSession.bind port).1 = _
      rw [hport, hbase]
      rfl
  | templ =>
      have hbase : q.session.toSession = (call.bound p.session).toSession :=
        h.base
      exact unmatched { h with
        callAgrees := templ_congr (congrArg Session.lport hbase)
          (congrArg Session.fport hbase) }
  | switch f => exact h.send_switch
  | storeIss f => exact unmatched { h with next := rfl }
  | storeUnack f => exact unmatched { h with unack := h.next }
  | synSeq f =>
      have hnext : q.session.sendNext = iss := h.next
      have hframe : p.session.connState = .closed ∧ f = _ := h.callAgrees
      refine unmatched { h with callAgrees := ⟨hframe.1, ?_⟩ }
      rw [hnext, hframe.2]
  | synLoad f =>
      have hnext : q.session.sendNext = iss := h.next
      have hframe : p.session.connState = .closed ∧ f = _ := h.callAgrees
      exact unmatched { h with
        callAgrees := ⟨hframe.1, by rw [hnext], hframe.2⟩ }
  | synStore f next =>
      have hframe : p.session.connState = .closed ∧ next = _ ∧ f = _ :=
        h.callAgrees
      refine unmatched { h with
        next := hframe.2.1, callAgrees := ⟨hframe.1, ?_⟩ }
      rw [hframe.2.2]
      rfl
  | storeState f => exact h.send_storeState
  | dataSeq f =>
      have hnext : q.session.sendNext = p.session.sendNext := h.next
      have hframe : p.session.connState = .established ∧ f = _ := h.callAgrees
      refine unmatched { h with callAgrees := ⟨hframe.1, ?_⟩ }
      rw [hnext, hframe.2]
  | dataLoad f =>
      have hnext : q.session.sendNext = p.session.sendNext := h.next
      have hframe : p.session.connState = .established ∧ f = _ := h.callAgrees
      exact unmatched { h with
        callAgrees := ⟨hframe.1, by rw [hnext], hframe.2⟩ }
  | dataStore f next =>
      have hframe : p.session.connState = .established ∧ next = _ ∧ f = _ :=
        h.callAgrees
      refine unmatched { h with
        next := hframe.2.1, callAgrees := ⟨hframe.1, ?_⟩ }
      rw [hframe.2.2]
  | dataAck f => exact h.send_dataAck
  | prepare f =>
      have hbase : q.session.toSession = p.session.toSession := h.base
      refine unmatched { h with callAgrees := trivial, sent := ?_ }
      refine h.sent.trans ?_
      simp only [CallState.unsent, SendPoint.unsent, Threads.stepSend,
        prepareBeforeIpTx_congr (congrArg Session.laddr hbase)
          (congrArg Session.faddr hbase)]
  | tx f =>
      refine unmatched { h with callAgrees := trivial, sent := ?_ }
      exact h.sent.trans (List.append_nil _).symm
  | leave value =>
      refine unmatched { h with callAgrees := trivial, returned := ?_ }
      exact h.returned.trans (List.append_nil _).symm

theorem stepEventLoop (h : Linked ⟨q, ev, ip⟩ p) {t' : Threads}
    (hstep : Threads.stepEventLoop ⟨q, ev, ip⟩ = some t') : Follows t' p := by
  cases ev with
  | idle =>
      rcases q with ⟨session, calls, segments, sent, returned, received⟩
      cases calls with
      | nil => cases hstep
      | cons call rest =>
          cases hstep
          cases call with
          | connect port faddr fport => exact unmatched { h with }
          | send port buf => exact unmatched { h with callAgrees := rfl }
  | storeFaddr port faddr fport =>
      cases hstep
      have hbase : q.session.toSession = p.session.toSession := h.base
      refine unmatched { h with base := ?_ }
      show { q.session.toSession with faddr := faddr } = _
      rw [hbase]
      rfl
  | storeFport port faddr fport =>
      cases hstep
      have hbase : q.session.toSession =
          { p.session.toSession with faddr := faddr } := h.base
      refine unmatched { h with base := ?_ }
      show { q.session.toSession with fport := fport } = _
      rw [hbase]
      rfl
  | connectBind port faddr fport =>
      cases hstep
      have hbase : q.session.toSession =
          { p.session.toSession with faddr := faddr, fport := fport } := h.base
      refine unmatched { h with base := ?_, callAgrees := ?_ }
      · show (q.session.toSession.bind port).1 = _
        rw [hbase]
        rfl
      · show (q.session.toSession.bind port).2 = _
        rw [hbase]
        rfl
  | sending call point =>
      cases hstep
      exact h.stepSend

/-!
## Steps of the packet thread
-/

/-- The segment takes effect: the packet thread has written its members
already, and what is left is to acknowledge and to call back. -/
theorem segment_effective {peerAddr : SockaddrIn} {skbuf : Skbuf}
    {point : RecvPoint} {ip' : RecvState} {connState : TcpState}
    {recvNext : UInt32}
    (h : Linked ⟨q, ev, .receiving peerAddr skbuf point⟩ p)
    (hbefore : point.effective = false) (hafter : ip'.effective = true)
    (hstate : connState = (p.session.recv peerAddr skbuf).1.connState)
    (hnext : recvNext = (p.session.recv peerAddr skbuf).1.recvNext)
    (hirs : q.session.irs = (p.session.recv peerAddr skbuf).1.irs)
    (hunack : point.unack skbuf p.session =
      (p.session.recv peerAddr skbuf).1.sendUnack)
    (hrecv : ip'.Agrees (p.session.recv peerAddr skbuf).1)
    (hseen : (p.session.recv peerAddr skbuf).2.map seen =
      point.ahead peerAddr skbuf ++
        ip'.unsent (p.session.recv peerAddr skbuf).1) :
    Follows
      ⟨{ q with
          session :=
            { q.session with connState := connState, recvNext := recvNext } },
        ev, ip'⟩ p := by
  have hsegments := h.segments
  simp only [RecvState.pending, hbefore] at hsegments
  have hstep : p.step .ip = some (p.arrived peerAddr skbuf q.segments) := by
    rw [Progress.step, hsegments]
    rfl
  have hkept := p.session.recv_keeps peerAddr skbuf
  have hcall := CallState.congr ev hkept.base hkept.next
  have hafter' := RecvState.effective_members hafter
    (p.session.recv peerAddr skbuf).1
  have hreceived := h.received
  simp only [RecvState.ahead, RecvState.unsent,
    RecvPoint.not_effective_members hbefore, List.append_nil] at hreceived
  exact matched hstep
    { base := h.base.trans hcall.1.symm
      connState := hstate
      callback := h.callback.trans hkept.callback.symm
      next := h.next.trans hcall.2.1.symm
      unack := h.unack.trans
        (congrArg ev.unack (hunack.trans hafter'.unack.symm))
      irs := hirs.trans (hafter'.irs _).symm
      recvNext := hnext.trans (hafter'.recvNext _).symm
      callAgrees := CallState.agrees_congr hkept.base hkept.next hkept.closed
        hkept.established h.callAgrees
      recvAgrees := hrecv
      calls := h.calls
      segments := by rw [hafter'.pending]; rfl
      sent := h.sent.trans (congrArg _ hcall.2.2.symm)
      returned := h.returned
      received := by
        rw [hafter'.ahead, List.append_nil]
        simp only [Progress.arrived, List.map_append, hseen]
        rw [← List.append_assoc, hreceived] }

theorem seen_ack2peer (s : TcpSession) (value : UInt32) :
    seen (s.ack2peer value) = .ack value :=
  congrArg Seen.ack (s.ackSegment_ackSeq value)

section

variable {peerAddr : SockaddrIn} {skbuf : Skbuf}

theorem recv_switch (h : Linked ⟨q, ev, .receiving peerAddr skbuf .switch⟩ p) :
    Follows (Threads.stepRecv ⟨q, ev, .receiving peerAddr skbuf .switch⟩
      peerAddr skbuf .switch) p := by
  have hstate : q.session.connState = p.session.connState := h.connState
  have hreceived := h.received
  simp only [RecvState.ahead, RecvPoint.ahead, RecvState.unsent,
    RecvPoint.unsent, List.append_nil] at hreceived
  simp only [Threads.stepRecv, hstate]
  cases hs : p.session.connState with
  | synSent =>
      refine unmatched { h with recvAgrees := hs, received := ?_ }
      simp only [Threads.recvAssert, Threads.recvBranch, RecvState.ahead,
        RecvPoint.ahead, RecvState.unsent, RecvPoint.unsent, List.map_append,
        List.append_nil, hreceived]
      rfl
  | established =>
      refine unmatched { h with recvAgrees := hs, received := ?_ }
      simp only [Threads.recvAssert, Threads.recvBranch, RecvState.ahead,
        RecvPoint.ahead, RecvState.unsent, RecvPoint.unsent, List.append_nil,
        hreceived]
  | closed | listen | synReceived | finWait1 | finWait2 | closing | timeWait
  | closeWait | lastAck =>
      have hrecv : p.session.recv peerAddr skbuf = (p.session, []) := by
        rw [recv, hs]
      simp only [Threads.recvAssert, Threads.recvBranch, List.append_nil]
      exact h.segment_effective rfl rfl (by rw [hrecv]; exact h.connState)
        (by rw [hrecv]; exact h.recvNext) (by rw [hrecv]; exact h.irs)
        (by rw [hrecv]; rfl) trivial (by rw [hrecv]; rfl)

theorem recv_storeState
    (h : Linked ⟨q, ev, .receiving peerAddr skbuf .storeState⟩ p) :
    Follows (Threads.stepRecv ⟨q, ev, .receiving peerAddr skbuf .storeState⟩
      peerAddr skbuf .storeState) p := by
  have hs : p.session.connState = .synSent := h.recvAgrees
  have hrecv : p.session.recv peerAddr skbuf =
      (p.session.synReceived skbuf.head,
        [.assertion (TcpHdr.syn skbuf.head && TcpHdr.ack skbuf.head),
          (p.session.synReceived skbuf.head).ack2peer
            (p.session.synReceived skbuf.head).recvNext,
          .runOnConnEstabCB]) := by
    rw [recv, hs]
  refine h.segment_effective rfl rfl (by rw [hrecv]; rfl)
    (by rw [hrecv]; exact h.recvNext) (by rw [hrecv]; exact h.irs)
    (by rw [hrecv]; rfl) trivial ?_
  rw [hrecv, List.map_cons, List.map_cons, seen_ack2peer]
  rfl

theorem recv_put (h : Linked ⟨q, ev, .receiving peerAddr skbuf .put⟩ p) :
    Follows (Threads.stepRecv ⟨q, ev, .receiving peerAddr skbuf .put⟩
      peerAddr skbuf .put) p := by
  have hs : p.session.connState = .established := h.recvAgrees
  have hreceived := h.received
  simp only [RecvState.ahead, RecvPoint.ahead, RecvState.unsent,
    RecvPoint.unsent, List.append_nil] at hreceived
  by_cases hlen : (stripTcpHdr skbuf.head).userPayloadLen = 0
  · have hrecv := recv_empty hs peerAddr hlen
    rcases p.session.readAck_eq skbuf.head with ⟨una, hread⟩
    simp only [Threads.stepRecv, hlen, ne_eq, not_true_eq_false, if_false]
    exact h.segment_effective rfl rfl
      (by rw [hrecv, hread]; exact h.connState)
      (by rw [hrecv, hread]; exact h.recvNext)
      (by rw [hrecv, hread]; exact h.irs) (by rw [hrecv]; rfl) trivial
      (by rw [hrecv]; rfl)
  · simp only [Threads.stepRecv, ne_eq, hlen, not_false_eq_true, if_true]
    refine unmatched { h with recvAgrees := ⟨hs, hlen⟩, received := ?_ }
    simp only [RecvState.ahead, RecvPoint.ahead, RecvState.unsent,
      RecvPoint.unsent, List.map_append, List.append_nil, hreceived]
    rfl

theorem recv_storeNext
    (h : Linked ⟨q, ev, .receiving peerAddr skbuf .storeNext⟩ p) :
    Follows (Threads.stepRecv ⟨q, ev, .receiving peerAddr skbuf .storeNext⟩
      peerAddr skbuf .storeNext) p := by
  have hs : p.session.connState = .established ∧ _ := h.recvAgrees
  have hrecv := recv_data hs.1 peerAddr hs.2
  rcases p.session.readAck_eq skbuf.head with ⟨una, hread⟩
  refine h.segment_effective rfl rfl
    (by rw [hrecv, dataReceived, hread]; exact h.connState)
    (by rw [hrecv]; rfl)
    (by rw [hrecv, dataReceived, hread]; exact h.irs)
    (by rw [hrecv]; rfl) trivial ?_
  rw [hrecv, List.map_cons, List.map_cons, seen_ack2peer]
  rfl

theorem recv_ackTx {estab : Bool} {value : UInt32} {f : FrameBuf}
    (h : Linked ⟨q, ev, .receiving peerAddr skbuf (.ackTx estab value f)⟩ p) :
    Follows (Threads.stepRecv
      ⟨q, ev, .receiving peerAddr skbuf (.ackTx estab value f)⟩ peerAddr skbuf
      (.ackTx estab value f)) p := by
  rcases h.recvAgrees with ⟨v, hframe⟩
  have hseen : seen (.tx f []) = .ack value := by
    rw [hframe]
    exact seen_ack2peer v value
  have hreceived := h.received
  simp only [RecvState.ahead, RecvPoint.ahead, RecvState.unsent,
    RecvPoint.unsent, List.append_nil] at hreceived
  cases estab with
  | true =>
      refine unmatched { h with recvAgrees := trivial, received := ?_ }
      simp only [Threads.stepRecv, if_true, RecvState.ahead, RecvPoint.ahead,
        RecvState.unsent, RecvPoint.unsent, List.map_append, List.map_cons,
        List.map_nil, List.append_nil, List.append_assoc, hseen, hreceived]
      rfl
  | false =>
      refine unmatched { h with recvAgrees := trivial, received := ?_ }
      simp only [Threads.stepRecv, Bool.false_eq_true, if_false,
        RecvState.ahead, RecvState.unsent, List.map_append, List.map_cons,
        List.map_nil, List.append_nil, hseen, hreceived]
      rfl

theorem stepRecv {point : RecvPoint}
    (h : Linked ⟨q, ev, .receiving peerAddr skbuf point⟩ p) :
    Follows (Threads.stepRecv ⟨q, ev, .receiving peerAddr skbuf point⟩
      peerAddr skbuf point) p := by
  -- a branch of `recv` is only taken while the session is open
  have hunack : p.session.connState ≠ .closed ->
      forall u, ev.unack u = u := fun hopen u =>
    CallState.unack_of_open h.callAgrees hopen u
  cases point with
  | switch => exact h.recv_switch
  | storeIrs => exact unmatched { h with irs := rfl }
  | storeRecvNext =>
      have hirs : q.session.irs = ntohl (TcpHdr.seq skbuf.head) := h.irs
      refine unmatched { h with recvNext := ?_ }
      show q.session.irs + 1 = _
      rw [hirs]
      rfl
  | unackLoad =>
      have hs : p.session.connState = .synSent := h.recvAgrees
      have hload := h.unack.trans (hunack (by rw [hs]; decide) _)
      exact unmatched { h with
        recvAgrees := ⟨hs, congrArg (· + 1) hload⟩ }
  | unackStore unack =>
      have hs : p.session.connState = .synSent ∧ unack = _ := h.recvAgrees
      refine unmatched { h with recvAgrees := hs.1, unack := ?_ }
      exact hs.2.trans (hunack (by rw [hs.1]; decide) _).symm
  | storeState => exact h.recv_storeState
  | synAck =>
      have hnext : q.session.recvNext = p.session.recvNext := h.recvNext
      refine unmatched { h with recvAgrees := trivial, received := ?_ }
      refine h.received.trans ?_
      simp only [Threads.stepRecv, RecvState.unsent, RecvPoint.unsent, hnext]
  | readAck =>
      have hs : p.session.connState = .established := h.recvAgrees
      have hload : q.session.sendUnack = p.session.sendUnack :=
        h.unack.trans (hunack (by rw [hs]; decide) _)
      have hread := RecvState.readAck_unack p.session skbuf.head
      rw [← hload] at hread
      simp only [Threads.stepRecv]
      split at hread
      · next htest =>
          rw [if_pos htest]
          exact unmatched { h with recvAgrees := ⟨hs, hread⟩ }
      · next htest =>
          rw [if_neg htest]
          refine unmatched { h with unack := ?_ }
          exact hread.symm.trans (hunack (by rw [hs]; decide) _).symm
  | storeAck =>
      have hs : p.session.connState = .established ∧
        (p.session.readAck skbuf.head).sendUnack = _ := h.recvAgrees
      refine unmatched { h with recvAgrees := hs.1, unack := ?_ }
      exact hs.2.symm.trans (hunack (by rw [hs.1]; decide) _).symm
  | put => exact h.recv_put
  | storeNext => exact h.recv_storeNext
  | dataAck =>
      have hnext : q.session.recvNext = p.session.recvNext := h.recvNext
      refine unmatched { h with recvAgrees := trivial, received := ?_ }
      refine h.received.trans ?_
      simp only [Threads.stepRecv, RecvState.unsent, RecvPoint.unsent, hnext]
  | ackSource estab value => exact unmatched { h with }
  | ackDest estab value source =>
      exact unmatched { h with
        recvAgrees := ⟨{ q.session with lport := source }, rfl⟩ }
  | ackSeq estab value f =>
      rcases h.recvAgrees with ⟨v, hframe⟩
      refine unmatched { h with
        recvAgrees := ⟨{ v with sendNext := q.session.sendNext }, ?_⟩ }
      rw [hframe]
      rfl
  | ackPrepare estab value f =>
      rcases h.recvAgrees with ⟨v, hframe⟩
      refine unmatched { h with
        recvAgrees := ⟨{ v with
          laddr := q.session.laddr, faddr := q.session.faddr }, ?_⟩ }
      rw [hframe]
      rfl
  | ackTx estab value f => exact h.recv_ackTx
  | callback =>
      have hreceived := h.received
      simp only [RecvState.ahead, RecvPoint.ahead, RecvState.unsent,
        RecvPoint.unsent, List.append_nil] at hreceived
      refine unmatched { h with received := ?_ }
      simp only [Threads.stepRecv, RecvState.ahead, RecvState.unsent,
        List.map_append, List.append_nil, hreceived]
      rfl

end

theorem stepIp (h : Linked ⟨q, ev, ip⟩ p) {t' : Threads}
    (hstep : Threads.stepIp ⟨q, ev, ip⟩ = some t') : Follows t' p := by
  cases ip with
  | idle =>
      rcases q with ⟨session, calls, segments, sent, returned, received⟩
      cases segments with
      | nil => cases hstep
      | cons segment rest =>
          cases hstep
          exact unmatched { h with recvAgrees := trivial }
  | receiving peerAddr skbuf point =>
      cases hstep
      exact h.stepRecv

theorem simulates : Simulates Threads.step Progress.step Linked := by
  intro t p thread t' h hstep
  cases thread with
  | eventLoop => exact h.stepEventLoop hstep
  | ip => exact h.stepIp hstep

theorem start (p : Progress) : Linked p.start p where
  base := rfl
  connState := rfl
  callback := rfl
  next := rfl
  unack := rfl
  irs := rfl
  recvNext := rfl
  callAgrees := trivial
  recvAgrees := trivial
  calls := rfl
  segments := rfl
  sent := (List.append_nil _).symm
  returned := (List.append_nil _).symm
  received := rfl

theorem of_idle {t : Threads} (h : Linked t p) (hidle : t.Idle) :
    p.session = t.session ∧ p.calls = t.calls ∧ p.segments = t.segments ∧
      p.sent = t.sent ∧ p.returned = t.returned ∧
      p.received.map seen = t.received.map seen := by
  rcases t with ⟨q, ev, ip⟩
  rcases hidle with ⟨hev, hip⟩
  cases hev
  cases hip
  have hsession : q.session = p.session := by
    rcases q with ⟨⟨base, st, cb, una, nxt, irs, rn⟩, _, _, _, _, _⟩
    rcases p with ⟨⟨base', st', cb', una', nxt', irs', rn'⟩, _, _, _, _, _⟩
    cases h.base
    cases h.connState
    cases h.callback
    cases h.next
    cases h.unack
    cases h.irs
    cases h.recvNext
    rfl
  have hreceived := h.received
  simp only [RecvState.ahead, RecvState.unsent, List.append_nil] at hreceived
  exact ⟨hsession.symm, h.calls, h.segments,
    h.sent.trans (List.append_nil _), h.returned.trans (List.append_nil _),
    hreceived⟩

end Linked

/-- However the two threads interleave, the session between two calls, the
packets and results of the event loop, and the queue entries, callbacks and
acknowledged numbers of the packet thread are those of some order of whole
calls. -/
theorem interleaving_eq_whole_calls {p : Progress} {schedule : List Thread}
    {t : Threads} (hrun : run Threads.step p.start schedule = some t)
    (hidle : t.Idle) :
    exists order p', run Progress.step p order = some p' ∧
      p'.session = t.session ∧ p'.calls = t.calls ∧
      p'.segments = t.segments ∧ p'.sent = t.sent ∧
      p'.returned = t.returned ∧
      p'.received.map seen = t.received.map seen := by
  rcases Linked.simulates.run (Linked.start p) hrun with
    ⟨order, p', horder, hlinked⟩
  exact ⟨order, p', horder, hlinked.of_idle hidle⟩

/-- The application connects and sends while the answer to the SYN and a
first byte of the peer arrive. -/
def racing : Progress where
  session := fresh (Session.create 0x0100a8c0) 0 0 0 0
  calls := [.connect 0x400 0x0200a8c0 0x5000, .send 0x401 [104, 105]]
  segments :=
    [(SockaddrIn.inet 0 0, peerControl 0x12 7 2),
      (SockaddrIn.inet 0 0, ⟨Segment.peerFrame 8 [111] (by decide), []⟩)]
  sent := []
  returned := []
  received := []

/-- The answer arrives before `connect` has handed its SYN to `Ip::tx`, and
the byte while `send` fills in its header. -/
def racingSchedule : List Thread :=
  List.replicate 13 .eventLoop ++ List.replicate 8 .ip ++
    List.replicate 8 .eventLoop ++ List.replicate 12 .ip ++
    List.replicate 6 .eventLoop ++ List.replicate 5 .ip

theorem racing_finishes :
    exists t, run Threads.step racing.start racingSchedule = some t ∧
      t.Idle :=
  ⟨_, rfl, rfl, rfl⟩

theorem racing_eq_whole_calls :
    exists t, run Threads.step racing.start racingSchedule = some t ∧
      t.Idle ∧
      exists order p', run Progress.step racing order = some p' ∧
        p'.session = t.session ∧ p'.calls = t.calls ∧
        p'.segments = t.segments ∧ p'.sent = t.sent ∧
        p'.returned = t.returned ∧
        p'.received.map seen = t.received.map seen := by
  rcases racing_finishes with ⟨t, hrun, hidle⟩
  exact ⟨t, hrun, hidle, interleaving_eq_whole_calls hrun hidle⟩

end TcpSession

end Velox
