import Velox.Tcp.Layout

/-!
# Transmit sequence numbers

One SYN opens the numbering and every later segment carries on from the
payload sent before it.  The invariant relates `send_next` to the history of
emitted segments.
-/

namespace Velox

open Foundation

theorem ntohl_ntohl (v : UInt32) : ntohl (ntohl v) = v :=
  bswap32_bswap32 v

namespace TcpSession

/-!
## Header fields of an emitted segment
-/

theorem prepared_fields (s : TcpSession) {f : FrameBuf} {tcp : Bytes}
    (buf : Bytes) (h : LaidOut f (List.replicate 20 0) tcp)
    (hready : HeaderReady tcp) :
    TcpHdr.seq (s.prepareBeforeIpTx f buf) = load32 tcp 4 ∧
      TcpHdr.syn (s.prepareBeforeIpTx f buf) =
        (byteAt tcp 13).toNat.testBit 1 := by
  have hprep := s.prepareBeforeIpTx_laidOut buf h hready.doff
  constructor
  · rw [hprep.seq, load32_store16_of_disjoint _ _ (by decide)]
  · rw [hprep.syn, byteAt_store16_of_disjoint _ _ (by decide)]

theorem synSegment_fields (s : TcpSession) (buf : Bytes) :
    ntohl (TcpHdr.seq (s.prepareBeforeIpTx s.synFrame buf)) = iss ∧
      TcpHdr.syn (s.prepareBeforeIpTx s.synFrame buf) = true := by
  have hfields := s.prepared_fields buf s.syn_laidOut s.synHeader_ready
  have hlen := s.templ_laidOut.tcpLength
  rw [hfields.1, hfields.2, synHeader]
  constructor
  · rw [load32_store8_of_disjoint _ _ (by decide),
      load32_store32 _ _ _ (by rw [hlen]; decide), ntohl_ntohl]
  · rw [store8, byteAt_set_self _ _ (by rw [length_store32, hlen]; decide)]
    rfl

theorem dataSegment_fields (s : TcpSession) (buf : Bytes) :
    ntohl (TcpHdr.seq (s.prepareBeforeIpTx s.dataFrame buf)) = s.sendNext ∧
      TcpHdr.syn (s.prepareBeforeIpTx s.dataFrame buf) = false := by
  have hfields := s.prepared_fields buf s.data_laidOut s.dataHeader_ready
  have hlen := s.templ_laidOut.tcpLength
  rw [hfields.1, hfields.2, dataHeader]
  constructor
  · rw [load32_store32_of_disjoint _ _ (by decide),
      load32_store8_of_disjoint _ _ (by decide),
      load32_store32 _ _ _ (by rw [hlen]; decide), ntohl_ntohl]
  · rw [byteAt_store32_of_disjoint _ _ (by decide), store8,
      byteAt_set_self _ _ (by rw [length_store32, hlen]; decide)]
    rfl

theorem ackSegment_fields (s : TcpSession) (value : UInt32) :
    ntohl (TcpHdr.seq (s.prepareBeforeIpTx (s.ackFrame value) [])) =
        s.sendNext ∧
      TcpHdr.syn (s.prepareBeforeIpTx (s.ackFrame value) []) = false := by
  have hfields := s.prepared_fields [] (s.ack_laidOut value)
    (s.ackHeader_ready value)
  have hlen := s.templ_laidOut.tcpLength
  rw [hfields.1, hfields.2, ackHeader]
  constructor
  · rw [load32_store32 _ _ _ (by simp [hlen]), ntohl_ntohl]
  · rw [byteAt_store32_of_disjoint _ _ (by decide),
      byteAt_store32_of_disjoint _ _ (by decide), store8,
      byteAt_set_self _ _ (by rw [hlen]; decide)]
    rfl

/-!
## Numbered histories
-/

def emitted (effects : List Effect) : List (FrameBuf × Bytes) :=
  effects.filterMap fun e =>
    match e with
    | .tx f payload => some (f, payload)
    | _ => none

def payloadBytes (segments : List (FrameBuf × Bytes)) : Nat :=
  (segments.map fun segment => segment.2.length).sum

/-- The first segment is the SYN and carries `iss`; a later one is no SYN and
carries the number that follows the payload emitted before it. -/
structure Numbered (segments : List (FrameBuf × Bytes)) : Prop where
  first : exists f rest, segments = (f, []) :: rest ∧
    TcpHdr.syn f = true ∧ ntohl (TcpHdr.seq f) = iss
  later : forall before f payload after,
    segments = before ++ (f, payload) :: after -> before ≠ [] ->
      TcpHdr.syn f = false ∧
        ntohl (TcpHdr.seq f) = iss + 1 + UInt32.ofNat (payloadBytes before)

theorem payloadBytes_append (xs ys : List (FrameBuf × Bytes)) :
    payloadBytes (xs ++ ys) = payloadBytes xs + payloadBytes ys := by
  simp [payloadBytes]

theorem emitted_append (xs ys : List Effect) :
    emitted (xs ++ ys) = emitted xs ++ emitted ys := by
  simp [emitted]

theorem Numbered.snoc {segments : List (FrameBuf × Bytes)} {f : FrameBuf}
    {payload : Bytes} (h : Numbered segments) (hsyn : TcpHdr.syn f = false)
    (hseq : ntohl (TcpHdr.seq f) =
      iss + 1 + UInt32.ofNat (payloadBytes segments)) :
    Numbered (segments ++ [(f, payload)]) where
  first := by
    rcases h.first with ⟨g, rest, rfl, hflag, hnumber⟩
    exact ⟨g, rest ++ [(f, payload)], rfl, hflag, hnumber⟩
  later := by
    intro before g load after heq hbefore
    rcases List.eq_nil_or_concat after with rfl | ⟨front, last, rfl⟩
    · have hparts := List.append_inj' heq rfl
      cases hparts.2
      rw [← hparts.1]
      exact ⟨hsyn, hseq⟩
    · rw [List.concat_eq_append, ← List.cons_append,
        ← List.append_assoc] at heq
      exact h.later before g load front (List.append_inj' heq rfl).1 hbefore

/-!
## Runs
-/

/-- The invariant between two operations, once the SYN is out. -/
structure Sending (s : TcpSession) (segments : List (FrameBuf × Bytes)) :
    Prop where
  state : s.connState = .synSent ∨ s.connState = .established
  next : s.sendNext = iss + 1 + UInt32.ofNat (payloadBytes segments)
  numbered : Numbered segments

namespace Sending

variable {s t : TcpSession} {segments : List (FrameBuf × Bytes)}

theorem congr (h : Sending s segments) (hstate : t.connState = s.connState)
    (hnext : t.sendNext = s.sendNext) : Sending t segments where
  state := by rw [hstate]; exact h.state
  next := by rw [hnext]; exact h.next
  numbered := h.numbered

theorem nothing (h : Sending s segments) :
    Sending s (segments ++ emitted []) := by
  rw [emitted, List.filterMap_nil, List.append_nil]
  exact h

theorem snoc {f : FrameBuf} {payload : Bytes} (h : Sending s segments)
    (hsyn : TcpHdr.syn f = false) (hseq : ntohl (TcpHdr.seq f) = s.sendNext)
    (hstate : t.connState = .synSent ∨ t.connState = .established)
    (hnext : t.sendNext = s.sendNext + UInt32.ofNat payload.length) :
    Sending t (segments ++ [(f, payload)]) where
  state := hstate
  next := by
    have hbytes : payloadBytes [(f, payload)] = payload.length := by
      simp [payloadBytes]
    rw [hnext, h.next, payloadBytes_append, hbytes, UInt32.ofNat_add,
      UInt32.add_assoc]
  numbered := h.numbered.snoc hsyn (hseq.trans h.next)

theorem send (h : Sending s segments) (port : UInt16) (buf : Bytes) :
    Sending (s.send port buf).session
      (segments ++ emitted (s.send port buf).effects) := by
  generalize hresult : s.send port buf = result
  cases hresult ▸ s.send_cases port buf with
  | syn hstate =>
      rcases h.state with hsyn | hestab
      · rw [hstate] at hsyn
        cases hsyn
      · rw [hstate] at hestab
        cases hestab
  | data hstate =>
      have hfields := (s.superSend port).dataSegment_fields buf
      exact h.snoc hfields.2 hfields.1 (Or.inr hstate) rfl
  | other hclosed hestab =>
      have hbound : Sending (s.superSend port) segments := h.congr rfl rfl
      exact hbound.nothing

theorem ack (h : Sending s segments) (value : UInt32)
    (hstate : t.connState = .established) (hnext : t.sendNext = s.sendNext) :
    Sending t (segments ++ emitted [t.ack2peer value]) := by
  have hfields := t.ackSegment_fields value
  refine h.snoc hfields.2 (hfields.1.trans hnext) (Or.inr hstate) ?_
  rw [hnext]
  exact (UInt32.add_zero _).symm

theorem recv (h : Sending s segments) (peerAddr : SockaddrIn)
    (skbuf : Skbuf) :
    Sending (s.recv peerAddr skbuf).1
      (segments ++ emitted (s.recv peerAddr skbuf).2) := by
  rcases s.readAck_eq skbuf.head with ⟨una, hread⟩
  generalize hresult : s.recv peerAddr skbuf = result
  cases hresult ▸ s.recv_cases peerAddr skbuf with
  | syn hstate => exact h.ack _ rfl rfl
  | data hstate hlen =>
      have hstate' : (s.dataReceived skbuf.head).connState = .established := by
        rw [dataReceived, hread]
        exact hstate
      have hnext : (s.dataReceived skbuf.head).sendNext = s.sendNext := by
        rw [dataReceived, hread]
      exact h.ack _ hstate' hnext
  | empty hstate hlen =>
      show Sending (s.readAck skbuf.head) (segments ++ emitted [])
      rw [hread]
      have hacked : Sending { s with sendUnack := una } segments :=
        h.congr rfl rfl
      exact hacked.nothing
  | other hsyn hestab => exact h.nothing

theorem apply (h : Sending s segments) (op : Op) :
    Sending (s.apply op).1 (segments ++ emitted (s.apply op).2) := by
  cases op with
  | connect port faddr fport =>
      have hbound : Sending
          { s with toSession := (s.toSession.connect port faddr fport).1 }
          segments := h.congr rfl rfl
      exact hbound.send _ []
  | send port buf => exact h.send port buf
  | recv peerAddr skbuf => exact h.recv peerAddr skbuf

theorem perform (h : Sending s segments) (ops : List Op) :
    Sending (s.perform ops).1 (segments ++ emitted (s.perform ops).2) := by
  induction ops generalizing s segments with
  | nil => exact h.nothing
  | cons op rest ih =>
      have hrest := ih (h.apply op)
      rw [List.append_assoc, ← emitted_append] at hrest
      exact hrest

end Sending

theorem fresh_connect (base : Session) (sendUnack sendNext irs recvNext : UInt32)
    (port : UInt16) (faddr : UInt32) (fport : UInt16) :
    Sending
      ((fresh base sendUnack sendNext irs recvNext).connect port faddr
        fport).session
      (emitted ((fresh base sendUnack sendNext irs recvNext).connect port faddr
        fport).effects) where
  state := Or.inl rfl
  next := rfl
  numbered :=
    { first := ⟨_, [], rfl, (synSegment_fields _ []).2,
        (synSegment_fields _ []).1⟩
      later := by
        intro before f payload after heq hbefore
        cases before with
        | nil => exact absurd rfl hbefore
        | cons head rest =>
            have hlen := congrArg List.length heq
            simp [emitted, connect, TcpSession.send, fresh, synSegment] at hlen }

/-- In every run that begins with `connect` the emitted segments are numbered
without gap or overlap, starting from the SYN. -/
theorem perform_numbered (base : Session)
    (sendUnack sendNext irs recvNext : UInt32) (port : UInt16)
    (faddr : UInt32) (fport : UInt16) (ops : List Op) :
    Numbered (emitted ((fresh base sendUnack sendNext irs recvNext).perform
      (.connect port faddr fport :: ops)).2) := by
  have hstart := fresh_connect base sendUnack sendNext irs recvNext port faddr
    fport
  have hrun := (hstart.perform ops).numbered
  rw [← emitted_append] at hrun
  exact hrun

end TcpSession

end Velox
