import Velox.Tcp.Stream

/-!
# The end of the handshake

What `TcpSession::recv` does in the state `SYN_SENT`, compared with the rule
for the answer to a SYN.  The source guards the state only by an assertion, so
it takes every segment for the answer.
-/

namespace Velox

open Foundation

namespace TcpSession

def AnswersSyn (s : TcpSession) (f : FrameBuf) : Prop :=
  TcpHdr.syn f = true ∧ TcpHdr.ack f = true ∧ TcpHdr.rst f = false ∧
    ntohl (TcpHdr.ackSeq f) = s.sendNext

/-- The session is established, acknowledges the SYN of the peer and reports
the connection. -/
structure Completes (f : FrameBuf) (result : TcpSession × List Effect) :
    Prop where
  state : result.1.connState = .established
  next : result.1.recvNext = ntohl (TcpHdr.seq f) + 1
  acked : result.1.ack2peer (ntohl (TcpHdr.seq f) + 1) ∈ result.2
  reported : .runOnConnEstabCB ∈ result.2

/-- The session is not established, its numbers stay, nothing is sent or
reported, and no assertion fails. -/
structure Ignores (s : TcpSession) (result : TcpSession × List Effect) :
    Prop where
  state : result.1.connState ≠ .established
  sendUnack : result.1.sendUnack = s.sendUnack
  sendNext : result.1.sendNext = s.sendNext
  irs : result.1.irs = s.irs
  recvNext : result.1.recvNext = s.recvNext
  silent : forall f payload, Effect.tx f payload ∉ result.2
  unreported : .runOnConnEstabCB ∉ result.2
  asserted : .assertion false ∉ result.2

/-- The answer to the SYN, and only that, completes the handshake; every other
segment is ignored. -/
def HandshakeLaw (s : TcpSession) (peerAddr : SockaddrIn) (skbuf : Skbuf) :
    Prop :=
  (Completes skbuf.head (s.recv peerAddr skbuf) <->
      s.AnswersSyn skbuf.head) ∧
    (¬ s.AnswersSyn skbuf.head -> s.Ignores (s.recv peerAddr skbuf))

theorem recv_synSent {s : TcpSession} (hsyn : s.connState = .synSent)
    (peerAddr : SockaddrIn) (skbuf : Skbuf) :
    s.recv peerAddr skbuf =
      (s.synReceived skbuf.head,
        [.assertion (TcpHdr.syn skbuf.head && TcpHdr.ack skbuf.head),
          (s.synReceived skbuf.head).ack2peer
            (ntohl (TcpHdr.seq skbuf.head) + 1), .runOnConnEstabCB]) := by
  have hcase := s.recv_cases peerAddr skbuf
  generalize s.recv peerAddr skbuf = result at hcase ⊢
  cases hcase with
  | syn _ => rfl
  | data hstate _ =>
      rw [hsyn] at hstate
      cases hstate
  | empty hstate _ =>
      rw [hsyn] at hstate
      cases hstate
  | other hother _ => exact absurd hsyn hother

theorem recv_completes {s : TcpSession} (hsyn : s.connState = .synSent)
    (peerAddr : SockaddrIn) (skbuf : Skbuf) :
    Completes skbuf.head (s.recv peerAddr skbuf) := by
  rw [recv_synSent hsyn]
  constructor
  · rfl
  · rfl
  · exact List.mem_cons_of_mem _ List.mem_cons_self
  · exact List.mem_cons_of_mem _ (List.mem_cons_of_mem _ List.mem_cons_self)

/-- The rule is kept exactly on the segments that answer the SYN. -/
theorem handshakeLaw_iff_answersSyn {s : TcpSession}
    (hsyn : s.connState = .synSent) (peerAddr : SockaddrIn) (skbuf : Skbuf) :
    s.HandshakeLaw peerAddr skbuf <-> s.AnswersSyn skbuf.head := by
  have hdone := recv_completes hsyn peerAddr skbuf
  constructor
  · intro hlaw
    exact hlaw.left.1 hdone
  · intro hanswer
    exact ⟨⟨fun _ => hanswer, fun _ => hdone⟩,
      fun hnot => absurd hanswer hnot⟩

/-!
## Segments without payload
-/

def peerControl (flags : UInt8) (seq ackSeq : UInt32) : Skbuf :=
  ⟨{ Segment.peerFrame seq [] (by decide) with
      rawBytes := List.replicate 20 0 ++
        store8 (store32 (Segment.peerHeader seq) 8 (ntohl ackSeq)) 13 flags
      size_le := by
        rw [List.length_append, length_store8, length_store32,
          Segment.length_peerHeader]
        decide }, []⟩

def synSentSession : TcpSession :=
  ((fresh (Session.create 0x0100a8c0) 0 0 0 0).connect 0x400 0x0200a8c0
    0x5000).session

theorem handshakeLaw_of_syn_ack :
    synSentSession.connState = .synSent ∧
      synSentSession.AnswersSyn (peerControl 0x12 7 2).head ∧
      synSentSession.HandshakeLaw (SockaddrIn.inet 0 0)
        (peerControl 0x12 7 2) := by
  have hanswer : synSentSession.AnswersSyn (peerControl 0x12 7 2).head :=
    ⟨by decide, by decide, by decide, by decide⟩
  exact ⟨rfl, hanswer, (handshakeLaw_iff_answersSyn rfl _ _).2 hanswer⟩

/-- The RST of a closed port establishes the connection; the assertion, which
a release build leaves out, fails. -/
theorem rst_completes_handshake :
    synSentSession.connState = .synSent ∧
      TcpHdr.rst (peerControl 0x14 0 2).head = true ∧
      TcpHdr.syn (peerControl 0x14 0 2).head = false ∧
      ((synSentSession.recv (SockaddrIn.inet 0 0)
        (peerControl 0x14 0 2)).1.connState = .established ∧
      .runOnConnEstabCB ∈ (synSentSession.recv (SockaddrIn.inet 0 0)
        (peerControl 0x14 0 2)).2 ∧
      .assertion false ∈ (synSentSession.recv (SockaddrIn.inet 0 0)
        (peerControl 0x14 0 2)).2) ∧
      ¬ synSentSession.HandshakeLaw (SockaddrIn.inet 0 0)
        (peerControl 0x14 0 2) := by
  have hdone := recv_completes (s := synSentSession) rfl (SockaddrIn.inet 0 0)
    (peerControl 0x14 0 2)
  have hrst : TcpHdr.rst (peerControl 0x14 0 2).head = true := by decide
  have hsyn : TcpHdr.syn (peerControl 0x14 0 2).head = false := by decide
  refine ⟨rfl, hrst, hsyn, ⟨hdone.state, hdone.reported, ?_⟩, ?_⟩
  · rw [recv_synSent rfl, hsyn]
    exact List.mem_cons_self
  · intro hlaw
    have hanswer := hlaw.left.1 hdone
    rw [AnswersSyn, hsyn] at hanswer
    exact absurd hanswer.left (by decide)

end TcpSession

end Velox
