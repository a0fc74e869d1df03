import Velox.Foundation.Runs
import Velox.Foundation.SeqWindow
import Velox.Tcp.Handshake

/-!
# What an acknowledgement may acknowledge

`TcpSession::recv` compares an acknowledgement number with `send_unack` as a
plain number and never with `send_next`.  The rule is that it must lie in the
window of outstanding numbers, by distance modulo `2 ^ 32`.
-/

namespace Velox

open Foundation

namespace TcpSession

def step (s : TcpSession) (op : Op) : Option TcpSession :=
  some (s.apply op).1

def ackNumber (skbuf : Skbuf) : UInt32 :=
  ntohl (TcpHdr.ackSeq skbuf.head)

/-- In the state `ESTABLISHED` a segment with the ACK flag moves `send_unack`
to its number if that acknowledges outstanding data, and leaves it otherwise. -/
def AckLaw (s : TcpSession) : Op -> Prop
  | .recv peerAddr skbuf =>
      s.connState = .established -> TcpHdr.ack skbuf.head = true ->
        (s.recv peerAddr skbuf).1.sendUnack =
          if InWindow s.sendUnack s.sendNext (ackNumber skbuf)
          then ackNumber skbuf else s.sendUnack
  | _ => True

/-- The number of a segment lies on the same side of `send_next` as
`send_unack` does. -/
def SameSide (s : TcpSession) : Op -> Prop
  | .recv _ skbuf =>
      s.connState = .established -> TcpHdr.ack skbuf.head = true ->
        (s.sendUnack <= s.sendNext <-> ackNumber skbuf <= s.sendNext)
  | _ => True

def FewOutstanding (s : TcpSession) : Op -> Prop
  | .send _ buf =>
      s.connState = .established ->
        (s.sendNext - s.sendUnack).toNat + buf.length < 2 ^ 31
  | _ => True

/-!
## One segment
-/

theorem recv_sendUnack {s : TcpSession} (hestab : s.connState = .established)
    (peerAddr : SockaddrIn) (skbuf : Skbuf) :
    (s.recv peerAddr skbuf).1.sendUnack =
      (s.readAck skbuf.head).sendUnack := by
  by_cases hlen : (stripTcpHdr skbuf.head).userPayloadLen = 0
  · rw [recv_empty hestab peerAddr hlen]
  · rw [recv_data hestab peerAddr hlen]
    rfl

theorem readAck_sendUnack {s : TcpSession} {skbuf : Skbuf}
    (hack : TcpHdr.ack skbuf.head = true) :
    (s.readAck skbuf.head).sendUnack =
      if s.sendUnack < ackNumber skbuf then ackNumber skbuf
      else s.sendUnack := by
  rw [readAck, hack, Bool.true_and, ackNumber]
  by_cases hlt : s.sendUnack < ntohl (TcpHdr.ackSeq skbuf.head)
  · rw [if_pos hlt, if_pos (decide_eq_true hlt)]
  · rw [if_neg hlt, if_neg (fun h => hlt (of_decide_eq_true h))]

theorem ackLaw_iff_sameSide (s : TcpSession) (op : Op) :
    s.AckLaw op <-> s.SameSide op := by
  cases op with
  | connect port faddr fport => exact Iff.rfl
  | send port buf => exact Iff.rfl
  | recv peerAddr skbuf =>
      refine forall_congr' fun hestab => forall_congr' fun hack => ?_
      rw [recv_sendUnack hestab, readAck_sendUnack hack,
        ite_eq_ite_iff (fun hlt => (UInt32.ne_of_lt hlt).symm) InWindow.ne]
      exact lt_iff_inWindow_iff

/-!
## Runs
-/

/-- `send_unack` has not passed `send_next`: between the SYN and its answer
there is the SYN outstanding, and later less than half of the sequence
space. -/
inductive NotPassed (s : TcpSession) : Prop where
  | closed (h : s.connState = .closed)
  | synSent (h : s.connState = .synSent) (hnext : s.sendNext = s.sendUnack + 1)
  | established (h : s.connState = .established)
      (hfew : (s.sendNext - s.sendUnack).toNat < 2 ^ 31)

theorem NotPassed.send {s : TcpSession} (h : s.NotPassed) (base : Session)
    (port : UInt16) (buf : Bytes)
    (hfew : s.connState = .established ->
      (s.sendNext - s.sendUnack).toNat + buf.length < 2 ^ 31) :
    (TcpSession.send { s with toSession := base } port buf).session.NotPassed
    := by
  have hcase := send_cases { s with toSession := base } port buf
  generalize TcpSession.send { s with toSession := base } port buf = result
    at hcase ⊢
  cases hcase with
  | syn _ => exact .synSent rfl rfl
  | data hestab =>
      refine .established hestab ?_
      have hbound := hfew hestab
      show (s.sendNext + UInt32.ofNat buf.length - s.sendUnack).toNat < _
      rw [distance_add (Nat.lt_trans hbound (by decide))]
      exact hbound
  | other hclosed hestab =>
      cases h with
      | closed hstate => exact absurd hstate hclosed
      | synSent hstate hnext => exact .synSent hstate hnext
      | established hstate _ => exact absurd hstate hestab

theorem NotPassed.recv {s : TcpSession} (h : s.NotPassed)
    (peerAddr : SockaddrIn) (skbuf : Skbuf)
    (hlaw : s.AckLaw (.recv peerAddr skbuf)) :
    (s.recv peerAddr skbuf).1.NotPassed := by
  cases h with
  | closed hstate =>
      have hsame : s.recv peerAddr skbuf = (s, []) := by
        rw [TcpSession.recv, hstate]
      rw [hsame]
      exact .closed hstate
  | synSent hstate hnext =>
      rw [recv_synSent hstate]
      refine .established rfl ?_
      show (s.sendNext - (s.sendUnack + 1)).toNat < _
      rw [hnext, UInt32.sub_self]
      decide
  | established hstate hfew =>
      rcases s.readAck_eq skbuf.head with ⟨una, hread⟩
      have hsession : (s.recv peerAddr skbuf).1.connState = .established ∧
          (s.recv peerAddr skbuf).1.sendNext = s.sendNext := by
        by_cases hlen : (stripTcpHdr skbuf.head).userPayloadLen = 0
        · rw [recv_empty hstate peerAddr hlen, hread]
          exact ⟨hstate, rfl⟩
        · rw [recv_data hstate peerAddr hlen, dataReceived, hread]
          exact ⟨hstate, rfl⟩
      refine .established hsession.left ?_
      rw [hsession.right]
      by_cases hack : TcpHdr.ack skbuf.head = true
      · rw [hlaw hstate hack]
        by_cases hwindow :
            InWindow s.sendUnack s.sendNext (ackNumber skbuf)
        · rw [if_pos hwindow]
          exact Nat.lt_trans hwindow.distance_lt hfew
        · rw [if_neg hwindow]
          exact hfew
      · rw [recv_sendUnack hstate, readAck, Bool.not_eq_true _ |>.mp hack]
        exact hfew

theorem NotPassed.step {s s' : TcpSession} {op : Op} (h : s.NotPassed)
    (hstep : s.AckLaw op ∧ s.FewOutstanding op)
    (hs' : TcpSession.step s op = some s') : s'.NotPassed := by
  cases hs'
  cases op with
  | connect port faddr fport =>
      refine h.send (s.toSession.connect port faddr fport).1
        (s.toSession.connect port faddr fport).2 [] ?_
      intro hestab
      cases h with
      | closed hstate =>
          rw [hestab] at hstate
          cases hstate
      | synSent hstate _ =>
          rw [hestab] at hstate
          cases hstate
      | established _ hfew => exact hfew
  | send port buf => exact h.send s.toSession port buf hstep.right
  | recv peerAddr skbuf => exact h.recv peerAddr skbuf hstep.left

/-- On a run of a session every acknowledgement is treated by the rule exactly
if each of them lies on the same side of `send_next` as `send_unack` does.
While the rule is kept, and less than half of the sequence space is
outstanding, `send_unack` does not pass `send_next`. -/
theorem ackLaw_run_iff_sameSide (base : Session)
    (sendUnack sendNext irs recvNext : UInt32) (ops : List Op) :
    (StepsMeet step AckLaw (fresh base sendUnack sendNext irs recvNext) ops <->
      StepsMeet step SameSide (fresh base sendUnack sendNext irs recvNext)
        ops) ∧
    (StepsMeet step AckLaw (fresh base sendUnack sendNext irs recvNext) ops ->
      StepsMeet step FewOutstanding
        (fresh base sendUnack sendNext irs recvNext) ops ->
      forall s, run step (fresh base sendUnack sendNext irs recvNext) ops =
        some s -> s.NotPassed) := by
  constructor
  · exact stepsMeet_congr (fun _ _ _ (_ : True) _ _ => trivial)
      (fun s op _ => s.ackLaw_iff_sameSide op) trivial
  · intro hlaw hfew s hrun
    exact guardedRun_invariant (fun _ _ _ h => h.step) (.closed rfl)
      (stepsMeet_and.2 ⟨hlaw, hfew⟩) hrun

def forgedAck : List Op :=
  [.connect 0x400 0x0200a8c0 0x5000,
    .recv (SockaddrIn.inet 0 0) (peerControl 0x12 7 2),
    .recv (SockaddrIn.inet 0 0) (peerControl 0x10 8 1000)]

/-- The forged number is taken although nothing is outstanding. -/
theorem forged_ack_passes_sendNext :
    (exists s, run step (fresh (Session.create 0x0100a8c0) 0 0 0 0) forgedAck =
        some s ∧ s.connState = .established ∧ s.sendNext = 2 ∧
        s.sendUnack = 1000 ∧ ¬ s.NotPassed) ∧
      StepsMeet step FewOutstanding
        (fresh (Session.create 0x0100a8c0) 0 0 0 0) forgedAck ∧
      ¬ StepsMeet step AckLaw (fresh (Session.create 0x0100a8c0) 0 0 0 0)
        forgedAck := by
  refine ⟨⟨_, rfl, by decide, by decide, by decide, ?_⟩,
    ⟨trivial, trivial, trivial, trivial⟩, ?_⟩
  · intro h
    cases h with
    | closed hstate => exact absurd hstate (by decide)
    | synSent hstate _ => exact absurd hstate (by decide)
    | established _ hfew => exact absurd hfew (by decide)
  · intro hlaw
    have hthird := hlaw.2.2.1 rfl (by decide)
    exact absurd hthird (by decide)

end TcpSession

end Velox
