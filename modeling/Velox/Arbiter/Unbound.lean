import Velox.Arbiter.DaemonStack

/-!
# Sessions without a local port

A UDP session is on the list of its protocol from `socketCall` on, with the
local port zero until it is connected or sends.  Zero is a wildcard in the
other fields of a session; the local port is compared with that of the packet
as it is.  So a packet to the port zero finds the sessions that have none.
-/

namespace Velox

open Foundation

namespace Udp

variable {ρ : Type}

def DeliversTo (st : Stack ρ) (skbuf : Skbuf) (r : ρ) : Prop :=
  Sessions.find st.lock st.udpPcbs (IpHdr.saddr skbuf.head)
    (UdpHdr.source skbuf.head) (IpHdr.daddr skbuf.head)
    (UdpHdr.dest skbuf.head) = some r

def Accepts (st : Stack ρ) (skbuf : Skbuf) (r : ρ) : Prop :=
  exists s, st.lock r = some s ∧
    Sessions.Matches s (IpHdr.saddr skbuf.head) (UdpHdr.source skbuf.head)
      (IpHdr.daddr skbuf.head) (UdpHdr.dest skbuf.head)

section Rx

variable [DecidableEq ρ] {st : Stack ρ} {skbuf : Skbuf}

theorem rx_of_deliversTo {r : ρ} (h : DeliversTo st skbuf r) :
    rx st skbuf = st.deliver r (SockaddrIn.inet (IpHdr.saddr skbuf.head)
      (UdpHdr.source skbuf.head)) skbuf := by
  unfold DeliversTo at h
  unfold rx
  dsimp only
  rw [h]

theorem rx_of_no_receiver (h : forall r, ¬ DeliversTo st skbuf r) :
    rx st skbuf = (st, []) := by
  have hnone := Option.eq_none_iff_forall_ne_some.2 h
  unfold rx
  dsimp only
  rw [hnone]

end Rx

variable {st : Stack ρ} {skbuf : Skbuf}

theorem DeliversTo.accepts {r : ρ} (h : DeliversTo st skbuf r) :
    r ∈ st.udpPcbs ∧ Accepts st skbuf r := by
  have hbest := (Sessions.find_bestMatch st.lock st.udpPcbs _ _ _ _).right.left
    r h
  rcases hbest with ⟨before, after, n, hsplit, hmatch, _⟩
  rcases hmatch with ⟨s, hlock, hmatches, _⟩
  refine ⟨?_, s, hlock, hmatches⟩
  rw [hsplit]
  exact List.mem_append_right before List.mem_cons_self

theorem exists_deliversTo {r : ρ} (hmem : r ∈ st.udpPcbs)
    (haccepts : Accepts st skbuf r) : exists r', DeliversTo st skbuf r' := by
  rcases haccepts with ⟨s, hlock, hmatches⟩
  by_contra hnone
  have hfind := Option.eq_none_iff_forall_ne_some.2 (not_exists.1 hnone)
  have hall := (Sessions.find_bestMatch st.lock st.udpPcbs _ _ _ _).left.1
    hfind
  exact hall r hmem _ ⟨s, hlock, hmatches, rfl⟩

/-- Only sessions with a local port get the packet, unless it is for the port
zero and one of the listed sessions accepts it. -/
theorem receivers_bound_iff (st : Stack ρ) (skbuf : Skbuf) :
    (forall r s, DeliversTo st skbuf r -> st.lock r = some s ->
        s.lport ≠ 0) <->
      (UdpHdr.dest skbuf.head ≠ 0 ∨
        forall r, r ∈ st.udpPcbs -> ¬ Accepts st skbuf r) := by
  constructor
  case mp =>
    intro hbound
    by_contra hcase
    rw [not_or, not_not] at hcase
    rcases hcase with ⟨hdest, hsome⟩
    apply hsome
    intro r hmem haccepts
    rcases exists_deliversTo hmem haccepts with ⟨r', hdelivers⟩
    rcases hdelivers.accepts.right with ⟨s, hlock, hmatches⟩
    exact hbound r' s hdelivers hlock (hmatches.left.trans hdest)
  case mpr =>
    intro hcase r s hdelivers hlock
    rcases hdelivers.accepts with ⟨hmem, haccepts⟩
    cases hcase with
    | inl hdest =>
        rcases haccepts with ⟨s', hlock', hmatches⟩
        rw [hlock] at hlock'
        cases hlock'
        rw [hmatches.left]
        exact hdest
    | inr hnone => exact absurd haccepts (hnone r hmem)

/-!
A process has opened a UDP socket and done nothing else with it, and a
datagram to the port zero arrives.
-/

def openedSocket : List DaemonAct :=
  [.accept, .socketCall 0 0x0100a8c0 0 2]

def portZeroFrame : Bytes :=
  [0x45, 0, 0, 28, 0, 1, 0, 0, 64, 17, 0, 0, 192, 168, 0, 2, 192, 168, 0, 1,
    0, 7, 0, 0, 0, 8, 0, 0]

def portZeroSkbuf : Skbuf :=
  Ip.withTransportHdr (TunIface.rx portZeroFrame)
    ⟨TunIface.rx portZeroFrame, []⟩

theorem unbound_receives_port_zero :
    exists d, run Daemon.step Daemon.init openedSocket = some d ∧
      d.toStack.lock 2 = some (Session.create 0x0100a8c0) ∧
      (Session.create 0x0100a8c0).lport = 0 ∧
      DeliversTo d.toStack portZeroSkbuf 2 ∧
      (Ip.rx d.toStack (SockaddrIn.inet 0 0) portZeroFrame).map
        (fun out => (out.1.socks 2).map fun sock => sock.so.recvQ.length) =
          some (some 1) :=
  ⟨_, rfl, rfl, rfl, rfl, rfl⟩

end Udp

end Velox
