import Velox.Arbiter.Names
import Velox.Foundation.Runs
import Velox.Ip.Rx

/-!
# Isolation of sockets

Any bytes at all may come from the device, and the other sockets of the daemon
may be opened, used and closed in any way.  What happens to one socket is
nevertheless only this: its session receives some packets, one after another,
and each of them has the four-tuple of the session.  Only the fields that a
socket has left zero are open to others than its peer.
-/

namespace Velox

open Foundation

/-- The packet has the four-tuple of the session, up to wildcards. -/
def Session.Accepts (s : Session) (skbuf : Skbuf) : Prop :=
  Sessions.Matches s (IpHdr.saddr skbuf.head) (UdpHdr.source skbuf.head)
    (IpHdr.daddr skbuf.head) (UdpHdr.dest skbuf.head)

/-- A frame, or anything that leaves one socket alone. -/
inductive TrafficAct (ρ : Type) where
  | frame (uninit : SockaddrIn) (bytes : Bytes)
  | others (udpPcbs tcpPcbs : List ρ) (socks : ρ -> Option Sock)

namespace Stack

variable {ρ : Type}

theorem find_accepts {st : Stack ρ} {pcbs : List ρ} {skbuf : Skbuf} {r : ρ}
    (h : Sessions.find st.lock pcbs (IpHdr.saddr skbuf.head)
      (UdpHdr.source skbuf.head) (IpHdr.daddr skbuf.head)
      (UdpHdr.dest skbuf.head) = some r) :
    exists sock, st.socks r = some sock ∧ sock.pcb.session.Accepts skbuf := by
  rcases firstBest_scored h with hnone | ⟨_, n, hscore⟩
  · cases hnone
  · rcases Option.bind_eq_some_iff.mp hscore with ⟨curr, hlock, haccum⟩
    rcases Option.map_eq_some_iff.mp hlock with ⟨sock, hsock, rfl⟩
    exact ⟨sock, hsock, (Sessions.accum_eq_some_iff.mp haccum).1⟩

variable [DecidableEq ρ]

def traffic (r : ρ) (st : Stack ρ) : TrafficAct ρ -> Option (Stack ρ)
  | .frame uninit bytes => (Ip.rx st uninit bytes).map Prod.fst
  | .others udpPcbs tcpPcbs socks =>
      some
        { st with
          udpPcbs := udpPcbs
          tcpPcbs := tcpPcbs
          socks := Function.update socks r (st.socks r) }

/-!
## One packet
-/

/-- The socket is as before, or it has received a packet for its session. -/
def Untouched (st : Stack ρ) (r : ρ) (st' : Stack ρ) : Prop :=
  forall sock, st.socks r = some sock ->
    st'.socks r = some sock ∨ exists given, sock.pcb.session.Accepts given.2 ∧
      st'.socks r = some (sock.receive given)

theorem deliver_untouched {st : Stack ρ} {found : ρ} {sock : Sock}
    (hfound : st.socks found = some sock) {skbuf : Skbuf}
    (haccepts : sock.pcb.session.Accepts skbuf) (peerAddr : SockaddrIn)
    (r : ρ) : st.Untouched r (st.deliver found peerAddr skbuf).1 := by
  intro old hold
  simp only [deliver, hfound]
  by_cases hr : r = found
  · subst hr
    cases Option.some.inj (hfound.symm.trans hold)
    exact Or.inr ⟨(peerAddr, skbuf), haccepts, Function.update_self _ _ _⟩
  · exact Or.inl ((Function.update_of_ne hr _ _).trans hold)

theorem udp_untouched (st : Stack ρ) (skbuf : Skbuf) (r : ρ) :
    st.Untouched r (Udp.rx st skbuf).1 := by
  unfold Udp.rx
  dsimp only
  split
  · exact fun _ hold => Or.inl hold
  case h_2 found hfind =>
    rcases find_accepts hfind with ⟨sock, hsock, haccepts⟩
    exact deliver_untouched hsock haccepts _ r

theorem tcp_untouched (st : Stack ρ) (uninit : SockaddrIn) (skbuf : Skbuf)
    (r : ρ) : st.Untouched r (Tcp.rx st uninit skbuf).1 := by
  unfold Tcp.rx
  dsimp only
  split
  · exact fun _ hold => Or.inl hold
  case h_2 found hfind =>
    rcases find_accepts hfind with ⟨sock, hsock, haccepts⟩
    exact deliver_untouched hsock haccepts _ r

theorem demultiplex_untouched (st : Stack ρ) (uninit : SockaddrIn)
    (iphdr : FrameBuf) (skbuf : Skbuf) (r : ρ) :
    st.Untouched r (Ip.demultiplex st uninit iphdr skbuf).1 := by
  unfold Ip.demultiplex
  split
  · exact st.udp_untouched _ r
  · exact st.tcp_untouched uninit _ r
  · exact fun _ hold => Or.inl hold

/-- The reassembler keeps fragments and touches no socket. -/
theorem rxLoop_untouched {st : Stack ρ} {uninit : SockaddrIn}
    {skbuf : FrameBuf} {result : Stack ρ × List Effect}
    (h : Ip.rxLoop st uninit skbuf = some result) (r : ρ) :
    st.Untouched r result.1 := by
  unfold Ip.rxLoop at h
  split at h
  · cases h
    exact fun _ hold => Or.inl hold
  · split at h
    · cases h
    · cases h
      exact fun _ hold => Or.inl hold
    case h_3 groups packet _ =>
      cases h
      exact demultiplex_untouched { st with groups := groups } uninit skbuf
        packet r

theorem rx_untouched {st : Stack ρ} {uninit : SockaddrIn} {bytes : Bytes}
    {result : Stack ρ × List Effect}
    (h : Ip.rx st uninit bytes = some result) (r : ρ) :
    st.Untouched r result.1 := by
  unfold Ip.rx at h
  dsimp only at h
  split at h
  · cases h
    exact fun _ hold => Or.inl hold
  · exact rxLoop_untouched h r

/-!
## All traffic
-/

/-- Whatever the device delivers and whatever the other sockets do, a socket
has received some packets of its own session in turn, and nothing else has
happened to it. -/
theorem traffic_isolated {r : ρ} {st st' : Stack ρ}
    {acts : List (TrafficAct ρ)} {sock : Sock}
    (hrun : run (traffic r) st acts = some st')
    (hsock : st.socks r = some sock) :
    exists given : List (SockaddrIn × Skbuf),
      st'.socks r = some (given.foldl Sock.receive sock) ∧
      forall p, p ∈ given -> sock.pcb.session.Accepts p.2 := by
  induction acts generalizing st sock with
  | nil =>
      cases hrun
      exact ⟨[], hsock, fun _ hp => absurd hp List.not_mem_nil⟩
  | cons a rest ih =>
      rcases run_cons hrun with ⟨mid, hstep, hrest⟩
      cases a with
      | frame uninit bytes =>
          rcases Option.map_eq_some_iff.mp hstep with ⟨result, hrx, rfl⟩
          rcases rx_untouched hrx r sock hsock with
            hsame | ⟨first, haccepts, hfirst⟩
          · exact ih hrest hsame
          · rcases ih hrest hfirst with ⟨given, hgiven, hall⟩
            rw [sock.session_receive first] at hall
            exact ⟨first :: given, hgiven,
              List.forall_mem_cons.mpr ⟨haccepts, hall⟩⟩
      | others udpPcbs tcpPcbs socks =>
          cases hstep
          exact ih hrest ((Function.update_self _ _ _).trans hsock)

def connectedSock : Sock where
  so := Endpoint.create false
  pcb := .udp ⟨2, 5, 1, 6⟩

def peerTraffic : List (TrafficAct Nat) :=
  [.others [1, 0] []
      (fun _ => some ⟨Endpoint.create false, .udp ⟨0, 0, 1, 6⟩⟩),
    .frame (SockaddrIn.inet 0 0)
      (TunIface.tx (Ip.tx 0 (UdpSession.datagram ⟨1, 6, 2, 5⟩ [7]) [7]).1)]

theorem traffic_isolated_peer :
    exists st', run (traffic 0) ⟨[], [0], [], fun _ => some connectedSock⟩
        peerTraffic = some st' ∧
      exists given : List (SockaddrIn × Skbuf),
        st'.socks 0 = some (given.foldl Sock.receive connectedSock) ∧
        forall p, p ∈ given -> connectedSock.pcb.session.Accepts p.2 := by
  have hruns : exists st', run (traffic 0)
      ⟨[], [0], [], fun _ => some connectedSock⟩ peerTraffic = some st' :=
    ⟨_, rfl⟩
  rcases hruns with ⟨st', hrun⟩
  exact ⟨st', hrun, traffic_isolated hrun rfl⟩

end Stack

end Velox
