import Velox.Foundation.Runs
import Velox.Network.Mailboxes

/-!
# Datagrams across a network

Hosts that run the daemon exchange packets over a network that may lose,
repeat, delay and misdirect them, but neither alters nor makes up any.  Each
answer to a `recvfrom` on a UDP socket is then the datagram of some sender:
the sender's bytes, as far as they fit into one frame, under the sender's
address and port, and in the order of arrival.
-/

namespace Velox

open Foundation

structure Network (η : Type) where
  host : η -> Host
  wire : List (Bytes × Option Message)
  sent : List Message

def Genuine (pkt : Bytes) : Option Message -> Prop
  | some m => OnWire 17 m.tuple 28 m.payload pkt
  | none => exists s p, OnWire 6 s 40 p pkt

/-!
## What a host transmits
-/

theorem sentPackets_isSegment {effects : List Effect} {last : UInt16}
    (h : forall e, e ∈ effects -> e.IsSegment) :
    forall p, p ∈ sentPackets last effects -> Genuine p.1 none := by
  induction effects generalizing last with
  | nil => exact List.forall_mem_nil _
  | cons e rest ih =>
      rcases List.forall_mem_cons.1 h with ⟨hfirst, hrest⟩
      cases e with
      | tx f p =>
          rcases hfirst last with ⟨s, hwire⟩
          exact List.forall_mem_cons.2 ⟨⟨s, p, hwire⟩, ih hrest⟩
      | putToRecvQ peerAddr skbuf => exact ih hrest
      | runOnConnEstabCB => exact ih hrest
      | assertion holds => exact ih hrest

theorem Host.packets_segments (host : Host) {effects : List Effect}
    (h : forall e, e ∈ effects -> e.IsSegment) {pkt : Bytes}
    {m : Option Message} (hmem : (pkt, m) ∈ host.packets effects none) :
    Genuine pkt m := by
  rcases List.mem_map.1 hmem with ⟨p, hp, heq⟩
  cases heq
  exact sentPackets_isSegment h p hp

theorem Host.packets_datagram (host : Host) (m : Message) {pkt : Bytes}
    {m' : Option Message}
    (hmem : (pkt, m') ∈ host.packets
      [.tx (UdpSession.datagram m.tuple m.payload) m.payload] (some m)) :
    Genuine pkt m' := by
  have hpacket : (pkt, m') = (TunIface.tx (Ip.tx host.last
      (UdpSession.datagram m.tuple m.payload) m.payload).1, some m) :=
    List.mem_singleton.1 hmem
  rcases Prod.mk.inj hpacket with ⟨hpkt, hm⟩
  rw [hpkt, hm]
  exact UdpSession.datagram_onWire m.tuple host.last m.payload

theorem Host.perform_packets (host : Host) (r : Nat) (sock : Sock)
    (op : BindingOp) {pkt : Bytes} {m : Option Message}
    (hmem : (pkt, m) ∈ (host.perform r sock op).2) : Genuine pkt m := by
  rcases sock with ⟨so, pcb⟩
  cases pcb with
  | udp s =>
      cases op with
      | connect faddr fport => exact absurd hmem List.not_mem_nil
      | send buf => exact host.packets_datagram ⟨_, buf⟩ hmem
      | sendTo faddr fport buf =>
          simp only [Host.perform, Pcb.performEffects,
            UdpSession.sendTo_effects] at hmem
          exact host.packets_datagram ⟨_, buf⟩ hmem
  | tcp s =>
      cases op with
      | connect faddr fport =>
          exact host.packets_segments (TcpSession.send_isSegment _ _ []) hmem
      | send buf => exact host.packets_segments (s.send_isSegment _ buf) hmem
      | sendTo faddr fport buf =>
          exact host.packets_segments (s.send_isSegment _ buf) hmem

theorem Host.act_packets {host : Host} {a : Host.Act}
    {result : Host × List (Bytes × Option Message)}
    (h : host.act a = some result) {pkt : Bytes} {m : Option Message}
    (hmem : (pkt, m) ∈ result.2) : Genuine pkt m := by
  cases a with
  | perform r op =>
      rcases Option.map_eq_some_iff.1 h with ⟨sock, _, rfl⟩
      exact host.perform_packets r sock op hmem
  | socketCall laddr uninit type =>
      rcases Option.map_eq_some_iff.1 h with ⟨made, _, rfl⟩
      exact absurd hmem List.not_mem_nil
  | recvfromCall r requireAddr =>
      rcases Option.map_eq_some_iff.1 h with ⟨sock, _, rfl⟩
      exact absurd hmem List.not_mem_nil
  | notify r =>
      rcases Option.bind_eq_some_iff.1 h with ⟨sock, _, hread⟩
      rcases Option.map_eq_some_iff.1 hread with ⟨handled, _, rfl⟩
      exact absurd hmem List.not_mem_nil
  | close r =>
      cases h
      exact absurd hmem List.not_mem_nil

theorem RpcDispatch.socketCall_recvQ {laddr uninit : UInt32} {type : Int32}
    {made : Sock × Response}
    (h : RpcDispatch.socketCall laddr uninit type = some made) :
    made.1.so.recvQ = [] := by
  unfold RpcDispatch.socketCall at h
  split at h
  · cases h
    rfl
  · split at h
    · cases h
      rfl
    · cases h

theorem Mailboxes.act {sent : List Message} {host : Host} {a : Host.Act}
    {result : Host × List (Bytes × Option Message)} (h : Mailboxes sent host)
    (hact : host.act a = some result) : Mailboxes sent result.1 := by
  cases a with
  | socketCall laddr uninit type =>
      rcases Option.map_eq_some_iff.1 hact with ⟨made, hmade, rfl⟩
      exact h.openSocket (RpcDispatch.socketCall_recvQ hmade)
  | perform r op =>
      rcases Option.map_eq_some_iff.1 hact with ⟨sock, hlive, rfl⟩
      exact h.perform hlive op
  | recvfromCall r requireAddr =>
      rcases Option.map_eq_some_iff.1 hact with ⟨sock, hlive, rfl⟩
      exact h.recvfromCall hlive requireAddr
  | notify r =>
      rcases Option.bind_eq_some_iff.1 hact with ⟨sock, hlive, hread⟩
      rcases Option.map_eq_some_iff.1 hread with ⟨handled, hhandled, rfl⟩
      exact h.notify hlive hhandled
  | close r =>
      cases hact
      exact h.close r

/-!
## Runs of the network
-/

namespace Network

variable {η : Type}

def init : Network η where
  host := fun _ => Host.init
  wire := []
  sent := []

/-- A host acts, or some packet on the wire arrives at a host; it stays on the
wire and may arrive again. -/
inductive Act (η : Type) where
  | host (h : η) (a : Host.Act)
  | arrive (h : η) (i : Nat) (uninit : SockaddrIn)

/-- Every packet is genuine, every message on the wire has been sent, and the
sockets are mailboxes. -/
structure Honest (n : Network η) : Prop where
  genuine : forall pkt m, (pkt, m) ∈ n.wire -> Genuine pkt m
  recorded : forall pkt m, (pkt, some m) ∈ n.wire -> m ∈ n.sent
  mailboxes : forall h, Mailboxes n.sent (n.host h)

theorem honest_init : (init : Network η).Honest where
  genuine := fun _ _ hmem => absurd hmem List.not_mem_nil
  recorded := fun _ _ hmem => absurd hmem List.not_mem_nil
  mailboxes := fun _ => Mailboxes.init _

variable [DecidableEq η]

def after (n : Network η) (h : η)
    (result : Host × List (Bytes × Option Message)) : Network η where
  host := Function.update n.host h result.1
  wire := n.wire ++ result.2
  sent := n.sent ++ result.2.filterMap Prod.snd

def step (n : Network η) : Act η -> Option (Network η)
  | .host h a => ((n.host h).act a).map (n.after h)
  | .arrive h i uninit =>
      (n.wire[i]?).bind fun p =>
        ((n.host h).arrive uninit p.1 p.2).map (n.after h)

theorem Honest.after {n : Network η} (hn : n.Honest) {h : η}
    {result : Host × List (Bytes × Option Message)}
    (hbox : Mailboxes n.sent result.1)
    (hgenuine : forall pkt m, (pkt, m) ∈ result.2 -> Genuine pkt m) :
    (n.after h result).Honest where
  genuine := by
    intro pkt m hmem
    rcases List.mem_append.1 hmem with hold | hnew
    · exact hn.genuine pkt m hold
    · exact hgenuine pkt m hnew
  recorded := by
    intro pkt m hmem
    rcases List.mem_append.1 hmem with hold | hnew
    · exact List.mem_append_left _ (hn.recorded pkt m hold)
    · exact List.mem_append_right _ (List.mem_filterMap.2 ⟨_, hnew, rfl⟩)
  mailboxes := by
    intro h'
    show Mailboxes _ (Function.update n.host h result.1 h')
    by_cases heq : h' = h
    · rw [heq, Function.update_self]
      exact hbox.mono _
    · rw [Function.update_of_ne heq]
      exact (hn.mailboxes h').mono _

theorem Honest.step {n n' : Network η} {a : Act η} (hn : n.Honest)
    (hstep : n.step a = some n') : n'.Honest := by
  cases a with
  | host h a =>
      rcases Option.map_eq_some_iff.1 hstep with ⟨result, hact, rfl⟩
      exact hn.after ((hn.mailboxes h).act hact)
        (fun _ _ hmem => Host.act_packets hact hmem)
  | arrive h i uninit =>
      rcases Option.bind_eq_some_iff.1 hstep with ⟨⟨pkt, m⟩, hwire, hrest⟩
      rcases Option.map_eq_some_iff.1 hrest with ⟨result, harrive, rfl⟩
      have hmem : (pkt, m) ∈ n.wire := List.mem_of_getElem? hwire
      have hgenuine := hn.genuine pkt m hmem
      cases m with
      | some m =>
          rcases (hn.mailboxes h).arrive_datagram (hn.recorded pkt m hmem)
            hgenuine uninit harrive with ⟨hbox, hnone⟩
          refine hn.after hbox ?_
          rw [hnone]
          exact fun _ _ hmem => absurd hmem List.not_mem_nil
      | none =>
          rcases hgenuine with ⟨s, p, hsegment⟩
          rcases (hn.mailboxes h).arrive_segment hsegment uninit harrive with
            ⟨hbox, effects, hpackets, hall⟩
          refine hn.after hbox ?_
          rw [hpackets]
          exact fun _ _ hmem => (n.host h).packets_segments hall hmem

/-- Whatever the hosts and the network do, the data that a UDP socket has
given out are messages that were sent, to an address and port of that socket
at the time of arrival and from its peer if it was connected, each with its
sender's address; they come in the order of arrival, and no arrival is given
out twice. -/
theorem datagrams_arrive_as_sent {acts : List (Act η)} {n : Network η}
    (hrun : run step init acts = some n) (h : η) {r : Nat}
    (hudp : r ∈ (n.host h).stack.udpPcbs) :
    (exists taken, taken <+: ((n.host h).arrived r).map Prod.fst ∧
      List.Forall₂ (fun resp m => Message.Answers resp m)
        ((n.host h).received r) taken) ∧
    forall m s, (m, s) ∈ (n.host h).arrived r -> m ∈ n.sent ∧
      Sessions.Matches s m.tuple.laddr m.tuple.lport m.tuple.faddr
        m.tuple.fport := by
  have hn : n.Honest :=
    run_invariant (fun _ _ _ hold hstep => hold.step hstep) honest_init hrun
  have hboxes := hn.mailboxes h
  rcases hboxes.mailbox r hudp with ⟨taken, left, hsplit, hanswers, _⟩
  exact ⟨⟨taken, hsplit ▸ List.prefix_append taken left, hanswers⟩,
    hboxes.arrivals r⟩

/-- Two hosts: one is bound to a port and reads what the other sends there. -/
def oneDatagram : List (Act Bool) :=
  [.host false (.socketCall 0x0200a8c0 0 2),
    .host false (.perform 0 (.sendTo 0x0100a8c0 0x3500 [])),
    .host true (.socketCall 0x0100a8c0 0 2),
    .host true (.perform 0 (.sendTo 0x0200a8c0 0x0104 [104, 105])),
    .arrive false 1 (SockaddrIn.inet 0 0),
    .host false (.recvfromCall 0 true)]

theorem oneDatagram_read :
    exists n, run step init oneDatagram = some n ∧
      (n.host false).stack.udpPcbs = [0] ∧
      ((n.host false).received 0).length = 1 :=
  ⟨_, rfl, rfl, rfl⟩

theorem one_datagram_arrives_as_sent :
    exists n, run step init oneDatagram = some n ∧
      0 ∈ (n.host false).stack.udpPcbs ∧
      ((n.host false).received 0).length = 1 ∧
      (exists taken, taken <+: ((n.host false).arrived 0).map Prod.fst ∧
        List.Forall₂ (fun resp m => Message.Answers resp m)
          ((n.host false).received 0) taken) ∧
      forall m s, (m, s) ∈ (n.host false).arrived 0 -> m ∈ n.sent ∧
        Sessions.Matches s m.tuple.laddr m.tuple.lport m.tuple.faddr
          m.tuple.fport := by
  rcases oneDatagram_read with ⟨n, hrun, hudp, hread⟩
  have hmem : 0 ∈ (n.host false).stack.udpPcbs := by
    rw [hudp]
    exact List.mem_singleton.2 rfl
  exact ⟨n, hrun, hmem, hread, datagrams_arrive_as_sent hrun false hmem⟩

end Network

end Velox
