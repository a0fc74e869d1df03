import Velox.Arbiter.Ports
import Velox.Arbiter.Sendto
import Velox.Foundation.Rotation

/-!
# Identifications

All packets of the daemon get their identification from one generator, whose
16-bit variable skips zero when it wraps.  Up to multiples of 65535 the
variable is the number of calls, so the packets on the wire are numbered from
one to 65535 round and round, whichever sessions send them.  The event loop
and the packet thread both send, and nothing locks the generator: this is so
only as long as their calls of `Ip::tx` do not overlap.
-/

namespace Velox

open Foundation

namespace IpIdGenerator

def fresh : UInt16 := 0

def lastAfter (n : Nat) : UInt16 :=
  (fun last => (next last).2)^[n] fresh

/-- What the `n`-th call on a fresh generator returns, counted from one. -/
def call (n : Nat) : UInt16 :=
  (next (lastAfter (n - 1))).1

def Counts (last : UInt16) (n : Nat) : Prop :=
  last.toNat % 65535 = n % 65535

theorem ntohs_next (last : UInt16) : ntohs (next last).1 = (next last).2 :=
  ntohs_ntohs _

/-- The reset before the increment is a remainder. -/
theorem toNat_next (last : UInt16) :
    (next last).2.toNat = last.toNat % 65535 + 1 := by
  by_cases hmax : last = 65535
  · rw [hmax]
    rfl
  · have hstep : (next last).2 = last + 1 := by
      rw [next, if_neg hmax]
    have hlt := last.toNat_lt
    have hne : last.toNat ≠ 65535 := fun heq => hmax (UInt16.toNat_inj.mp heq)
    rw [hstep, toNat_succ_port hmax, Nat.mod_eq_of_lt (by lia)]

theorem counts_fresh : Counts fresh 0 := rfl

namespace Counts

variable {last : UInt16} {n : Nat}

theorem toNat_result (h : Counts last n) :
    (ntohs (IpIdGenerator.next last).1).toNat = n % 65535 + 1 := by
  rw [ntohs_next, toNat_next, h]

theorem next (h : Counts last n) :
    Counts (IpIdGenerator.next last).2 (n + 1) := by
  rw [Counts, toNat_next, h, Nat.mod_add_mod]

end Counts

theorem counts_lastAfter (n : Nat) : Counts (lastAfter n) n := by
  induction n with
  | zero => exact counts_fresh
  | succ n ih =>
      rw [lastAfter, Function.iterate_succ_apply']
      exact ih.next

theorem toNat_call (n : Nat) :
    (ntohs (call n)).toNat = (n - 1) % 65535 + 1 :=
  (counts_lastAfter (n - 1)).toNat_result

end IpIdGenerator

/-!
## Packets and their identifications
-/

def wireId (pkt : Bytes) : Nat :=
  (ntohs (load16 pkt 4)).toNat

def lastSent (last : UInt16) : List Effect -> UInt16
  | [] => last
  | .tx head payload :: rest => lastSent (Ip.tx last head payload).2 rest
  | _ :: rest => lastSent last rest

/-- If the effect is a packet, it has on the wire the identification that the
generator returns for it. -/
def Effect.Identified : Effect -> Prop
  | .tx f payload =>
      forall last, load16 (TunIface.tx (Ip.tx last f payload).1) 4 =
        (IpIdGenerator.next last).1
  | _ => True

/-!
Every packet of a session has its header where `Ip::tx` writes the
identification.
-/

theorem UdpSession.datagram_identified (s : Session) (buf : Bytes) :
    (Effect.tx (UdpSession.datagram s buf) buf).Identified := by
  intro last
  exact (UdpSession.datagram_headed s buf).load16_id
    (Nat.le_of_eq (UdpSession.length_datagramBytes s buf).symm) (by decide)
    (UdpSession.datagramBytes_first s buf) last buf

namespace TcpSession

theorem Addressed.identified {s : TcpSession} {f : FrameBuf} {tcp : Bytes}
    (h : s.Addressed f tcp) (buf : Bytes) :
    (Effect.tx (s.prepareBeforeIpTx f buf) buf).Identified := by
  intro last
  exact (h.prepared buf).headed.load16_id (h.size buf) (by decide)
    (h.first buf) last buf

theorem send_identified (s : TcpSession) (port : UInt16) (buf : Bytes) :
    forall e, e ∈ (s.send port buf).effects -> e.Identified := by
  have hcase := s.send_cases port buf
  generalize s.send port buf = result at hcase ⊢
  cases hcase with
  | syn _ =>
      exact List.forall_mem_singleton.2
        ((s.superSend port).syn_addressed.identified buf)
  | data _ =>
      exact List.forall_mem_singleton.2
        ((s.superSend port).data_addressed.identified buf)
  | other _ _ => exact List.forall_mem_nil _

theorem recv_identified (s : TcpSession) (peerAddr : SockaddrIn)
    (skbuf : Skbuf) :
    forall e, e ∈ (s.recv peerAddr skbuf).2 -> e.Identified := by
  have hcase := s.recv_cases peerAddr skbuf
  generalize s.recv peerAddr skbuf = result at hcase ⊢
  cases hcase with
  | syn _ =>
      have hack := ((s.synReceived skbuf.head).ack_addressed
        (ntohl (TcpHdr.seq skbuf.head) + 1)).identified []
      exact List.forall_mem_cons.2 ⟨trivial,
        List.forall_mem_cons.2 ⟨hack, List.forall_mem_singleton.2 trivial⟩⟩
  | data _ _ =>
      have hack := ((s.dataReceived skbuf.head).ack_addressed
        (s.dataReceived skbuf.head).recvNext).identified []
      exact List.forall_mem_cons.2 ⟨trivial,
        List.forall_mem_singleton.2 hack⟩
  | empty _ _ => exact List.forall_mem_nil _
  | other _ _ => exact List.forall_mem_nil _

end TcpSession

namespace Pcb

/-- The effects of an operation; connecting a UDP session sends nothing. -/
def performEffects (pcb : Pcb) (port : UInt16) (op : BindingOp) :
    List Effect :=
  match pcb, op with
  | .udp _, .connect _ _ => []
  | .udp s, .send buf => (UdpSession.send s port buf).effects
  | .udp s, .sendTo faddr fport buf =>
      (UdpSession.sendTo s port faddr fport buf).effects
  | .tcp s, .connect faddr fport => (s.connect port faddr fport).effects
  | .tcp s, .send buf => (s.send port buf).effects
  | .tcp s, .sendTo _ _ buf => (s.send port buf).effects

theorem performEffects_identified (pcb : Pcb) (port : UInt16)
    (op : BindingOp) :
    forall e, e ∈ pcb.performEffects port op -> e.Identified := by
  cases pcb with
  | udp s =>
      cases op with
      | connect faddr fport => exact List.forall_mem_nil _
      | send buf =>
          exact List.forall_mem_singleton.2
            (UdpSession.datagram_identified _ buf)
      | sendTo faddr fport buf =>
          exact List.forall_mem_singleton.2
            (UdpSession.datagram_identified _ buf)
  | tcp s =>
      cases op with
      | connect faddr fport => exact TcpSession.send_identified _ _ []
      | send buf => exact s.send_identified port buf
      | sendTo faddr fport buf => exact s.send_identified port buf

theorem recv_identified (pcb : Pcb) (peerAddr : SockaddrIn) (skbuf : Skbuf) :
    forall e, e ∈ (pcb.recv peerAddr skbuf).2 -> e.Identified := by
  cases pcb with
  | udp s => exact List.forall_mem_singleton.2 trivial
  | tcp s => exact s.recv_identified peerAddr skbuf

end Pcb

def PortTable.effects (s : PortTable) : Action -> List Effect
  | .perform i op =>
      (s.session i).elim [] fun pcb =>
        pcb.performEffects (s.port pcb.isTcp) op
  | .recv i peerAddr skbuf =>
      (s.session i).elim [] fun pcb => (pcb.recv peerAddr skbuf).2
  | .create _ _ _ => []
  | .destroy _ => []

theorem PortTable.effects_identified (s : PortTable) (a : Action) :
    forall e, e ∈ s.effects a -> e.Identified := by
  cases a with
  | create isTcp laddr uninit => exact List.forall_mem_nil _
  | destroy i => exact List.forall_mem_nil _
  | perform i op =>
      rw [effects]
      cases s.session i with
      | none => exact List.forall_mem_nil _
      | some pcb => exact pcb.performEffects_identified _ op
  | recv i peerAddr skbuf =>
      rw [effects]
      cases s.session i with
      | none => exact List.forall_mem_nil _
      | some pcb => exact pcb.recv_identified peerAddr skbuf

/-!
## Runs of the daemon

The two threads interleave between any two accesses to `last`.
-/

def Ip.txWithId (id : UInt16) (skbufHead : FrameBuf) (userPayload : Bytes) :
    TxFrame :=
  let iphdr := IpHdr.setIhl (IpHdr.setVersion skbufHead 4) (20 / 4)
  let named := IpHdr.setId iphdr id
  let check := Csum16.checksum (named.pointee named.networkHdr)
    (IpHdr.ihl named * 4) 0
  { skbuf := IpHdr.setCheck named check.toUInt16, userPayload := userPayload }

theorem Ip.tx_eq_txWithId (last : UInt16) (f : FrameBuf) (payload : Bytes) :
    (Ip.tx last f payload).1 =
      Ip.txWithId (IpIdGenerator.next last).1 f payload :=
  rfl

inductive Sender where
  | eventLoop
  | packetThread
  deriving DecidableEq

def Sender.other : Sender -> Sender
  | .eventLoop => .packetThread
  | .packetThread => .eventLoop

theorem Sender.eq_other {t t' : Sender} (h : t' ≠ t) : t' = t.other := by
  cases t <;> cases t' <;> first | rfl | exact absurd rfl h

/-- Where a thread stands in `Ip::tx`: before the test of `last`, before it is
reset, before `++last` reads it and writes it back, and with the number that
the packet gets. -/
inductive TxPc where
  | test
  | reset
  | load
  | store (seen : UInt16)
  | named (id : UInt16)
  deriving DecidableEq

/-- The sessions of the daemon, the variable of the generator, the packets
that have been written to the device, and for each thread the packets that it
has still to send and where it stands in sending the first of them. -/
structure Transmitter where
  table : PortTable
  last : UInt16
  wire : List Bytes
  sending : Sender -> List (FrameBuf × Bytes)
  pc : Sender -> TxPc

/-- An operation on a session up to its calls of `Ip::tx`, or the next access
of a thread in such a call. -/
inductive TxAct where
  | perform (a : PortTable.Action)
  | advance (t : Sender)

/-- Packets arrive in a thread of their own. -/
def PortTable.Action.sender : PortTable.Action -> Sender
  | .recv _ _ _ => .packetThread
  | _ => .eventLoop

def Effect.packet? : Effect -> Option (FrameBuf × Bytes)
  | .tx f payload => some (f, payload)
  | _ => none

namespace Transmitter

def init : Transmitter where
  table := PortTable.init
  last := IpIdGenerator.fresh
  wire := []
  sending := fun _ => []
  pc := fun _ => .test

def goto (s : Transmitter) (t : Sender) (pc : TxPc) : Transmitter :=
  { s with pc := Function.update s.pc t pc }

def advance (s : Transmitter) (t : Sender) : Option Transmitter :=
  match s.sending t with
  | [] => none
  | (f, payload) :: rest =>
      match s.pc t with
      | .test => some (s.goto t (if s.last = 65535 then .reset else .load))
      | .reset => some { s.goto t .load with last := 0 }
      | .load => some (s.goto t (.store s.last))
      | .store seen =>
          some { s.goto t (.named (seen + 1)) with last := seen + 1 }
      | .named id =>
          some
            { s.goto t .test with
              wire := s.wire ++
                [TunIface.tx (Ip.txWithId (ntohs id) f payload)]
              sending := Function.update s.sending t rest }

def step (s : Transmitter) : TxAct -> Option Transmitter
  | .perform a =>
      if s.sending a.sender = [] then
        (s.table.step a).map fun table =>
          { s with
            table := table
            sending := Function.update s.sending a.sender
              ((s.table.effects a).filterMap Effect.packet?) }
      else none
  | .advance t => s.advance t

/-- A thread begins a call only while the other one is in none. -/
def Apart (s : Transmitter) : TxAct -> Prop
  | .perform _ => True
  | .advance t => s.pc t = .test -> s.pc t.other = .test

instance (s : Transmitter) : forall a, Decidable (s.Apart a)
  | .perform _ => isTrue trivial
  | .advance t =>
      inferInstanceAs (Decidable (s.pc t = .test -> s.pc t.other = .test))

/-!
## The variable within a call
-/

/-- What a thread alone in a call finds in `last`, with `n` packets sent. -/
def StandsAt (last : UInt16) (n : Nat) : TxPc -> Prop
  | .test => IpIdGenerator.Counts last n
  | .reset => last = 65535 ∧ IpIdGenerator.Counts last n
  | .load => last ≠ 65535 ∧ IpIdGenerator.Counts last n
  | .store seen =>
      seen = last ∧ last ≠ 65535 ∧ IpIdGenerator.Counts last n
  | .named id => last = id ∧ exists before,
      id = (IpIdGenerator.next before).2 ∧ IpIdGenerator.Counts before n

/-- The packets on the wire are numbered from the beginning of the count, and
at most one thread is in a call. -/
structure Numbered (s : Transmitter) : Prop where
  ids : s.wire.map wireId = rotation 65535 0 s.wire.length
  identified : forall t p, p ∈ s.sending t -> (Effect.tx p.1 p.2).Identified
  counts : exists t, (forall t', t' ≠ t -> s.pc t' = .test) ∧
    StandsAt s.last s.wire.length (s.pc t)

theorem numbered_init : init.Numbered where
  ids := rfl
  identified := fun _ _ hp => absurd hp List.not_mem_nil
  counts := ⟨.eventLoop, fun _ _ => rfl, IpIdGenerator.counts_fresh⟩

theorem packet?_identified {e : Effect} {p : FrameBuf × Bytes}
    (h : e.Identified) (hp : e.packet? = some p) :
    (Effect.tx p.1 p.2).Identified := by
  cases e with
  | tx f payload =>
      cases hp
      exact h
  | putToRecvQ | runOnConnEstabCB | assertion => cases hp

theorem numbered_perform {s s' : Transmitter} {a : PortTable.Action}
    (h : s.Numbered) (hstep : s.step (.perform a) = some s') :
    s'.Numbered := by
  by_cases hidle : s.sending a.sender = []
  · rw [step, if_pos hidle] at hstep
    rcases Option.map_eq_some_iff.1 hstep with ⟨table, _, rfl⟩
    refine ⟨h.ids, ?_, h.counts⟩
    intro t p hp
    change p ∈ Function.update s.sending a.sender _ t at hp
    by_cases ht : t = a.sender
    · rw [ht, Function.update_self] at hp
      rcases List.mem_filterMap.1 hp with ⟨e, he, hpacket⟩
      exact packet?_identified (s.table.effects_identified a e he) hpacket
    · rw [Function.update_of_ne ht] at hp
      exact h.identified t p hp
  · rw [step, if_neg hidle] at hstep
    cases hstep

theorem Numbered.standsAt {s : Transmitter} (h : s.Numbered) {t : Sender}
    (hapart : s.Apart (.advance t)) :
    (forall t', t' ≠ t -> s.pc t' = .test) ∧
      StandsAt s.last s.wire.length (s.pc t) := by
  rcases h.counts with ⟨inside, hothers, hstands⟩
  by_cases ht : t = inside
  · subst ht
    exact ⟨hothers, hstands⟩
  · have htest := hothers t ht
    have hother := hapart htest
    rw [Sender.eq_other (Ne.symm ht), hother] at hstands
    rw [htest]
    refine ⟨?_, hstands⟩
    intro t' ht'
    rw [Sender.eq_other ht']
    exact hother

theorem goto_others {s : Transmitter} {t : Sender}
    (h : forall t', t' ≠ t -> s.pc t' = .test) (pc : TxPc) :
    (forall t', t' ≠ t -> (s.goto t pc).pc t' = .test) ∧
      (s.goto t pc).pc t = pc := by
  constructor
  · intro t' ht'
    show Function.update s.pc t pc t' = .test
    rw [Function.update_of_ne ht']
    exact h t' ht'
  · show Function.update s.pc t pc t = pc
    rw [Function.update_self]

theorem Numbered.access {s : Transmitter} (h : s.Numbered) {t : Sender}
    (hothers : forall t', t' ≠ t -> s.pc t' = .test) {pc : TxPc}
    {last : UInt16} (hstands : StandsAt last s.wire.length pc) :
    Numbered { s.goto t pc with last := last } := by
  rcases goto_others hothers pc with ⟨hothers', hpc⟩
  refine ⟨h.ids, h.identified, t, hothers', ?_⟩
  rw [← hpc] at hstands
  exact hstands

theorem wireId_txWithId {f : FrameBuf} {payload : Bytes}
    (h : (Effect.tx f payload).Identified) {before : UInt16} {n : Nat}
    (hcounts : IpIdGenerator.Counts before n) :
    wireId (TunIface.tx (Ip.txWithId
      (ntohs (IpIdGenerator.next before).2) f payload)) = n % 65535 + 1 := by
  have hid : ntohs (IpIdGenerator.next before).2 =
      (IpIdGenerator.next before).1 := rfl
  rw [hid, ← Ip.tx_eq_txWithId, wireId, h before, hcounts.toNat_result]

theorem Numbered.sent {s : Transmitter} (h : s.Numbered) {t : Sender}
    (hothers : forall t', t' ≠ t -> s.pc t' = .test) {f : FrameBuf}
    {payload : Bytes} {rest : List (FrameBuf × Bytes)}
    (hsending : s.sending t = (f, payload) :: rest) {before : UInt16}
    (hlast : s.last = (IpIdGenerator.next before).2)
    (hcounts : IpIdGenerator.Counts before s.wire.length) :
    Numbered
      { s.goto t .test with
        wire := s.wire ++ [TunIface.tx (Ip.txWithId
          (ntohs (IpIdGenerator.next before).2) f payload)]
        sending := Function.update s.sending t rest } := by
  have hmem : (f, payload) ∈ s.sending t := by
    rw [hsending]
    exact List.mem_cons_self
  have hid := wireId_txWithId (h.identified t _ hmem) hcounts
  rcases goto_others hothers .test with ⟨hothers', hpc⟩
  constructor
  case ids =>
    show (s.wire ++ [_]).map wireId = rotation 65535 0 (s.wire ++ [_]).length
    rw [List.map_append, List.map_singleton, hid, h.ids, List.length_append,
      List.length_singleton, ← rotation_append, Nat.zero_add]
    rfl
  case identified =>
    intro t' p hp
    change p ∈ Function.update s.sending t rest t' at hp
    by_cases ht : t' = t
    · rw [ht, Function.update_self] at hp
      apply h.identified t p
      rw [hsending]
      exact List.mem_cons_of_mem _ hp
    · rw [Function.update_of_ne ht] at hp
      exact h.identified t' p hp
  case counts =>
    refine ⟨t, hothers', ?_⟩
    show StandsAt s.last (s.wire ++ [_]).length ((s.goto t .test).pc t)
    rw [hpc, hlast, List.length_append, List.length_singleton]
    exact hcounts.next

theorem advance_numbered {s s' : Transmitter} {t : Sender}
    (h : s.Numbered) (hapart : s.Apart (.advance t))
    (hstep : s.step (.advance t) = some s') : s'.Numbered := by
  have hadvance : s.advance t = some s' := hstep
  rcases h.standsAt hapart with ⟨hothers, hstands⟩
  unfold advance at hadvance
  cases hsending : s.sending t with
  | nil =>
      rw [hsending] at hadvance
      cases hadvance
  | cons p rest =>
      rw [hsending] at hadvance
      cases hpc : s.pc t with
      | test =>
          simp only [hpc] at hadvance hstands
          cases hadvance
          apply h.access hothers
          by_cases hmax : s.last = 65535
          · rw [if_pos hmax]
            exact ⟨hmax, hstands⟩
          · rw [if_neg hmax]
            exact ⟨hmax, hstands⟩
      | reset =>
          simp only [hpc] at hadvance hstands
          cases hadvance
          rcases hstands with ⟨hmax, hcounts⟩
          apply h.access hothers
          refine ⟨by decide, ?_⟩
          rw [hmax] at hcounts
          exact hcounts
      | load =>
          simp only [hpc] at hadvance hstands
          cases hadvance
          exact h.access hothers ⟨rfl, hstands⟩
      | store seen =>
          simp only [hpc] at hadvance hstands
          cases hadvance
          rcases hstands with ⟨rfl, hmax, hcounts⟩
          apply h.access hothers
          refine ⟨rfl, s.last, ?_, hcounts⟩
          rw [IpIdGenerator.next, if_neg hmax]
      | named id =>
          simp only [hpc] at hadvance hstands
          cases hadvance
          rcases hstands with ⟨hlast, before, rfl, hcounts⟩
          exact h.sent hothers hsending hlast hcounts

theorem run_numbered {actions : List TxAct} {s : Transmitter}
    (hmeet : StepsMeet step Apart init actions)
    (hrun : run step init actions = some s) : s.Numbered := by
  refine guardedRun_invariant ?_ numbered_init hmeet hrun
  intro s a s' h hapart hstep
  cases a with
  | perform a => exact numbered_perform h hstep
  | advance t => exact advance_numbered h hapart hstep

namespace Numbered

variable {s : Transmitter}

/-- Each packet has the result of a call of its own. -/
theorem load16_wire (h : s.Numbered) {i : Nat} {pkt : Bytes}
    (hpkt : s.wire[i]? = some pkt) :
    load16 pkt 4 = IpIdGenerator.call (i + 1) := by
  have hlt : i < s.wire.length := (List.getElem?_eq_some_iff.1 hpkt).1
  have hid : (s.wire.map wireId)[i]? = some (wireId pkt) := by
    rw [List.getElem?_map, hpkt]
    rfl
  rw [h.ids, getElem?_rotation 0 hlt, Nat.zero_add] at hid
  have hcall := IpIdGenerator.toNat_call (i + 1)
  rw [Nat.add_sub_cancel, Option.some.inj hid] at hcall
  exact ntohs_inj (UInt16.toNat_inj.mp hcall.symm)

theorem wireId_ne_zero (h : s.Numbered) {pkt : Bytes} (hpkt : pkt ∈ s.wire) :
    wireId pkt ≠ 0 := by
  have hmem : wireId pkt ∈ rotation 65535 0 s.wire.length := by
    rw [← h.ids]
    exact List.mem_map_of_mem hpkt
  exact Nat.ne_of_gt (pos_of_mem_rotation hmem)

theorem window_nodup (h : s.Numbered) {w : List Bytes} (hw : w <:+: s.wire)
    (hlen : w.length <= 65535) : (w.map wireId).Nodup := by
  have hids : w.map wireId <:+: rotation 65535 0 s.wire.length := by
    rw [← h.ids]
    exact hw.map wireId
  exact nodup_of_infix_rotation hids (by rw [List.length_map]; exact hlen)

end Numbered

/-- The calls of `next` on a fresh generator return the numbers from one to
65535 round and round.  Whatever the sessions of the daemon do, as long as the
calls of `Ip::tx` do not overlap, the packets on the wire have the results of
these calls in turn, no identification is zero, and those of at most 65535
successive packets are different. -/
theorem identification_sequence {actions : List TxAct} {s : Transmitter}
    (hmeet : StepsMeet step Apart init actions)
    (hrun : run step init actions = some s) :
    (forall n, 1 <= n ->
      (ntohs (IpIdGenerator.call n)).toNat = (n - 1) % 65535 + 1 ∧
        IpIdGenerator.call n ≠ 0) ∧
      (forall i pkt, s.wire[i]? = some pkt ->
        load16 pkt 4 = IpIdGenerator.call (i + 1)) ∧
      (forall pkt, pkt ∈ s.wire -> wireId pkt ≠ 0) ∧
      forall w, w <:+: s.wire -> w.length <= 65535 ->
        (w.map wireId).Nodup := by
  have hnumbered := run_numbered hmeet hrun
  refine ⟨?_, fun _ _ hpkt => hnumbered.load16_wire hpkt,
    fun _ hpkt => hnumbered.wireId_ne_zero hpkt,
    fun _ hw hlen => hnumbered.window_nodup hw hlen⟩
  intro n _
  have hcall := IpIdGenerator.toNat_call n
  refine ⟨hcall, ?_⟩
  intro hzero
  rw [hzero] at hcall
  cases hcall

/-!
A TCP session connects, and a UDP session is there.  Then the answer to the
SYN arrives while a datagram is sent: the packet thread acknowledges the one,
the event loop sends the other.
-/

def synAckSegment : Skbuf :=
  ⟨{ TunIface.rx (List.replicate 32 0 ++ [0x50, 0x12] ++ List.replicate 6 0)
      with transportHdr := some 20 }, []⟩

def wholeCall (t : Sender) : List TxAct :=
  [.advance t, .advance t, .advance t, .advance t]

def bothSend : List TxAct :=
  [.perform (.create true 0x0200a8c0 0),
    .perform (.perform 0 (.connect 0x0100a8c0 0x5000))] ++
    wholeCall .eventLoop ++
  [.perform (.create false 0x0200a8c0 0),
    .perform (.perform 1 (.sendTo 0x0300a8c0 0x3500 [1])),
    .perform (.recv 0 (SockaddrIn.inet 0x0100a8c0 0x5000) synAckSegment)]

def oneAfterTheOther : List TxAct :=
  bothSend ++ wholeCall .packetThread ++ wholeCall .eventLoop

theorem identification_sequence_oneAfterTheOther :
    (ntohs (IpIdGenerator.call 65536)).toNat = 1 ∧
      exists s, run step init oneAfterTheOther = some s ∧
        s.wire.length = 3 ∧ (s.wire.map wireId).Nodup := by
  have hmeet : StepsMeet step Apart init oneAfterTheOther := by decide
  rcases identification_sequence hmeet rfl with ⟨hcall, _, _, hwindow⟩
  exact ⟨(hcall 65536 (by decide)).1, _, rfl, rfl,
    hwindow _ List.infix_rfl (by decide)⟩

/-- Both threads read `last` before either has written it back. -/
def bothRead : List TxAct :=
  bothSend ++ [.advance .eventLoop, .advance .eventLoop,
    .advance .packetThread, .advance .packetThread, .advance .eventLoop,
    .advance .packetThread, .advance .eventLoop, .advance .packetThread]

theorem overlapping_calls_repeat_identification :
    exists s, run step init bothRead = some s ∧
      s.wire.map wireId = [1, 2, 2] ∧ ¬ (s.wire.map wireId).Nodup :=
  ⟨_, rfl, rfl, by decide⟩

end Transmitter

end Velox
