import Velox.Arbiter.ChannelSteps

/-!
# Notifications

A byte in the notify pipe stands for packets in the queue, loosely: a packet
may be taken while its byte is still unread.  No wake-up is lost by that, but
a byte that is left over makes the event loop wait for a packet that may not
come.
-/

namespace Velox
namespace Channel

variable {ι : Type}

/-- A reader waits, or is about to wait, for the next notification. -/
def Arms (waiting : Bool) : LoopPc -> Prop
  | .recvfromEmpty _ _ => True
  | .recvfromBound _ => True
  | .draining => False
  | .drained => False
  | .calling => False
  | .taken _ => False
  | .called => False
  | .idle => waiting = true
  | .handling _ _ => waiting = true
  | .connectBound _ _ => waiting = true
  | .writing _ => waiting = true

def Notified (pipe : Nat) (ip : List IpOp) : Prop :=
  0 < pipe ∨ IpOp.markSChannelAsReadable ∈ ip

theorem Notified.tail {pipe : Nat} {op : IpOp} {rest : List IpOp}
    (h : Notified pipe (op :: rest)) (hop : op ≠ .markSChannelAsReadable) :
    Notified pipe rest := by
  rcases h with hpipe | hmark
  · exact Or.inl hpipe
  · rcases List.mem_cons.1 hmark with heq | htail
    · exact absurd heq.symm hop
    · exact Or.inr htail

theorem Notified.cons {pipe : Nat} {rest : List IpOp} (op : IpOp)
    (h : Notified pipe rest) : Notified pipe (op :: rest) := by
  rcases h with hpipe | hmark
  · exact Or.inl hpipe
  · exact Or.inr (List.mem_cons_of_mem op hmark)

/-!
## No lost wake-up
-/

/-- The invariant: where a reader waits, queued packets are notified. -/
def Watched (s : Channel ι) : Prop :=
  Arms s.so.waiting s.loop -> s.so.recvQ ≠ [] -> Notified s.so.pipe s.ip

theorem watched_of_opened {s : Channel ι} (h : Opened s) : Watched s := by
  rcases h.eq_opened with
    ⟨c, domain, type, protocol, nonblocking, pcb, _, rfl⟩
  intro _ hq
  exact absurd rfl hq

theorem pipe_pos_of_mark (so : Endpoint) :
    0 < so.markSChannelAsReadable.pipe := by
  show 0 < (if so.pipe < Endpoint.pipeCapacity then so.pipe + 1 else so.pipe)
  split
  · exact Nat.succ_pos _
  · rename_i hfull
    exact Nat.lt_of_lt_of_le (by decide) (Nat.le_of_not_lt hfull)

variable [DecidableEq ι]

theorem watched_step {s s' : Channel ι} {a : Action ι} (h : Watched s)
    (hstep : Step s a s') : Watched s' := by
  unfold Watched at h
  cases hstep with
  | send | skip | receive => exact h
  | read _ _ _ hloop | finish _ _ _ _ _ hloop | bindRecv _ _ _ hloop
  | bindConn _ _ _ _ hloop | connect _ _ _ hloop | writeLoop _ _ hloop =>
      rw [hloop] at h
      exact h
  | take port k len flags requireAddr packet rest hloop hq =>
      rw [hloop] at h
      intro hwaiting _
      exact h hwaiting (by rw [hq]; nofun)
  | empty port k len flags requireAddr hloop hq hblock =>
      intro _ hne
      exact absurd hq hne
  | wait port k hloop =>
      rw [hloop] at h
      intro _
      exact h trivial
  | notWaiting port hloop hwaiting =>
      intro harms
      exact absurd (hwaiting.symm.trans harms) nofun
  -- no reader is about to wait
  | pipe | drainMore | drainDone | call | noCallback | takeAsync |
    writeAsync =>
      intro harms
      exact harms.elim
  | finishAsync port hloop =>
      intro harms
      cases harms
  | deliver peerAddr skbuf hip =>
      intro harms hq
      rw [hip] at h
      rcases h harms hq with hpipe | hmark
      · exact Or.inl hpipe
      · cases hmark
  | ipDrop _ rest hip | ipWrite _ rest hip =>
      intro harms hq
      rw [hip] at h
      exact (h harms hq).tail nofun
  | ipPut _ _ rest hip | ipRun rest hip =>
      intro harms hq
      rw [hip] at h
      exact ((h harms hq).tail nofun).cons _
  | ipEnqueue packet rest hip =>
      intro _ _
      exact Or.inr List.mem_cons_self
  | ipMark rest hip =>
      intro _ _
      exact Or.inl (pipe_pos_of_mark s.so)

/-- Where the event loop is idle and a reader waits, a queued packet has its
notification in the pipe or about to be written. -/
theorem no_lost_wakeup {s : Channel ι} (h : Reachable s)
    (hloop : s.loop = .idle) (hwaiting : s.so.waiting = true)
    (hq : s.so.recvQ ≠ []) :
    0 < s.so.pipe ∨ IpOp.markSChannelAsReadable ∈ s.ip := by
  have hwatched : Watched s :=
    reachable_invariant (fun _ => watched_of_opened)
      (fun _ _ _ hinv hstep => watched_step hinv hstep) h
  unfold Watched at hwatched
  rw [hloop] at hwatched
  exact hwatched hwaiting hq

def udpOpened : Channel Unit :=
  opened () 2 2 0 ⟨Endpoint.create false, .udp (Session.create 0x0100a8c0)⟩
    (RpcDispatch.okResponse (.socketCall (RpcDispatch.ret 0)))

theorem opened_udpOpened : Opened udpOpened :=
  ⟨(), 0x0100a8c0, 0, 0, 2, 2, 0, _, _, rfl, rfl⟩

def datagram : Skbuf :=
  ⟨{ TunIface.rx (List.replicate 30 0) with transportHdr := some 20 }, []⟩

def peer : SockaddrIn :=
  SockaddrIn.inet 0x0200a8c0 0x3500

def recvfromWaits : List (Action Unit) :=
  [.chanSend () (.recvfromCall 64 0 true), .readReady, .loopStep 0,
    .loopStep 0, .loopStep 0, .loopStep 0]

/-- The arrival of a datagram, up to the place before the pipe is written. -/
def datagramQueued : List (Action Unit) :=
  [.ipDeliver peer datagram, .ipStep, .ipStep]

def queuedWhileWaiting : Channel Unit :=
  (Foundation.run step udpOpened (recvfromWaits ++ datagramQueued)).getD
    udpOpened

theorem no_lost_wakeup_queued_while_waiting :
    queuedWhileWaiting.so.recvQ ≠ [] ∧
      (0 < queuedWhileWaiting.so.pipe ∨
        IpOp.markSChannelAsReadable ∈ queuedWhileWaiting.ip) :=
  ⟨nofun, no_lost_wakeup ⟨udpOpened, recvfromWaits ++ datagramQueued,
    opened_udpOpened, rfl⟩ rfl rfl nofun⟩

/-!
## Notifications that are left over
-/

def Fetches (waiting : Bool) : LoopPc -> Prop
  | .draining => waiting = true
  | .drained => waiting = true
  | .calling => True
  | _ => False

/-- The invariant: a notification that a reader will follow has a packet. -/
structure Supplied (s : Channel ι) : Prop where
  notified : Arms s.so.waiting s.loop -> Notified s.so.pipe s.ip ->
    s.so.recvQ ≠ []
  fetched : Fetches s.so.waiting s.loop -> s.so.recvQ ≠ []

/-- A `recvfrom` that empties the queue under a waiting reader, or finds it
empty and will wait, leaves no notification behind. -/
def NoneLeftOver (s : Channel ι) : Action ι -> Prop
  | .loopStep _ =>
      match s.loop with
      | .handling _ (.recvfromCall _ _ _) =>
          (s.so.recvQ = [] ∧ s.so.nonblocking = false) ∨
            (s.so.recvQ.length = 1 ∧ s.so.waiting = true) ->
          ¬ Notified s.so.pipe s.ip
      | _ => True
  | _ => True

omit [DecidableEq ι] in
theorem noneLeftOver_recvfrom {s : Channel ι} {port : UInt16} {k : Nat}
    {len flags : Int32} {requireAddr : Bool}
    (h : s.NoneLeftOver (.loopStep port))
    (hloop : s.loop = .handling k (.recvfromCall len flags requireAddr)) :
    (s.so.recvQ = [] ∧ s.so.nonblocking = false) ∨
        (s.so.recvQ.length = 1 ∧ s.so.waiting = true) ->
      ¬ Notified s.so.pipe s.ip := by
  unfold NoneLeftOver at h
  rw [hloop] at h
  exact h

theorem supplied_step {s s' : Channel ι} {a : Action ι} (h : Supplied s)
    (hguard : NoneLeftOver s a) (hstep : Step s a s') : Supplied s' := by
  rcases h with ⟨hnotified, hfetched⟩
  cases hstep with
  | send | skip | receive => exact ⟨hnotified, hfetched⟩
  | read _ _ _ hloop | finish _ _ _ _ _ hloop | bindRecv _ _ _ hloop
  | bindConn _ _ _ _ hloop | connect _ _ _ hloop | writeLoop _ _ hloop =>
      rw [hloop] at hnotified
      exact ⟨hnotified, nofun⟩
  | pipe hloop hpipe =>
      rw [hloop] at hnotified
      exact ⟨nofun, fun hwaiting => hnotified hwaiting (Or.inl hpipe)⟩
  | take port k len flags requireAddr packet rest hloop hq =>
      refine ⟨?_, nofun⟩
      intro hwaiting hleft hempty
      refine noneLeftOver_recvfrom hguard hloop (Or.inr ⟨?_, hwaiting⟩) hleft
      rw [hq, show rest = [] from hempty]
      rfl
  | empty port k len flags requireAddr hloop hq hblock =>
      refine ⟨?_, nofun⟩
      intro _ hleft
      have hnone := noneLeftOver_recvfrom hguard hloop (Or.inl ⟨hq, hblock⟩)
      exact absurd hleft hnone
  | wait port k hloop =>
      rw [hloop] at hnotified
      exact ⟨fun _ => hnotified trivial, nofun⟩
  | drainMore _ hloop | drainDone _ hloop =>
      rw [hloop] at hfetched
      exact ⟨nofun, hfetched⟩
  | notWaiting port hloop hwaiting =>
      refine ⟨?_, nofun⟩
      intro hidle
      exact absurd (hwaiting.symm.trans hidle) nofun
  | call port hloop hwaiting =>
      rw [hloop] at hfetched
      exact ⟨nofun, fun _ => hfetched hwaiting⟩
  | noCallback | takeAsync | writeAsync | finishAsync => exact ⟨nofun, nofun⟩
  | deliver peerAddr skbuf hip =>
      refine ⟨?_, hfetched⟩
      intro harms hleft
      rcases hleft with hpipe | hmark
      · exact hnotified harms (Or.inl hpipe)
      · rcases List.mem_map.1 hmark with ⟨e, _, heq⟩
        cases heq
  | ipDrop _ rest hip | ipWrite _ rest hip =>
      refine ⟨?_, hfetched⟩
      intro harms hleft
      rw [hip] at hnotified
      exact hnotified harms (hleft.cons _)
  | ipPut _ _ rest hip | ipRun rest hip =>
      refine ⟨?_, hfetched⟩
      intro harms hleft
      rw [hip] at hnotified
      exact hnotified harms ((hleft.tail nofun).cons _)
  | ipEnqueue packet rest hip =>
      exact ⟨fun _ _ => List.concat_ne_nil _ _, fun _ => List.concat_ne_nil _ _⟩
  | ipMark rest hip =>
      refine ⟨?_, hfetched⟩
      intro harms _
      exact hnotified harms (Or.inr (by rw [hip]; exact List.mem_cons_self))

omit [DecidableEq ι] in
theorem supplied_of_opened {s : Channel ι} (h : Opened s) : Supplied s := by
  rcases h.eq_opened with
    ⟨c, domain, type, protocol, nonblocking, pcb, _, rfl⟩
  constructor
  · intro harms
    cases harms
  · intro hfetches
    exact hfetches.elim

/-- Where no notification is left over, the callback finds a packet. -/
theorem callback_finds_packet {s : Channel ι}
    (h : ReachableBy NoneLeftOver s) (hloop : s.loop = .calling) :
    s.so.recvQ ≠ [] := by
  have hsupplied : Supplied s :=
    reachableBy_invariant (fun _ => supplied_of_opened)
      (fun _ _ _ hinv hguard hstep => supplied_step hinv hguard hstep) h
  have hfetched := hsupplied.fetched
  rw [hloop] at hfetched
  exact hfetched trivial

def notificationRead : List (Action Unit) :=
  [.pipeReady, .loopStep 0, .loopStep 0, .loopStep 0]

/-- A datagram is read at once while its notification stays in the pipe, and
the next `recvfrom` waits. -/
def notificationLeftOver : List (Action Unit) :=
  datagramQueued ++
    [.ipStep, .chanSend () (.recvfromCall 64 0 true), .readReady, .loopStep 0,
      .loopStep 0, .chanRecv ()] ++
    recvfromWaits ++ notificationRead

def callingWithoutPacket : Channel Unit :=
  (Foundation.run step udpOpened notificationLeftOver).getD udpOpened

theorem left_over_notification_blocks_event_loop :
    Reachable callingWithoutPacket ∧
      callingWithoutPacket.loop = .calling ∧
      callingWithoutPacket.so.waiting = true ∧
      callingWithoutPacket.so.recvQ = [] ∧
      forall port, callingWithoutPacket.step (.loopStep port) = none :=
  ⟨⟨udpOpened, notificationLeftOver, opened_udpOpened, rfl⟩, rfl, rfl, rfl,
    fun _ => rfl⟩

def datagramNotified : List (Action Unit) :=
  recvfromWaits ++ datagramQueued ++ [.ipStep] ++ notificationRead

def callingWithPacket : Channel Unit :=
  (Foundation.run step udpOpened datagramNotified).getD udpOpened

theorem callback_finds_packet_notified :
    ReachableBy NoneLeftOver callingWithPacket ∧
      callingWithPacket.so.recvQ ≠ [] := by
  have hreach : ReachableBy NoneLeftOver callingWithPacket := by
    refine ⟨udpOpened, datagramNotified, opened_udpOpened, ?_, rfl⟩
    refine ⟨trivial, trivial, ?_, trivial, trivial, trivial, trivial, trivial,
      trivial, trivial, trivial, trivial, trivial, trivial, trivial⟩
    intro _ hleft
    rcases hleft with hpipe | hmark
    · exact absurd hpipe (Nat.lt_irrefl 0)
    · cases hmark
  exact ⟨hreach, callback_finds_packet hreach rfl⟩

end Channel
end Velox
