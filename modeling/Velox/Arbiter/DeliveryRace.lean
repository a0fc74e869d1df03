import Velox.Arbiter.Linkage

/-!
# Delivery while a socket is closed

The IP thread finds the session of a packet and then locks the endpoint of the
session, without a test of the result.  In between it owns the session only,
and the event loop can take the endpoint away: by removing the channel, or by
a `socketCall` that gives the channel another socket.
-/

namespace Velox

open Foundation

namespace Daemon

variable {d d' : Daemon}

/-!
## The lock of the endpoint
-/

theorem delivery_step {a : DaemonAct} (ha : a.IsEventLoop)
    (hstep : d.step a = some d') : d'.delivery = d.delivery := by
  cases step_cases hstep with
  | accept => rfl
  | socketCall _ _ _ _ _ _ => rfl
  | removeRRChannel _ => rfl
  | request _ _ _ _ hdelivery _ _ => exact hdelivery
  | answer _ _ _ _ _ hdelivery _ _ => exact hdelivery
  | notFound _ _ _ _ => exact absurd ha id
  | found _ _ _ _ _ _ _ _ => exact absurd ha id
  | locked _ _ _ _ _ _ => exact absurd ha id
  | ignored _ _ _ _ _ => exact absurd ha id
  | put _ _ _ _ _ _ _ _ _ _ => exact absurd ha id

theorem delivery_of_eventLoop {acts : List DaemonAct}
    (hloop : forall a, a ∈ acts -> a.IsEventLoop)
    (hrun : run step d acts = some d') : d'.delivery = d.delivery := by
  induction acts generalizing d with
  | nil =>
      cases hrun
      rfl
  | cons a rest ih =>
      rcases run_cons hrun with ⟨mid, hstep, hrest⟩
      rw [List.forall_mem_cons] at hloop
      rw [ih hloop.right hrest, delivery_step hloop.left hstep]

theorem lockSocket_iff (h : d.Links) {o : Opened} (ho : o ∈ d.opened)
    {peerAddr : SockaddrIn} {skbuf : Skbuf}
    (hfound : d.delivery = .found o.session peerAddr skbuf) :
    d.lockSocket o.session ≠ none <-> d.Current o := by
  have hflight : d.delivery.endpoint = none := by
    rw [hfound]
    rfl
  simp only [lockSocket, h.opened_socket o ho]
  rw [← h.endpoint_live_iff hflight ho]
  constructor
  · intro hlock
    by_contra hdead
    exact hlock (if_neg hdead)
  · intro hmem
    rw [if_pos hmem]
    nofun

theorem recv_ne_none_iff {s : Nat} {peerAddr : SockaddrIn} {skbuf : Skbuf}
    (hfound : d.delivery = .found s peerAddr skbuf) :
    d.step .recv ≠ none <->
      (queues (d.session s).pcb peerAddr skbuf = true ->
        d.lockSocket s ≠ none) := by
  show d.recv ≠ none <-> _
  simp only [recv, hfound]
  cases hqueues : queues (d.session s).pcb peerAddr skbuf with
  | false =>
      rw [if_neg Bool.false_ne_true]
      exact ⟨nofun, nofun⟩
  | true =>
      rw [if_pos rfl, imp_iff_right rfl]
      cases d.lockSocket s with
      | none => exact ⟨fun hne => absurd rfl hne, fun hne => absurd rfl hne⟩
      | some e => exact ⟨nofun, nofun⟩

/-- A delivery that begins in any state a run reaches, with any actions of the
event loop before the endpoint is locked: the pointer is not null where it is
dereferenced exactly if none of these actions takes its socket from the
channel that opened the session. -/
theorem delivery_safe_iff {before between : List DaemonAct}
    {dfound dlock : Daemon} {tcp : Bool} {uninit peerAddr : SockaddrIn}
    {skbuf : Skbuf} {s : Nat} (hbefore : run step init before = some d)
    (hfind : d.step (.find tcp uninit skbuf) = some dfound)
    (hfound : dfound.delivery = .found s peerAddr skbuf)
    (hbetween : run step dfound between = some dlock)
    (hloop : forall a, a ∈ between -> a.IsEventLoop) :
    exists o, o ∈ d.opened ∧ o.session = s ∧
      (dlock.step .recv ≠ none <->
        (queues (dlock.session s).pcb peerAddr skbuf = true ->
          forall a, a ∈ between -> ¬ a.Ends o.channel)) := by
  have hlinks := (invariants_of_run hbefore).left
  have hlock := (delivery_of_eventLoop hloop hbetween).trans hfound
  cases step_cases hfind with
  | notFound _ _ _ hidle =>
      rw [hidle] at hfound
      cases hfound
  | found _ _ _ s' peerAddr' hidle hlisted hlive =>
      cases hfound
      rcases hlinks.listed tcp s hlisted with ⟨o, ho, rfl⟩
      have hcurrent := (hlinks.live_iff hidle ho).1 hlive
      have hlinksFound := links_step hlinks hfind
      have hlinksLock := links_run hlinksFound hbetween
      refine ⟨o, ho, rfl, ?_⟩
      rw [recv_ne_none_iff hlock,
        lockSocket_iff hlinksLock (opened_run hbetween ho) hlock,
        current_run_iff hlinksFound ho hbetween]
      exact imp_congr_right fun _ => and_iff_right hcurrent

/-!
The channel of the socket that the datagram is for is removed after the
session has been found.
-/

def foundDatagram : Daemon :=
  (run step init (openAndBind ++ [findDatagram])).getD init

def boundDaemon : Daemon :=
  (run step init openAndBind).getD init

theorem delivery_safe_with_accept :
    exists o, o ∈ boundDaemon.opened ∧ o.session = 2 ∧
      (foundDatagram.accept.step .recv ≠ none <->
        (queues (foundDatagram.accept.session 2).pcb
            (SockaddrIn.inet 0x0200a8c0 0x0700) datagramSkbuf = true ->
          forall a, a ∈ [DaemonAct.accept] -> ¬ a.Ends o.channel)) := by
  have hbefore : run step init openAndBind = some boundDaemon := rfl
  have hfind : boundDaemon.step findDatagram = some foundDatagram := rfl
  have hbetween : run step foundDatagram [.accept] =
      some foundDatagram.accept := rfl
  apply delivery_safe_iff hbefore hfind rfl hbetween
  intro a ha
  rw [List.mem_singleton.1 ha]
  trivial

/-- The endpoint is gone when the IP thread dereferences it. -/
theorem removed_channel_null_endpoint :
    run step init (openAndBind ++ [findDatagram]) = some foundDatagram ∧
      foundDatagram.lockSocket 2 = some 1 ∧
      (foundDatagram.removeRRChannel 0).lockSocket 2 = none ∧
      (foundDatagram.removeRRChannel 0).step .recv = none :=
  ⟨rfl, rfl, rfl, rfl⟩

end Daemon

end Velox
