import Velox.Arbiter.DeliveryRace
import Velox.Arbiter.Reactor
import Velox.Foundation.Snapshot

/-!
# Handles that are called

The handles that a callback unregisters are those of the objects that it
destroys and those that it unregisters itself.  From this, by the rule for
loops over a snapshot, follows when the event loop calls only registered
handles.
-/

namespace Velox

open Foundation

/-!
## Owners that live on

A handle is told from those of later objects by its name.
-/

namespace Handle

def Known (d : Daemon) : Handle -> Prop
  | .listener => True
  | .channel c => c < d.next
  | .notify e => e < d.next
  | .estab s => s < d.next

theorem Known.mono {d d' : Daemon} {h : Handle} (hknown : h.Known d)
    (hle : d.next <= d'.next) : h.Known d' := by
  cases h with
  | listener => trivial
  | channel c => exact Nat.lt_of_lt_of_le hknown hle
  | notify e => exact Nat.lt_of_lt_of_le hknown hle
  | estab s => exact Nat.lt_of_lt_of_le hknown hle

inductive Of (o : Opened) : Handle -> Prop where
  | notify : Of o (.notify o.endpoint)
  | estab : Of o (.estab o.session)

end Handle

namespace Daemon

variable {d d' : Daemon}

theorem next_step {a : DaemonAct} (hstep : d.step a = some d') :
    d.next <= d'.next := by
  cases links_cases hstep with
  | accept => exact Nat.le_succ d.next
  | socketCall _ _ _ _ _ _ => exact Nat.le_add_right d.next 2
  | removeRRChannel _ => exact Nat.le_refl _
  | same _ _ _ hsame => exact Nat.le_of_eq hsame.next.symm

theorem rrChannels_step_iff {a : DaemonAct} (hstep : d.step a = some d')
    {c : Nat} (hc : c < d.next) :
    c ∈ d'.rrChannels <-> c ∈ d.rrChannels ∧ a ≠ .removeRRChannel c := by
  cases links_cases hstep with
  | accept =>
      show c ∈ d.rrChannels ++ [d.next] <-> _
      rw [List.mem_append, List.mem_singleton, or_iff_left (Nat.ne_of_lt hc)]
      exact (and_iff_left nofun).symm
  | socketCall _ _ _ _ _ _ => exact (and_iff_left nofun).symm
  | removeRRChannel c' =>
      show c ∈ d.rrChannels.filter (fun ch => ch ≠ c') <-> _
      rw [List.mem_filter, decide_eq_true_iff]
      apply and_congr_right
      intro _
      constructor
      · intro hne heq
        cases heq
        exact hne rfl
      · intro hne heq
        rw [heq] at hne
        exact hne rfl
  | same _ _ hother hsame =>
      rw [hsame.rrChannels]
      refine (and_iff_left ?_).symm
      intro heq
      rw [heq] at hother
      exact hother c rfl

end Daemon

namespace Reactor

section Owners

variable {d d' : Daemon}

theorem mem_socketHandles {c : Nat} {h : Handle} :
    h ∈ socketHandles d c <->
      exists e, (d.channel c).socket = some e ∧
        (h = .notify e ∨
          exists s, (d.endpoint e).pcb = some s ∧ h = .estab s) := by
  unfold socketHandles
  cases (d.channel c).socket with
  | none => simp
  | some e =>
      cases hpcb : (d.endpoint e).pcb with
      | none => simp [hpcb]
      | some s => simp [hpcb]

theorem mem_socketHandles_iff (h : d.Links) {o : Opened} (ho : o ∈ d.opened)
    (hcurrent : d.Current o) {c : Nat} {hd : Handle} (hof : hd.Of o) :
    hd ∈ socketHandles d c <-> c = o.channel := by
  rw [mem_socketHandles]
  cases hof with
  | notify =>
      constructor
      · rintro ⟨e, hsocket, heq | ⟨s, _, heq⟩⟩
        · cases heq
          exact h.channel_eq ho hsocket
        · cases heq
      · rintro rfl
        exact ⟨o.endpoint, hcurrent.right, .inl rfl⟩
  | estab =>
      constructor
      · rintro ⟨e, hsocket, heq | ⟨s, hpcb, heq⟩⟩
        · cases heq
        · cases heq
          rw [h.endpoint_eq ho hpcb] at hsocket
          exact h.channel_eq ho hsocket
      · rintro rfl
        exact ⟨o.endpoint, hcurrent.right,
          .inr ⟨o.session, h.opened_pcb o ho, rfl⟩⟩

theorem hasChannel_iff (h : d.Links) {o : Opened} (ho : o ∈ d.opened) :
    hasChannel d o.endpoint = true <-> d.Current o := by
  rw [hasChannel, List.any_eq_true]
  constructor
  · rintro ⟨c, hc, hsocket⟩
    have hsocket := of_decide_eq_true hsocket
    rw [h.channel_eq ho hsocket] at hc hsocket
    exact ⟨hc, hsocket⟩
  · intro hcurrent
    exact ⟨o.channel, hcurrent.left, decide_eq_true hcurrent.right⟩

theorem alive_iff (h : d.Links) (hh : d.Histories) {o : Opened}
    (ho : o ∈ d.opened) {hd : Handle} (hof : hd.Of o) :
    hd.Alive d <-> d.Current o ∨ Held d hd := by
  cases hof with
  | notify => exact h.endpoint_live_or ho
  | estab => exact h.session_live_or hh ho

theorem of_alive (h : d.Links) (hh : d.Histories) {hd : Handle}
    (halive : hd.Alive d) :
    hd = .listener ∨ (exists c, hd = .channel c) ∨
      exists o, o ∈ d.opened ∧ hd.Of o := by
  cases hd with
  | listener => exact .inl rfl
  | channel c => exact .inr (.inl ⟨c, rfl⟩)
  | notify e =>
      refine .inr (.inr ?_)
      rcases Daemon.mem_liveEndpoints.1 halive with ⟨c, _, hsocket⟩ | hflight
      · rcases h.socket_opened c e hsocket with ⟨o, ho, _, rfl⟩
        exact ⟨o, ho, .notify⟩
      · cases hdelivery : d.delivery with
        | idle =>
            rw [hdelivery] at hflight
            cases hflight
        | found s peerAddr skbuf =>
            rw [hdelivery] at hflight
            cases hflight
        | locked s e' peerAddr skbuf =>
            rcases hh.locked s e' peerAddr skbuf hdelivery with
              ⟨o, ho, rfl, _⟩
            rw [hdelivery] at hflight
            cases hflight
            exact ⟨o, ho, .notify⟩
  | estab s =>
      refine .inr (.inr ?_)
      rcases Daemon.mem_liveSessions.1 halive with ⟨e, _, hpcb⟩ | hflight
      · rcases h.pcb_opened e s hpcb with ⟨o, ho, _, rfl⟩
        exact ⟨o, ho, .estab⟩
      · rcases hh.found s hflight with ⟨o, ho, rfl⟩
        exact ⟨o, ho, .estab⟩

theorem mem_heldOnly (h : d.Links) (hh : d.Histories) {o : Opened}
    (ho : o ∈ d.opened) {hd : Handle} (hof : hd.Of o) :
    hd ∈ heldOnly d <-> Held d hd ∧ ¬ d.Current o := by
  have hchannel := hasChannel_iff h ho
  unfold heldOnly
  cases hdelivery : d.delivery with
  | idle =>
      cases hof <;> simp [Held, hdelivery, InFlight.endpoint,
        InFlight.session]
  | found s peerAddr skbuf =>
      cases hof with
      | notify =>
          have hnot : ¬ Held d (.notify o.endpoint) := by
            simp [Held, hdelivery, InFlight.endpoint]
          simp only [hnot, false_and, iff_false]
          split <;> simp
      | estab =>
          have hheld : Held d (.estab o.session) <-> s = o.session := by
            simp [Held, hdelivery, InFlight.session]
          rw [hheld, ← hchannel]
          by_cases hs : s = o.session
          · simp only [hs, h.opened_socket o ho, Option.any_some]
            split <;> simp_all
          · simp only [hs, false_and, iff_false]
            split <;> simp [Ne.symm hs]
  | locked s e peerAddr skbuf =>
      rcases hh.locked s e peerAddr skbuf hdelivery with ⟨o', ho', rfl, rfl⟩
      have hsame : Held d hd <-> o' = o := by
        cases hof with
        | notify =>
            simp only [Held, hdelivery, InFlight.endpoint, Option.some.injEq]
            exact ⟨h.endpoints_apart o' o ho' ho, fun heq => by rw [heq]⟩
        | estab =>
            simp only [Held, hdelivery, InFlight.session, Option.some.injEq]
            exact ⟨h.sessions_apart o' o ho' ho, fun heq => by rw [heq]⟩
      have hmem : hd ∈ [Handle.notify o'.endpoint, .estab o'.session] <->
          o' = o := by
        cases hof with
        | notify =>
            simp only [List.mem_cons, Handle.notify.injEq, reduceCtorEq,
              List.not_mem_nil, or_false]
            exact ⟨fun heq => h.endpoints_apart o' o ho' ho heq.symm,
              fun heq => by rw [heq]⟩
        | estab =>
            simp only [List.mem_cons, Handle.estab.injEq, reduceCtorEq,
              List.not_mem_nil, or_false, false_or]
            exact ⟨fun heq => h.sessions_apart o' o ho' ho heq.symm,
              fun heq => by rw [heq]⟩
      rw [hsame, ← hchannel]
      by_cases ho'o : o' = o
      · subst ho'o
        simp only [true_and]
        split <;> simp_all
      · simp only [ho'o, false_and, iff_false]
        split
        · exact List.not_mem_nil
        · rw [hmem]
          exact ho'o

theorem mem_unheld (h : d.Links) (hh : d.Histories) {o : Opened}
    (ho : o ∈ d.opened) {hd : Handle} (hof : hd.Of o) (halive : hd.Alive d)
    (c : Nat) :
    hd ∈ (socketHandles d c).filter (fun h => ¬ Held d h) <->
      c = o.channel ∧ ¬ Held d hd := by
  rw [List.mem_filter, decide_eq_true_iff]
  apply and_congr_left
  intro hheld
  have hcurrent := ((alive_iff h hh ho hof).1 halive).resolve_right hheld
  exact mem_socketHandles_iff h ho hcurrent hof

theorem held_of_eq {hd : Handle} (hdelivery : d'.delivery = d.delivery) :
    Held d' hd <-> Held d hd := by
  cases hd <;> simp only [Held, hdelivery]

theorem not_held_of_idle {hd : Handle} (hidle : d.delivery = .idle) :
    ¬ Held d hd := by
  cases hd <;> simp [Held, hidle, InFlight.endpoint, InFlight.session]

/-- A live handle of a socket survives an action exactly if the action does
not end it. -/
theorem socket_alive_step_iff {a : DaemonAct} (h : d.Links)
    (hh : d.Histories) (hstep : d.step a = some d') {o : Opened}
    (ho : o ∈ d.opened) {hd : Handle} (hof : hd.Of o)
    (halive : hd.Alive d) : hd.Alive d' <-> hd ∉ endedHandles d a := by
  have hbefore := (alive_iff h hh ho hof).1 halive
  rw [alive_iff (Daemon.links_step h hstep) (Daemon.histories_step h hh hstep)
    (Daemon.opened_step hstep ho) hof, Daemon.current_step_iff h ho hstep]
  cases Daemon.step_cases hstep with
  | accept | notFound =>
      simp only [DaemonAct.Ends, endedHandles, not_false_eq_true, and_true,
        List.not_mem_nil, iff_true]
      exact hbefore
  | request _ _ _ _ hdelivery | answer _ _ _ _ _ hdelivery =>
      rw [held_of_eq hdelivery]
      simp only [DaemonAct.Ends, endedHandles, not_false_eq_true, and_true,
        List.not_mem_nil, iff_true]
      exact hbefore
  | socketCall c =>
      have hended := mem_unheld h hh ho hof halive c
      rw [endedHandles, hended, held_of_eq (d := d) rfl, DaemonAct.Ends]
      tauto
  | removeRRChannel c =>
      have hended := mem_unheld h hh ho hof halive c
      have hnot : hd ≠ .channel c := by cases hof <;> nofun
      rw [endedHandles, List.mem_cons, or_iff_right hnot, hended,
        held_of_eq (d := d) rfl, DaemonAct.Ends]
      tauto
  | found _ _ _ s peerAddr hidle =>
      have hcurrent := hbefore.resolve_right (not_held_of_idle hidle)
      simp only [DaemonAct.Ends, endedHandles, not_false_eq_true, and_true,
        List.not_mem_nil, iff_true]
      exact .inl hcurrent
  | locked s e peerAddr skbuf hfound hlock hqueues =>
      have hkeeps : Held d hd -> Held { d with
          delivery := .locked s e peerAddr skbuf } hd := by
        cases hof with
        | notify =>
            intro hheld
            rw [Held, hfound] at hheld
            cases hheld
        | estab =>
            intro hheld
            rw [Held, hfound] at hheld
            exact hheld
      simp only [DaemonAct.Ends, endedHandles, hfound, hqueues, if_true,
        not_false_eq_true, and_true, List.not_mem_nil, iff_true]
      exact hbefore.imp_right hkeeps
  | ignored _ _ hdelivery _ _ s peerAddr skbuf hfound hqueues =>
      have hended : endedHandles d .recv = heldOnly d := by
        simp only [endedHandles, hfound, hqueues]
        rfl
      have hends : ¬ DaemonAct.Ends o.channel .recv := id
      rw [hended, mem_heldOnly h hh ho hof,
        or_iff_left (not_held_of_idle hdelivery), and_iff_left hends]
      tauto
  | put s e peerAddr skbuf _ hlocked _ hdelivery =>
      have hends : ¬ DaemonAct.Ends o.channel .putToRecvQ := id
      rw [endedHandles, mem_heldOnly h hh ho hof,
        or_iff_left (not_held_of_idle hdelivery), and_iff_left hends]
      tauto

theorem not_mem_socketHandles {c : Nat} {hd : Handle}
    (hne : hd = .listener ∨ exists ch, hd = .channel ch) :
    hd ∉ socketHandles d c := by
  intro hmem
  rcases mem_socketHandles.1 hmem with ⟨e, _, heq | ⟨s, _, heq⟩⟩
  · rcases hne with rfl | ⟨ch, rfl⟩ <;> cases heq
  · rcases hne with rfl | ⟨ch, rfl⟩ <;> cases heq

theorem not_mem_heldOnly {hd : Handle}
    (hne : hd = .listener ∨ exists ch, hd = .channel ch) :
    hd ∉ heldOnly d := by
  unfold heldOnly
  rcases hne with rfl | ⟨ch, rfl⟩
  all_goals
    split
    · exact List.not_mem_nil
    · split <;> simp
    · split <;> simp

theorem mem_endedHandles_iff {a : DaemonAct} {hd : Handle}
    (hne : hd = .listener ∨ exists ch, hd = .channel ch) :
    hd ∈ endedHandles d a <-> exists c, a = .removeRRChannel c ∧
      hd = .channel c := by
  cases a with
  | removeRRChannel c =>
      simp [endedHandles, not_mem_socketHandles hne]
  | socketCall c _ _ _ => simp [endedHandles, not_mem_socketHandles hne]
  | recv =>
      simp only [endedHandles, reduceCtorEq, false_and, exists_false,
        iff_false]
      split
      · split
        · exact List.not_mem_nil
        · exact not_mem_heldOnly hne
      · exact List.not_mem_nil
  | putToRecvQ => simp [endedHandles, not_mem_heldOnly hne]
  | accept | request _ _ | answer _ | find _ _ _ => simp [endedHandles]

theorem known_of_alive (h : d.Links) (hh : d.Histories) {hd : Handle}
    (halive : hd.Alive d) : hd.Known d := by
  rcases of_alive h hh halive with rfl | ⟨c, rfl⟩ | ⟨o, ho, hof⟩
  · trivial
  · exact h.channels_lt c halive
  · cases hof with
    | notify => exact (h.opened_lt o ho).2.1
    | estab => exact (h.opened_lt o ho).2.2

theorem alive_step_iff {a : DaemonAct} (h : d.Links) (hh : d.Histories)
    (hstep : d.step a = some d') {hd : Handle} (halive : hd.Alive d) :
    hd.Alive d' <-> hd ∉ endedHandles d a := by
  rcases of_alive h hh halive with rfl | ⟨c, rfl⟩ | ⟨o, ho, hof⟩
  · rw [mem_endedHandles_iff (.inl rfl)]
    exact ⟨fun _ => nofun, fun _ => trivial⟩
  · rw [mem_endedHandles_iff (.inr ⟨c, rfl⟩)]
    show c ∈ d'.rrChannels <-> _
    rw [Daemon.rrChannels_step_iff hstep (known_of_alive h hh halive),
      and_iff_right (show c ∈ d.rrChannels from halive)]
    simp
  · exact socket_alive_step_iff h hh hstep ho hof halive

end Owners

/-!
## One step
-/

structure Inv (r : Reactor) : Prop where
  links : r.daemon.Links
  histories : r.daemon.Histories
  nodup : r.channels.Nodup
  alive : forall h, h ∈ r.channels -> h.Alive r.daemon
  known : forall h, h ∈ r.actives -> h.Known r.daemon

/-- From one state to another the handles of a list are unregistered, and
others only if they are new. -/
structure Unregistered (r r' : Reactor) (gone : List Handle) : Prop where
  inv : r'.Inv
  actives : r'.actives = r.actives
  next : r.daemon.next <= r'.daemon.next
  channels : forall h, h.Known r.daemon ->
    (h ∈ r'.channels <-> h ∈ r.channels ∧ h ∉ gone)

variable {r r' : Reactor}

theorem Unregistered.refl (h : r.Inv) : Unregistered r r [] where
  inv := h
  actives := rfl
  next := Nat.le_refl _
  channels := fun _ _ => (and_iff_left List.not_mem_nil).symm

theorem Unregistered.trans {mid : Reactor} {first second : List Handle}
    (h : Unregistered r mid first) (h' : Unregistered mid r' second) :
    Unregistered r r' (first ++ second) where
  inv := h'.inv
  actives := h'.actives.trans h.actives
  next := Nat.le_trans h.next h'.next
  channels := by
    intro hd hknown
    rw [h'.channels hd (hknown.mono h.next), h.channels hd hknown,
      List.mem_append, not_or, and_assoc]

theorem unregistered_unregister (h : r.Inv) (hd : Handle) :
    Unregistered r (r.unregister hd) [hd] where
  inv := by
    refine ⟨h.links, h.histories, h.nodup.erase hd, ?_, h.known⟩
    intro hd' hmem
    exact h.alive hd' (List.mem_of_mem_erase hmem)
  actives := rfl
  next := Nat.le_refl _
  channels := by
    intro hd' _
    show hd' ∈ r.channels.erase hd <-> _
    rw [h.nodup.mem_erase_iff, List.mem_singleton]
    exact and_comm

theorem unregistered_write (h : r.Inv) (c : Nat) (written : Bool) :
    Unregistered r (r.write c written) (unlessWritten c written) := by
  cases written with
  | true => exact Unregistered.refl h
  | false => exact unregistered_unregister h (.channel c)

theorem mem_addChannels {added channels : List Handle} {h : Handle} :
    h ∈ added.foldl addChannel channels <-> h ∈ channels ∨ h ∈ added := by
  induction added generalizing channels with
  | nil => simp
  | cons new rest ih =>
      have hadd : h ∈ addChannel channels new <-> h ∈ channels ∨ h = new := by
        unfold addChannel
        by_cases hmem : new ∈ channels
        · rw [if_pos hmem]
          constructor
          · exact .inl
          · rintro (hold | rfl)
            · exact hold
            · exact hmem
        · rw [if_neg hmem, List.mem_append, List.mem_singleton]
      rw [List.foldl_cons, ih, hadd, List.mem_cons, or_assoc]

theorem nodup_addChannels {added channels : List Handle}
    (h : channels.Nodup) : (added.foldl addChannel channels).Nodup := by
  induction added generalizing channels with
  | nil => exact h
  | cons new rest ih =>
      apply ih
      unfold addChannel
      by_cases hmem : new ∈ channels
      · rw [if_pos hmem]
        exact h
      · rw [if_neg hmem]
        apply List.nodup_append.2
        refine ⟨h, List.pairwise_singleton _ _, ?_⟩
        intro hd hhd hd' hnew heq
        rw [heq, List.mem_singleton.1 hnew] at hhd
        exact hmem hhd

theorem unregistered_perform {a : DaemonAct} {added : List Handle}
    (h : r.Inv) (hadded : forall hd, hd ∈ added -> ¬ hd.Known r.daemon)
    (hperform : r.perform a added = some r') :
    Unregistered r r' (endedHandles r.daemon a) := by
  rcases Option.map_eq_some_iff.1 hperform with ⟨d, hstep, rfl⟩
  have hlinks := Daemon.links_step h.links hstep
  have hhistories := Daemon.histories_step h.links h.histories hstep
  have hnext := Daemon.next_step hstep
  constructor
  · refine ⟨hlinks, hhistories, (nodup_addChannels h.nodup).filter _, ?_, ?_⟩
    · intro hd hmem
      exact of_decide_eq_true (List.mem_filter.1 hmem).right
    · intro hd hmem
      exact (h.known hd hmem).mono hnext
  · rfl
  · exact hnext
  · intro hd hknown
    show hd ∈ (added.foldl addChannel r.channels).filter _ <-> _
    rw [List.mem_filter, mem_addChannels, decide_eq_true_iff,
      or_iff_left (fun hmem => hadded hd hmem hknown)]
    apply and_congr_right
    intro hmem
    exact alive_step_iff h.links h.histories hstep (h.alive hd hmem)

theorem unregistered_accept {n : Nat} (h : r.Inv)
    (haccept : acceptLoop n r = some r') : Unregistered r r' [] := by
  induction n generalizing r with
  | zero =>
      cases haccept
      exact Unregistered.refl h
  | succ n ih =>
      rcases Option.bind_eq_some_iff.1 haccept with ⟨mid, hperform, hrest⟩
      have hfirst : Unregistered r mid [] := by
        refine unregistered_perform (a := .accept) h ?_ hperform
        intro hd hmem
        rw [List.mem_singleton.1 hmem]
        exact Nat.lt_irrefl _
      exact hfirst.trans (ih hfirst.inv hrest)

theorem unregistered_respond {a : DaemonAct} {added : List Handle} {c : Nat}
    {written : Bool} (h : r.Inv)
    (hadded : forall hd, hd ∈ added -> ¬ hd.Known r.daemon)
    (hrespond : (r.perform a added).map (write c written) = some r') :
    Unregistered r r'
      (endedHandles r.daemon a ++ unlessWritten c written) := by
  rcases Option.map_eq_some_iff.1 hrespond with ⟨mid, hperform, rfl⟩
  have hmid := unregistered_perform h hadded hperform
  exact hmid.trans (unregistered_write hmid.inv c written)

theorem socketCallHandles_new (d : Daemon) (type : Int32) :
    forall h, h ∈ socketCallHandles d type -> ¬ h.Known d := by
  intro h hmem
  unfold socketCallHandles at hmem
  rcases List.mem_cons.1 hmem with rfl | hmem
  · exact Nat.lt_irrefl _
  · by_cases hstream : type &&& RpcDispatch.sockStream != 0
    · rw [if_pos hstream, List.mem_singleton] at hmem
      rw [hmem]
      exact Nat.not_succ_lt_self
    · rw [if_neg hstream] at hmem
      cases hmem

theorem unregistered_established {s : Nat} {written : Bool} (h : r.Inv)
    (hestab : r.established s written = some r') :
    Unregistered r r' (establishedHandles r.daemon s written) := by
  unfold established at hestab
  cases hbound : boundChannel r.daemon (r.daemon.session s).socket with
  | none =>
      rw [hbound] at hestab
      cases hestab
      simp only [establishedHandles, hbound]
      exact Unregistered.refl h
  | some c =>
      rw [hbound] at hestab
      cases hsession : currentSession r.daemon c with
      | none =>
          simp only [hsession] at hestab
          cases hestab
      | some s' =>
          simp only [hsession] at hestab
          simp only [establishedHandles, hbound, hsession]
          by_cases htcp : (r.daemon.session s').pcb.isTcp = true
          · rw [if_pos htcp] at hestab
            cases hestab
            have hfirst := unregistered_unregister h (.estab s')
            exact hfirst.trans (unregistered_write hfirst.inv c written)
          · rw [if_neg htcp] at hestab
            cases hestab

theorem unregistered_answer {e : Nat} {written : Bool} (h : r.Inv)
    (hhandle : r.handle (.notify e) (.answer written) = some r') :
    Unregistered r r'
      (unregisters r.daemon (.notify e) (.answer written)) := by
  cases hbound : boundChannel r.daemon (some e) with
  | none =>
      simp only [handle, hbound] at hhandle
      cases hhandle
      simp only [unregisters, hbound]
      exact Unregistered.refl h
  | some c =>
      simp only [handle, hbound] at hhandle
      simp only [unregisters, hbound]
      exact unregistered_respond (a := .answer c) h (List.forall_mem_nil _)
        hhandle

theorem unregistered_handle {active : Handle} {o : Handling} (h : r.Inv)
    (hhandle : r.handle active o = some r') :
    Unregistered r r' (unregisters r.daemon active o) := by
  cases active with
  | listener =>
      cases o with
      | nothing =>
          cases hhandle
          exact Unregistered.refl h
      | accept n => exact unregistered_accept h hhandle
      | _ => cases hhandle
  | channel c =>
      cases o with
      | nothing =>
          cases hhandle
          exact Unregistered.refl h
      | close =>
          exact unregistered_perform (a := .removeRRChannel c) h
            (List.forall_mem_nil _) hhandle
      | socketCall laddr uninit type written =>
          exact unregistered_respond (a := .socketCall c laddr uninit type) h
            (socketCallHandles_new r.daemon type) hhandle
      | request sock written =>
          exact unregistered_respond (a := .request c sock) h
            (List.forall_mem_nil _) hhandle
      | reply written =>
          cases hhandle
          exact unregistered_write h c written
      | _ => cases hhandle
  | notify e =>
      cases o with
      | nothing =>
          cases hhandle
          exact Unregistered.refl h
      | answer written => exact unregistered_answer h hhandle
      | _ => cases hhandle
  | estab s =>
      cases o with
      | nothing =>
          cases hhandle
          exact Unregistered.refl h
      | established written => exact unregistered_established h hhandle
      | _ => cases hhandle

theorem daemon_write (c : Nat) (written : Bool) (r : Reactor) :
    (r.write c written).daemon = r.daemon := by
  unfold write
  split
  · rfl
  · rfl

theorem daemon_established {s : Nat} {written : Bool}
    (h : r.established s written = some r') : r'.daemon = r.daemon := by
  unfold established at h
  split at h
  · cases h
    rfl
  · split at h
    · cases h
    · split at h
      · cases h
        exact daemon_write _ _ _
      · cases h

theorem unregistered_recv {written : Bool} (h : r.Inv)
    (hrecv : r.recv written = some r') :
    Unregistered r r' (recvUnregisters r.daemon written) := by
  unfold recv at hrecv
  unfold recvUnregisters
  cases hdelivery : r.daemon.delivery with
  | idle =>
      rw [hdelivery] at hrecv
      cases hrecv
  | locked s e peerAddr skbuf =>
      rw [hdelivery] at hrecv
      cases hrecv
  | found s peerAddr skbuf =>
      simp only [hdelivery] at hrecv ⊢
      split at hrecv
      · rename_i hannounces
        rw [if_pos hannounces]
        rcases Option.bind_eq_some_iff.1 hrecv with ⟨mid, hestab, hperform⟩
        have hmid := unregistered_established h hestab
        have hafter := hmid.trans (unregistered_perform hmid.inv
          (List.forall_mem_nil _) hperform)
        rw [daemon_established hestab] at hafter
        exact hafter
      · rename_i hannounces
        rw [if_neg hannounces, List.nil_append]
        exact unregistered_perform h (List.forall_mem_nil _) hrecv

/-!
## Rounds
-/

theorem Inv.pending {active : Handle} {rest : List Handle} (h : r.Inv)
    (hactives : r.actives = active :: rest) :
    Inv { r with actives := rest } := by
  refine ⟨h.links, h.histories, h.nodup, h.alive, ?_⟩
  intro hd hmem
  apply h.known
  rw [hactives]
  exact List.mem_cons_of_mem active hmem

inductive StepCase (r : Reactor) : ReactorAct -> Reactor -> Prop where
  | poll (actives : List Handle) (hdone : r.actives = [])
      (hregistered : forall h, h ∈ actives -> h ∈ r.channels) :
      StepCase r (.poll actives) { r with actives := actives }
  | dispatch (o : Handling) (active : Handle) (rest : List Handle)
      (r' : Reactor) (gone : List Handle)
      (hactives : r.actives = active :: rest)
      (hgone : forall h, h ∈ gone <-> Removes r (.dispatch o) h)
      (hafter : Unregistered { r with actives := rest } r' gone) :
      StepCase r (.dispatch o) r'
  | deliver (a : ReactorAct) (r' : Reactor) (gone : List Handle)
      (hcalls : a.calls = false)
      (hgone : forall h, h ∈ gone <-> Removes r a h)
      (hafter : Unregistered r r' gone) : StepCase r a r'

theorem step_cases {a : ReactorAct} (h : r.Inv) (hstep : r.step a = some r') :
    StepCase r a r' := by
  cases a with
  | poll actives =>
      by_cases hpoll : r.actives = [] ∧ actives.Nodup ∧
          forall h, h ∈ actives -> h ∈ r.channels
      · rw [step, if_pos hpoll] at hstep
        cases hstep
        exact .poll actives hpoll.1 hpoll.2.2
      · rw [step, if_neg hpoll] at hstep
        cases hstep
  | dispatch o =>
      unfold step at hstep
      cases hactives : r.actives with
      | nil =>
          rw [hactives] at hstep
          cases hstep
      | cons active rest =>
          simp only [hactives] at hstep
          have hrest := h.pending hactives
          by_cases halive : active.Alive r.daemon
          · rw [if_pos halive] at hstep
            refine .dispatch o active rest r' _ hactives ?_
              (unregistered_handle hrest (Option.filter_eq_some_iff.1 hstep).1)
            intro hd
            simp only [Removes, hactives]
            exact (and_iff_right halive).symm
          · rw [if_neg halive] at hstep
            cases hstep
            refine .dispatch o active rest _ [] hactives ?_
              (Unregistered.refl hrest)
            intro hd
            simp only [Removes, hactives]
            exact ⟨nofun, fun hremoved => absurd hremoved.left halive⟩
  | find tcp uninit skbuf =>
      have hafter : Unregistered r r' [] :=
        unregistered_perform (a := .find tcp uninit skbuf) h
          (List.forall_mem_nil _) hstep
      exact .deliver _ r' [] rfl
        (fun hd => iff_of_false List.not_mem_nil id) hafter
  | recv written =>
      exact .deliver _ r' _ rfl (fun _ => Iff.rfl) (unregistered_recv h hstep)
  | putToRecvQ =>
      exact .deliver _ r' _ rfl (fun _ => Iff.rfl)
        (unregistered_perform h (List.forall_mem_nil _) hstep)

theorem inv_step {a : ReactorAct} (h : r.Inv) (hstep : r.step a = some r') :
    r'.Inv := by
  cases step_cases h hstep with
  | poll actives _ hregistered =>
      refine ⟨h.links, h.histories, h.nodup, h.alive, ?_⟩
      intro hd hmem
      exact known_of_alive h.links h.histories
        (h.alive hd (hregistered hd hmem))
  | dispatch _ _ _ _ _ _ _ hafter => exact hafter.inv
  | deliver _ _ _ _ _ hafter => exact hafter.inv

theorem snapshotLoop :
    SnapshotLoop step actives ReactorAct.calls (fun r h => h ∈ r.channels)
      Removes Inv where
  keeps := fun _ _ _ h hstep => inv_step h hstep
  takes := by
    intro r a r' h hstep
    cases step_cases h hstep with
    | poll _ hdone hregistered => exact .inl ⟨hdone, hregistered⟩
    | dispatch _ active _ _ _ hactives _ hafter =>
        refine .inr ?_
        rw [hafter.actives, upcoming, hactives]
        rfl
    | deliver _ _ _ hcalls _ hafter =>
        refine .inr ?_
        rw [hafter.actives, upcoming, hcalls]
        rfl
  registers := by
    intro r a r' hd h hstep hmem
    have hknown := h.known hd (SnapshotLoop.mem_of_mem_upcoming hmem)
    cases step_cases h hstep with
    | poll _ hdone _ =>
        rw [upcoming, hdone] at hmem
        cases hmem
    | dispatch _ _ _ _ _ _ hgone hafter =>
        rw [← hgone]
        exact hafter.channels hd hknown
    | deliver _ _ _ _ hgone hafter =>
        rw [← hgone]
        exact hafter.channels hd hknown

theorem inv_init : init.Inv where
  links := Daemon.links_init
  histories := Daemon.histories_init
  nodup := List.pairwise_singleton _ _
  alive := by
    intro h hmem
    rw [List.mem_singleton.1 hmem]
    trivial
  known := nofun

/-- Over whole rounds, with any deliveries between the calls, every handle
that the loop calls is registered at the time of the call exactly if no step
unregisters a handle that the round has still to call. -/
theorem dispatch_registered_iff {acts : List ReactorAct}
    (hrun : run step init acts = some r) (hdone : r.actives = []) :
    StepsMeet step (Reaches actives ReactorAct.calls fun r h =>
        h ∈ r.channels) init acts <->
      StepsMeet step (Spares actives ReactorAct.calls Removes) init acts :=
  snapshotLoop.reaches_iff_spares inv_init nofun hrun hdone

/-!
A process opens a UDP socket and binds it, and a datagram arrives.  One poll
returns the handles of the channel and of the endpoint, and the process has
asked for another socket on the channel.
-/

def openUdp : List ReactorAct :=
  [.poll [.listener], .dispatch (.accept 1), .poll [.channel 0],
    .dispatch (.socketCall 0x0100a8c0 0 2 true), .poll [.channel 0],
    .dispatch (.request Daemon.boundSock true)]

def deliverDatagram : List ReactorAct :=
  [.find false (SockaddrIn.inet 0 0) Daemon.datagramSkbuf, .recv true,
    .putToRecvQ]

def packetThenSocket : List ReactorAct :=
  openUdp ++ deliverDatagram ++ [.poll [.notify 1, .channel 0],
    .dispatch (.answer true), .dispatch (.socketCall 0x0100a8c0 0 2 true)]

theorem dispatch_registered_packet_then_socket :
    exists r, run step init packetThenSocket = some r ∧ r.actives = [] ∧
      r.daemon.answered = [(0, 1)] ∧
      StepsMeet step (Reaches actives ReactorAct.calls fun r h =>
        h ∈ r.channels) init packetThenSocket := by
  refine ⟨_, rfl, rfl, rfl, (dispatch_registered_iff rfl rfl).2 ?_⟩
  have hnone : forall (Q : Handle -> Prop) (h : Handle), h ∈ [] -> ¬ Q h :=
    fun _ _ hmem => absurd hmem List.not_mem_nil
  -- only the answer has a handle behind it, and it unregisters none
  exact ⟨fun _ _ => id, hnone _, fun _ _ => id, hnone _, fun _ _ => id,
    hnone _, fun _ _ => id, hnone _, hnone _, fun _ _ => id,
    fun _ _ hremoved => absurd hremoved.right List.not_mem_nil, hnone _,
    trivial⟩

def secondSocket : List ReactorAct :=
  openUdp ++ deliverDatagram ++ [.poll [.channel 0, .notify 1],
    .dispatch (.socketCall 0x0100a8c0 0 2 true)]

def replaced : Reactor :=
  (run step init secondSocket).getD init

/-- The endpoint of the first socket is called after its destruction. -/
theorem second_socket_then_destroyed_endpoint :
    run step init secondSocket = some replaced ∧
      replaced.actives = [.notify 1] ∧ .notify 1 ∉ replaced.channels ∧
      ¬ StepsMeet step (Reaches actives ReactorAct.calls fun r h =>
        h ∈ r.channels) init (secondSocket ++ [.dispatch .nothing]) := by
  have hgone : .notify 1 ∉ replaced.channels := by
    decide
  refine ⟨rfl, rfl, hgone, ?_⟩
  intro hmeet
  have hrun : run step init secondSocket = some replaced := rfl
  have hlast := (stepsMeet_of_append hrun hmeet).left
  exact hgone (hlast rfl (.notify 1) rfl)

end Reactor

end Velox
