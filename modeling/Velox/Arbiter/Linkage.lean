import Mathlib.Data.List.Nodup
import Velox.Arbiter.Daemon

/-!
# The links between channels, endpoints and sessions

Every endpoint and every session stems from one `socketCall`, and keeps the
pointers that this call has set; only the pointer of a channel to its endpoint
is ever changed, by a later call.  From this follow the ownership of the live
sessions, and when the endpoint of a session that is being delivered to can
be gone.
-/

namespace Velox

open Foundation

namespace Daemon

/-- What the calls of `socketCall` leave in the objects. -/
structure Links (d : Daemon) : Prop where
  channels_lt : forall c, c ∈ d.rrChannels -> c < d.next
  channels_nodup : d.rrChannels.Nodup
  opened_lt : forall o, o ∈ d.opened ->
    o.channel < d.next ∧ o.endpoint < d.next ∧ o.session < d.next
  endpoints_apart : forall o o', o ∈ d.opened -> o' ∈ d.opened ->
    o.endpoint = o'.endpoint -> o = o'
  sessions_apart : forall o o', o ∈ d.opened -> o' ∈ d.opened ->
    o.session = o'.session -> o = o'
  socket_opened : forall c e, (d.channel c).socket = some e ->
    exists o, o ∈ d.opened ∧ o.channel = c ∧ o.endpoint = e
  pcb_opened : forall e s, (d.endpoint e).pcb = some s ->
    exists o, o ∈ d.opened ∧ o.endpoint = e ∧ o.session = s
  opened_socket : forall o, o ∈ d.opened ->
    (d.session o.session).socket = some o.endpoint
  opened_pcb : forall o, o ∈ d.opened ->
    (d.endpoint o.endpoint).pcb = some o.session
  opened_rrChannel : forall o, o ∈ d.opened ->
    (d.endpoint o.endpoint).rrChannel = some o.channel
  listed : forall tcp s, s ∈ d.pcbs tcp ->
    exists o, o ∈ d.opened ∧ o.session = s

structure Histories (d : Daemon) : Prop where
  found : forall s, d.delivery.session = some s ->
    exists o, o ∈ d.opened ∧ o.session = s
  locked : forall s e peerAddr skbuf,
    d.delivery = .locked s e peerAddr skbuf ->
      exists o, o ∈ d.opened ∧ o.endpoint = e ∧ o.session = s
  queued : forall s e, (s, e) ∈ d.queued ->
    exists o, o ∈ d.opened ∧ o.endpoint = e ∧ o.session = s
  answered : forall c e, (c, e) ∈ d.answered ->
    exists o, o ∈ d.opened ∧ o.channel = c ∧ o.endpoint = e

theorem links_init : init.Links where
  channels_lt := nofun
  channels_nodup := List.nodup_nil
  opened_lt := nofun
  endpoints_apart := nofun
  sessions_apart := nofun
  socket_opened := nofun
  pcb_opened := nofun
  opened_socket := nofun
  opened_pcb := nofun
  opened_rrChannel := nofun
  listed := by
    intro tcp s hs
    cases tcp with
    | true => cases hs
    | false => cases hs

theorem histories_init : init.Histories where
  found := nofun
  locked := nofun
  queued := nofun
  answered := nofun

/-!
## The event loop
-/

variable {d : Daemon}

theorem Links.accept (h : d.Links) : d.accept.Links where
  channels_lt := by
    intro c hc
    show c < d.next + 1
    rcases List.mem_append.1 hc with hold | hnew
    · exact Nat.lt_succ_of_lt (h.channels_lt c hold)
    · rw [List.mem_singleton.1 hnew]
      exact Nat.lt_succ_self d.next
  channels_nodup := by
    apply List.nodup_append.2
    refine ⟨h.channels_nodup, List.pairwise_singleton _ _, ?_⟩
    intro c hc ch hnew heq
    rw [heq, List.mem_singleton.1 hnew] at hc
    exact Nat.lt_irrefl _ (h.channels_lt d.next hc)
  opened_lt := by
    intro o ho
    have hlt := h.opened_lt o ho
    exact ⟨Nat.lt_succ_of_lt hlt.1, Nat.lt_succ_of_lt hlt.2.1,
      Nat.lt_succ_of_lt hlt.2.2⟩
  endpoints_apart := h.endpoints_apart
  sessions_apart := h.sessions_apart
  socket_opened := by
    intro c e hsocket
    change ((Function.update d.channel d.next ⟨none⟩) c).socket = some e
      at hsocket
    by_cases hc : c = d.next
    · rw [hc, Function.update_self] at hsocket
      cases hsocket
    · rw [Function.update_of_ne hc] at hsocket
      exact h.socket_opened c e hsocket
  pcb_opened := h.pcb_opened
  opened_socket := h.opened_socket
  opened_pcb := h.opened_pcb
  opened_rrChannel := h.opened_rrChannel
  listed := h.listed

theorem Links.removeRRChannel (h : d.Links) (c : Nat) :
    (d.removeRRChannel c).Links where
  channels_lt := fun ch hch => h.channels_lt ch (List.mem_of_mem_filter hch)
  channels_nodup := h.channels_nodup.filter _
  opened_lt := h.opened_lt
  endpoints_apart := h.endpoints_apart
  sessions_apart := h.sessions_apart
  socket_opened := h.socket_opened
  pcb_opened := h.pcb_opened
  opened_socket := h.opened_socket
  opened_pcb := h.opened_pcb
  opened_rrChannel := h.opened_rrChannel
  listed := h.listed

theorem Links.ne_next (h : d.Links) {o : Opened} (ho : o ∈ d.opened) :
    o.endpoint ≠ d.next ∧ o.session ≠ d.next + 1 := by
  have hlt := h.opened_lt o ho
  constructor
  · exact Nat.ne_of_lt hlt.2.1
  · exact Nat.ne_of_lt (Nat.lt_succ_of_lt hlt.2.2)

theorem apart_cons {f : Opened -> Nat} {new : Opened} {opened : List Opened}
    (hnew : forall o, o ∈ opened -> f o ≠ f new)
    (hapart : forall o o', o ∈ opened -> o' ∈ opened -> f o = f o' -> o = o') :
    forall o o', o ∈ new :: opened -> o' ∈ new :: opened -> f o = f o' ->
      o = o' := by
  intro o o' ho ho' heq
  rcases List.mem_cons.1 ho with rfl | hold
  · rcases List.mem_cons.1 ho' with rfl | hold'
    · rfl
    · exact absurd heq.symm (hnew o' hold')
  · rcases List.mem_cons.1 ho' with rfl | hold'
    · exact absurd heq (hnew o hold)
    · exact hapart o o' hold hold' heq

theorem mem_pcbs_openSocket {c : Nat} {sock : Sock} {tcp : Bool} {s : Nat}
    (hs : s ∈ (d.openSocket c sock).pcbs tcp) :
    s ∈ d.pcbs tcp ∨ s = d.next + 1 := by
  unfold pcbs openSocket at hs
  unfold pcbs
  cases tcp with
  | true =>
      cases hkind : sock.pcb.isTcp with
      | true => simpa [hkind] using hs
      | false => exact .inl (by simpa [hkind] using hs)
  | false =>
      cases hkind : sock.pcb.isTcp with
      | true => exact .inl (by simpa [hkind] using hs)
      | false => simpa [hkind] using hs

theorem Links.openSocket (h : d.Links) {c : Nat} (hc : c ∈ d.rrChannels)
    (sock : Sock) : (d.openSocket c sock).Links where
  channels_lt := fun ch hch =>
    Nat.lt_trans (h.channels_lt ch hch) (Nat.lt_add_of_pos_right Nat.two_pos)
  channels_nodup := h.channels_nodup
  opened_lt := by
    intro o ho
    show o.channel < d.next + 2 ∧ o.endpoint < d.next + 2 ∧
      o.session < d.next + 2
    rcases List.mem_cons.1 ho with rfl | hold
    · have hlt := h.channels_lt c hc
      dsimp only
      omega
    · have hlt := h.opened_lt o hold
      omega
  endpoints_apart := apart_cons (f := Opened.endpoint)
    (fun _ ho => (h.ne_next ho).left) h.endpoints_apart
  sessions_apart := apart_cons (f := Opened.session)
    (fun _ ho => (h.ne_next ho).right) h.sessions_apart
  socket_opened := by
    intro ch e hsocket
    change ((Function.update d.channel c ⟨some d.next⟩) ch).socket = some e
      at hsocket
    by_cases hch : ch = c
    · rw [hch, Function.update_self] at hsocket
      cases hsocket
      exact ⟨_, List.mem_cons_self, hch.symm, rfl⟩
    · rw [Function.update_of_ne hch] at hsocket
      rcases h.socket_opened ch e hsocket with ⟨o, ho, heq⟩
      exact ⟨o, List.mem_cons_of_mem _ ho, heq⟩
  pcb_opened := by
    intro e s hpcb
    change ((Function.update d.endpoint d.next
      ⟨sock.so, some (d.next + 1), some c⟩) e).pcb = some s at hpcb
    by_cases he : e = d.next
    · rw [he, Function.update_self] at hpcb
      cases hpcb
      exact ⟨_, List.mem_cons_self, he.symm, rfl⟩
    · rw [Function.update_of_ne he] at hpcb
      rcases h.pcb_opened e s hpcb with ⟨o, ho, heq⟩
      exact ⟨o, List.mem_cons_of_mem _ ho, heq⟩
  opened_socket := by
    intro o ho
    show ((Function.update d.session (d.next + 1) ⟨sock.pcb, some d.next⟩)
      o.session).socket = _
    rcases List.mem_cons.1 ho with rfl | hold
    · rw [Function.update_self]
    · rw [Function.update_of_ne (h.ne_next hold).right]
      exact h.opened_socket o hold
  opened_pcb := by
    intro o ho
    show ((Function.update d.endpoint d.next
      ⟨sock.so, some (d.next + 1), some c⟩) o.endpoint).pcb = _
    rcases List.mem_cons.1 ho with rfl | hold
    · rw [Function.update_self]
    · rw [Function.update_of_ne (h.ne_next hold).left]
      exact h.opened_pcb o hold
  opened_rrChannel := by
    intro o ho
    show ((Function.update d.endpoint d.next
      ⟨sock.so, some (d.next + 1), some c⟩) o.endpoint).rrChannel = _
    rcases List.mem_cons.1 ho with rfl | hold
    · rw [Function.update_self]
    · rw [Function.update_of_ne (h.ne_next hold).left]
      exact h.opened_rrChannel o hold
  listed := by
    intro tcp s hs
    rcases mem_pcbs_openSocket hs with hold | rfl
    · rcases h.listed tcp s hold with ⟨o, ho, heq⟩
      exact ⟨o, List.mem_cons_of_mem _ ho, heq⟩
    · exact ⟨_, List.mem_cons_self, rfl⟩

/-!
## Steps that keep the links

Requests, answers and deliveries change what endpoints and sessions contain,
but none of the pointers.
-/

structure SameLinks (d d' : Daemon) : Prop where
  next : d'.next = d.next
  rrChannels : d'.rrChannels = d.rrChannels
  channel : d'.channel = d.channel
  pcb : forall e, (d'.endpoint e).pcb = (d.endpoint e).pcb
  rrChannel : forall e, (d'.endpoint e).rrChannel = (d.endpoint e).rrChannel
  socket : forall s, (d'.session s).socket = (d.session s).socket
  pcbs : forall tcp, d'.pcbs tcp = d.pcbs tcp
  opened : d'.opened = d.opened

theorem SameLinks.opened_subset {d' : Daemon} (h : SameLinks d d') :
    d.opened ⊆ d'.opened := by
  rw [h.opened]
  exact List.Subset.refl _

theorem Links.of_sameLinks {d' : Daemon} (h : d.Links)
    (hsame : SameLinks d d') : d'.Links where
  channels_lt := by
    rw [hsame.rrChannels, hsame.next]
    exact h.channels_lt
  channels_nodup := by
    rw [hsame.rrChannels]
    exact h.channels_nodup
  opened_lt := by
    rw [hsame.opened, hsame.next]
    exact h.opened_lt
  endpoints_apart := by
    rw [hsame.opened]
    exact h.endpoints_apart
  sessions_apart := by
    rw [hsame.opened]
    exact h.sessions_apart
  socket_opened := by
    rw [hsame.channel, hsame.opened]
    exact h.socket_opened
  pcb_opened := by
    intro e s hpcb
    rw [hsame.pcb] at hpcb
    rw [hsame.opened]
    exact h.pcb_opened e s hpcb
  opened_socket := by
    intro o ho
    rw [hsame.opened] at ho
    rw [hsame.socket]
    exact h.opened_socket o ho
  opened_pcb := by
    intro o ho
    rw [hsame.opened] at ho
    rw [hsame.pcb]
    exact h.opened_pcb o ho
  opened_rrChannel := by
    intro o ho
    rw [hsame.opened] at ho
    rw [hsame.rrChannel]
    exact h.opened_rrChannel o ho
  listed := by
    intro tcp s hs
    rw [hsame.pcbs] at hs
    rw [hsame.opened]
    exact h.listed tcp s hs

theorem update_so_links (f : Nat -> EndpointObj) (e e' : Nat)
    (so : Endpoint) :
    (Function.update f e { f e with so := so } e').pcb = (f e').pcb ∧
      (Function.update f e { f e with so := so } e').rrChannel =
        (f e').rrChannel := by
  by_cases h : e' = e
  · subst h
    rw [Function.update_self]
    exact ⟨rfl, rfl⟩
  · rw [Function.update_of_ne h]
    exact ⟨rfl, rfl⟩

theorem update_pcb_socket (f : Nat -> SessionObj) (s s' : Nat) (pcb : Pcb) :
    (Function.update f s { f s with pcb := pcb } s').socket =
      (f s').socket := by
  by_cases h : s' = s
  · subst h
    rw [Function.update_self]
  · rw [Function.update_of_ne h]

theorem sameLinks_setSock (d : Daemon) (e s : Nat) (so : Endpoint)
    (pcb : Pcb) : SameLinks d (d.setSock e s so pcb) where
  next := rfl
  rrChannels := rfl
  channel := rfl
  pcb := fun e' => (update_so_links d.endpoint e e' so).left
  rrChannel := fun e' => (update_so_links d.endpoint e e' so).right
  socket := fun s' => update_pcb_socket d.session s s' pcb
  pcbs := fun _ => rfl
  opened := rfl

inductive StepCase (d : Daemon) : DaemonAct -> Daemon -> Prop where
  | accept : StepCase d .accept d.accept
  | socketCall (c : Nat) (laddr uninit : UInt32) (type : Int32) (sock : Sock)
      (hc : c ∈ d.rrChannels) :
      StepCase d (.socketCall c laddr uninit type) (d.openSocket c sock)
  | removeRRChannel (c : Nat) :
      StepCase d (.removeRRChannel c) (d.removeRRChannel c)
  | request (c : Nat) (sock : Sock) (d' : Daemon) (hsame : SameLinks d d')
      (hdelivery : d'.delivery = d.delivery) (hqueued : d'.queued = d.queued)
      (hanswered : d'.answered = d.answered) : StepCase d (.request c sock) d'
  | answer (c e : Nat) (d' : Daemon) (hsame : SameLinks d d')
      (hsocket : (d.channel c).socket = some e)
      (hdelivery : d'.delivery = d.delivery) (hqueued : d'.queued = d.queued)
      (hanswered : d'.answered = (c, e) :: d.answered) :
      StepCase d (.answer c) d'
  | notFound (tcp : Bool) (uninit : SockaddrIn) (skbuf : Skbuf)
      (hidle : d.delivery = .idle) : StepCase d (.find tcp uninit skbuf) d
  | found (tcp : Bool) (uninit : SockaddrIn) (skbuf : Skbuf) (s : Nat)
      (peerAddr : SockaddrIn) (hidle : d.delivery = .idle)
      (hlisted : s ∈ d.pcbs tcp) (hlive : s ∈ d.liveSessions) :
      StepCase d (.find tcp uninit skbuf)
        { d with delivery := .found s peerAddr skbuf }
  | locked (s e : Nat) (peerAddr : SockaddrIn) (skbuf : Skbuf)
      (hfound : d.delivery = .found s peerAddr skbuf)
      (hlock : d.lockSocket s = some e)
      (hqueues : queues (d.session s).pcb peerAddr skbuf = true) :
      StepCase d .recv { d with delivery := .locked s e peerAddr skbuf }
  | ignored (d' : Daemon) (hsame : SameLinks d d')
      (hdelivery : d'.delivery = .idle) (hqueued : d'.queued = d.queued)
      (hanswered : d'.answered = d.answered) (s : Nat)
      (peerAddr : SockaddrIn) (skbuf : Skbuf)
      (hfound : d.delivery = .found s peerAddr skbuf)
      (hqueues : queues (d.session s).pcb peerAddr skbuf = false) :
      StepCase d .recv d'
  | put (s e : Nat) (peerAddr : SockaddrIn) (skbuf : Skbuf) (d' : Daemon)
      (hlocked : d.delivery = .locked s e peerAddr skbuf)
      (hsame : SameLinks d d') (hdelivery : d'.delivery = .idle)
      (hqueued : d'.queued = (s, e) :: d.queued)
      (hanswered : d'.answered = d.answered) : StepCase d .putToRecvQ d'

theorem request_cases {d' : Daemon} {c : Nat} {sock : Sock}
    (h : d.request c sock = some d') : StepCase d (.request c sock) d' := by
  unfold request at h
  cases hsocket : (d.channel c).socket with
  | none =>
      rw [hsocket] at h
      cases h
  | some e =>
      rw [hsocket] at h
      cases hpcb : (d.endpoint e).pcb with
      | none =>
          simp only [hpcb] at h
          cases h
      | some s =>
          simp only [hpcb] at h
          by_cases hkind : sock.pcb.isTcp = (d.session s).pcb.isTcp
          · rw [if_pos hkind] at h
            cases h
            exact .request c sock _ (sameLinks_setSock d e s _ _) rfl rfl rfl
          · rw [if_neg hkind] at h
            cases h

theorem answer_cases {d' : Daemon} {c : Nat} (h : d.answer c = some d') :
    StepCase d (.answer c) d' := by
  unfold answer at h
  cases hsocket : (d.channel c).socket with
  | none =>
      rw [hsocket] at h
      cases h
  | some e =>
      simp only [hsocket] at h
      cases htake : (d.endpoint e).so.tryTakeFromRecvQ with
      | none =>
          rw [htake] at h
          cases h
      | some taken =>
          rw [htake] at h
          cases h
          have hlinks := fun e' => update_so_links d.endpoint e e' taken.2
          exact .answer c e _
            ⟨rfl, rfl, rfl, fun e' => (hlinks e').left,
              fun e' => (hlinks e').right, fun _ => rfl, fun _ => rfl, rfl⟩
            hsocket rfl rfl rfl

theorem live_of_find {tcp : Bool} {faddr : UInt32} {fport : UInt16}
    {laddr : UInt32} {lport : UInt16} {s : Nat}
    (h : Sessions.find d.lockSession (d.pcbs tcp) faddr fport laddr lport =
      some s) : s ∈ d.pcbs tcp ∧ s ∈ d.liveSessions := by
  rcases Sessions.find_live h with ⟨hlisted, curr, hlock⟩
  refine ⟨hlisted, ?_⟩
  by_contra hdead
  rw [lockSession, if_neg hdead] at hlock
  cases hlock

theorem find_cases (hidle : d.delivery = .idle) (tcp : Bool)
    (uninit : SockaddrIn) (skbuf : Skbuf) :
    StepCase d (.find tcp uninit skbuf) (d.find tcp uninit skbuf) := by
  unfold find
  dsimp only
  split
  · exact .notFound tcp uninit skbuf hidle
  · rename_i s hfind
    rcases live_of_find hfind with ⟨hlisted, hlive⟩
    exact .found tcp uninit skbuf s _ hidle hlisted hlive

theorem recv_cases {d' : Daemon} (h : d.recv = some d') :
    StepCase d .recv d' := by
  unfold recv at h
  cases hdelivery : d.delivery with
  | idle =>
      rw [hdelivery] at h
      cases h
  | locked s e peerAddr skbuf =>
      rw [hdelivery] at h
      cases h
  | found s peerAddr skbuf =>
      simp only [hdelivery] at h
      by_cases hqueues : queues (d.session s).pcb peerAddr skbuf = true
      · rw [if_pos hqueues] at h
        cases hlock : d.lockSocket s with
        | none =>
            rw [hlock] at h
            cases h
        | some e =>
            rw [hlock] at h
            cases h
            exact .locked s e peerAddr skbuf hdelivery hlock hqueues
      · rw [if_neg hqueues] at h
        cases h
        exact .ignored _
          ⟨rfl, rfl, rfl, fun _ => rfl, fun _ => rfl,
            fun s' => update_pcb_socket d.session s s' _, fun _ => rfl, rfl⟩
          rfl rfl rfl s peerAddr skbuf hdelivery
          (Bool.eq_false_iff.2 hqueues)

theorem putToRecvQ_cases {d' : Daemon} (h : d.putToRecvQ = some d') :
    StepCase d .putToRecvQ d' := by
  unfold putToRecvQ at h
  cases hdelivery : d.delivery with
  | idle =>
      rw [hdelivery] at h
      cases h
  | found s peerAddr skbuf =>
      rw [hdelivery] at h
      cases h
  | locked s e peerAddr skbuf =>
      simp only [hdelivery] at h
      cases h
      have hsame := sameLinks_setSock d e s
        (((d.session s).pcb.recv peerAddr skbuf).2.foldl Endpoint.apply
          (d.endpoint e).so) ((d.session s).pcb.recv peerAddr skbuf).1
      exact .put s e peerAddr skbuf _ hdelivery
        ⟨rfl, rfl, rfl, hsame.pcb, hsame.rrChannel, hsame.socket, fun _ => rfl,
          rfl⟩ rfl rfl rfl

theorem step_cases {d' : Daemon} {a : DaemonAct} (h : d.step a = some d') :
    StepCase d a d' := by
  cases a with
  | accept =>
      cases h
      exact .accept
  | socketCall c laddr uninit type =>
      by_cases hc : c ∈ d.rrChannels
      · rw [step, if_pos hc] at h
        rcases Option.map_eq_some_iff.1 h with ⟨made, _, rfl⟩
        exact .socketCall c laddr uninit type made.1 hc
      · rw [step, if_neg hc] at h
        cases h
  | request c sock =>
      by_cases hc : c ∈ d.rrChannels
      · rw [step, if_pos hc] at h
        exact request_cases h
      · rw [step, if_neg hc] at h
        cases h
  | answer c =>
      by_cases hc : c ∈ d.rrChannels
      · rw [step, if_pos hc] at h
        exact answer_cases h
      · rw [step, if_neg hc] at h
        cases h
  | removeRRChannel c =>
      cases h
      exact .removeRRChannel c
  | find tcp uninit skbuf =>
      unfold step at h
      cases hdelivery : d.delivery with
      | idle =>
          rw [hdelivery] at h
          cases h
          exact find_cases hdelivery tcp uninit skbuf
      | found s peerAddr skb =>
          rw [hdelivery] at h
          cases h
      | locked s e peerAddr skb =>
          rw [hdelivery] at h
          cases h
  | recv => exact recv_cases h
  | putToRecvQ => exact putToRecvQ_cases h

inductive LinksCase (d : Daemon) : DaemonAct -> Daemon -> Prop where
  | accept : LinksCase d .accept d.accept
  | socketCall (c : Nat) (laddr uninit : UInt32) (type : Int32) (sock : Sock)
      (hc : c ∈ d.rrChannels) :
      LinksCase d (.socketCall c laddr uninit type) (d.openSocket c sock)
  | removeRRChannel (c : Nat) :
      LinksCase d (.removeRRChannel c) (d.removeRRChannel c)
  | same (a : DaemonAct) (d' : Daemon) (hother : forall c, ¬ a.Ends c)
      (hsame : SameLinks d d') : LinksCase d a d'

theorem sameLinks_delivery (d : Daemon) (delivery : InFlight) :
    SameLinks d { d with delivery := delivery } :=
  ⟨rfl, rfl, rfl, fun _ => rfl, fun _ => rfl, fun _ => rfl, fun _ => rfl, rfl⟩

theorem links_cases {d' : Daemon} {a : DaemonAct}
    (hstep : d.step a = some d') : LinksCase d a d' := by
  cases step_cases hstep with
  | accept => exact .accept
  | socketCall c laddr uninit type sock hc =>
      exact .socketCall c laddr uninit type sock hc
  | removeRRChannel c => exact .removeRRChannel c
  | request _ _ _ hsame _ _ _ => exact .same _ _ (fun _ => id) hsame
  | answer _ _ _ hsame _ _ _ _ => exact .same _ _ (fun _ => id) hsame
  | notFound _ _ _ _ =>
      exact .same _ _ (fun _ => id) (sameLinks_delivery d d.delivery)
  | found _ _ _ _ _ _ _ _ =>
      exact .same _ _ (fun _ => id) (sameLinks_delivery d _)
  | locked _ _ _ _ _ _ =>
      exact .same _ _ (fun _ => id) (sameLinks_delivery d _)
  | ignored _ hsame _ _ _ => exact .same _ _ (fun _ => id) hsame
  | put _ _ _ _ _ _ hsame _ _ _ => exact .same _ _ (fun _ => id) hsame

theorem links_step {d' : Daemon} {a : DaemonAct} (h : d.Links)
    (hstep : d.step a = some d') : d'.Links := by
  cases links_cases hstep with
  | accept => exact h.accept
  | socketCall c _ _ _ sock hc => exact h.openSocket hc sock
  | removeRRChannel c => exact h.removeRRChannel c
  | same _ _ _ hsame => exact h.of_sameLinks hsame

theorem Histories.of_eq {d' : Daemon} (h : d.Histories)
    (hdelivery : d'.delivery = d.delivery ∨ d'.delivery = .idle)
    (hqueued : d'.queued = d.queued) (hanswered : d'.answered = d.answered)
    (hopened : d.opened ⊆ d'.opened) : d'.Histories where
  found := by
    intro s hs
    rcases hdelivery with heq | hidle
    · rw [heq] at hs
      rcases h.found s hs with ⟨o, ho, hsession⟩
      exact ⟨o, hopened ho, hsession⟩
    · rw [hidle] at hs
      cases hs
  locked := by
    intro s e peerAddr skbuf hlocked
    rcases hdelivery with heq | hidle
    · rw [heq] at hlocked
      rcases h.locked s e peerAddr skbuf hlocked with ⟨o, ho, hends⟩
      exact ⟨o, hopened ho, hends⟩
    · rw [hidle] at hlocked
      cases hlocked
  queued := by
    intro s e hmem
    rw [hqueued] at hmem
    rcases h.queued s e hmem with ⟨o, ho, hends⟩
    exact ⟨o, hopened ho, hends⟩
  answered := by
    intro c e hmem
    rw [hanswered] at hmem
    rcases h.answered c e hmem with ⟨o, ho, hends⟩
    exact ⟨o, hopened ho, hends⟩

theorem lockSocket_eq_some {s e : Nat} (h : d.lockSocket s = some e) :
    (d.session s).socket = some e ∧ e ∈ d.liveEndpoints := by
  unfold lockSocket at h
  cases hsocket : (d.session s).socket with
  | none =>
      rw [hsocket] at h
      cases h
  | some e' =>
      simp only [hsocket] at h
      by_cases hlive : e' ∈ d.liveEndpoints
      · rw [if_pos hlive] at h
        cases h
        exact ⟨rfl, hlive⟩
      · rw [if_neg hlive] at h
        cases h

theorem histories_step {d' : Daemon} {a : DaemonAct} (hlinks : d.Links)
    (h : d.Histories) (hstep : d.step a = some d') : d'.Histories := by
  cases step_cases hstep with
  | accept => exact h.of_eq (.inl rfl) rfl rfl (List.Subset.refl _)
  | socketCall c _ _ _ sock hc =>
      exact h.of_eq (.inl rfl) rfl rfl (List.subset_cons_self _ _)
  | removeRRChannel c =>
      exact h.of_eq (.inl rfl) rfl rfl (List.Subset.refl _)
  | request _ _ _ hsame hdelivery hqueued hanswered =>
      exact h.of_eq (.inl hdelivery) hqueued hanswered
        hsame.opened_subset
  | answer c e _ hsame hsocket hdelivery hqueued hanswered =>
      have hsub := hsame.opened_subset
      have hmid : Histories { d' with answered := d.answered } :=
        h.of_eq (.inl hdelivery) hqueued rfl hsub
      refine ⟨hmid.found, hmid.locked, hmid.queued, ?_⟩
      intro c' e' hmem
      rw [hanswered] at hmem
      rcases List.mem_cons.1 hmem with heq | hold
      · cases heq
        rcases hlinks.socket_opened c e hsocket with ⟨o, ho, hends⟩
        exact ⟨o, hsub ho, hends⟩
      · exact hmid.answered c' e' hold
  | notFound _ _ _ _ => exact h
  | found tcp _ _ s _ _ hlisted _ =>
      refine ⟨?_, nofun, h.queued, h.answered⟩
      intro s' hs'
      cases hs'
      exact hlinks.listed tcp s hlisted
  | locked s e peerAddr skbuf hfound hlock =>
      have hsession : d.delivery.session = some s := by
        rw [hfound]
        rfl
      rcases h.found s hsession with ⟨o, ho, rfl⟩
      have hsocket := (lockSocket_eq_some hlock).left
      rw [hlinks.opened_socket o ho] at hsocket
      cases hsocket
      refine ⟨?_, ?_, h.queued, h.answered⟩
      · intro s' hs'
        cases hs'
        exact ⟨o, ho, rfl⟩
      · intro s' e' _ _ heq
        cases heq
        exact ⟨o, ho, rfl, rfl⟩
  | ignored _ hsame hdelivery hqueued hanswered =>
      exact h.of_eq (.inr hdelivery) hqueued hanswered
        hsame.opened_subset
  | put s e peerAddr skbuf _ hlocked hsame hdelivery hqueued hanswered =>
      have hsub := hsame.opened_subset
      have hmid : Histories { d' with queued := d.queued } :=
        h.of_eq (.inr hdelivery) rfl hanswered hsub
      refine ⟨hmid.found, hmid.locked, ?_, hmid.answered⟩
      intro s' e' hmem
      rw [hqueued] at hmem
      rcases List.mem_cons.1 hmem with heq | hold
      · cases heq
        rcases h.locked s e peerAddr skbuf hlocked with ⟨o, ho, hends⟩
        exact ⟨o, hsub ho, hends⟩
      · exact hmid.queued s' e' hold

theorem invariants_of_run {acts : List DaemonAct}
    (hrun : run step init acts = some d) : d.Links ∧ d.Histories := by
  have hpres : forall (s : Daemon) a s', s.Links ∧ s.Histories ->
      s.step a = some s' -> s'.Links ∧ s'.Histories := by
    intro s a s' hinv hstep
    exact ⟨links_step hinv.left hstep,
      histories_step hinv.left hinv.right hstep⟩
  exact run_invariant hpres ⟨links_init, histories_init⟩ hrun

/-!
## Live sessions

Without a delivery in flight the owner of an endpoint is a channel.
-/

/-- The socket is the current one of its channel, which is registered. -/
def Current (d : Daemon) (o : Opened) : Prop :=
  o.channel ∈ d.rrChannels ∧ (d.channel o.channel).socket = some o.endpoint

theorem mem_liveEndpoints {e : Nat} :
    e ∈ d.liveEndpoints <->
      (exists c, c ∈ d.rrChannels ∧ (d.channel c).socket = some e) ∨
        d.delivery.endpoint = some e := by
  unfold liveEndpoints
  rw [List.mem_append, List.mem_filterMap, Option.mem_toList]

theorem mem_liveSessions {s : Nat} :
    s ∈ d.liveSessions <->
      (exists e, e ∈ d.liveEndpoints ∧ (d.endpoint e).pcb = some s) ∨
        d.delivery.session = some s := by
  unfold liveSessions
  rw [List.mem_append, List.mem_filterMap, Option.mem_toList]

theorem Links.channel_eq (h : d.Links) {o : Opened} (ho : o ∈ d.opened)
    {c : Nat} (hsocket : (d.channel c).socket = some o.endpoint) :
    c = o.channel := by
  rcases h.socket_opened c o.endpoint hsocket with ⟨o', ho', rfl, hsame⟩
  rw [h.endpoints_apart o' o ho' ho hsame]

theorem Links.endpoint_eq (h : d.Links) {o : Opened} (ho : o ∈ d.opened)
    {e : Nat} (hpcb : (d.endpoint e).pcb = some o.session) :
    e = o.endpoint := by
  rcases h.pcb_opened e o.session hpcb with ⟨o', ho', rfl, hsame⟩
  rw [h.sessions_apart o' o ho' ho hsame]

/-- The endpoint of a socket lives as long as the socket is current or the
delivery in flight owns it. -/
theorem Links.endpoint_live_or (h : d.Links) {o : Opened}
    (ho : o ∈ d.opened) :
    o.endpoint ∈ d.liveEndpoints <->
      d.Current o ∨ d.delivery.endpoint = some o.endpoint := by
  rw [mem_liveEndpoints]
  refine or_congr_left ?_
  constructor
  · rintro ⟨c, hc, hsocket⟩
    rw [h.channel_eq ho hsocket] at hc hsocket
    exact ⟨hc, hsocket⟩
  · intro hcurrent
    exact ⟨o.channel, hcurrent.left, hcurrent.right⟩

theorem Links.endpoint_live_iff (h : d.Links)
    (hflight : d.delivery.endpoint = none) {o : Opened}
    (ho : o ∈ d.opened) : o.endpoint ∈ d.liveEndpoints <-> d.Current o := by
  rw [h.endpoint_live_or ho, hflight]
  exact or_iff_left nofun

theorem Histories.session_of_endpoint (hh : d.Histories) (h : d.Links)
    {o : Opened} (ho : o ∈ d.opened)
    (hflight : d.delivery.endpoint = some o.endpoint) :
    d.delivery.session = some o.session := by
  cases hdelivery : d.delivery with
  | idle =>
      rw [hdelivery] at hflight
      cases hflight
  | found s peerAddr skbuf =>
      rw [hdelivery] at hflight
      cases hflight
  | locked s e peerAddr skbuf =>
      rcases hh.locked s e peerAddr skbuf hdelivery with
        ⟨o', ho', hendpoint, rfl⟩
      rw [hdelivery] at hflight
      cases hflight
      rw [h.endpoints_apart o' o ho' ho hendpoint]
      rfl

theorem Links.session_live_or (h : d.Links) (hh : d.Histories) {o : Opened}
    (ho : o ∈ d.opened) :
    o.session ∈ d.liveSessions <->
      d.Current o ∨ d.delivery.session = some o.session := by
  rw [mem_liveSessions]
  constructor
  · rintro (⟨e, he, hpcb⟩ | hflight)
    · rw [h.endpoint_eq ho hpcb, h.endpoint_live_or ho] at he
      rcases he with hcurrent | hflight
      · exact .inl hcurrent
      · exact .inr (hh.session_of_endpoint h ho hflight)
    · exact .inr hflight
  · rintro (hcurrent | hflight)
    · exact .inl ⟨o.endpoint, (h.endpoint_live_or ho).2 (.inl hcurrent),
        h.opened_pcb o ho⟩
    · exact .inr hflight

theorem Links.live_iff (h : d.Links) (hidle : d.delivery = .idle)
    {o : Opened} (ho : o ∈ d.opened) :
    o.session ∈ d.liveSessions <-> d.Current o := by
  have hendpoint : d.delivery.endpoint = none := by
    rw [hidle]
    rfl
  have hsession : d.delivery.session = none := by
    rw [hidle]
    rfl
  rw [mem_liveSessions, hsession, ← h.endpoint_live_iff hendpoint ho]
  constructor
  · rintro (⟨e, he, hpcb⟩ | hflight)
    · rw [h.endpoint_eq ho hpcb] at he
      exact he
    · cases hflight
  · intro hlive
    exact .inl ⟨o.endpoint, hlive, h.opened_pcb o ho⟩

theorem Links.opened_of_live (h : d.Links) (hidle : d.delivery = .idle)
    {s : Nat} (hlive : s ∈ d.liveSessions) :
    exists o, o ∈ d.opened ∧ o.session = s := by
  rcases mem_liveSessions.1 hlive with ⟨e, _, hpcb⟩ | hflight
  · rcases h.pcb_opened e s hpcb with ⟨o, ho, _, hsession⟩
    exact ⟨o, ho, hsession⟩
  · rw [hidle] at hflight
    cases hflight

section Steps

variable {d' : Daemon}

/-!
## Sockets that stay current
-/

theorem current_accept (h : d.Links) {o : Opened} (ho : o ∈ d.opened) :
    d.accept.Current o <-> d.Current o := by
  have hne : o.channel ≠ d.next := Nat.ne_of_lt (h.opened_lt o ho).1
  show (o.channel ∈ d.rrChannels ++ [d.next] ∧
    ((Function.update d.channel d.next ⟨none⟩) o.channel).socket =
      some o.endpoint) <-> _
  rw [Function.update_of_ne hne, List.mem_append, List.mem_singleton,
    or_iff_left hne]
  exact Iff.rfl

theorem current_openSocket (h : d.Links) {o : Opened} (ho : o ∈ d.opened)
    (c : Nat) (sock : Sock) :
    (d.openSocket c sock).Current o <-> d.Current o ∧ ¬ c = o.channel := by
  show (o.channel ∈ d.rrChannels ∧
    ((Function.update d.channel c ⟨some d.next⟩) o.channel).socket =
      some o.endpoint) <-> _
  by_cases hc : o.channel = c
  · rw [hc, Function.update_self]
    constructor
    · rintro ⟨_, heq⟩
      exact absurd (Option.some.inj heq).symm (h.ne_next ho).left
    · rintro ⟨_, hne⟩
      exact absurd rfl hne
  · rw [Function.update_of_ne hc]
    exact (and_iff_left (fun heq => hc heq.symm)).symm

theorem current_removeRRChannel (d : Daemon) (o : Opened) (c : Nat) :
    (d.removeRRChannel c).Current o <-> d.Current o ∧ ¬ c = o.channel := by
  show (o.channel ∈ d.rrChannels.filter (fun ch => ch ≠ c) ∧ _) <-> _
  rw [List.mem_filter, decide_eq_true_iff, Current]
  constructor
  · rintro ⟨⟨hmem, hne⟩, hsocket⟩
    exact ⟨⟨hmem, hsocket⟩, fun heq => hne heq.symm⟩
  · rintro ⟨⟨hmem, hsocket⟩, hne⟩
    exact ⟨⟨hmem, fun heq => hne heq.symm⟩, hsocket⟩

theorem SameLinks.current_iff (h : SameLinks d d') (o : Opened) :
    d'.Current o <-> d.Current o := by
  rw [Current, Current, h.rrChannels, h.channel]

theorem current_step_iff {a : DaemonAct} (h : d.Links) {o : Opened}
    (ho : o ∈ d.opened) (hstep : d.step a = some d') :
    d'.Current o <-> d.Current o ∧ ¬ a.Ends o.channel := by
  cases links_cases hstep with
  | socketCall c _ _ _ sock _ => exact current_openSocket h ho c sock
  | removeRRChannel c => exact current_removeRRChannel d o c
  | accept =>
      rw [current_accept h ho]
      exact (and_iff_left id).symm
  | same _ _ hother hsame =>
      rw [hsame.current_iff]
      exact (and_iff_left (hother o.channel)).symm

theorem opened_step {a : DaemonAct} (hstep : d.step a = some d') :
    d.opened ⊆ d'.opened := by
  cases links_cases hstep with
  | accept => exact List.Subset.refl _
  | socketCall _ _ _ _ _ _ => exact List.subset_cons_self _ _
  | removeRRChannel _ => exact List.Subset.refl _
  | same _ _ _ hsame => exact hsame.opened_subset

theorem opened_run {acts : List DaemonAct} (hrun : run step d acts = some d') :
    d.opened ⊆ d'.opened := by
  have hpres : forall (s : Daemon) a s', d.opened ⊆ s.opened ->
      s.step a = some s' -> d.opened ⊆ s'.opened :=
    fun _ _ _ hsub hstep => List.Subset.trans hsub (opened_step hstep)
  exact run_invariant hpres (List.Subset.refl _) hrun

theorem links_run {acts : List DaemonAct} (h : d.Links)
    (hrun : run step d acts = some d') : d'.Links := by
  have hpres : forall (s : Daemon) a s', s.Links -> s.step a = some s' ->
      s'.Links := fun _ _ _ hs hstep => links_step hs hstep
  exact run_invariant hpres h hrun

theorem current_run_iff {acts : List DaemonAct} (h : d.Links) {o : Opened}
    (ho : o ∈ d.opened) (hrun : run step d acts = some d') :
    d'.Current o <->
      d.Current o ∧ forall a, a ∈ acts -> ¬ a.Ends o.channel := by
  induction acts generalizing d with
  | nil =>
      cases hrun
      exact (and_iff_left (List.forall_mem_nil _)).symm
  | cons a rest ih =>
      rcases run_cons hrun with ⟨mid, hstep, hrest⟩
      rw [ih (links_step h hstep) (opened_step hstep ho) hrest,
        current_step_iff h ho hstep, List.forall_mem_cons, and_assoc]

end Steps

/-!
## The links after a run
-/

/-- One endpoint owns the session, one registered channel owns the endpoint,
the pointers agree both ways, and the call that made the session was one on
this channel. -/
structure Linked (d : Daemon) (s e c : Nat) : Prop where
  owner : forall e', (d.endpoint e').pcb = some s <-> e' = e
  current : forall c',
    (c' ∈ d.rrChannels ∧ (d.channel c').socket = some e) <-> c' = c
  once : d.rrChannels.count c = 1
  socket : (d.session s).socket = some e
  reqRespChannel : (d.endpoint e).rrChannel = some c
  opened : ⟨c, e, s⟩ ∈ d.opened

theorem Links.linked (h : d.Links) {o : Opened} (ho : o ∈ d.opened)
    (hcurrent : d.Current o) :
    d.Linked o.session o.endpoint o.channel where
  owner := by
    intro e'
    constructor
    · exact h.endpoint_eq ho
    · intro heq
      rw [heq]
      exact h.opened_pcb o ho
  current := by
    intro c'
    constructor
    · rintro ⟨_, hsocket⟩
      exact h.channel_eq ho hsocket
    · intro heq
      rw [heq]
      exact hcurrent
  once := List.count_eq_one_of_mem h.channels_nodup hcurrent.left
  socket := h.opened_socket o ho
  reqRespChannel := h.opened_rrChannel o ho
  opened := ho

theorem find_ne_of_not_live {s : Nat} (hdead : s ∉ d.liveSessions)
    (tcp : Bool) (faddr : UInt32) (fport : UInt16) (laddr : UInt32)
    (lport : UInt16) :
    Sessions.find d.lockSession (d.pcbs tcp) faddr fport laddr lport ≠
      some s := by
  intro hfind
  exact hdead (live_of_find hfind).right

/-- The state of the links after a run, without a delivery in flight. -/
structure WellLinked (acts : List DaemonAct) (d : Daemon) : Prop where
  live : forall tcp s, s ∈ d.pcbs tcp -> s ∈ d.liveSessions ->
    exists e c, d.Linked s e c
  /-- A socket stays the current one of its channel until an action of the run
  removes the channel or gives it another socket. -/
  current : forall before after mid o, acts = before ++ after ->
    run step init before = some mid -> o ∈ mid.opened ->
      (d.Current o <->
        mid.Current o ∧ forall a, a ∈ after -> ¬ a.Ends o.channel)
  expired : forall o, o ∈ d.opened -> ¬ d.Current o ->
    o.session ∉ d.liveSessions ∧
    forall tcp faddr fport laddr lport,
      Sessions.find d.lockSession (d.pcbs tcp) faddr fport laddr lport ≠
        some o.session
  /-- A packet for a session is answered on the channel that opened it. -/
  answers : forall s e c, (s, e) ∈ d.queued -> (c, e) ∈ d.answered ->
    ⟨c, e, s⟩ ∈ d.opened

theorem wellLinked_of_run {acts : List DaemonAct}
    (hrun : run step init acts = some d) (hidle : d.delivery = .idle) :
    WellLinked acts d := by
  rcases invariants_of_run hrun with ⟨hlinks, hhistories⟩
  constructor
  · intro tcp s hs hlive
    rcases hlinks.listed tcp s hs with ⟨o, ho, rfl⟩
    have hcurrent := (hlinks.live_iff hidle ho).1 hlive
    exact ⟨o.endpoint, o.channel, hlinks.linked ho hcurrent⟩
  · rintro before after mid o rfl hbefore ho
    rw [run_append hbefore] at hrun
    exact current_run_iff (invariants_of_run hbefore).left ho hrun
  · intro o ho hold
    have hdead : o.session ∉ d.liveSessions :=
      fun hlive => hold ((hlinks.live_iff hidle ho).1 hlive)
    exact ⟨hdead, fun _ _ _ _ _ => find_ne_of_not_live hdead _ _ _ _ _⟩
  · intro s e c hqueued hanswered
    rcases hhistories.queued s e hqueued with ⟨o, ho, rfl, rfl⟩
    rcases hhistories.answered c o.endpoint hanswered with
      ⟨o', ho', rfl, hsame⟩
    rw [hlinks.endpoints_apart o' o ho' ho hsame]
    exact ho

/-!
A process opens a UDP socket and binds it, and a datagram arrives for it.
-/

def datagramFrame : FrameBuf :=
  TunIface.rx
    [0x45, 0, 0, 28, 0, 1, 0, 0, 64, 17, 0, 0, 192, 168, 0, 2, 192, 168, 0, 1,
      0, 7, 0, 4, 0, 8, 0, 0]

def datagramSkbuf : Skbuf :=
  Ip.withTransportHdr datagramFrame ⟨datagramFrame, []⟩

def boundSock : Sock where
  so := Endpoint.create true
  pcb := .udp
    { faddr := 0, fport := 0, laddr := 0x0100a8c0, lport := 0x0400 }

def openAndBind : List DaemonAct :=
  [.accept, .socketCall 0 0x0100a8c0 0 2, .request 0 boundSock]

def findDatagram : DaemonAct :=
  .find false (SockaddrIn.inet 0 0) datagramSkbuf

def answerAndReplace : List DaemonAct :=
  openAndBind ++ [findDatagram, .recv, .putToRecvQ, .answer 0,
    .socketCall 0 0x0100a8c0 0 1, .accept]

def replaced : Daemon :=
  (run step init answerAndReplace).getD init

theorem wellLinked_replaced :
    run step init answerAndReplace = some replaced ∧
      replaced.answered = [(0, 1)] ∧
      WellLinked answerAndReplace replaced := by
  have hrun : run step init answerAndReplace = some replaced := rfl
  refine ⟨hrun, rfl, ?_⟩
  exact wellLinked_of_run hrun rfl

end Daemon

end Velox
