import Mathlib.Algebra.BigOperators.Group.List.Basic
import Velox.Arbiter.Linkage
import Velox.Foundation.Allocation

/-!
# Descriptors of the daemon

A channel closes its descriptor when it is destroyed.  An endpoint makes a
pipe, and a TCP session a second one; nothing closes them, neither at the end
of the connection nor when a second `socketCall` replaces the socket.  So the
descriptors in use tell how many sockets have been made since the start, and
the limit on descriptors is a limit on them.
-/

namespace Velox

open Foundation

structure DaemonFds where
  daemon : Daemon
  used : Finset Nat
  fd : Nat -> Nat

/-- The pipes of a new socket: that of the endpoint, and then that of a TCP
session. -/
def openPipes (limit : Nat) (isTcp : Bool) (used : Finset Nat) :
    Option (Finset Nat) :=
  (allocate limit 2 used).bind fun used' =>
    if isTcp then allocate limit 2 used' else some used'

def pipeFds (isTcp : Bool) : Nat :=
  if isTcp then 4 else 2

def DaemonAct.pipeFds : DaemonAct -> Nat
  | .socketCall _ _ _ type =>
      Velox.pipeFds (type &&& RpcDispatch.sockStream != 0)
  | _ => 0

namespace DaemonFds

def start (base : Finset Nat) : DaemonFds where
  daemon := Daemon.init
  used := base
  fd := fun _ => 0

variable (limit : Nat)

/-- One action.  At the limit `accept` fails and the connection waits; the
results of `pipe2` are not looked at, so there is no telling what follows if it
fails. -/
def step (s : DaemonFds) : DaemonAct -> Option DaemonFds
  | .accept =>
      if lowestFree s.used < limit then
        (s.daemon.step .accept).map fun daemon =>
          { daemon := daemon
            used := insert (lowestFree s.used) s.used
            fd := Function.update s.fd s.daemon.next (lowestFree s.used) }
      else some s
  | .socketCall c laddr uninit type =>
      (s.daemon.step (.socketCall c laddr uninit type)).bind fun daemon =>
        (openPipes limit (type &&& RpcDispatch.sockStream != 0) s.used).map
          fun used => { s with daemon := daemon, used := used }
  | .removeRRChannel c =>
      (s.daemon.step (.removeRRChannel c)).map fun daemon =>
        { s with
          daemon := daemon
          used := if c ∈ s.daemon.rrChannels then s.used.erase (s.fd c)
            else s.used }
  | a => (s.daemon.step a).map fun daemon => { s with daemon := daemon }

/-!
## The account
-/

variable {limit} {n : Nat} {s s' : DaemonFds}

/-- All descriptors but `n` are those of the channels, each with one of its
own. -/
structure Accounted (limit n : Nat) (s : DaemonFds) : Prop where
  links : s.daemon.Links
  below : Below limit s.used
  owned : forall c, c ∈ s.daemon.rrChannels -> s.fd c ∈ s.used
  apart : forall c c', c ∈ s.daemon.rrChannels -> c' ∈ s.daemon.rrChannels ->
    s.fd c = s.fd c' -> c = c'
  card : s.used.card = n + s.daemon.rrChannels.length

end DaemonFds

theorem allocated_of_openPipes {limit : Nat} {isTcp : Bool}
    {used used' : Finset Nat} (hbelow : Below limit used)
    (h : openPipes limit isTcp used = some used') :
    Allocated limit (pipeFds isTcp) used used' := by
  rcases Option.bind_eq_some_iff.mp h with ⟨mid, hmid, hrest⟩
  have hfirst := allocated_of_allocate hbelow hmid
  cases isTcp with
  | false =>
      cases hrest
      exact hfirst
  | true =>
      have hsecond := allocated_of_allocate hfirst.below hrest
      refine ⟨hfirst.subset.trans hsecond.subset, ?_, hsecond.below⟩
      rw [hsecond.card, hfirst.card]
      rfl

theorem openPipes_iff {limit : Nat} {used : Finset Nat}
    (hbelow : Below limit used) (isTcp : Bool) :
    (exists used', openPipes limit isTcp used = some used') <->
      used.card + pipeFds isTcp <= limit := by
  constructor
  · rintro ⟨used', h⟩
    have hallocated := allocated_of_openPipes hbelow h
    rw [← hallocated.card]
    exact hallocated.below.card_le
  · intro hroom
    have hfits : used.card + 2 <= limit := by
      cases isTcp with
      | false => exact hroom
      | true => exact (Nat.add_le_add_left (by decide) _).trans hroom
    rcases (allocate_iff hbelow).mpr hfits with ⟨mid, hmid⟩
    have hfirst := allocated_of_allocate hbelow hmid
    cases isTcp with
    | false => exact ⟨mid, by rw [openPipes, hmid]; rfl⟩
    | true =>
        have hagain : mid.card + 2 <= limit := by
          rw [hfirst.card]
          exact hroom
        rcases (allocate_iff hfirst.below).mpr hagain with ⟨used', hused'⟩
        exact ⟨used', by rw [openPipes, hmid]; exact hused'⟩

namespace DaemonFds

variable {limit n : Nat} {s s' : DaemonFds}

theorem accounted_start {base : Finset Nat} (hbase : Below limit base) :
    (start base).Accounted limit base.card where
  links := Daemon.links_init
  below := hbase
  owned := nofun
  apart := nofun
  card := rfl

theorem fd_accept (h : s.Accounted limit n) {c : Nat}
    (hc : c ∈ s.daemon.accept.rrChannels) :
    (c = s.daemon.next ∧ Function.update s.fd s.daemon.next
        (lowestFree s.used) c = lowestFree s.used) ∨
      (c ∈ s.daemon.rrChannels ∧ Function.update s.fd s.daemon.next
        (lowestFree s.used) c = s.fd c) := by
  rcases List.mem_append.mp hc with hold | hnew
  · have hne : c ≠ s.daemon.next := Nat.ne_of_lt (h.links.channels_lt c hold)
    exact Or.inr ⟨hold, Function.update_of_ne hne _ _⟩
  · cases List.mem_singleton.mp hnew
    exact Or.inl ⟨rfl, Function.update_self _ _ _⟩

theorem fd_ne_lowestFree (h : s.Accounted limit n) {c : Nat}
    (hc : c ∈ s.daemon.rrChannels) : s.fd c ≠ lowestFree s.used := by
  intro heq
  apply lowestFree_notMem s.used
  rw [← heq]
  exact h.owned c hc

theorem Accounted.accept (h : s.Accounted limit n)
    (hlt : lowestFree s.used < limit) :
    Accounted limit n
      { daemon := s.daemon.accept
        used := insert (lowestFree s.used) s.used
        fd := Function.update s.fd s.daemon.next (lowestFree s.used) } where
  links := h.links.accept
  below := h.below.insert_lowestFree hlt
  owned := by
    intro c hc
    dsimp only
    rcases fd_accept h hc with ⟨_, hfd⟩ | ⟨hold, hfd⟩
    · rw [hfd]
      exact Finset.mem_insert_self _ _
    · rw [hfd]
      exact Finset.mem_insert_of_mem (h.owned c hold)
  apart := by
    intro c c' hc hc' heq
    dsimp only at heq
    rcases fd_accept h hc with ⟨hnew, hfd⟩ | ⟨hold, hfd⟩ <;>
      rcases fd_accept h hc' with ⟨hnew', hfd'⟩ | ⟨hold', hfd'⟩ <;>
      rw [hfd, hfd'] at heq
    · rw [hnew, hnew']
    · exact absurd heq.symm (fd_ne_lowestFree h hold')
    · exact absurd heq (fd_ne_lowestFree h hold)
    · exact h.apart c c' hold hold' heq
  card := by
    have hlength : s.daemon.accept.rrChannels.length =
        s.daemon.rrChannels.length + 1 := List.length_append
    rw [card_insert_lowestFree, h.card, hlength, Nat.add_assoc]

theorem length_removeRRChannel {d : Daemon} (h : d.Links) {c : Nat}
    (hc : c ∈ d.rrChannels) :
    (d.removeRRChannel c).rrChannels.length + 1 = d.rrChannels.length := by
  have herase : (d.removeRRChannel c).rrChannels = d.rrChannels.erase c := by
    rw [h.channels_nodup.erase_eq_filter]
    apply List.filter_congr
    intro ch _
    rw [Bool.eq_iff_iff, decide_eq_true_iff, bne_iff_ne]
  rw [herase, List.length_erase_of_mem hc]
  exact Nat.succ_pred_eq_of_pos (List.length_pos_of_mem hc)

theorem Accounted.removeRRChannel (h : s.Accounted limit n) {c : Nat}
    (hc : c ∈ s.daemon.rrChannels) :
    Accounted limit n
      { s with
        daemon := s.daemon.removeRRChannel c
        used := s.used.erase (s.fd c) } where
  links := h.links.removeRRChannel c
  below := h.below.erase (s.fd c)
  owned := by
    intro c' hc'
    rcases List.mem_filter.mp hc' with ⟨hold, hne⟩
    refine Finset.mem_erase.mpr ⟨?_, h.owned c' hold⟩
    intro heq
    exact of_decide_eq_true hne (h.apart c' c hold hc heq)
  apart := by
    intro c₁ c₂ h₁ h₂ heq
    exact h.apart c₁ c₂ (List.mem_of_mem_filter h₁)
      (List.mem_of_mem_filter h₂) heq
  card := by
    have hlength := length_removeRRChannel h.links hc
    rw [Finset.card_erase_of_mem (h.owned c hc), h.card]
    lia

/-- The pipes of a new socket are added to what is not accounted to a
channel. -/
theorem Accounted.openSocket (h : s.Accounted limit n) {c : Nat}
    (hc : c ∈ s.daemon.rrChannels) (sock : Sock) {isTcp : Bool}
    {used : Finset Nat} (hused : openPipes limit isTcp s.used = some used) :
    Accounted limit (n + pipeFds isTcp)
      { s with daemon := s.daemon.openSocket c sock, used := used } := by
  have hpipes := allocated_of_openPipes h.below hused
  exact
    { links := h.links.openSocket hc sock
      below := hpipes.below
      owned := fun c hc => hpipes.subset (h.owned c hc)
      apart := h.apart
      card := by
        rw [hpipes.card, h.card]
        exact Nat.add_right_comm _ _ _ }

theorem Accounted.of_sameLinks (h : s.Accounted limit n) {d : Daemon}
    (hsame : Daemon.SameLinks s.daemon d) :
    Accounted limit n { s with daemon := d } := by
  rcases s with ⟨daemon, used, fd⟩
  have hchannels : d.rrChannels = daemon.rrChannels := hsame.rrChannels
  refine ⟨h.links.of_sameLinks hsame, h.below, ?_, ?_, ?_⟩
  · intro c hc
    exact h.owned c (hchannels ▸ hc)
  · intro c c' hc hc'
    exact h.apart c c' (hchannels ▸ hc) (hchannels ▸ hc')
  · exact h.card.trans (congrArg (fun l => n + l.length) hchannels.symm)

theorem Accounted.other (h : s.Accounted limit n) (a : DaemonAct)
    (haccept : a ≠ .accept) (hends : forall c, ¬ a.Ends c)
    (hstep : (s.daemon.step a).map (fun daemon => { s with daemon := daemon }) =
      some s') : s'.Accounted limit n := by
  rcases Option.map_eq_some_iff.mp hstep with ⟨daemon, hdaemon, rfl⟩
  cases Daemon.links_cases hdaemon with
  | accept => exact absurd rfl haccept
  | socketCall c _ _ _ _ _ => exact absurd rfl (hends c)
  | removeRRChannel c => exact absurd rfl (hends c)
  | same _ _ _ hsame => exact h.of_sameLinks hsame

theorem sameLinks_remove_absent {d : Daemon} {c : Nat}
    (hc : c ∉ d.rrChannels) : Daemon.SameLinks d (d.removeRRChannel c) := by
  have hchannels : (d.removeRRChannel c).rrChannels = d.rrChannels := by
    apply List.filter_eq_self.mpr
    intro ch hch
    exact decide_eq_true fun heq => hc (heq ▸ hch)
  exact ⟨rfl, hchannels, rfl, fun _ => rfl, fun _ => rfl, fun _ => rfl,
    fun _ => rfl, rfl⟩

theorem Accounted.step {a : DaemonAct} (h : s.Accounted limit n)
    (hstep : s.step limit a = some s') :
    s'.Accounted limit (n + a.pipeFds) := by
  cases a with
  | accept =>
      rw [DaemonFds.step] at hstep
      split at hstep
      case isTrue hlt =>
        cases hstep
        exact h.accept hlt
      case isFalse _ =>
        cases hstep
        exact h
  | socketCall c laddr uninit type =>
      rcases Option.bind_eq_some_iff.mp hstep with ⟨daemon, hdaemon, hpipes⟩
      rcases Option.map_eq_some_iff.mp hpipes with ⟨used, hused, rfl⟩
      cases Daemon.links_cases hdaemon with
      | socketCall _ _ _ _ sock hc => exact h.openSocket hc sock hused
      | same _ _ hends _ => exact absurd rfl (hends c)
  | removeRRChannel c =>
      cases hstep
      dsimp only
      split
      case isTrue hc => exact h.removeRRChannel hc
      case isFalse hc => exact h.of_sameLinks (sameLinks_remove_absent hc)
  | request c sock =>
      exact h.other (.request c sock) nofun (fun _ => id) hstep
  | answer c =>
      exact h.other (.answer c) nofun (fun _ => id) hstep
  | find tcp uninit skbuf =>
      exact h.other (.find tcp uninit skbuf) nofun (fun _ => id) hstep
  | recv =>
      exact h.other .recv nofun (fun _ => id) hstep
  | putToRecvQ =>
      exact h.other .putToRecvQ nofun (fun _ => id) hstep

/-- The descriptors that the sockets of a run have taken for their pipes. -/
def spent (acts : List DaemonAct) : Nat :=
  (acts.map DaemonAct.pipeFds).sum

theorem Accounted.run {acts : List DaemonAct} (h : s.Accounted limit n)
    (hrun : Foundation.run (DaemonFds.step limit) s acts = some s') :
    s'.Accounted limit (n + spent acts) := by
  induction acts generalizing s n with
  | nil =>
      cases hrun
      exact h
  | cons a rest ih =>
      rcases run_cons hrun with ⟨mid, hstep, hrest⟩
      have hmid := ih (h.step hstep) hrest
      rw [Nat.add_assoc] at hmid
      exact hmid

/-- In every run a `socketCall` gets its pipes exactly if the descriptors of
the start, one for each channel that is open, and two or four for each socket
that has ever been made leave room for them.  Closing sockets gives nothing
back. -/
theorem socketCall_gets_pipes_iff {base : Finset Nat}
    (hbase : Below limit base) {acts : List DaemonAct}
    (hrun : Foundation.run (DaemonFds.step limit) (start base) acts = some s)
    {c : Nat} (hc : c ∈ s.daemon.rrChannels) {laddr uninit : UInt32}
    {type : Int32} {made : Sock × Response}
    (hmade : RpcDispatch.socketCall laddr uninit type = some made) :
    (exists s', s.step limit (.socketCall c laddr uninit type) = some s') <->
      base.card + s.daemon.rrChannels.length +
        spent (acts ++ [.socketCall c laddr uninit type]) <= limit := by
  have haccount := (accounted_start hbase).run hrun
  have hspent : spent (acts ++ [.socketCall c laddr uninit type]) =
      spent acts + pipeFds (type &&& RpcDispatch.sockStream != 0) := by
    rw [spent, List.map_append, List.sum_append]
    rfl
  have hroom := openPipes_iff haccount.below
    (type &&& RpcDispatch.sockStream != 0)
  rw [haccount.card] at hroom
  rw [hspent, ← Nat.add_assoc, Nat.add_right_comm base.card]
  rw [← hroom]
  have hdaemon : s.daemon.step (.socketCall c laddr uninit type) =
      some (s.daemon.openSocket c made.1) := by
    rw [Daemon.step, if_pos hc, hmade]
    rfl
  rw [DaemonFds.step, hdaemon]
  constructor
  · rintro ⟨s', hs'⟩
    rcases Option.map_eq_some_iff.mp hs' with ⟨used, hused, _⟩
    exact ⟨used, hused⟩
  · rintro ⟨used, hused⟩
    exact ⟨_, Option.map_eq_some_iff.mpr ⟨used, hused, rfl⟩⟩

theorem accept_range {limit m : Nat} (h : m < limit) :
    exists s, (start (Finset.range m)).step limit .accept = some s ∧
      s.daemon = Daemon.init.accept := by
  have hlt : lowestFree (start (Finset.range m)).used < limit := by
    rw [start, lowestFree_range]
    exact h
  rw [step, if_pos hlt]
  exact ⟨_, rfl, rfl⟩

theorem socketCall_gets_last_pipes :
    exists s, Foundation.run (DaemonFds.step 11) (start (Finset.range 6))
        [.accept] = some s ∧
      exists s', s.step 11 (.socketCall 0 0x0100a8c0 0 1) = some s' := by
  have hroom : 6 < 11 := by decide
  rcases accept_range hroom with ⟨s, hstep, hdaemon⟩
  have hrun := run_of_step hstep []
  have hbelow : Below 11 (Finset.range 6) := fun k hk =>
    (Finset.mem_range.mp hk).trans (by decide)
  have hchannels : s.daemon.rrChannels = [0] := by
    rw [hdaemon]
    rfl
  have hc : 0 ∈ s.daemon.rrChannels := by
    rw [hchannels]
    exact List.mem_singleton_self 0
  refine ⟨s, hrun, (socketCall_gets_pipes_iff hbelow hrun hc rfl).mpr ?_⟩
  rw [hchannels, Finset.card_range]
  decide

end DaemonFds

end Velox
