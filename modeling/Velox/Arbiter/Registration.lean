import Velox.Arbiter.Reactor
import Velox.Foundation.Mirror

/-!
# Registration of handles

A handle that is registered with the loop is known in three places: its own
`ownerLoop`, the list of the reactor, and the interest table of epoll, which
also holds the events that the handle asks for.  `EventReactor`, `IoHandle`
and `SysPoller` each change their part.  Objects are named by their addresses,
which may be used again after the destruction of an object; a call on an
object that does not live is not a step.
-/

namespace Velox

open Foundation

/-- The variables of a handle; the owner is the one reactor or none. -/
structure IoHandle where
  fd : Nat
  eventsInterested : Int32
  ownerLoop : Bool
  deriving DecidableEq

namespace EventMasks

def noneEvent : Int32 := 0

/-- `POLLIN | POLLPRI`. -/
def readEvent : Int32 := 0x1 ||| 0x2

/-- `POLLOUT`. -/
def writeEvent : Int32 := 0x4

end EventMasks

inductive EpollOp where
  | add
  | del
  | mod
  deriving DecidableEq

/-- The interest table of epoll: for each descriptor the pointer and the
events that it was added with. -/
abbrev Interest (ι : Type _) :=
  Nat -> Option (ι × Int32)

/-- `epoll_ctl`; with a descriptor that is there already, or is not there, it
fails and changes nothing. -/
def epollCtl {ι : Type _} (table : Interest ι) (op : EpollOp) (fd : Nat)
    (ev : ι × Int32) : Interest ι :=
  match op, table fd with
  | .add, none => Function.update table fd (some ev)
  | .del, some _ => Function.update table fd none
  | .mod, some _ => Function.update table fd (some ev)
  | _, _ => table

structure Registry (ι : Type _) where
  handles : ι -> Option IoHandle
  channels : List ι
  interest : Interest ι

inductive RegistryAct (ι : Type _) where
  /-- The constructor, for a descriptor. -/
  | create (p : ι) (fd : Nat)
  /-- `addChannel` of the reactor, followed by `setOwnerEventReactor`. -/
  | register (p : ι)
  | enableReading (p : ι)
  | disableReading (p : ι)
  | enableWriting (p : ι)
  | disableWriting (p : ι)
  | disableAll (p : ι)
  | unregisterSelf (p : ι)
  | destroy (p : ι)

namespace Registry

variable {ι : Type _} [DecidableEq ι]

omit [DecidableEq ι] in
def init : Registry ι where
  handles := fun _ => none
  channels := []
  interest := fun _ => none

def hasChannel (s : Registry ι) (p : ι) : Bool :=
  decide (p ∈ s.channels)

/-!
The functions of the reactor are given the handle behind the pointer, from
which the poller reads the descriptor and the events.
-/

def addChannel (s : Registry ι) (p : ι) (h : IoHandle) : Registry ι :=
  if s.hasChannel p then s
  else
    { s with
      interest := epollCtl s.interest .add h.fd (p, h.eventsInterested)
      channels := s.channels ++ [p] }

def removeChannel (s : Registry ι) (p : ι) (h : IoHandle) : Registry ι :=
  if s.hasChannel p then
    { s with
      interest := epollCtl s.interest .del h.fd (p, h.eventsInterested)
      channels := s.channels.erase p }
  else s

def updateChannel (s : Registry ι) (p : ι) (h : IoHandle) : Registry ι :=
  if s.hasChannel p then
    { s with
      interest := epollCtl s.interest .mod h.fd (p, h.eventsInterested) }
  else s

def setHandle (s : Registry ι) (p : ι) (h : Option IoHandle) : Registry ι :=
  { s with handles := Function.update s.handles p h }

/-- The functions that change the events and tell the owner. -/
def changeEvents (f : Int32 -> Int32) (s : Registry ι) (p : ι)
    (h : IoHandle) : Registry ι :=
  let h' := { h with eventsInterested := f h.eventsInterested }
  let s' := s.setHandle p (some h')
  if h'.ownerLoop then s'.updateChannel p h' else s'

def enableReading : Registry ι -> ι -> IoHandle -> Registry ι :=
  changeEvents fun events => events ||| EventMasks.readEvent

def disableReading : Registry ι -> ι -> IoHandle -> Registry ι :=
  changeEvents fun events => events &&& EventMasks.noneEvent

def enableWriting : Registry ι -> ι -> IoHandle -> Registry ι :=
  changeEvents fun events => events ||| EventMasks.writeEvent

def disableWriting : Registry ι -> ι -> IoHandle -> Registry ι :=
  changeEvents fun events => events &&& ~~~EventMasks.writeEvent

def disableAll : Registry ι -> ι -> IoHandle -> Registry ι :=
  changeEvents fun events => events &&& EventMasks.noneEvent

def setOwnerEventReactor (s : Registry ι) (p : ι) (h : IoHandle)
    (owner : Bool) : Registry ι :=
  s.setHandle p (some { h with ownerLoop := owner })

def register (s : Registry ι) (p : ι) (h : IoHandle) : Registry ι :=
  (s.addChannel p h).setOwnerEventReactor p h true

def unregisterSelf (s : Registry ι) (p : ι) (h : IoHandle) : Registry ι :=
  (if h.ownerLoop then s.removeChannel p h else s).setOwnerEventReactor p h
    false

def destroy (s : Registry ι) (p : ι) (h : IoHandle) : Registry ι :=
  (if h.ownerLoop then s.removeChannel p h else s).setHandle p none

def create (s : Registry ι) (p : ι) (fd : Nat) : Option (Registry ι) :=
  match s.handles p with
  | some _ => none
  | none =>
      some (s.setHandle p (some
        { fd := fd
          eventsInterested := EventMasks.noneEvent
          ownerLoop := false }))

def call (s : Registry ι) (p : ι)
    (f : Registry ι -> ι -> IoHandle -> Registry ι) : Option (Registry ι) :=
  (s.handles p).map (f s p)

def step (s : Registry ι) : RegistryAct ι -> Option (Registry ι)
  | .create p fd => s.create p fd
  | .register p => s.call p register
  | .enableReading p => s.call p enableReading
  | .disableReading p => s.call p disableReading
  | .enableWriting p => s.call p enableWriting
  | .disableWriting p => s.call p disableWriting
  | .disableAll p => s.call p disableAll
  | .unregisterSelf p => s.call p unregisterSelf
  | .destroy p => s.call p destroy

/-!
## What is registered
-/

end Registry

def IoHandle.entry (h : IoHandle) : Option (Nat × Int32) :=
  if h.ownerLoop then some (h.fd, h.eventsInterested) else none

theorem IoHandle.entry_eq_some_iff {h : IoHandle} {fd : Nat}
    {events : Int32} :
    h.entry = some (fd, events) <->
      h.ownerLoop = true ∧ h.fd = fd ∧ h.eventsInterested = events := by
  unfold entry
  cases h.ownerLoop <;> simp

namespace Registry

variable {ι : Type _}

/-- The entries of the handles that live and have an owner. -/
def registered (s : Registry ι) (p : ι) : Option (Nat × Int32) :=
  (s.handles p).bind IoHandle.entry

theorem registered_eq_some_iff {s : Registry ι} {p : ι} {fd : Nat}
    {events : Int32} :
    s.registered p = some (fd, events) <->
      exists h, s.handles p = some h ∧ h.ownerLoop = true ∧ h.fd = fd ∧
        h.eventsInterested = events := by
  rw [registered, Option.bind_eq_some_iff]
  simp only [IoHandle.entry_eq_some_iff]

/-- The list and the table hold what is registered, and live handles have
descriptors of their own. -/
structure Consistent (s : Registry ι) : Prop where
  mirror : Mirror s.registered s.channels s.interest
  distinct : forall p q h h', s.handles p = some h ->
    s.handles q = some h' -> h.fd = h'.fd -> p = q

theorem consistent_init : (init : Registry ι).Consistent where
  mirror := Mirror.empty
  distinct := by
    intro p q h h' hp
    cases hp

theorem registered_of_owner {s : Registry ι} {p : ι} {h : IoHandle}
    (hp : s.handles p = some h) (hown : h.ownerLoop = true) :
    s.registered p = some (h.fd, h.eventsInterested) :=
  registered_eq_some_iff.2 ⟨h, hp, hown, rfl, rfl⟩

theorem registered_of_no_owner {s : Registry ι} {p : ι} {h : IoHandle}
    (hp : s.handles p = some h) (hown : h.ownerLoop = false) :
    s.registered p = none := by
  rw [registered, hp, Option.bind_some, IoHandle.entry, hown]
  rfl

def FreeFd (s : Registry ι) (p : ι) (fd : Nat) : Prop :=
  forall q h, q ≠ p -> s.handles q = some h -> h.fd ≠ fd

theorem Consistent.freeFd {s : Registry ι} (hs : s.Consistent) {p : ι}
    {h h' : IoHandle} (hp : s.handles p = some h) (hfd : h'.fd = h.fd) :
    forall k, some h' = some k -> s.FreeFd p k.fd := by
  intro k hk q h'' hqp hq heq
  cases hk
  exact hqp (hs.distinct q p h'' h hq hp (heq.trans hfd))

/-!
## The three places agree
-/

/-- The list of the reactor, the table of epoll and the owners agree. -/
structure InStep (s : Registry ι) : Prop where
  nodup : s.channels.Nodup
  mem_channels : forall p, p ∈ s.channels <->
    exists h, s.handles p = some h ∧ h.ownerLoop = true
  interest : forall fd p events, s.interest fd = some (p, events) <->
    exists h, s.handles p = some h ∧ h.ownerLoop = true ∧ h.fd = fd ∧
      h.eventsInterested = events
  destroyed : forall p, s.handles p = none ->
    p ∉ s.channels ∧ forall fd events, s.interest fd ≠ some (p, events)

theorem Consistent.inStep {s : Registry ι} (hs : s.Consistent) :
    s.InStep := by
  have hmem : forall p, p ∈ s.channels <->
      exists h, s.handles p = some h ∧ h.ownerLoop = true := by
    intro p
    rw [hs.mirror.mem_iff, Option.isSome_iff_exists]
    constructor
    case mp =>
      rintro ⟨⟨fd, events⟩, hreg⟩
      rcases registered_eq_some_iff.1 hreg with ⟨h, hp, hown, _⟩
      exact ⟨h, hp, hown⟩
    case mpr =>
      rintro ⟨h, hp, hown⟩
      exact ⟨_, registered_of_owner hp hown⟩
  have hinterest : forall fd p events, s.interest fd = some (p, events) <->
      exists h, s.handles p = some h ∧ h.ownerLoop = true ∧ h.fd = fd ∧
        h.eventsInterested = events := by
    intro fd p events
    rw [hs.mirror.index_iff, registered_eq_some_iff]
  constructor
  case nodup => exact hs.mirror.nodup
  case mem_channels => exact hmem
  case interest => exact hinterest
  case destroyed =>
    intro p hp
    constructor
    case left =>
      rw [hmem]
      rintro ⟨h, hp', _⟩
      rw [hp] at hp'
      cases hp'
    case right =>
      intro fd events hin
      rcases (hinterest fd p events).1 hin with ⟨h, hp', _⟩
      rw [hp] at hp'
      cases hp'

section Step

variable [DecidableEq ι]

theorem hasChannel_iff {s : Registry ι} {p : ι} :
    s.hasChannel p = true <-> p ∈ s.channels :=
  decide_eq_true_iff

/-- Every step changes one object and leaves the reactor with an entry for
it that fits. -/
theorem Consistent.setHandle {s s' : Registry ι} (hs : s.Consistent)
    (hhandles : s'.handles = s.handles) {p : ι} {o : Option IoHandle}
    (hmirror : Mirror (Function.update s.registered p (o.bind IoHandle.entry))
      s'.channels s'.interest)
    (hfree : forall h, o = some h -> s.FreeFd p h.fd) :
    (s'.setHandle p o).Consistent := by
  constructor
  case mirror =>
    have hreg : (s'.setHandle p o).registered =
        Function.update s.registered p (o.bind IoHandle.entry) := by
      funext q
      by_cases hq : q = p
      · simp [registered, Registry.setHandle, hq]
      · simp [registered, Registry.setHandle, hq, hhandles]
    rw [hreg]
    exact hmirror
  case distinct =>
    intro q q' h h' hq hq' hfd
    unfold Registry.setHandle at hq hq'
    dsimp only at hq hq'
    rw [hhandles] at hq hq'
    by_cases hqp : q = p
    case pos =>
      by_cases hqp' : q' = p
      · rw [hqp, hqp']
      · rw [hqp, Function.update_self] at hq
        rw [Function.update_of_ne hqp'] at hq'
        exact absurd hfd.symm (hfree h hq q' h' hqp' hq')
    case neg =>
      rw [Function.update_of_ne hqp] at hq
      by_cases hqp' : q' = p
      · rw [hqp', Function.update_self] at hq'
        exact absurd hfd (hfree h' hq' q h hqp hq)
      · rw [Function.update_of_ne hqp'] at hq'
        exact hs.distinct q q' h h' hq hq' hfd

/-!
## The steps
-/

theorem Consistent.create {s s' : Registry ι} (hs : s.Consistent) {p : ι}
    {fd : Nat} (hfree : s.FreeFd p fd) (hstep : s.create p fd = some s') :
    s'.Consistent := by
  unfold Registry.create at hstep
  split at hstep
  case h_1 => cases hstep
  case h_2 hp =>
    cases hstep
    refine hs.setHandle rfl ?_ ?_
    case refine_1 =>
      show Mirror (Function.update s.registered p none) _ _
      have hreg : s.registered p = none := by rw [registered, hp]; rfl
      rw [← hreg, Function.update_eq_self]
      exact hs.mirror
    case refine_2 =>
      intro h hh
      cases hh
      exact hfree

theorem handles_addChannel (s : Registry ι) (p : ι) (h : IoHandle) :
    (s.addChannel p h).handles = s.handles := by
  unfold addChannel
  split <;> rfl

theorem Consistent.mirror_addChannel {s : Registry ι} (hs : s.Consistent)
    {p : ι} {h : IoHandle} (hp : s.handles p = some h) :
    Mirror (Function.update s.registered p (some (h.fd, h.eventsInterested)))
      (s.addChannel p h).channels (s.addChannel p h).interest := by
  unfold addChannel
  cases hown : h.ownerLoop with
  | true =>
      have hreg := registered_of_owner hp hown
      rw [if_pos (hasChannel_iff.2 (hs.mirror.mem hreg)), ← hreg,
        Function.update_eq_self]
      exact hs.mirror
  | false =>
      have hreg := registered_of_no_owner hp hown
      have hnot := hs.mirror.notMem hreg
      have hindex : s.interest h.fd = none := by
        refine hs.mirror.index_eq_none ?_
        intro q v hq
        rcases registered_eq_some_iff.1 hq with ⟨h', hq', _, hfd, _⟩
        rw [hs.distinct q p h' h hq' hp hfd, hreg] at hq
        cases hq
      rw [if_neg fun hmem => hnot (hasChannel_iff.1 hmem)]
      unfold epollCtl
      rw [hindex]
      exact hs.mirror.insert hreg hindex _

theorem Consistent.register {s : Registry ι} (hs : s.Consistent) {p : ι}
    {h : IoHandle} (hp : s.handles p = some h) :
    (s.register p h).Consistent := by
  have hmirror := hs.mirror_addChannel hp
  exact hs.setHandle (handles_addChannel s p h) hmirror (hs.freeFd hp rfl)

theorem handles_updateChannel (s : Registry ι) (p : ι) (h : IoHandle) :
    (s.updateChannel p h).handles = s.handles := by
  unfold updateChannel
  split <;> rfl

theorem updateChannel_setHandle (s : Registry ι) (p : ι) (h : IoHandle)
    (o : Option IoHandle) :
    (s.setHandle p o).updateChannel p h =
      (s.updateChannel p h).setHandle p o := by
  unfold updateChannel
  show (if s.hasChannel p then _ else _) = _
  split <;> rfl

theorem Consistent.mirror_updateChannel {s : Registry ι}
    (hs : s.Consistent) {p : ι} {h : IoHandle} (hp : s.handles p = some h)
    (hown : h.ownerLoop = true) (events : Int32) :
    Mirror (Function.update s.registered p (some (h.fd, events)))
      (s.updateChannel p { h with eventsInterested := events }).channels
      (s.updateChannel p { h with eventsInterested := events }).interest := by
  have hreg := registered_of_owner hp hown
  have hindex := (hs.mirror.index_iff _ _ _).2 hreg
  unfold updateChannel
  rw [if_pos (hasChannel_iff.2 (hs.mirror.mem hreg))]
  unfold epollCtl
  dsimp only
  rw [hindex]
  exact hs.mirror.modify hreg events

theorem Consistent.changeEvents {s : Registry ι} (hs : s.Consistent)
    (f : Int32 -> Int32) {p : ι} {h : IoHandle} (hp : s.handles p = some h) :
    (s.changeEvents f p h).Consistent := by
  unfold Registry.changeEvents
  dsimp only
  cases hown : h.ownerLoop with
  | true =>
      rw [if_pos rfl, updateChannel_setHandle]
      have hmirror := hs.mirror_updateChannel hp hown (f h.eventsInterested)
      rw [hown] at hmirror
      exact hs.setHandle (handles_updateChannel s p _) hmirror
        (hs.freeFd hp rfl)
  | false =>
      rw [if_neg Bool.false_ne_true]
      refine hs.setHandle rfl ?_ (hs.freeFd hp rfl)
      show Mirror (Function.update s.registered p none) _ _
      rw [← registered_of_no_owner hp hown, Function.update_eq_self]
      exact hs.mirror

/-- What `unregisterSelf` and the destructor do first. -/
def leave (s : Registry ι) (p : ι) (h : IoHandle) : Registry ι :=
  if h.ownerLoop then s.removeChannel p h else s

theorem handles_leave (s : Registry ι) (p : ι) (h : IoHandle) :
    (s.leave p h).handles = s.handles := by
  unfold leave removeChannel
  split
  · split <;> rfl
  · rfl

theorem Consistent.mirror_leave {s : Registry ι} (hs : s.Consistent)
    {p : ι} {h : IoHandle} (hp : s.handles p = some h) :
    Mirror (Function.update s.registered p none) (s.leave p h).channels
      (s.leave p h).interest := by
  unfold leave
  cases hown : h.ownerLoop with
  | true =>
      have hreg := registered_of_owner hp hown
      have hindex := (hs.mirror.index_iff _ _ _).2 hreg
      rw [if_pos rfl, removeChannel,
        if_pos (hasChannel_iff.2 (hs.mirror.mem hreg))]
      unfold epollCtl
      rw [hindex]
      exact hs.mirror.remove hreg
  | false =>
      rw [if_neg Bool.false_ne_true, ← registered_of_no_owner hp hown,
        Function.update_eq_self]
      exact hs.mirror

theorem Consistent.unregisterSelf {s : Registry ι} (hs : s.Consistent)
    {p : ι} {h : IoHandle} (hp : s.handles p = some h) :
    (s.unregisterSelf p h).Consistent := by
  have hmirror := hs.mirror_leave hp
  exact hs.setHandle (handles_leave s p h) hmirror (hs.freeFd hp rfl)

theorem Consistent.destroy {s : Registry ι} (hs : s.Consistent) {p : ι}
    {h : IoHandle} (hp : s.handles p = some h) :
    (s.destroy p h).Consistent := by
  refine hs.setHandle (handles_leave s p h) (hs.mirror_leave hp) ?_
  intro h' hh'
  cases hh'

/-- A new handle is given a descriptor that no live handle has. -/
def DistinctFds (s : Registry ι) : RegistryAct ι -> Prop
  | .create p fd => s.FreeFd p fd
  | _ => True

theorem Consistent.step {s s' : Registry ι} {a : RegistryAct ι}
    (hs : s.Consistent) (hfds : s.DistinctFds a)
    (hstep : s.step a = some s') : s'.Consistent := by
  have hcall : forall {p : ι} {f}, s.call p f = some s' ->
      (forall h, s.handles p = some h -> (f s p h).Consistent) ->
        s'.Consistent := by
    intro p f hf hpres
    rcases Option.map_eq_some_iff.1 hf with ⟨h, hp, rfl⟩
    exact hpres h hp
  cases a with
  | create p fd => exact hs.create hfds hstep
  | register p => exact hcall hstep fun _ => hs.register
  | enableReading p => exact hcall hstep fun _ => hs.changeEvents _
  | disableReading p => exact hcall hstep fun _ => hs.changeEvents _
  | enableWriting p => exact hcall hstep fun _ => hs.changeEvents _
  | disableWriting p => exact hcall hstep fun _ => hs.changeEvents _
  | disableAll p => exact hcall hstep fun _ => hs.changeEvents _
  | unregisterSelf p => exact hcall hstep fun _ => hs.unregisterSelf
  | destroy p => exact hcall hstep fun _ => hs.destroy

theorem consistent_run {s : Registry ι} {actions : List (RegistryAct ι)}
    (hfds : StepsMeet step DistinctFds init actions)
    (hrun : run step init actions = some s) : s.Consistent :=
  guardedRun_invariant (fun _ _ _ hs hguard => hs.step hguard)
    consistent_init hfds hrun

/-- After every sequence of calls the three places agree. -/
theorem registration_inStep {s : Registry ι}
    {actions : List (RegistryAct ι)}
    (hfds : StepsMeet step DistinctFds init actions)
    (hrun : run step init actions = some s) : s.InStep :=
  (consistent_run hfds hrun).inStep

end Step

def twoHandles : List (RegistryAct Bool) :=
  [.create true 7, .register true, .register true, .create false 8,
    .enableReading false, .register false, .enableWriting true, .destroy true]

theorem distinctFds_twoHandles :
    StepsMeet step DistinctFds (init : Registry Bool) twoHandles := by
  refine ⟨?_, trivial, trivial, ?_, trivial, trivial, trivial, trivial,
    trivial⟩
  · intro q h _ hq
    cases hq
  · intro q h hqp hq
    cases q with
    | false => exact absurd rfl hqp
    | true =>
        have hh : (⟨7, 0, true⟩ : IoHandle) = h := Option.some.inj hq
        rw [← hh]
        decide

theorem registration_inStep_twoHandles :
    exists s, run step (init : Registry Bool) twoHandles = some s ∧
      s.channels = [false] ∧ s.interest 8 = some (false, 3) ∧
      s.interest 7 = none ∧ s.InStep :=
  ⟨_, rfl, rfl, rfl, rfl, registration_inStep distinctFds_twoHandles rfl⟩

/-!
## The list of the loop

The model of the loop keeps the list only, under the owners of the handles.
-/

theorem channels_addChannel (s : Registry Handle) (p : Handle)
    (h : IoHandle) :
    (s.addChannel p h).channels = Reactor.addChannel s.channels p := by
  unfold addChannel Reactor.addChannel hasChannel
  by_cases hmem : p ∈ s.channels <;> simp [hmem]

/-- What a consistent reactor keeps of its list when a handle leaves is what
the model of the loop keeps. -/
theorem Consistent.channels_leave {s : Registry Handle} (hs : s.Consistent)
    {p : Handle} {h : IoHandle} (hp : s.handles p = some h) (r : Reactor)
    (hr : r.channels = s.channels) :
    (s.leave p h).channels = (r.unregister p).channels := by
  unfold Reactor.unregister
  dsimp only
  rw [hr]
  unfold leave removeChannel
  cases hown : h.ownerLoop with
  | true =>
      have hmem := hs.mirror.mem (registered_of_owner hp hown)
      rw [if_pos rfl, if_pos (hasChannel_iff.2 hmem)]
  | false =>
      have hnot := hs.mirror.notMem (registered_of_no_owner hp hown)
      rw [if_neg Bool.false_ne_true, List.erase_of_not_mem hnot]

end Registry
end Velox
