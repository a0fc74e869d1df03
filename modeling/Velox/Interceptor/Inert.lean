import Velox.Interceptor.FdMap

/-!
# Descriptors that are not open

`is_assigned_by_velox` tests the range only, and an empty entry of the table
is the number of a descriptor of the kernel.  This module says which calls
keep to the channel of their own descriptor.
-/

namespace Velox

open Foundation

namespace FdEvent

def descriptor : FdEvent -> Option Nat
  | .access _ => none
  | .send ch => some ch
  | .recv ch => some ch
  | .close ch => some ch
  | .glibc fd => some fd

def touched (events : List FdEvent) : List Nat :=
  events.filterMap descriptor

end FdEvent

open FdEvent

namespace FdCall

def OnRange (r : FdRange) : FdCall -> Prop
  | .socket _ _ => True
  | .close fd => r.isAssignedByVelox fd = true
  | .io fd _ => r.isAssignedByVelox fd = true

end FdCall

namespace FdPool

theorem touched_exchange (p : FdPool) (fd : Nat) :
    touched (p.exchange fd) = [p.fdChanmap fd, p.fdChanmap fd] :=
  rfl

theorem touched_printed (p : FdPool) (fd : Nat) :
    touched (p.tableAccess fd :: p.exchange fd) =
      [p.fdChanmap fd, p.fdChanmap fd] :=
  rfl

theorem closeFuel_touches_own {fuel : Nat} {p : FdPool} {fd : Nat}
    {result : FdPool × List FdEvent} (hfd : p.isAssigned fd = true)
    (h : closeFuel (fuel + 1) p fd = some result) :
    p.fdChanmap fd ∈ touched result.2 := by
  rw [closeFuel_inside hfd] at h
  rcases Option.map_eq_some_iff.1 h with ⟨inner, _, heq⟩
  subst heq
  exact List.mem_cons_self ..

theorem closeFuel_touches_inner {fuel : Nat} {p : FdPool} {fd : Nat}
    {result : FdPool × List FdEvent} (hfd : p.isAssigned fd = true)
    (h : closeFuel (fuel + 1) p fd = some result) :
    exists inner, closeFuel fuel (p.unsetFdChanmap fd) (p.fdChanmap fd) =
      some inner ∧ forall ch, ch ∈ touched inner.2 -> ch ∈ touched result.2 := by
  rw [closeFuel_inside hfd] at h
  rcases Option.map_eq_some_iff.1 h with ⟨inner, hinner, heq⟩
  subst heq
  refine ⟨inner, hinner, ?_⟩
  intro ch hch
  unfold touched at hch ⊢
  rw [List.filterMap_append]
  exact List.mem_append_right _ hch

end FdPool

namespace FdHistory

/-- The channel that a call may use: the one that its own socket call opens,
or has opened and no `close` of the descriptor has closed. -/
def ownChannel (w : FdHistory) : FdCall -> Option Nat
  | .socket chan _ => some chan
  | .close fd => w.chanOf fd
  | .io fd _ => w.chanOf fd

/-- The call touches no descriptor of the kernel but its own channel. -/
def Inert (w : FdHistory) (call : FdCall) : Prop :=
  forall result, w.pool.perform call = some result ->
    forall ch, ch ∈ touched result.2 -> w.ownChannel call = some ch

/-- A call that makes a request is on a descriptor in use, and the channel
that a `close` closes lies outside the range. -/
def InUse (w : FdHistory) : FdCall -> Prop
  | .socket _ _ => True
  | .close fd =>
      exists ch, w.chanOf fd = some ch ∧ w.pool.isAssigned ch = false
  | .io fd op => FdPool.returnsAtOnce op = false -> w.chanOf fd ≠ none

variable {w : FdHistory}

theorem entry_of_chanOf (h : w.Synced) {fd ch : Nat}
    (hfd : w.pool.isAssigned fd = true) (hch : w.chanOf fd = some ch) :
    w.pool.fdChanmap fd = ch := by
  rw [h.entries fd hfd, hch]
  rfl

/-!
## Requests
-/

theorem exchange_own_iff (h : w.Synced) {fd : Nat}
    (hfd : w.pool.isAssigned fd = true) :
    (forall ch, ch ∈ [w.pool.fdChanmap fd, w.pool.fdChanmap fd] ->
      w.chanOf fd = some ch) <-> w.chanOf fd ≠ none := by
  constructor
  · intro hown
    rw [hown _ (List.mem_cons_self ..)]
    exact Option.some_ne_none _
  · intro hused ch hch
    rcases Option.ne_none_iff_exists'.1 hused with ⟨own, hown⟩
    have hentry := entry_of_chanOf h hfd hown
    rw [hentry] at hch
    rw [hown]
    simp only [List.mem_cons, List.not_mem_nil, or_false, or_self] at hch
    rw [hch]

theorem inert_io_iff (h : w.Synced) {fd : Nat} (op : FdOp)
    (hfd : w.pool.isAssigned fd = true) :
    w.Inert (.io fd op) <-> w.InUse (.io fd op) := by
  have hevents : w.Inert (.io fd op) <->
      forall ch, ch ∈ touched (w.pool.ioEvents fd op) ->
        w.chanOf fd = some ch := by
    constructor
    · intro hinert
      exact hinert _ rfl
    · intro hown result hresult
      cases hresult
      exact hown
  rw [hevents]
  show _ <-> (FdPool.returnsAtOnce op = false -> w.chanOf fd ≠ none)
  have hcase := FdPool.ioEvents_cases w.pool fd op
  generalize w.pool.ioEvents fd op = events at hcase ⊢
  generalize FdPool.returnsAtOnce op = atOnce at hcase ⊢
  cases hcase with
  | outside hout =>
      rw [hfd] at hout
      cases hout
  | nothing _ hop =>
      constructor
      · intro _ hnot
        rw [hop] at hnot
        cases hnot
      · intro _ ch hch
        cases hch
  | exchange _ hop =>
      rw [FdPool.touched_exchange, exchange_own_iff h hfd]
      exact ⟨fun hused _ => hused, fun hused => hused hop⟩
  | printed _ hop =>
      rw [FdPool.touched_printed, exchange_own_iff h hfd]
      exact ⟨fun hused _ => hused, fun hused => hused hop⟩

/-!
## Closing
-/

/-- If the channel lies in the range, `close` goes on to its entry and finds a
descriptor that is not the channel, at the latest the empty entry. -/
theorem inUse_of_inert_close {fd : Nat}
    (hfd : w.pool.isAssigned fd = true) (hinert : w.Inert (.close fd)) :
    w.InUse (.close fd) := by
  rcases w.pool.close_isSome fd with ⟨result, hclose⟩
  have hown := hinert result hclose
  have hch : w.chanOf fd = some (w.pool.fdChanmap fd) :=
    hown _ (FdPool.closeFuel_touches_own hfd hclose)
  refine ⟨w.pool.fdChanmap fd, hch, ?_⟩
  by_contra hassigned
  rw [Bool.not_eq_false] at hassigned
  obtain ⟨more, hmore⟩ : exists more, w.pool.chanTable.length = more + 1 :=
    Nat.exists_eq_succ_of_ne_zero (w.pool.size_eq ▸ w.pool.range.count_ne_zero)
  unfold FdPool.close at hclose
  rw [hmore] at hclose
  have hsame : forall ch, ch ∈ touched result.2 -> ch = w.pool.fdChanmap fd := by
    intro ch hmem
    exact Option.some.inj ((hown ch hmem).symm.trans hch)
  rcases FdPool.closeFuel_touches_inner hfd hclose with
    ⟨inner, hinner, hinnerMem⟩
  let once := w.pool.unsetFdChanmap fd
  have honce : once.isAssigned (w.pool.fdChanmap fd) = true := hassigned
  have hnext : once.fdChanmap (w.pool.fdChanmap fd) = w.pool.fdChanmap fd :=
    hsame _ (hinnerMem _ (FdPool.closeFuel_touches_own honce hinner))
  rcases FdPool.closeFuel_touches_inner honce hinner with
    ⟨last, hlast, hlastMem⟩
  rw [hnext] at hlast
  let twice := once.unsetFdChanmap (w.pool.fdChanmap fd)
  have htwice : twice.isAssigned (w.pool.fdChanmap fd) = true := hassigned
  have hempty : twice.fdChanmap (w.pool.fdChanmap fd) = 0 :=
    once.fdChanmap_set_self 0 honce
  have hzero := hsame _ (hinnerMem _ (hlastMem _
    (FdPool.closeFuel_touches_own htwice hlast)))
  rw [hempty] at hzero
  have houtside := w.pool.range.isAssignedByVelox_zero
  rw [hzero] at houtside
  exact Bool.false_ne_true (houtside.symm.trans hassigned)

theorem inert_close_of_inUse (h : w.Synced) {fd : Nat}
    (hfd : w.pool.isAssigned fd = true) (huse : w.InUse (.close fd)) :
    w.Inert (.close fd) := by
  rcases huse with ⟨own, hown, houtside⟩
  have hentry := entry_of_chanOf h hfd hown
  intro result hresult ch hch
  have hresult : w.pool.close fd = some result := hresult
  unfold FdPool.close at hresult
  rw [FdPool.closeFuel_channel_outside hfd (hentry.symm ▸ houtside)]
    at hresult
  cases hresult
  have hmem : ch ∈ [w.pool.fdChanmap fd, w.pool.fdChanmap fd,
    w.pool.fdChanmap fd] := hch
  simp only [List.mem_cons, List.not_mem_nil, or_false, or_self] at hmem
  rw [hmem, hentry]
  exact hown

/-!
## Runs
-/

theorem inert_iff_inUse (h : w.Synced) {call : FdCall}
    (hrange : call.OnRange w.pool.range) :
    w.Inert call <-> w.InUse call := by
  cases call with
  | socket chan ret =>
      refine iff_of_true ?_ trivial
      intro result hresult ch hch
      cases hresult
      have hmem : ch ∈ [chan, chan] := hch
      simp only [List.mem_cons, List.not_mem_nil, or_false, or_self] at hmem
      rw [hmem]
      rfl
  | close fd =>
      exact ⟨inUse_of_inert_close hrange, inert_close_of_inUse h hrange⟩
  | io fd op => exact inert_io_iff h op hrange

theorem channelApart_of_inUse (h : w.Synced) {call : FdCall}
    (huse : w.InUse call) : w.ChannelApart call := by
  cases call with
  | socket chan ret => trivial
  | io fd op => trivial
  | close fd =>
      intro hfd hassigned
      rcases huse with ⟨ch, hch, houtside⟩
      rw [entry_of_chanOf h hfd hch, houtside] at hassigned
      cases hassigned

/-- In every run of calls on descriptors of the range, all calls keep to the
channel of their own descriptor exactly if each call that makes a request is on
a descriptor in use and each `close` finds a channel outside the range. -/
theorem inert_run_iff_inUse (r : FdRange) {calls : List FdCall}
    (hrange : forall call, call ∈ calls -> call.OnRange r) :
    StepsMeet step Inert (start r) calls <->
      StepsMeet step InUse (start r) calls := by
  have hpres : forall (w : FdHistory) call w', call ∈ calls ->
      (w.Synced ∧ w.pool.range = r) -> w.InUse call ->
        w.step call = some w' -> (w'.Synced ∧ w'.pool.range = r) := by
    intro w call w' _ h huse hstep
    refine ⟨step_synced w call w' h.left (channelApart_of_inUse h.left huse)
      hstep, ?_⟩
    rw [(step_range_last hstep).left]
    exact h.right
  have hiff : forall (w : FdHistory) call, call ∈ calls ->
      (w.Synced ∧ w.pool.range = r) -> (w.Inert call <-> w.InUse call) := by
    intro w call hmem h
    refine inert_iff_inUse h.left ?_
    rw [h.right]
    exact hrange call hmem
  exact stepsMeet_congr_of_mem hpres hiff ⟨synced_start r, rfl⟩

def connectSendClose : List FdCall :=
  [.socket 5 0, .io 4096 .connect, .io 4096 (.send true 3), .close 4096,
    .io 4096 (.recv false 0)]

theorem inert_connect_send_close :
    (forall call, call ∈ connectSendClose -> call.OnRange twoSlots) ∧
      StepsMeet step Inert (start twoSlots) connectSendClose := by
  have hrange : forall call, call ∈ connectSendClose ->
      call.OnRange twoSlots := by
    intro call hcall
    simp only [connectSendClose, List.mem_cons, List.not_mem_nil,
      or_false] at hcall
    rcases hcall with rfl | rfl | rfl | rfl | rfl
    · trivial
    all_goals rfl
  refine ⟨hrange, (inert_run_iff_inUse twoSlots hrange).2 ?_⟩
  refine ⟨trivial, ?_, ?_, ?_, ?_, trivial⟩
  · intro _ hnone
    cases hnone
  · intro _ hnone
    cases hnone
  · exact ⟨5, rfl, rfl⟩
  · intro hsent
    cases hsent

/-- A second `close` sends its request to the standard input of the process
and closes it. -/
theorem second_close_touches_stdin :
    (exists w result,
      run step (start twoSlots) [.socket 5 0, .close 4096] = some w ∧
      w.pool.perform (.close 4096) = some result ∧
      .send 0 ∈ result.2 ∧ .close 0 ∈ result.2) ∧
    ¬ StepsMeet step Inert (start twoSlots)
      [.socket 5 0, .close 4096, .close 4096] := by
  constructor
  · exact ⟨_, _, rfl, rfl, by decide, by decide⟩
  · rintro ⟨_, _, hinert, _⟩
    cases hinert _ rfl 0 (by decide)

end FdHistory

end Velox
