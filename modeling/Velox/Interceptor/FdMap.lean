import Mathlib.Logic.Function.Basic
import Velox.Interceptor.FdPool

/-!
# The map from descriptors to channels

A process makes interposed calls in any order.  Beside the variables of the
interceptor the state keeps what has happened: the channel that the socket call
of a descriptor opened and that no `close` of the descriptor has closed, the
descriptors that socket calls returned, and everything the calls did.
-/

namespace Velox

open Foundation

/-- Calls on a descriptor that leave the interceptor as it is. -/
inductive FdOp where
  | connect
  | read (hasBuf : Bool) (count : Nat)
  | write (hasBuf : Bool) (count : Nat)
  | send (hasBuf : Bool) (len : Nat)
  | sendto (hasBuf : Bool) (len : Nat)
  | recv (hasBuf : Bool) (len : Nat)
  | recvfrom (hasBuf : Bool) (len : Nat)
  | getpeername
  | getsockname

/-- An interposed call; a socket call comes with the descriptor that the
kernel gives to `open_chan` and with the answer of the daemon. -/
inductive FdCall where
  | socket (chan : Nat) (ret : Int)
  | close (fd : Nat)
  | io (fd : Nat) (op : FdOp)

def FdCall.isSocket : FdCall -> Bool
  | .socket .. => true
  | _ => false

namespace FdPool

def ioEvents (p : FdPool) (fd : Nat) : FdOp -> List FdEvent
  | .connect => p.connect fd
  | .read hasBuf count => p.read fd hasBuf count
  | .write hasBuf count => p.write fd hasBuf count
  | .send hasBuf len => p.send fd hasBuf len
  | .sendto hasBuf len => p.sendto fd hasBuf len
  | .recv hasBuf len => p.recv fd hasBuf len
  | .recvfrom hasBuf len => p.recvfrom fd hasBuf len
  | .getpeername => p.getpeername fd
  | .getsockname => p.getsockname fd

def perform (p : FdPool) : FdCall -> Option (FdPool × List FdEvent)
  | .socket chan _ => some (p.socket chan)
  | .close fd => p.close fd
  | .io fd op => some (p, p.ioEvents fd op)

/-- The calls that return before they make an exchange. -/
def returnsAtOnce : FdOp -> Bool
  | .read hasBuf count => !hasBuf || count == 0
  | .write hasBuf count => !hasBuf || count == 0
  | .send hasBuf len => !hasBuf || len == 0
  | .sendto hasBuf len => !hasBuf || len == 0
  | .recv hasBuf len => !hasBuf || len == 0
  | .recvfrom hasBuf len => !hasBuf || len == 0
  | _ => false

inductive IoCase (p : FdPool) (fd : Nat) (atOnce : Bool) :
    List FdEvent -> Prop where
  | outside (h : p.isAssigned fd = false) : IoCase p fd atOnce [.glibc fd]
  | nothing (h : p.isAssigned fd = true) (hop : atOnce = true) :
      IoCase p fd atOnce []
  | exchange (h : p.isAssigned fd = true) (hop : atOnce = false) :
      IoCase p fd atOnce (p.exchange fd)
  | printed (h : p.isAssigned fd = true) (hop : atOnce = false) :
      IoCase p fd atOnce (p.tableAccess fd :: p.exchange fd)

theorem request_cases (p : FdPool) (fd : Nat) :
    IoCase p fd false (p.request fd) := by
  unfold request
  cases h : p.isAssigned fd with
  | true => exact .printed h rfl
  | false => exact .outside h

theorem getname_cases (p : FdPool) (fd : Nat) :
    IoCase p fd false (p.getname fd) := by
  unfold getname
  cases h : p.isAssigned fd with
  | true => exact .exchange h rfl
  | false => exact .outside h

theorem transfer_cases (p : FdPool) (fd : Nat) (hasBuf : Bool) (len : Nat) :
    IoCase p fd (!hasBuf || len == 0) (p.transfer fd hasBuf len) := by
  unfold transfer request
  cases h : p.isAssigned fd with
  | true =>
      cases hop : !hasBuf || len == 0 with
      | true => exact .nothing h rfl
      | false => exact .printed h rfl
  | false => exact .outside h

theorem ioEvents_cases (p : FdPool) (fd : Nat) (op : FdOp) :
    IoCase p fd (returnsAtOnce op) (p.ioEvents fd op) := by
  cases op with
  | connect => exact request_cases p fd
  | read hasBuf count => exact transfer_cases p fd hasBuf count
  | write hasBuf count => exact transfer_cases p fd hasBuf count
  | send hasBuf len => exact transfer_cases p fd hasBuf len
  | sendto hasBuf len => exact transfer_cases p fd hasBuf len
  | recv hasBuf len => exact transfer_cases p fd hasBuf len
  | recvfrom hasBuf len => exact transfer_cases p fd hasBuf len
  | getpeername => exact getname_cases p fd
  | getsockname => exact getname_cases p fd

theorem access_mem_ioEvents {p : FdPool} {fd : Nat} {op : FdOp} {i : Int}
    (h : .access i ∈ p.ioEvents fd op) : 0 <= i ∧ i < p.range.count := by
  have hcase := ioEvents_cases p fd op
  generalize p.ioEvents fd op = events at h hcase
  cases hcase with
  | outside hfd => simp at h
  | nothing hfd hop => cases h
  | exchange hfd hop =>
      exact p.tableAccess_inBounds hfd (access_mem_exchange h)
  | printed hfd hop =>
      refine p.tableAccess_inBounds hfd ?_
      rcases List.mem_cons.1 h with heq | hmem
      · exact heq
      · exact access_mem_exchange hmem

end FdPool

structure FdHistory where
  pool : FdPool
  chanOf : Nat -> Option Nat
  returned : List Nat
  trace : List FdEvent

namespace FdHistory

def start (r : FdRange) : FdHistory where
  pool := FdPool.start r
  chanOf := fun _ => none
  returned := []
  trace := []

def chanOfAfter (w : FdHistory) : FdCall -> Nat -> Option Nat
  | .socket chan _ => Function.update w.chanOf w.pool.nextAvailFd (some chan)
  | .close fd => Function.update w.chanOf fd none
  | .io _ _ => w.chanOf

def returnedAfter (w : FdHistory) : FdCall -> List Nat
  | .socket _ ret =>
      if ret ≠ -1 then w.returned ++ [w.pool.nextAvailFd] else w.returned
  | _ => w.returned

def step (w : FdHistory) (call : FdCall) : Option FdHistory :=
  (w.pool.perform call).map fun result =>
    { pool := result.1
      chanOf := w.chanOfAfter call
      returned := w.returnedAfter call
      trace := w.trace ++ result.2 }

/-- The descriptors that socket calls have returned and that are not closed. -/
def openFds (w : FdHistory) : List Nat :=
  w.returned.filter fun fd => (w.chanOf fd).isSome

/-- The map is right in this state: socket calls returned different
descriptors of the range, all accesses hit the table, and the entry of a
descriptor in use is the channel that its own socket call opened. -/
structure Faithful (w : FdHistory) : Prop where
  inRange : forall fd, fd ∈ w.returned -> w.pool.isAssigned fd = true
  nodup : w.returned.Nodup
  inBounds : forall i : Int, .access i ∈ w.trace ->
    0 <= i ∧ i < w.pool.range.count
  ownChannel : forall fd ch, w.chanOf fd = some ch -> w.pool.fdChanmap fd = ch

def FdLeft (w : FdHistory) : FdCall -> Prop
  | .socket _ _ => w.pool.isAssigned w.pool.nextAvailFd = true
  | _ => True

/-- The channel of a descriptor that is closed is not, as a number, another
descriptor of the range whose entry is in use. -/
def ChannelApart (w : FdHistory) : FdCall -> Prop
  | .close fd => w.pool.isAssigned fd = true ->
      w.pool.isAssigned (w.pool.fdChanmap fd) = true ->
        w.pool.fdChanmap fd = fd ∨
          w.pool.fdChanmap (w.pool.fdChanmap fd) = 0
  | _ => True

/-!
## The entries

In every state the entry of a descriptor of the range is the channel in use,
or empty; later descriptors have never been used.
-/

structure Cursor (w : FdHistory) : Prop where
  unused : forall fd, w.pool.lastFdAssigned < fd -> w.chanOf fd = none
  started : w.pool.range.startfd <= w.pool.nextAvailFd

structure Synced (w : FdHistory) : Prop extends Cursor w where
  entries : forall fd, w.pool.isAssigned fd = true ->
    w.pool.fdChanmap fd = (w.chanOf fd).getD 0

theorem synced_start (r : FdRange) : (start r).Synced where
  unused := fun _ _ => rfl
  started := by
    show r.startfd <= r.startfd - 1 + 1
    omega
  entries := fun fd _ => FdPool.fdChanmap_start r fd

variable {w : FdHistory}

theorem fdChanmap_socket (h : w.Synced) (chan : Nat) {fd : Nat}
    (hfd : w.pool.isAssigned fd = true) :
    (w.pool.socket chan).1.fdChanmap fd =
      (Function.update w.chanOf w.pool.nextAvailFd (some chan) fd).getD 0 := by
  let moved : FdPool := { w.pool with lastFdAssigned := w.pool.nextAvailFd }
  by_cases hnew : fd = w.pool.nextAvailFd
  · rw [hnew, Function.update_self]
    exact moved.fdChanmap_set_self chan (hnew ▸ hfd)
  · rw [Function.update_of_ne hnew, ← h.entries fd hfd]
    exact moved.fdChanmap_set_ne chan h.started
      ((w.pool.range.isAssignedByVelox_iff fd).1 hfd).1 (Ne.symm hnew)

theorem step_close {fd : Nat} {w' : FdHistory}
    (hstep : w.step (.close fd) = some w') :
    exists result, w.pool.close fd = some result ∧
      FdPool.Closes w.pool result ∧
      w' = { w with
        pool := result.1
        chanOf := Function.update w.chanOf fd none
        trace := w.trace ++ result.2 } := by
  rcases Option.map_eq_some_iff.1 hstep with ⟨result, hclose, heq⟩
  exact ⟨result, hclose, FdPool.closeFuel_closes hclose, heq.symm⟩

theorem step_isSome (w : FdHistory) (call : FdCall) :
    exists w', w.step call = some w' := by
  cases call with
  | socket chan ret => exact ⟨_, rfl⟩
  | close fd =>
      rcases w.pool.close_isSome fd with ⟨result, hclose⟩
      exact ⟨_, Option.map_eq_some_iff.2 ⟨result, hclose, rfl⟩⟩
  | io fd op => exact ⟨_, rfl⟩

theorem step_range_last {call : FdCall} {w' : FdHistory}
    (hstep : w.step call = some w') :
    w'.pool.range = w.pool.range ∧
      w'.pool.lastFdAssigned =
        w.pool.lastFdAssigned + call.isSocket.toNat := by
  cases call with
  | socket chan ret =>
      cases hstep
      exact ⟨rfl, rfl⟩
  | close fd =>
      rcases step_close hstep with ⟨result, _, hcloses, heq⟩
      subst heq
      exact ⟨hcloses.range_eq, hcloses.last_eq⟩
  | io fd op =>
      cases hstep
      exact ⟨rfl, rfl⟩

theorem mem_returned_step {call : FdCall} {w' : FdHistory} {fd : Nat}
    (hstep : w.step call = some w') (h : fd ∈ w'.returned) :
    fd ∈ w.returned ∨
      exists chan ret, call = .socket chan ret ∧ fd = w.pool.nextAvailFd := by
  rcases Option.map_eq_some_iff.1 hstep with ⟨result, _, heq⟩
  subst heq
  cases call with
  | socket chan ret =>
      change fd ∈ (if _ then _ else _ : List Nat) at h
      split at h
      · rcases List.mem_append.1 h with hold | hnew
        · exact .inl hold
        · exact .inr ⟨chan, ret, rfl, List.mem_singleton.1 hnew⟩
      · exact .inl h
  | close g => exact .inl h
  | io g op => exact .inl h

theorem step_cursor (w : FdHistory) (call : FdCall) (w' : FdHistory)
    (h : w.Cursor) (hstep : w.step call = some w') : w'.Cursor := by
  have hmoved := step_range_last hstep
  constructor
  · intro fd hlast
    rw [hmoved.right] at hlast
    have hold := h.unused fd (Nat.lt_of_le_of_lt (Nat.le_add_right _ _) hlast)
    cases call with
    | socket chan ret =>
        cases hstep
        have hne : fd ≠ w.pool.nextAvailFd := Nat.ne_of_gt hlast
        show Function.update w.chanOf w.pool.nextAvailFd _ fd = none
        rw [Function.update_of_ne hne]
        exact hold
    | close g =>
        rcases step_close hstep with ⟨result, _, _, heq⟩
        subst heq
        show Function.update w.chanOf g none fd = none
        by_cases hfd : fd = g
        · rw [hfd, Function.update_self]
        · rw [Function.update_of_ne hfd]
          exact hold
    | io g op =>
        cases hstep
        exact hold
  · have hstarted := h.started
    show w'.pool.range.startfd <= w'.pool.lastFdAssigned + 1
    rw [hmoved.left, hmoved.right]
    exact Nat.le_trans hstarted
      (Nat.add_le_add_right (Nat.le_add_right _ _) 1)

/-- A channel that names no other entry in use: only the entry of the
descriptor is emptied. -/
theorem fdChanmap_close {p : FdPool} {fd : Nat}
    {result : FdPool × List FdEvent} (hfd : p.isAssigned fd = true)
    (hapart : p.isAssigned (p.fdChanmap fd) = true ->
      p.fdChanmap fd = fd ∨ p.fdChanmap (p.fdChanmap fd) = 0)
    (h : p.close fd = some result) {g : Nat} (hg : p.isAssigned g = true) :
    result.1.fdChanmap g = if g = fd then 0 else p.fdChanmap g := by
  rw [← p.fdChanmap_unset hfd hg]
  obtain ⟨more, hmore⟩ : exists more, p.chanTable.length = more + 1 :=
    Nat.exists_eq_succ_of_ne_zero (p.size_eq ▸ p.range.count_ne_zero)
  unfold FdPool.close at h
  rw [hmore] at h
  by_cases hch : p.isAssigned (p.fdChanmap fd) = true
  · have hempty : (p.unsetFdChanmap fd).fdChanmap (p.fdChanmap fd) = 0 := by
      rw [p.fdChanmap_unset hfd hch]
      rcases hapart hch with hself | hzero
      · rw [if_pos hself]
      · rw [hzero, ite_self]
    have hinner := FdPool.closeFuel_channel_outside
      (p := p.unsetFdChanmap fd) hch
      (by rw [hempty]; exact p.range.isAssignedByVelox_zero) more
    rw [FdPool.closeFuel_inside hfd, hinner] at h
    cases h
    show ((p.unsetFdChanmap fd).unsetFdChanmap _).fdChanmap g = _
    rw [FdPool.fdChanmap_unset (p.unsetFdChanmap fd) hch hg]
    by_cases hgch : g = p.fdChanmap fd
    · rw [if_pos hgch, hgch, hempty]
    · rw [if_neg hgch]
  · rw [FdPool.closeFuel_channel_outside hfd (Bool.not_eq_true _ ▸ hch)] at h
    cases h
    rfl

theorem close_outside {p : FdPool} {fd : Nat}
    (hfd : p.isAssigned fd = false) : p.close fd = some (p, [.close fd]) :=
  FdPool.closeFuel_outside hfd _

theorem entries_close (h : w.Synced) {fd : Nat} {w' : FdHistory}
    (hapart : w.ChannelApart (.close fd))
    (hstep : w.step (.close fd) = some w') {g : Nat}
    (hg : w.pool.isAssigned g = true) :
    w'.pool.fdChanmap g = (w'.chanOf g).getD 0 := by
  rcases step_close hstep with ⟨result, hclose, _, heq⟩
  subst heq
  show result.1.fdChanmap g = (Function.update w.chanOf fd none g).getD 0
  by_cases hfd : w.pool.isAssigned fd = true
  · rw [fdChanmap_close hfd (hapart hfd) hclose hg]
    by_cases hgf : g = fd
    · rw [if_pos hgf, hgf, Function.update_self]
      rfl
    · rw [if_neg hgf, Function.update_of_ne hgf]
      exact h.entries g hg
  · have hgf : g ≠ fd := fun heq => hfd (heq ▸ hg)
    rw [close_outside (Bool.not_eq_true _ ▸ hfd)] at hclose
    cases hclose
    rw [Function.update_of_ne hgf]
    exact h.entries g hg

theorem step_isAssigned {call : FdCall} {w' : FdHistory}
    (hstep : w.step call = some w') (fd : Nat) :
    w'.pool.isAssigned fd = w.pool.isAssigned fd := by
  unfold FdPool.isAssigned
  rw [(step_range_last hstep).left]

theorem step_synced (w : FdHistory) (call : FdCall) (w' : FdHistory)
    (h : w.Synced) (hapart : w.ChannelApart call)
    (hstep : w.step call = some w') : w'.Synced := by
  refine ⟨step_cursor w call w' h.toCursor hstep, ?_⟩
  intro fd hfd
  rw [step_isAssigned hstep] at hfd
  cases call with
  | socket chan ret =>
      cases hstep
      exact fdChanmap_socket h chan hfd
  | close g => exact entries_close h hapart hstep hfd
  | io g op =>
      cases hstep
      exact h.entries fd hfd

/-!
## Slots

The cursor of `next_avail_fd` only moves forward.
-/

/-- `next_avail_fd` yields a descriptor of the range that is not open. -/
def SlotFound (w : FdHistory) : FdCall -> Prop
  | .socket _ _ => w.pool.isAssigned w.pool.nextAvailFd = true ∧
      w.pool.nextAvailFd ∉ w.openFds
  | _ => True

theorem nextAvailFd_not_open (h : w.Cursor) :
    w.pool.nextAvailFd ∉ w.openFds := by
  intro hmem
  have hopen := (List.mem_filter.1 hmem).right
  rw [h.unused w.pool.nextAvailFd (Nat.lt_succ_self _)] at hopen
  cases hopen

theorem slotFound_iff_fdLeft (w : FdHistory) (call : FdCall) (h : w.Cursor) :
    w.SlotFound call <-> w.FdLeft call := by
  cases call with
  | socket chan ret =>
      constructor
      · intro hfound
        exact hfound.left
      · intro hleft
        exact ⟨hleft, nextAvailFd_not_open h⟩
  | close fd => exact Iff.rfl
  | io fd op => exact Iff.rfl

theorem stepsMeet_fdLeft_iff {calls : List FdCall} (h : w.Cursor) :
    StepsMeet step FdLeft w calls <->
      (calls.countP FdCall.isSocket = 0 ∨
        w.pool.lastFdAssigned + calls.countP FdCall.isSocket <
          w.pool.range.startfd + w.pool.range.count) := by
  induction calls generalizing w with
  | nil => exact iff_of_true trivial (.inl rfl)
  | cons call rest ih =>
      rcases step_isSome w call with ⟨w', hstep⟩
      have hmoved := step_range_last hstep
      have hrest := ih (step_cursor w call w' h hstep)
      rw [hmoved.left, hmoved.right] at hrest
      unfold StepsMeet
      rw [hstep]
      show (_ ∧ StepsMeet step FdLeft w' rest) <-> _
      rw [hrest, List.countP_cons]
      have hstarted : w.pool.range.startfd <= w.pool.lastFdAssigned + 1 :=
        h.started
      cases call with
      | socket chan ret =>
          have hleft : w.FdLeft (.socket chan ret) <->
              w.pool.lastFdAssigned + 1 <
                w.pool.range.startfd + w.pool.range.count :=
            (w.pool.range.isAssignedByVelox_iff _).trans
              (and_iff_right hstarted)
          rw [hleft]
          simp only [FdCall.isSocket, Bool.toNat_true, if_true]
          omega
      | close fd =>
          simp only [FdLeft, FdCall.isSocket, Bool.toNat_false]
          simp
      | io fd op =>
          simp only [FdLeft, FdCall.isSocket, Bool.toNat_false]
          simp

/-- Every socket call finds a descriptor of the range that is not open exactly
if there are no more socket calls than descriptors, closed ones included. -/
theorem slots_found_iff (r : FdRange) (calls : List FdCall) :
    StepsMeet step SlotFound (start r) calls <->
      calls.countP FdCall.isSocket <= r.count := by
  have hstart := (synced_start r).toCursor
  rw [stepsMeet_congr (fun w call w' h _ => step_cursor w call w' h)
    slotFound_iff_fdLeft hstart, stepsMeet_fdLeft_iff hstart]
  show (_ ∨ r.startfd - 1 + _ < r.startfd + r.count) <-> _
  have hpos := Nat.pos_of_ne_zero r.startfd_ne_zero
  omega

/-- A range of two descriptors, and a process that opens and closes one
socket after another. -/
def twoSlots : FdRange := ⟨4096, 2, by decide, by decide⟩

def openAndClose : List FdCall :=
  [.socket 5 0, .close 4096, .socket 5 0, .close 4097, .socket 5 0]

/-- Never more than one socket is open, but the slots of the closed ones are
lost. -/
theorem closed_slots_not_found :
    StepsMeet step (fun w call =>
        call.isSocket = true -> w.openFds.length < twoSlots.count)
      (start twoSlots) openAndClose ∧
    ¬ StepsMeet step SlotFound (start twoSlots) openAndClose := by
  refine ⟨⟨?_, ?_, ?_, ?_, ?_, trivial⟩, ?_⟩
  · decide
  · decide
  · decide
  · decide
  · decide
  · intro h
    rcases h with ⟨_, _, _, _, hlast, _⟩
    cases hlast.left

/-!
## The map along a run
-/

structure Handed (w : FdHistory) : Prop extends Synced w where
  inRange : forall fd, fd ∈ w.returned -> w.pool.isAssigned fd = true
  notLater : forall fd, fd ∈ w.returned -> fd <= w.pool.lastFdAssigned
  nodup : w.returned.Nodup
  inBounds : forall i : Int, .access i ∈ w.trace ->
    0 <= i ∧ i < w.pool.range.count
  opened : forall fd ch, w.chanOf fd = some ch ->
    w.pool.isAssigned fd = true

theorem handed_start (r : FdRange) : (start r).Handed where
  toSynced := synced_start r
  inRange := nofun
  notLater := nofun
  nodup := List.nodup_nil
  inBounds := nofun
  opened := nofun

theorem Handed.faithful (h : w.Handed) : w.Faithful where
  inRange := h.inRange
  nodup := h.nodup
  inBounds := h.inBounds
  ownChannel := by
    intro fd ch hch
    rw [h.entries fd (h.opened fd ch hch), hch]
    rfl

theorem nodup_step (h : w.Handed) {call : FdCall} {w' : FdHistory}
    (hstep : w.step call = some w') : w'.returned.Nodup := by
  rcases Option.map_eq_some_iff.1 hstep with ⟨result, _, heq⟩
  subst heq
  cases call with
  | socket chan ret =>
      show (if _ then _ else _ : List Nat).Nodup
      split
      · refine List.nodup_append.2 ⟨h.nodup, List.pairwise_singleton .., ?_⟩
        intro a ha b hb heq
        rw [List.mem_singleton.1 hb] at heq
        exact Nat.not_succ_le_self _ (heq ▸ h.notLater a ha)
      · exact h.nodup
  | close fd => exact h.nodup
  | io fd op => exact h.nodup

theorem inBounds_step (h : w.Handed) {call : FdCall} {w' : FdHistory}
    (hleft : w.FdLeft call) (hstep : w.step call = some w') {i : Int}
    (hi : .access i ∈ w'.trace) : 0 <= i ∧ i < w.pool.range.count := by
  rcases Option.map_eq_some_iff.1 hstep with ⟨result, hperform, heq⟩
  subst heq
  rcases List.mem_append.1 hi with hold | hnew
  · exact h.inBounds i hold
  · cases call with
    | socket chan ret =>
        cases hperform
        refine w.pool.tableAccess_inBounds hleft ?_
        simpa [FdPool.socket] using hnew
    | close fd => exact (FdPool.closeFuel_closes hperform).inBounds i hnew
    | io fd op =>
        cases hperform
        exact FdPool.access_mem_ioEvents hnew

theorem opened_step (h : w.Handed) {call : FdCall} {w' : FdHistory}
    (hleft : w.FdLeft call) (hstep : w.step call = some w') {fd ch : Nat}
    (hch : w'.chanOf fd = some ch) : w.pool.isAssigned fd = true := by
  rcases Option.map_eq_some_iff.1 hstep with ⟨result, _, heq⟩
  subst heq
  cases call with
  | socket chan ret =>
      change Function.update w.chanOf _ _ fd = _ at hch
      by_cases hnew : fd = w.pool.nextAvailFd
      · rw [hnew]
        exact hleft
      · rw [Function.update_of_ne hnew] at hch
        exact h.opened fd ch hch
  | close g =>
      change Function.update w.chanOf _ _ fd = _ at hch
      by_cases hfd : fd = g
      · rw [hfd, Function.update_self] at hch
        cases hch
      · rw [Function.update_of_ne hfd] at hch
        exact h.opened fd ch hch
  | io g op => exact h.opened fd ch hch

theorem step_handed (w : FdHistory) (call : FdCall) (w' : FdHistory)
    (h : w.Handed) (hguard : w.FdLeft call ∧ w.ChannelApart call)
    (hstep : w.step call = some w') : w'.Handed where
  toSynced := step_synced w call w' h.toSynced hguard.right hstep
  inRange := by
    intro fd hfd
    rw [step_isAssigned hstep]
    rcases mem_returned_step hstep hfd with hold | ⟨chan, ret, hcall, hnew⟩
    · exact h.inRange fd hold
    · subst hcall
      rw [hnew]
      exact hguard.left
  notLater := by
    intro fd hfd
    rw [(step_range_last hstep).right]
    rcases mem_returned_step hstep hfd with hold | ⟨chan, ret, hcall, hnew⟩
    · exact Nat.le_add_right_of_le (h.notLater fd hold)
    · subst hcall
      exact Nat.le_of_eq hnew
  nodup := nodup_step h hstep
  inBounds := by
    intro i hi
    rw [(step_range_last hstep).left]
    exact inBounds_step h hguard.left hstep hi
  opened := by
    intro fd ch hch
    rw [step_isAssigned hstep]
    exact opened_step h hguard.left hstep hch

theorem fdLeft_of_faithful (h : w.Handed) {call : FdCall} {w' : FdHistory}
    (hstep : w.step call = some w') (hfaithful : w'.Faithful) :
    w.FdLeft call := by
  cases call with
  | socket chan ret =>
      cases hstep
      have hindex := hfaithful.inBounds
        ((w.pool.nextAvailFd : Int) - (w.pool.range.startfd : Int))
        (List.mem_append_right _ (List.mem_cons_self ..))
      have hcount : (w.pool.nextAvailFd : Int) - (w.pool.range.startfd : Int) <
          w.pool.range.count := hindex.right
      refine (w.pool.range.isAssignedByVelox_iff _).2 ⟨h.started, ?_⟩
      omega
  | close fd => trivial
  | io fd op => trivial

/-- A step after which the map is right closed no channel that names another
entry in use: that entry would be empty now. -/
theorem channelApart_of_faithful (h : w.Handed) {call : FdCall}
    {w' : FdHistory} (hstep : w.step call = some w')
    (hfaithful : w'.Faithful) : w.ChannelApart call := by
  cases call with
  | socket chan ret => trivial
  | io fd op => trivial
  | close fd =>
      intro hfd hch
      by_contra hnot
      rcases not_or.1 hnot with ⟨hother, hused⟩
      rcases step_close hstep with ⟨result, hclose, _, heq⟩
      have hnone : w.chanOf (w.pool.fdChanmap fd) ≠ none := by
        intro hnone
        rw [h.entries _ hch, hnone] at hused
        exact hused rfl
      rcases Option.ne_none_iff_exists'.1 hnone with ⟨ch, hopened⟩
      have hempty : result.1.fdChanmap (w.pool.fdChanmap fd) = 0 := by
        unfold FdPool.close at hclose
        rw [FdPool.closeFuel_inside hfd] at hclose
        rcases Option.map_eq_some_iff.1 hclose with ⟨inner, hinner, hresult⟩
        subst hresult
        have hinside : (w.pool.unsetFdChanmap fd).isAssigned
            (w.pool.fdChanmap fd) = true := hch
        have hown := FdPool.closeFuel_empties_own hinside hinner
        exact hown
      have hentry : result.1.fdChanmap (w.pool.fdChanmap fd) = ch := by
        subst heq
        refine hfaithful.ownChannel _ ch ?_
        show Function.update w.chanOf fd none _ = _
        rw [Function.update_of_ne hother]
        exact hopened
      rw [h.entries _ hch, hopened] at hused
      exact hused (hentry.symm.trans hempty)

theorem faithful_step_iff (w : FdHistory) (call : FdCall) (h : w.Handed) :
    (forall w', w.step call = some w' -> w'.Faithful) <->
      (w.FdLeft call ∧ w.ChannelApart call) := by
  constructor
  · intro hall
    rcases step_isSome w call with ⟨w', hstep⟩
    exact ⟨fdLeft_of_faithful h hstep (hall w' hstep),
      channelApart_of_faithful h hstep (hall w' hstep)⟩
  · intro hguard w' hstep
    exact (step_handed w call w' h hguard hstep).faithful

/-- In a run with at most as many socket calls as descriptors, the map is right
after every call exactly if every `close` finds a channel that is not itself
another descriptor of the range in use. -/
theorem faithful_iff_channelApart (r : FdRange) {calls : List FdCall}
    (hsockets : calls.countP FdCall.isSocket <= r.count) :
    StepsMeet step (fun w call => forall w', w.step call = some w' ->
        w'.Faithful) (start r) calls <->
      StepsMeet step ChannelApart (start r) calls := by
  have hleft : StepsMeet step FdLeft (start r) calls := by
    rw [stepsMeet_fdLeft_iff (synced_start r).toCursor]
    refine .inr ?_
    show r.startfd - 1 + _ < r.startfd + r.count
    have hpos := Nat.pos_of_ne_zero r.startfd_ne_zero
    omega
  rw [stepsMeet_congr step_handed faithful_step_iff (handed_start r),
    stepsMeet_and]
  exact and_iff_right hleft

theorem faithful_two_sockets :
    [FdCall.socket 5 0, .socket 6 0, .close 4096].countP FdCall.isSocket <=
      twoSlots.count ∧
    StepsMeet step (fun w call => forall w', w.step call = some w' ->
        w'.Faithful) (start twoSlots)
      [.socket 5 0, .socket 6 0, .close 4096] := by
  refine ⟨by decide, (faithful_iff_channelApart twoSlots (by decide)).2 ?_⟩
  refine ⟨trivial, trivial, ?_, trivial⟩
  intro _ hch
  cases hch

/-- The kernel gives `open_chan` the number 4097 for the first socket, and the
second socket gets the descriptor 4097: closing the first one empties the entry
of the second. -/
theorem channel_in_range_empties_other_entry :
    [FdCall.socket 4097 0, .socket 5 0, .close 4096].countP
      FdCall.isSocket <= twoSlots.count ∧
    ¬ StepsMeet step (fun w call => forall w', w.step call = some w' ->
        w'.Faithful) (start twoSlots)
      [.socket 4097 0, .socket 5 0, .close 4096] := by
  refine ⟨by decide, ?_⟩
  rintro ⟨_, _, hclose, _⟩
  have hentry := (hclose _ rfl).ownChannel 4097 5 rfl
  cases hentry

end FdHistory

end Velox
