import Velox.Foundation.LowestFree
import Velox.Interceptor.FdMap

/-!
# Descriptors of the kernel

The kernel gives a process the lowest descriptor that is not in use, and knows
nothing of the range that the daemon has granted: `reserve_fd_range` allocates
the table of channels only.  A process opens and closes descriptors of the
kernel, and makes Velox sockets, whose channels are such descriptors too.
-/

namespace Velox

open Foundation

/-- A process with the interceptor: the descriptors in use, the limit on them
and those that the kernel has given out since the start. -/
structure FdProcess where
  pool : FdPool
  used : Finset Nat
  limit : Nat
  assigned : List Nat

/-- What a process does.  `openFd` stands for every call that makes a
descriptor of the kernel, `kernelClose` for a `close` that is not interposed,
such as that of `fclose`. -/
inductive FdAction where
  | openFd
  | kernelClose (fd : Nat)
  | socket
  | close (fd : Nat)

namespace FdProcess

def start (r : FdRange) (used : Finset Nat) (limit : Nat) : FdProcess where
  pool := FdPool.start r
  used := used
  limit := limit
  assigned := []

def assign (w : FdProcess) : Option (Nat × FdProcess) :=
  if lowestFree w.used < w.limit then
    some (lowestFree w.used,
      { w with
        used := insert (lowestFree w.used) w.used
        assigned := w.assigned ++ [lowestFree w.used] })
  else none

/-- One action.  A call that makes a descriptor fails at the limit; `open_chan`
ends the process then. -/
def step (w : FdProcess) : FdAction -> Option FdProcess
  | .openFd =>
      match w.assign with
      | none => some w
      | some (_, w') => some w'
  | .kernelClose fd => some { w with used := w.used.erase fd }
  | .socket =>
      match w.assign with
      | none => none
      | some (chan, w') => some { w' with pool := (w.pool.socket chan).1 }
  | .close fd =>
      (w.pool.close fd).map fun result =>
        { w with
          pool := result.1
          used := w.used.filter fun ch => FdEvent.close ch ∉ result.2 }

structure PassesToGlibc (p : FdPool) (fd : Nat) : Prop where
  notAssigned : p.isAssigned fd = false
  close : p.close fd = some (p, [.close fd])
  io : forall op, p.ioEvents fd op = [.glibc fd]

/-- No descriptor that the kernel gave out is taken for one of Velox. -/
def Untouched (w : FdProcess) : Prop :=
  forall fd, fd ∈ w.assigned -> PassesToGlibc w.pool fd

/-- Where the kernel gives out a descriptor, one before the range is free or
the whole range is in use. -/
def RangeAvoided (w : FdProcess) : FdAction -> Prop
  | .openFd | .socket =>
      (exists fd, fd < w.pool.range.startfd ∧ fd ∉ w.used) ∨
        forall fd, w.pool.isAssigned fd = true -> fd ∈ w.used
  | .kernelClose _ | .close _ => True

theorem passesToGlibc_iff (p : FdPool) (fd : Nat) :
    PassesToGlibc p fd <-> p.isAssigned fd = false := by
  constructor
  · intro h
    exact h.notAssigned
  · intro hfd
    refine ⟨hfd, FdPool.closeFuel_outside hfd _, ?_⟩
    intro op
    have hcase := p.ioEvents_cases fd op
    generalize p.ioEvents fd op = events at hcase ⊢
    cases hcase with
    | outside _ => rfl
    | nothing h _ => cases hfd.symm.trans h
    | exchange h _ => cases hfd.symm.trans h
    | printed h _ => cases hfd.symm.trans h

/-- The condition says that the next descriptor is outside the range. -/
theorem lowestFree_outside_iff (w : FdProcess) :
    w.pool.isAssigned (lowestFree w.used) = false <->
      (exists fd, fd < w.pool.range.startfd ∧ fd ∉ w.used) ∨
        forall fd, w.pool.isAssigned fd = true -> fd ∈ w.used := by
  rw [← Bool.not_eq_true, FdPool.isAssigned, FdRange.isAssignedByVelox_iff,
    lowestFree_notMem_interval_iff]
  simp only [FdPool.isAssigned, FdRange.isAssignedByVelox_iff, and_imp]

/-!
## One action
-/

variable {r : FdRange} {limit : Nat}

structure Safe (r : FdRange) (limit : Nat) (w : FdProcess) : Prop where
  range_eq : w.pool.range = r
  limit_eq : w.limit = limit
  untouched : w.Untouched

theorem untouched_iff {w : FdProcess} :
    w.Untouched <->
      forall fd, fd ∈ w.assigned -> w.pool.isAssigned fd = false := by
  simp only [Untouched, passesToGlibc_iff]

theorem Safe.of_assigned {w w' : FdProcess} (h : Safe r limit w)
    (hrange : w'.pool.range = w.pool.range) (hlimit : w'.limit = w.limit)
    (hnew : forall fd, fd ∈ w'.assigned ->
      fd ∈ w.assigned ∨ w.pool.isAssigned fd = false) : Safe r limit w' := by
  refine ⟨hrange.trans h.range_eq, hlimit.trans h.limit_eq, ?_⟩
  rw [untouched_iff]
  intro fd hfd
  rw [FdPool.isAssigned, hrange]
  rcases hnew fd hfd with hold | houtside
  · exact untouched_iff.1 h.untouched fd hold
  · exact houtside

theorem assign_cases {w : FdProcess} {fd : Nat} {w' : FdProcess}
    (h : w.assign = some (fd, w')) :
    fd = lowestFree w.used ∧ w'.pool = w.pool ∧ w'.limit = w.limit ∧
      w'.used = insert fd w.used ∧ w'.assigned = w.assigned ++ [fd] := by
  unfold assign at h
  split at h
  · cases h
    exact ⟨rfl, rfl, rfl, rfl, rfl⟩
  · cases h

theorem Safe.assign {w w' : FdProcess} {fd : Nat} (h : Safe r limit w)
    (houtside : w.pool.isAssigned (lowestFree w.used) = false)
    (hassign : w.assign = some (fd, w')) : Safe r limit w' := by
  rcases assign_cases hassign with ⟨rfl, hpool, hlimit, _, hassigned⟩
  refine h.of_assigned (by rw [hpool]) hlimit ?_
  intro fd hfd
  rw [hassigned] at hfd
  rcases List.mem_append.1 hfd with hold | hnew
  · exact Or.inl hold
  · rw [List.mem_singleton.1 hnew]
    exact Or.inr houtside

inductive Step (w : FdProcess) : FdAction -> FdProcess -> Prop where
  | refused (hassign : w.assign = none) : Step w .openFd w
  | opened (fd : Nat) (w' : FdProcess) (hassign : w.assign = some (fd, w')) :
      Step w .openFd w'
  | socket (chan : Nat) (w' : FdProcess)
      (hassign : w.assign = some (chan, w')) :
      Step w .socket { w' with pool := (w.pool.socket chan).1 }
  | kernelClose (fd : Nat) :
      Step w (.kernelClose fd) { w with used := w.used.erase fd }
  | close (fd : Nat) (result : FdPool × List FdEvent)
      (hclose : w.pool.close fd = some result) :
      Step w (.close fd)
        { w with
          pool := result.1
          used := w.used.filter fun ch => FdEvent.close ch ∉ result.2 }

theorem step_cases {w w' : FdProcess} {a : FdAction}
    (h : w.step a = some w') : Step w a w' := by
  unfold step at h
  cases a with
  | openFd =>
      cases hassign : w.assign with
      | none =>
          rw [hassign] at h
          cases h
          exact .refused hassign
      | some given =>
          rw [hassign] at h
          cases h
          exact .opened given.1 given.2 hassign
  | socket =>
      cases hassign : w.assign with
      | none =>
          rw [hassign] at h
          cases h
      | some given =>
          rw [hassign] at h
          cases h
          exact .socket given.1 given.2 hassign
  | kernelClose fd =>
      cases h
      exact .kernelClose fd
  | close fd =>
      rcases Option.map_eq_some_iff.1 h with ⟨result, hclose, rfl⟩
      exact .close fd result hclose

theorem safe_step {w w' : FdProcess} {a : FdAction} (h : Safe r limit w)
    (hguard : w.RangeAvoided a) (hstep : Step w a w') : Safe r limit w' := by
  cases hstep with
  | refused hassign => exact h
  | opened fd w' hassign =>
      exact h.assign ((lowestFree_outside_iff w).2 hguard) hassign
  | socket chan w' hassign =>
      have hsafe := h.assign ((lowestFree_outside_iff w).2 hguard) hassign
      refine hsafe.of_assigned ?_ rfl fun fd hfd => Or.inl hfd
      show w.pool.range = w'.pool.range
      rw [(assign_cases hassign).2.1]
  | kernelClose fd => exact h.of_assigned rfl rfl fun fd hfd => Or.inl hfd
  | close fd result hclose =>
      exact h.of_assigned (FdPool.closeFuel_closes hclose).range_eq rfl
        fun fd hfd => Or.inl hfd

theorem assign_captured {w : FdProcess} (h : Safe r limit w)
    (hlimit : r.startfd + r.count < limit)
    (hguard : ¬ w.pool.isAssigned (lowestFree w.used) = false) :
    exists w', w.assign = some (lowestFree w.used, w') := by
  rw [Bool.not_eq_false, FdPool.isAssigned,
    FdRange.isAssignedByVelox_iff, h.range_eq] at hguard
  have hbelow : lowestFree w.used < w.limit := by
    rw [h.limit_eq]
    lia
  rw [assign, if_pos hbelow]
  exact ⟨_, rfl⟩

theorem touched_of_assign {w w' w'' : FdProcess} {fd : Nat}
    (hguard : ¬ w.pool.isAssigned (lowestFree w.used) = false)
    (hassign : w.assign = some (fd, w'))
    (hrange : w''.pool.range = w.pool.range)
    (hassigned : w''.assigned = w'.assigned) : ¬ w''.Untouched := by
  intro huntouched
  rcases assign_cases hassign with ⟨rfl, _, _, _, hnew⟩
  have houtside := untouched_iff.1 huntouched (lowestFree w.used) (by
    rw [hassigned, hnew]
    exact List.mem_append_right _ List.mem_cons_self)
  rw [FdPool.isAssigned, hrange] at houtside
  exact hguard houtside

theorem captured_step {w : FdProcess} {a : FdAction} (h : Safe r limit w)
    (hlimit : r.startfd + r.count < limit) (hguard : ¬ w.RangeAvoided a) :
    exists w', w.step a = some w' ∧ ¬ w'.Untouched := by
  cases a with
  | openFd =>
      have hinside := mt (lowestFree_outside_iff w).1 hguard
      rcases assign_captured h hlimit hinside with ⟨w', hassign⟩
      refine ⟨w', by rw [step, hassign], ?_⟩
      exact touched_of_assign hinside hassign
        (congrArg FdPool.range (assign_cases hassign).2.1) rfl
  | socket =>
      have hinside := mt (lowestFree_outside_iff w).1 hguard
      rcases assign_captured h hlimit hinside with ⟨w', hassign⟩
      refine ⟨_, by rw [step, hassign], ?_⟩
      exact touched_of_assign hinside hassign rfl rfl
  | kernelClose fd => exact absurd trivial hguard
  | close fd => exact absurd trivial hguard

/-!
## All actions
-/

/-- The range captures no descriptor of the kernel exactly if, whenever one is
given out, a descriptor before the range is free or the whole range is in
use. -/
theorem untouched_iff_rangeAvoided (r : FdRange) (used : Finset Nat)
    {limit : Nat} (hlimit : r.startfd + r.count < limit)
    (actions : List FdAction) :
    (forall n w, run step (start r used limit) (actions.take n) = some w ->
      w.Untouched) <->
        StepsMeet step RangeAvoided (start r used limit) actions := by
  have hstart : Safe r limit (start r used limit) :=
    ⟨rfl, rfl, fun _ hfd => absurd hfd List.not_mem_nil⟩
  refine prefixes_iff_stepsMeet ?_ (fun _ hsafe => hsafe.untouched) ?_ hstart
  · intro w a w' hsafe hguard hstep
    exact safe_step hsafe hguard (step_cases hstep)
  · intro w a hsafe hguard
    exact captured_step hsafe hlimit hguard

theorem card_step {w w' : FdProcess} {a : FdAction} (hstep : Step w a w') :
    w'.pool.range = w.pool.range ∧ w'.used.card <= w.used.card + 1 := by
  cases hstep with
  | refused hassign => exact ⟨rfl, Nat.le_succ _⟩
  | opened fd w' hassign =>
      rcases assign_cases hassign with ⟨_, hpool, _, hused, _⟩
      rw [hpool, hused]
      exact ⟨rfl, Finset.card_insert_le _ _⟩
  | socket chan w' hassign =>
      refine ⟨rfl, ?_⟩
      rw [(assign_cases hassign).2.2.2.1]
      exact Finset.card_insert_le _ _
  | kernelClose fd =>
      exact ⟨rfl, Nat.le_succ_of_le Finset.card_erase_le⟩
  | close fd result hclose =>
      exact ⟨(FdPool.closeFuel_closes hclose).range_eq,
        Nat.le_succ_of_le (Finset.card_filter_le _ _)⟩

/-- A process with few descriptors and few actions meets the condition. -/
theorem rangeAvoided_of_few {w : FdProcess} {actions : List FdAction}
    (h : w.used.card + actions.length <= w.pool.range.startfd) :
    StepsMeet step RangeAvoided w actions := by
  induction actions generalizing w with
  | nil => trivial
  | cons a rest ih =>
      rw [List.length_cons] at h
      have hfree := exists_free_of_card_lt
        (show w.used.card < w.pool.range.startfd by lia)
      refine ⟨?_, ?_⟩
      · cases a with
        | openFd => exact Or.inl hfree
        | socket => exact Or.inl hfree
        | kernelClose fd => trivial
        | close fd => trivial
      · cases hstep : w.step a with
        | none => trivial
        | some w' =>
            have hcard := card_step (step_cases hstep)
            refine ih ?_
            rw [hcard.1]
            lia

/-- The range that `atstartAction` grants. -/
def granted : FdRange :=
  ⟨4096, 1024, FdHistory.twoSlots.startfd_ne_zero, by decide⟩

theorem untouched_few_descriptors :
    granted.startfd + granted.count < 8192 ∧
      forall n w,
        run step (start granted (Finset.range 4) 8192)
          ([FdAction.openFd, .socket, .close 4096, .close 4].take n) =
            some w -> w.Untouched := by
  have hlimit : granted.startfd + granted.count < 8192 := by decide
  have hfew : StepsMeet step RangeAvoided
      (start granted (Finset.range 4) 8192)
      [FdAction.openFd, .socket, .close 4096, .close 4] :=
    rangeAvoided_of_few (by decide)
  exact ⟨hlimit, (untouched_iff_rangeAvoided granted _ hlimit _).2 hfew⟩

/-!
## A process with many descriptors
-/

theorem run_openFd (pool : FdPool) {limit : Nat} (n k : Nat)
    (assigned : List Nat) (h : k + n <= limit) :
    run step ⟨pool, Finset.range k, limit, assigned⟩
        (List.replicate n .openFd) =
      some ⟨pool, Finset.range (k + n), limit,
        assigned ++ List.range' k n⟩ := by
  induction n generalizing k assigned with
  | zero =>
      rw [List.range'_zero, List.append_nil]
      rfl
  | succ n ih =>
      have hstep : step ⟨pool, Finset.range k, limit, assigned⟩ .openFd =
          some ⟨pool, Finset.range (k + 1), limit, assigned ++ [k]⟩ := by
        simp only [step, assign, lowestFree_range]
        rw [if_pos (by lia), Finset.range_add_one]
      rw [List.replicate_succ, run_of_step hstep, ih (k + 1) _ (by lia),
        List.range'_succ, List.append_assoc, Nat.add_right_comm,
        Nat.add_assoc k n 1]
      rfl

/-- The process has 4093 files beside the four descriptors of its start: the
last one is taken for a Velox socket, and its `close` closes the standard
input instead. -/
theorem open_captured_by_range :
    exists w p events,
      run step (start granted (Finset.range 4) 8192)
        (List.replicate 4093 .openFd) = some w ∧
      4096 ∈ w.assigned ∧ w.pool.isAssigned 4096 = true ∧
      w.pool.close 4096 = some (p, events) ∧ FdEvent.close 0 ∈ events ∧
      FdEvent.close 4096 ∉ events ∧ ¬ w.Untouched := by
  have hassigned : granted.isAssignedByVelox 4096 = true := by decide
  have hentry : (FdPool.start granted).fdChanmap 4096 = 0 :=
    FdPool.fdChanmap_start granted 4096
  have hclose := @FdPool.closeFuel_channel_outside (FdPool.start granted) 4096
    hassigned (by rw [hentry]; exact granted.isAssignedByVelox_zero)
    (FdPool.start granted).chanTable.length
  rw [hentry] at hclose
  have hmem : 4096 ∈ [] ++ List.range' 4 4093 := by
    rw [List.nil_append, List.mem_range'_1]
    decide
  refine ⟨_, _, _, run_openFd (FdPool.start granted) 4093 4 [] (by decide),
    hmem, hassigned, hclose, ?_, ?_, ?_⟩
  · exact List.mem_append_right _ List.mem_cons_self
  · simp [FdPool.tableAccess, FdPool.exchange]
  · intro huntouched
    cases hassigned.symm.trans (huntouched 4096 hmem).notAssigned

end FdProcess
end Velox
