import Velox.Foundation.Runs

/-!
# Descriptors of the interceptor

The interceptor hands out file descriptors from the range that the daemon
grants at start, and keeps for each of them the channel over which its
requests go.  A channel is a descriptor of the kernel.  The functions here are
those of `fdpool.c`, `fdchanmap.c`, `req-resp-channel.c` and the interposed
calls of `interceptor.c`; each interposed call also gives what it does to the
channel table and to descriptors of the kernel, in the order of the source.
-/

namespace Velox

/-- The granted range; `ask_veloxd_fd_range` asserts that neither part is
zero. -/
structure FdRange where
  startfd : Nat
  count : Nat
  startfd_ne_zero : startfd ≠ 0
  count_ne_zero : count ≠ 0

namespace FdRange

def isAssignedByVelox (r : FdRange) (fd : Nat) : Bool :=
  decide (r.startfd <= fd ∧ fd < r.startfd + r.count)

theorem isAssignedByVelox_iff (r : FdRange) (fd : Nat) :
    r.isAssignedByVelox fd = true <->
      (r.startfd <= fd ∧ fd < r.startfd + r.count) :=
  decide_eq_true_iff

theorem isAssignedByVelox_zero (r : FdRange) :
    r.isAssignedByVelox 0 = false := by
  refine decide_eq_false ?_
  intro h
  exact r.startfd_ne_zero (Nat.le_zero.1 h.left)

end FdRange

/-- The variables of `fdpool.c` and `fdchanmap.c`; the table has one entry for
each descriptor of the range. -/
structure FdPool where
  range : FdRange
  lastFdAssigned : Nat
  chanTable : List Nat
  size_eq : chanTable.length = range.count

/-- What an interposed call does: an access to `g_chan_table`, a request sent,
a response received or a descriptor closed through glibc, or the whole call
handed on to glibc. -/
inductive FdEvent where
  | access (index : Int)
  | send (ch : Nat)
  | recv (ch : Nat)
  | close (ch : Nat)
  | glibc (fd : Nat)
  deriving DecidableEq

namespace FdPool

def start (r : FdRange) : FdPool where
  range := r
  lastFdAssigned := r.startfd - 1
  chanTable := List.replicate r.count 0
  size_eq := List.length_replicate

def isAssigned (p : FdPool) (fd : Nat) : Bool :=
  p.range.isAssignedByVelox fd

/-- `next_avail_fd`, whose assertion a release build does not evaluate. -/
def nextAvailFd (p : FdPool) : Nat :=
  p.lastFdAssigned + 1

def fdChanmap (p : FdPool) (fd : Nat) : Nat :=
  p.chanTable.getD (fd - p.range.startfd) 0

def setFdChanmap (p : FdPool) (fd ch : Nat) : FdPool :=
  { p with
    chanTable := p.chanTable.set (fd - p.range.startfd) ch
    size_eq := List.length_set.trans p.size_eq }

def unsetFdChanmap (p : FdPool) (fd : Nat) : FdPool :=
  p.setFdChanmap fd 0

def tableAccess (p : FdPool) (fd : Nat) : FdEvent :=
  .access ((fd : Int) - (p.range.startfd : Int))

/-!
## Interposed calls
-/

/-- `chan_send(fd_chanmap(fd), ..)` and `chan_recv(fd_chanmap(fd), ..)`. -/
def exchange (p : FdPool) (fd : Nat) : List FdEvent :=
  [p.tableAccess fd, .send (p.fdChanmap fd),
    p.tableAccess fd, .recv (p.fdChanmap fd)]

/-- `socket` for an internet stream or datagram; `chan` is what `open_chan`
returns.  Whether the daemon refuses the socket makes no difference here. -/
def socket (p : FdPool) (chan : Nat) : FdPool × List FdEvent :=
  let connfd := p.nextAvailFd
  ({ p with lastFdAssigned := connfd }.setFdChanmap connfd chan,
    [p.tableAccess connfd, .send chan, .recv chan])

/-- A call that only makes an exchange; `printf` reads the table first. -/
def request (p : FdPool) (fd : Nat) : List FdEvent :=
  if p.isAssigned fd then p.tableAccess fd :: p.exchange fd
  else [.glibc fd]

def connect (p : FdPool) (fd : Nat) : List FdEvent :=
  p.request fd

/-- A call with a buffer, which returns at once without a buffer or a
length. -/
def transfer (p : FdPool) (fd : Nat) (hasBuf : Bool) (len : Nat) :
    List FdEvent :=
  if p.isAssigned fd && (!hasBuf || len == 0) then [] else p.request fd

def sendto (p : FdPool) (fd : Nat) (hasBuf : Bool) (len : Nat) :
    List FdEvent :=
  p.transfer fd hasBuf len

def send (p : FdPool) (fd : Nat) (hasBuf : Bool) (len : Nat) : List FdEvent :=
  p.sendto fd hasBuf len

def write (p : FdPool) (fd : Nat) (hasBuf : Bool) (count : Nat) :
    List FdEvent :=
  p.sendto fd hasBuf count

def recvfrom (p : FdPool) (fd : Nat) (hasBuf : Bool) (len : Nat) :
    List FdEvent :=
  p.transfer fd hasBuf len

def recv (p : FdPool) (fd : Nat) (hasBuf : Bool) (len : Nat) : List FdEvent :=
  p.recvfrom fd hasBuf len

def read (p : FdPool) (fd : Nat) (hasBuf : Bool) (count : Nat) :
    List FdEvent :=
  p.recvfrom fd hasBuf count

/-- `getpeername` and `getsockname` print nothing. -/
def getname (p : FdPool) (fd : Nat) : List FdEvent :=
  if p.isAssigned fd then p.exchange fd else [.glibc fd]

def getpeername (p : FdPool) (fd : Nat) : List FdEvent :=
  p.getname fd

def getsockname (p : FdPool) (fd : Nat) : List FdEvent :=
  p.getname fd

/-- `close`; `close_chan` calls the interposed `close` again with the channel
as its descriptor. -/
def closeFuel : Nat -> FdPool -> Nat -> Option (FdPool × List FdEvent)
  | 0, _, _ => none
  | fuel + 1, p, fd =>
      if p.isAssigned fd then
        let ch := p.fdChanmap fd
        (closeFuel fuel (p.unsetFdChanmap fd) ch).map fun inner =>
          (inner.1, p.tableAccess fd :: p.exchange fd ++
            [p.tableAccess fd, p.tableAccess fd, p.tableAccess fd] ++ inner.2)
      else some (p, [.close fd])

/-- `close` with fuel for one level per entry of the table and two more. -/
def close (p : FdPool) (fd : Nat) : Option (FdPool × List FdEvent) :=
  closeFuel (p.chanTable.length + 2) p fd

/-!
## The table
-/

theorem fdChanmap_set_self (p : FdPool) {fd : Nat} (ch : Nat)
    (h : p.isAssigned fd = true) : (p.setFdChanmap fd ch).fdChanmap fd = ch := by
  have hrange := (p.range.isAssignedByVelox_iff fd).1 h
  have hsize := p.size_eq
  have hindex : fd - p.range.startfd < p.chanTable.length := by omega
  show (p.chanTable.set (fd - p.range.startfd) ch).getD
    (fd - p.range.startfd) 0 = ch
  rw [List.getD_eq_getElem?_getD, List.getElem?_set_self hindex]
  rfl

theorem fdChanmap_set_ne (p : FdPool) {fd g : Nat} (ch : Nat)
    (hfd : p.range.startfd <= fd) (hg : p.range.startfd <= g)
    (hne : fd ≠ g) : (p.setFdChanmap fd ch).fdChanmap g = p.fdChanmap g := by
  have hindex : fd - p.range.startfd ≠ g - p.range.startfd := by omega
  show (p.chanTable.set (fd - p.range.startfd) ch).getD
    (g - p.range.startfd) 0 = _
  rw [List.getD_eq_getElem?_getD, List.getElem?_set_ne hindex]
  exact List.getD_eq_getElem?_getD.symm

theorem fdChanmap_start (r : FdRange) (fd : Nat) :
    (start r).fdChanmap fd = 0 := by
  show (List.replicate r.count 0).getD _ 0 = 0
  rw [List.getD_eq_getElem?_getD, List.getElem?_replicate]
  split
  · rfl
  · rfl

theorem fdChanmap_unset (p : FdPool) {fd g : Nat}
    (hfd : p.isAssigned fd = true) (hg : p.isAssigned g = true) :
    (p.unsetFdChanmap fd).fdChanmap g = if g = fd then 0 else p.fdChanmap g := by
  by_cases hgf : g = fd
  · rw [if_pos hgf, hgf]
    exact p.fdChanmap_set_self 0 hfd
  · rw [if_neg hgf]
    exact p.fdChanmap_set_ne 0 ((p.range.isAssignedByVelox_iff fd).1 hfd).1
      ((p.range.isAssignedByVelox_iff g).1 hg).1 (Ne.symm hgf)

theorem tableAccess_inBounds (p : FdPool) {fd : Nat} {i : Int}
    (h : p.isAssigned fd = true) (hi : .access i = p.tableAccess fd) :
    0 <= i ∧ i < p.range.count := by
  have hrange := (p.range.isAssignedByVelox_iff fd).1 h
  cases hi
  omega

/-!
## What `close` does
-/

theorem closeFuel_outside {p : FdPool} {fd : Nat}
    (h : p.isAssigned fd = false) (fuel : Nat) :
    closeFuel (fuel + 1) p fd = some (p, [.close fd]) := by
  rw [closeFuel, h]
  rfl

theorem closeFuel_inside {p : FdPool} {fd : Nat}
    (h : p.isAssigned fd = true) (fuel : Nat) :
    closeFuel (fuel + 1) p fd =
      (closeFuel fuel (p.unsetFdChanmap fd) (p.fdChanmap fd)).map fun inner =>
        (inner.1, p.tableAccess fd :: p.exchange fd ++
          [p.tableAccess fd, p.tableAccess fd, p.tableAccess fd] ++
            inner.2) := by
  rw [closeFuel, if_pos h]

/-- What every `close` keeps: it only empties entries, and only touches
entries of the table. -/
structure Closes (p : FdPool) (result : FdPool × List FdEvent) : Prop where
  range_eq : result.1.range = p.range
  last_eq : result.1.lastFdAssigned = p.lastFdAssigned
  empties : forall g, p.isAssigned g = true -> p.fdChanmap g = 0 ->
    result.1.fdChanmap g = 0
  inBounds : forall i : Int, .access i ∈ result.2 -> 0 <= i ∧ i < p.range.count

theorem access_mem_exchange {p : FdPool} {fd : Nat} {i : Int}
    (h : .access i ∈ p.exchange fd) : .access i = p.tableAccess fd := by
  simpa [exchange] using h

theorem closeFuel_closes {fuel : Nat} {p : FdPool} {fd : Nat}
    {result : FdPool × List FdEvent}
    (h : closeFuel fuel p fd = some result) : Closes p result := by
  induction fuel generalizing p fd result with
  | zero => cases h
  | succ fuel ih =>
      by_cases hfd : p.isAssigned fd = true
      · rw [closeFuel_inside hfd] at h
        rcases Option.map_eq_some_iff.1 h with ⟨inner, hinner, heq⟩
        subst heq
        have hclosed := ih hinner
        refine ⟨hclosed.range_eq, hclosed.last_eq, ?_, ?_⟩
        · intro g hg hzero
          refine hclosed.empties g hg ?_
          rw [p.fdChanmap_unset hfd hg, hzero, ite_self]
        · intro i hi
          rcases List.mem_append.1 hi with hhere | hlater
          · refine p.tableAccess_inBounds hfd ?_
            rcases List.mem_append.1 hhere with hfirst | hlast
            · rcases List.mem_cons.1 hfirst with heq | hmem
              · exact heq
              · exact access_mem_exchange hmem
            · simpa using hlast
          · exact hclosed.inBounds i hlater
      · rw [closeFuel_outside (Bool.not_eq_true _ ▸ hfd)] at h
        cases h
        refine ⟨rfl, rfl, fun _ _ hzero => hzero, ?_⟩
        intro i hi
        simp at hi

theorem closeFuel_empties_own {fuel : Nat} {p : FdPool} {fd : Nat}
    {result : FdPool × List FdEvent} (hfd : p.isAssigned fd = true)
    (h : closeFuel fuel p fd = some result) : result.1.fdChanmap fd = 0 := by
  cases fuel with
  | zero => cases h
  | succ fuel =>
      rw [closeFuel_inside hfd] at h
      rcases Option.map_eq_some_iff.1 h with ⟨inner, hinner, heq⟩
      subst heq
      exact (closeFuel_closes hinner).empties fd hfd
        (p.fdChanmap_set_self 0 hfd)

theorem closeFuel_channel_outside {p : FdPool} {fd : Nat}
    (hfd : p.isAssigned fd = true)
    (hch : p.isAssigned (p.fdChanmap fd) = false) (fuel : Nat) :
    closeFuel (fuel + 2) p fd =
      some (p.unsetFdChanmap fd, p.tableAccess fd :: p.exchange fd ++
        [p.tableAccess fd, p.tableAccess fd, p.tableAccess fd] ++
          [.close (p.fdChanmap fd)]) := by
  have hinner : (p.unsetFdChanmap fd).isAssigned (p.fdChanmap fd) = false :=
    hch
  rw [closeFuel_inside hfd, closeFuel_outside hinner]
  rfl

def channels (p : FdPool) : Nat :=
  p.chanTable.countP (fun ch => ch != 0)

theorem channels_unset {p : FdPool} {fd : Nat}
    (hfd : p.isAssigned fd = true) (hch : p.fdChanmap fd ≠ 0) :
    (p.unsetFdChanmap fd).channels + 1 = p.channels := by
  have hrange := (p.range.isAssignedByVelox_iff fd).1 hfd
  have hsize := p.size_eq
  have hindex : fd - p.range.startfd < p.chanTable.length := by omega
  have hentry : p.chanTable[fd - p.range.startfd] = p.fdChanmap fd := by
    show _ = p.chanTable.getD (fd - p.range.startfd) 0
    rw [List.getD_eq_getElem?_getD, List.getElem?_eq_getElem hindex]
    rfl
  have hpos : 0 < p.channels := by
    refine List.countP_pos_iff.2 ⟨_, List.getElem_mem hindex, ?_⟩
    rw [hentry]
    simpa using hch
  show (p.chanTable.set _ 0).countP _ + 1 = _
  rw [List.countP_set hindex, hentry]
  simp only [bne_iff_ne, ne_eq, hch, not_false_eq_true, if_true]
  show p.channels - 1 + 0 + 1 = p.channels
  omega

/-- There is fuel for one level per channel, one for an empty entry and one
for the descriptor that is closed through glibc. -/
theorem closeFuel_isSome {fuel : Nat} {p : FdPool} (fd : Nat)
    (h : p.channels + 2 <= fuel) : exists result,
      closeFuel fuel p fd = some result := by
  induction fuel generalizing p fd with
  | zero => omega
  | succ fuel ih =>
      by_cases hfd : p.isAssigned fd = true
      · have hinner : exists inner,
            closeFuel fuel (p.unsetFdChanmap fd) (p.fdChanmap fd) =
              some inner := by
          by_cases hch : p.fdChanmap fd = 0
          · rw [hch]
            obtain ⟨more, hmore⟩ : exists more, fuel = more + 1 :=
              ⟨fuel - 1, by omega⟩
            rw [hmore]
            exact ⟨_, closeFuel_outside (p := p.unsetFdChanmap fd)
              p.range.isAssignedByVelox_zero more⟩
          · refine ih (p.fdChanmap fd) ?_
            have hfewer := channels_unset hfd hch
            omega
        rcases hinner with ⟨inner, hinner⟩
        rw [closeFuel_inside hfd, hinner]
        exact ⟨_, rfl⟩
      · exact ⟨_, closeFuel_outside (Bool.not_eq_true _ ▸ hfd) fuel⟩

theorem close_isSome (p : FdPool) (fd : Nat) :
    exists result, p.close fd = some result :=
  closeFuel_isSome fd (Nat.add_le_add_right List.countP_le_length 2)

end FdPool

end Velox
