import Velox.Foundation.Loops
import Velox.Interceptor.FdMap
import Mathlib.Data.List.Count

/-!
# The interposed `poll`

Entries with a descriptor of Velox are reported ready for what they ask for.
The other entries are moved to an array of their own, with their places kept
aside; that array is given to the kernel, and what it reports is brought back
to the places.  The kernel's `poll` is a parameter: a function from the array
and the timeout to the array and the result that it gives back.
-/

namespace Velox

open Foundation

/-- `is_assigned_by_velox` for a descriptor that may be negative. -/
def FdRange.covers (r : FdRange) (fd : Int) : Bool :=
  decide ((r.startfd : Int) <= fd ∧ fd < (r.startfd : Int) + r.count)

theorem FdRange.covers_natCast (r : FdRange) (fd : Nat) :
    r.covers (fd : Int) = r.isAssignedByVelox fd := by
  unfold covers isAssignedByVelox
  refine decide_eq_decide.2 ?_
  omega

structure PollFd where
  fd : Int
  events : Int16
  revents : Int16
  deriving DecidableEq

namespace PollFd

def request (e : PollFd) : Int × Int16 :=
  (e.fd, e.events)

def setRevents (e : PollFd) (v : Int16) : PollFd :=
  { e with revents := v }

def clear (e : PollFd) : PollFd :=
  e.setRevents 0

def ready (e : PollFd) : Bool :=
  decide (e.revents ≠ 0)

def veloxEvents : Int16 :=
  0x1 ||| 0x4 ||| 0x10

def answerVelox (e : PollFd) : PollFd :=
  e.setRevents (e.events &&& veloxEvents)

theorem request_setRevents (e : PollFd) (v : Int16) :
    (e.setRevents v).request = e.request :=
  rfl

theorem setRevents_of_request {e e' : PollFd} (h : e'.request = e.request) :
    e.setRevents e'.revents = e' := by
  cases e
  cases e'
  cases h
  rfl

end PollFd

abbrev PollCall :=
  List PollFd -> Int -> List PollFd × Int32

/-- A kernel whose `poll` succeeds: it writes `revents` only, and its result
is the number of entries with something to report. -/
structure PollCall.Succeeds (kernel : PollCall) : Prop where
  requests : forall fds timeout,
    (kernel fds timeout).1.map PollFd.request = fds.map PollFd.request
  count : forall fds timeout,
    (kernel fds timeout).2.toInt = ((kernel fds timeout).1.countP
      PollFd.ready : Int)

namespace Poll

/-!
## The function
-/

def nonVelox (r : FdRange) (e : PollFd) : Bool :=
  !r.covers e.fd

/-- The variables of the first loop; the length of both arrays is
`nv_count`. -/
structure Split where
  fds : List PollFd
  nvIdx : List Nat
  nonVelox : List PollFd
  deriving DecidableEq

def splitRound (r : FdRange) (s : Split) (i : Nat) : Split :=
  let fds := s.fds.modify i PollFd.clear
  match fds[i]? with
  | none => { s with fds := fds }
  | some entry =>
      if nonVelox r entry then
        { fds := fds
          nvIdx := s.nvIdx ++ [i]
          nonVelox := s.nonVelox ++ [entry] }
      else
        { s with fds := fds }

def split (r : FdRange) (fds : List PollFd) : Split :=
  forLoop fds.length (splitRound r)
    { fds := fds, nvIdx := [], nonVelox := [] }

structure Merge where
  fds : List PollFd
  nready : Int32
  deriving DecidableEq

def bump (nready : Int32) (revents : Int16) : Int32 :=
  if revents ≠ 0 then nready + 1 else nready

def copyRound (nvIdx : List Nat) (answer : List PollFd) (s : Merge)
    (i : Nat) : Merge :=
  match nvIdx[i]?, answer[i]? with
  | some place, some entry =>
      { fds := s.fds.modify place fun e => e.setRevents entry.revents
        nready := bump s.nready entry.revents }
  | _, _ => s

/-- The kernel is asked, without waiting, if it has anything to answer. -/
def askKernel (kernel : PollCall) (s : Split) : Merge :=
  let start : Merge := { fds := s.fds, nready := 0 }
  if 0 < s.nvIdx.length then
    let answer := kernel s.nonVelox 0
    if 0 < answer.2 then
      forLoop s.nvIdx.length (copyRound s.nvIdx answer.1) start
    else
      start
  else
    start

def markRound (r : FdRange) (s : Merge) (i : Nat) : Merge :=
  match s.fds[i]? with
  | none => s
  | some entry =>
      if r.covers entry.fd then
        { fds := s.fds.modify i PollFd.answerVelox
          nready := bump s.nready entry.answerVelox.revents }
      else
        s

end Poll

def poll (r : FdRange) (kernel : PollCall) (fds : List PollFd)
    (timeout : Int) : List PollFd × Int32 :=
  let s := Poll.split r fds
  if s.nvIdx.length = fds.length then
    kernel s.fds timeout
  else
    let merged := forLoop fds.length (Poll.markRound r)
      (Poll.askKernel kernel s)
    (merged.fds, merged.nready)

namespace Poll

/-!
## The three loops
-/

theorem nonVelox_setRevents (r : FdRange) (e : PollFd) (v : Int16) :
    nonVelox r (e.setRevents v) = nonVelox r e :=
  rfl

def splitAt (r : FdRange) (fds : List PollFd) (n : Nat) : Split where
  fds := mapFirst PollFd.clear n fds
  nvIdx := placesOf (nonVelox r) (fds.take n)
  nonVelox := ((fds.take n).filter (nonVelox r)).map PollFd.clear

theorem splitRound_splitAt (r : FdRange) {fds : List PollFd} {n : Nat}
    (hn : n < fds.length) :
    splitRound r (splitAt r fds n) n = splitAt r fds (n + 1) := by
  have hentry : (mapFirst PollFd.clear (n + 1) fds)[n]? =
      some fds[n].clear := by
    rw [mapFirst_succ_getElem?, List.getElem?_eq_getElem hn]
    rfl
  have htake : fds.take (n + 1) = fds.take n ++ [fds[n]] :=
    List.take_succ_eq_append_getElem hn
  have hlen : (fds.take n).length = n := by
    rw [List.length_take, Nat.min_eq_left (Nat.le_of_lt hn)]
  unfold splitRound
  simp only [splitAt, mapFirst_modify, hentry, htake, placesOf_concat, hlen,
    List.filter_append, List.map_append]
  rw [PollFd.clear, nonVelox_setRevents]
  cases hkind : nonVelox r fds[n] <;> simp [hkind, PollFd.clear]

theorem split_eq (r : FdRange) (fds : List PollFd) :
    split r fds = splitAt r fds fds.length := by
  refine @forLoop_rule _ (fun n s => s = splitAt r fds n) _ _ _ rfl ?_
  intro i s hi hs
  rw [hs]
  exact splitRound_splitAt r hi

theorem bump_ofNat (n : Nat) (e : PollFd) :
    bump (Int32.ofNat n) e.revents =
      Int32.ofNat (n + if e.ready then 1 else 0) := by
  unfold bump PollFd.ready
  by_cases h : e.revents = 0
  · simp [h]
  · simp [h, Int32.ofNat_add]

def takeOver (e answer : PollFd) : PollFd :=
  e.setRevents answer.revents

def copyAt (nvIdx : List Nat) (answer fds : List PollFd) (n : Nat) :
    Merge where
  fds := scatter takeOver fds ((nvIdx.zip answer).take n)
  nready := Int32.ofNat ((answer.take n).countP PollFd.ready)

theorem copyRound_copyAt {nvIdx : List Nat} {answer : List PollFd}
    (fds : List PollFd) {n : Nat} {place : Nat} {entry : PollFd}
    (hplace : nvIdx[n]? = some place) (hentry : answer[n]? = some entry) :
    copyRound nvIdx answer (copyAt nvIdx answer fds n) n =
      copyAt nvIdx answer fds (n + 1) := by
  have hzip : (nvIdx.zip answer)[n]? = some (place, entry) :=
    List.getElem?_zip_eq_some.2 ⟨hplace, hentry⟩
  unfold copyRound
  rw [hplace, hentry]
  simp only [copyAt, List.take_add_one, hzip, hentry, Option.toList_some,
    scatter_concat, List.countP_append, bump_ofNat, List.countP_singleton]
  rfl

theorem copy_eq {nvIdx : List Nat} {answer : List PollFd}
    (hlen : answer.length = nvIdx.length) (fds : List PollFd) :
    forLoop nvIdx.length (copyRound nvIdx answer) { fds := fds, nready := 0 } =
      { fds := scatter takeOver fds (nvIdx.zip answer)
        nready := Int32.ofNat (answer.countP PollFd.ready) } := by
  have hrun : forLoop nvIdx.length (copyRound nvIdx answer)
      { fds := fds, nready := 0 } =
        copyAt nvIdx answer fds nvIdx.length := by
    refine @forLoop_rule _ (fun n s => s = copyAt nvIdx answer fds n)
      _ _ _ rfl ?_
    intro i s hi hs
    rw [hs]
    exact copyRound_copyAt fds (List.getElem?_eq_getElem hi)
      (List.getElem?_eq_getElem (hlen.symm ▸ hi))
  have hzip : (nvIdx.zip answer).length = nvIdx.length := by
    rw [List.length_zip, hlen, Nat.min_self]
  rw [hrun, copyAt, ← hzip, List.take_length, hzip, ← hlen, List.take_length]

def mark (r : FdRange) (e : PollFd) : PollFd :=
  if r.covers e.fd then e.answerVelox else e

theorem mark_velox {r : FdRange} {e : PollFd} (h : r.covers e.fd = true) :
    mark r e = e.answerVelox :=
  if_pos h

theorem mark_nonVelox {r : FdRange} {e : PollFd} (h : r.covers e.fd = false) :
    mark r e = e :=
  if_neg (by simp [h])

theorem request_mark (r : FdRange) (e : PollFd) :
    (mark r e).request = e.request := by
  unfold mark
  split <;> rfl

theorem covers_mark (r : FdRange) (e : PollFd) :
    r.covers (mark r e).fd = r.covers e.fd :=
  congrArg (fun request : Int × Int16 => r.covers request.1)
    (request_mark r e)

def veloxReady (r : FdRange) (e : PollFd) : Bool :=
  r.covers e.fd && e.answerVelox.ready

def markAt (r : FdRange) (fds : List PollFd) (ready n : Nat) : Merge where
  fds := mapFirst (mark r) n fds
  nready := Int32.ofNat (ready + (fds.take n).countP (veloxReady r))

theorem markRound_markAt (r : FdRange) {fds : List PollFd} (ready : Nat)
    {n : Nat} {entry : PollFd} (hentry : fds[n]? = some entry) :
    markRound r (markAt r fds ready n) n = markAt r fds ready (n + 1) := by
  have hread : (markAt r fds ready n).fds[n]? = some entry :=
    (mapFirst_getElem? (mark r) n fds).trans hentry
  unfold markRound
  rw [hread]
  cases hkind : r.covers entry.fd with
  | true =>
      have hmodify : (mapFirst (mark r) n fds).modify n PollFd.answerVelox =
          mapFirst (mark r) (n + 1) fds :=
        (modify_congr hread (mark_velox hkind).symm).trans
          (mapFirst_modify (mark r) n fds)
      simp only [if_pos, markAt, hmodify, bump_ofNat, List.take_add_one,
        hentry, Option.toList_some, List.countP_append,
        List.countP_singleton, veloxReady, hkind, Bool.true_and,
        Nat.add_assoc]
  | false =>
      simp [markAt, mapFirst_succ hentry (mark_nonVelox hkind),
        List.take_add_one, hentry, veloxReady, hkind]

theorem mark_eq (r : FdRange) (fds : List PollFd) (ready : Nat) :
    forLoop fds.length (markRound r)
        { fds := fds, nready := Int32.ofNat ready } =
      { fds := fds.map (mark r)
        nready := Int32.ofNat (ready + fds.countP (veloxReady r)) } := by
  have hrun : forLoop fds.length (markRound r)
      { fds := fds, nready := Int32.ofNat ready } =
        markAt r fds ready fds.length := by
    refine @forLoop_rule _ (fun n s => s = markAt r fds ready n) _ _ _ rfl ?_
    intro i s hi hs
    rw [hs]
    exact markRound_markAt r ready (List.getElem?_eq_getElem hi)
  rw [hrun, markAt, mapFirst_length, List.take_length]

/-!
## The merge
-/

def shown (r : FdRange) (fds : List PollFd) : List PollFd :=
  (fds.filter (nonVelox r)).map PollFd.clear

def shownTimeout (r : FdRange) (fds : List PollFd) (timeout : Int) : Int :=
  if fds.all (nonVelox r) then timeout else 0

/-- The result of a call, with `reported` what the kernel gives back of the
array that it is shown.  The entries that went to the kernel are, in their
order, the ones that it gives back. -/
structure Merges (r : FdRange) (fds reported : List PollFd)
    (result : List PollFd × Int32) : Prop where
  requests : result.1.map PollFd.request = fds.map PollFd.request
  kernel : result.1.filter (nonVelox r) = reported
  velox : forall e, e ∈ result.1 -> r.covers e.fd = true ->
    e.revents = e.events &&& PollFd.veloxEvents
  ret : result.2 = Int32.ofNat (result.1.countP PollFd.ready)

theorem split_nvIdx_length (r : FdRange) (fds : List PollFd) :
    (split r fds).nvIdx.length = (fds.filter (nonVelox r)).length := by
  rw [split_eq, splitAt, List.take_length, length_placesOf]

theorem filter_map_clear (r : FdRange) (fds : List PollFd) :
    (fds.map PollFd.clear).filter (nonVelox r) = shown r fds := by
  rw [List.filter_map]
  rfl

theorem split_eq_shown (r : FdRange) (fds : List PollFd) :
    split r fds =
      { fds := fds.map PollFd.clear
        nvIdx := placesOf (nonVelox r) (fds.map PollFd.clear)
        nonVelox := shown r fds } := by
  have hplaces : placesOf (nonVelox r) (fds.map PollFd.clear) =
      placesOf (nonVelox r) fds :=
    placesOf_map (fun e => nonVelox_setRevents r e 0) fds
  rw [split_eq, splitAt, mapFirst_length, List.take_length, hplaces]
  rfl

theorem deal_quiet (r : FdRange) (fds : List PollFd) {answer : List PollFd}
    (h : forall e, e ∈ answer -> e.revents = 0) :
    deal (nonVelox r) takeOver (fds.map PollFd.clear) answer =
      fds.map PollFd.clear := by
  refine deal_eq_self ?_
  intro x hx e he
  rcases List.mem_map.1 hx with ⟨y, _, rfl⟩
  rw [takeOver, h e he]
  rfl

theorem countP_ready_quiet {answer : List PollFd}
    (h : forall e, e ∈ answer -> e.revents = 0) :
    answer.countP PollFd.ready = 0 := by
  refine List.countP_eq_zero.2 ?_
  intro e he
  simp [PollFd.ready, h e he]

section Kernel

variable {kernel : PollCall} (hkernel : kernel.Succeeds)

include hkernel

theorem length_answer (fds : List PollFd) (timeout : Int) :
    (kernel fds timeout).1.length = fds.length := by
  have h := congrArg List.length (hkernel.requests fds timeout)
  rwa [List.length_map, List.length_map] at h

theorem ret_answer (fds : List PollFd) (timeout : Int) :
    (kernel fds timeout).2 =
      Int32.ofNat ((kernel fds timeout).1.countP PollFd.ready) := by
  rw [← Int32.ofInt_toInt (kernel fds timeout).2, hkernel.count]
  rfl

theorem revents_answer {fds : List PollFd} {timeout : Int}
    (hret : ¬ 0 < (kernel fds timeout).2) {e : PollFd}
    (he : e ∈ (kernel fds timeout).1) : e.revents = 0 := by
  have hcount := hkernel.count fds timeout
  have hzero : (kernel fds timeout).1.countP PollFd.ready = 0 := by
    rw [Int32.lt_iff_toInt_lt] at hret
    simp only [Int32.toInt_zero] at hret
    omega
  have hready := List.countP_eq_zero.1 hzero e he
  simpa [PollFd.ready] using hready

/-- The entries take over what the kernel reports, in their order, also when
the kernel is not asked or has nothing to report. -/
theorem askKernel_eq (r : FdRange) (fds : List PollFd) :
    askKernel kernel (split r fds) =
      { fds := deal (nonVelox r) takeOver (fds.map PollFd.clear)
          (kernel (shown r fds) 0).1
        nready := Int32.ofNat
          ((kernel (shown r fds) 0).1.countP PollFd.ready) } := by
  have hlen : (kernel (shown r fds) 0).1.length =
      (placesOf (nonVelox r) (fds.map PollFd.clear)).length := by
    rw [length_answer hkernel, length_placesOf, filter_map_clear]
  rw [split_eq_shown]
  unfold askKernel
  simp only
  by_cases hnone : 0 < (placesOf (nonVelox r) (fds.map PollFd.clear)).length
  case neg =>
    have hanswer : (kernel (shown r fds) 0).1 = [] :=
      List.eq_nil_of_length_eq_zero (by omega)
    rw [if_neg hnone, hanswer, deal_nil]
    rfl
  case pos =>
    rw [if_pos hnone]
    by_cases hret : 0 < (kernel (shown r fds) 0).2
    case pos => rw [if_pos hret, copy_eq hlen, scatter_placesOf]
    case neg =>
      have hquiet := fun e => @revents_answer _ hkernel _ _ hret e
      rw [if_neg hret, countP_ready_quiet hquiet, deal_quiet r fds hquiet]
      rfl

theorem merges_delegated {r : FdRange} {fds : List PollFd}
    (hall : fds.filter (nonVelox r) = fds) (timeout : Int) :
    Merges r fds (kernel (fds.map PollFd.clear) timeout).1
      (kernel (fds.map PollFd.clear) timeout) := by
  have hrequests : (kernel (fds.map PollFd.clear) timeout).1.map
      PollFd.request = fds.map PollFd.request := by
    rw [hkernel.requests, List.map_map]
    rfl
  have hkind : forall e, e ∈ (kernel (fds.map PollFd.clear) timeout).1 ->
      nonVelox r e = true := by
    intro e he
    have hmem := List.mem_map_of_mem (f := PollFd.request) he
    rw [hrequests] at hmem
    rcases List.mem_map.1 hmem with ⟨e', he', heq⟩
    have hfd : e'.fd = e.fd := congrArg Prod.fst heq
    rw [nonVelox, ← hfd]
    exact List.filter_eq_self.1 hall e' he'
  constructor
  case requests => exact hrequests
  case kernel => exact List.filter_eq_self.2 hkind
  case velox =>
    intro e he hvelox
    have hneg := hkind e he
    rw [nonVelox, hvelox] at hneg
    cases hneg
  case ret => exact ret_answer hkernel _ _

end Kernel

abbrev dealt (r : FdRange) (fds answer : List PollFd) : List PollFd :=
  deal (nonVelox r) takeOver (fds.map PollFd.clear) answer

theorem nonVelox_takeOver (r : FdRange) (e answer : PollFd) :
    nonVelox r (takeOver e answer) = nonVelox r e :=
  rfl

theorem map_request_dealt (r : FdRange) (fds answer : List PollFd) :
    (dealt r fds answer).map PollFd.request = fds.map PollFd.request := by
  have hkeep : forall e a, (takeOver e a).request = e.request :=
    fun e a => PollFd.request_setRevents e a.revents
  rw [dealt, map_deal hkeep, List.map_map]
  rfl

theorem length_dealt (r : FdRange) (fds answer : List PollFd) :
    (dealt r fds answer).length = fds.length := by
  have h := congrArg List.length (map_request_dealt r fds answer)
  rwa [List.length_map, List.length_map] at h

theorem zipWith_takeOver {xs answer : List PollFd}
    (h : answer.map PollFd.request = xs.map PollFd.request) :
    List.zipWith takeOver xs answer = answer := by
  induction xs generalizing answer with
  | nil => rw [List.map_eq_nil_iff.1 h]; rfl
  | cons x xs ih =>
      cases answer with
      | nil => rfl
      | cons a answer =>
          rw [List.map_cons, List.map_cons, List.cons.injEq] at h
          rw [List.zipWith_cons_cons, ih h.right, takeOver,
            PollFd.setRevents_of_request h.left]

theorem filter_nonVelox_map_mark (r : FdRange) (fds : List PollFd) :
    (fds.map (mark r)).filter (nonVelox r) = fds.filter (nonVelox r) := by
  induction fds with
  | nil => rfl
  | cons e fds ih =>
      cases hkind : r.covers e.fd with
      | true => simp [nonVelox, covers_mark, hkind, ih]
      | false => simp [nonVelox, mark_nonVelox hkind, hkind, ih]

/-- The entries that the last loop counts are those that it makes ready. -/
theorem countP_ready_map_mark (r : FdRange) (fds : List PollFd) :
    (fds.map (mark r)).countP PollFd.ready =
      (fds.filter (nonVelox r)).countP PollFd.ready +
        fds.countP (veloxReady r) := by
  induction fds with
  | nil => rfl
  | cons e fds ih =>
      cases hkind : r.covers e.fd with
      | true =>
          simp [nonVelox, mark_velox hkind, veloxReady, hkind, ih,
            List.countP_cons, Nat.add_assoc]
      | false =>
          simp [nonVelox, mark_nonVelox hkind, veloxReady, hkind, ih,
            List.countP_cons]
          omega

theorem merges_dealt {r : FdRange} {fds answer : List PollFd}
    (hanswer : answer.map PollFd.request =
      (shown r fds).map PollFd.request) :
    Merges r fds answer
      ((dealt r fds answer).map (mark r), Int32.ofNat
        (answer.countP PollFd.ready +
          (dealt r fds answer).countP (veloxReady r))) := by
  have hlen : answer.length =
      ((fds.map PollFd.clear).filter (nonVelox r)).length := by
    have h := congrArg List.length hanswer
    rwa [List.length_map, List.length_map, ← filter_map_clear] at h
  have hkernel : (dealt r fds answer).filter (nonVelox r) = answer := by
    rw [dealt, filter_deal (nonVelox_takeOver r) hlen, filter_map_clear,
      zipWith_takeOver hanswer]
  constructor
  case requests =>
    have hmark : PollFd.request ∘ mark r = PollFd.request :=
      funext (request_mark r)
    rw [List.map_map, hmark, map_request_dealt]
  case kernel => rw [filter_nonVelox_map_mark, hkernel]
  case velox =>
    intro e he hvelox
    rcases List.mem_map.1 he with ⟨e', _, rfl⟩
    rw [covers_mark] at hvelox
    rw [mark_velox hvelox]
    rfl
  case ret => rw [countP_ready_map_mark, hkernel]

theorem shownTimeout_eq (r : FdRange) (fds : List PollFd) (timeout : Int) :
    shownTimeout r fds timeout =
      if (split r fds).nvIdx.length = fds.length then timeout else 0 := by
  rw [shownTimeout, split_nvIdx_length]
  refine if_congr ?_ rfl rfl
  rw [List.length_filter_eq_length_iff, List.all_eq_true]

theorem merges_poll (r : FdRange) {kernel : PollCall}
    (hkernel : kernel.Succeeds) (fds : List PollFd) (timeout : Int) :
    Merges r fds (kernel (shown r fds) (shownTimeout r fds timeout)).1
      (poll r kernel fds timeout) := by
  rw [shownTimeout_eq]
  unfold poll
  simp only
  split
  case isTrue h =>
    have hall : fds.filter (nonVelox r) = fds := by
      rw [split_nvIdx_length] at h
      exact List.filter_eq_self.2 (List.length_filter_eq_length_iff.1 h)
    have hfds : (Poll.split r fds).fds = fds.map PollFd.clear := by
      rw [split_eq, splitAt, mapFirst_length]
    rw [shown, hall, hfds]
    exact merges_delegated hkernel hall timeout
  case isFalse h =>
    rw [askKernel_eq hkernel,
      ← length_dealt r fds (kernel (shown r fds) 0).1, mark_eq]
    exact merges_dealt (hkernel.requests _ 0)

/-- Every array is merged with what the kernel reports, and the result is the
number of entries with something to report as long as an `int` holds it. -/
theorem poll_merges (r : FdRange) {kernel : PollCall}
    (hkernel : kernel.Succeeds) (fds : List PollFd) (timeout : Int) :
    Merges r fds
        (kernel (shown r fds) (shownTimeout r fds timeout)).1
        (poll r kernel fds timeout) ∧
      ((poll r kernel fds timeout).1.countP PollFd.ready < 2 ^ 31 ->
        (poll r kernel fds timeout).2.toInt =
          ((poll r kernel fds timeout).1.countP PollFd.ready : Int)) := by
  have hmerges := merges_poll r hkernel fds timeout
  refine ⟨hmerges, ?_⟩
  intro hsmall
  rw [hmerges.ret]
  exact Int32.toInt_ofNat_of_lt hsmall

def firstReady : PollCall
  | [], _ => ([], 0)
  | e :: rest, _ => (e.setRevents 4 :: rest.map PollFd.clear, 1)

theorem firstReady_succeeds : firstReady.Succeeds := by
  constructor
  case requests =>
    intro fds timeout
    cases fds with
    | nil => rfl
    | cons e rest =>
        rw [firstReady, List.map_cons, List.map_map]
        rfl
  case count =>
    intro fds timeout
    cases fds with
    | nil => rfl
    | cons e rest =>
        have hrest : (rest.map PollFd.clear).countP PollFd.ready = 0 := by
          rw [List.countP_map]
          exact List.countP_eq_zero.2 fun _ _ => Bool.false_ne_true
        rw [firstReady, List.countP_cons_of_pos rfl, hrest]
        rfl

/-- Two entries of Velox, one of them asking for nothing that is reported, and
between them a negative descriptor and the descriptor 1 twice. -/
def mixedArray : List PollFd :=
  [⟨4096, 5, 9⟩, ⟨1, 4, 9⟩, ⟨-1, 1, 9⟩, ⟨1, 4, 9⟩, ⟨4097, 2, 9⟩]

def mixedRange : FdRange :=
  ⟨4096, 2, FdHistory.twoSlots.startfd_ne_zero,
    FdHistory.twoSlots.count_ne_zero⟩

theorem poll_merges_mixed :
    poll mixedRange firstReady mixedArray (-1) =
        ([⟨4096, 5, 5⟩, ⟨1, 4, 4⟩, ⟨-1, 1, 0⟩, ⟨1, 4, 0⟩, ⟨4097, 2, 0⟩], 2) ∧
      Merges mixedRange mixedArray
        [⟨1, 4, 4⟩, ⟨-1, 1, 0⟩, ⟨1, 4, 0⟩]
        (poll mixedRange firstReady mixedArray (-1)) :=
  ⟨by decide,
    (poll_merges mixedRange firstReady_succeeds mixedArray (-1)).left⟩

end Poll
end Velox
