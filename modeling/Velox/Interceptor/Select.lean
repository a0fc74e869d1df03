import Velox.Foundation.Loops
import Velox.Interceptor.Kernel
import Mathlib.Algebra.BigOperators.Group.Finset.Basic
import Mathlib.Algebra.Order.BigOperators.Group.Finset

/-!
# The interposed `select`

The three sets of a call are saved, and the descriptors of the kernel are
moved to sets of their own, which are given to the kernel.  The caller's sets
are then filled again with what the kernel reports and with the descriptors of
Velox, which count as ready.  A set of the caller is a finite set of numbers,
and an absent one is `none`.  The sets of the function have the size of an
`fd_set`, whatever the caller's memory holds behind it: the copies end there,
and so does the emptying of the caller's sets.  The kernel's `select` is a
parameter.
-/

namespace Velox

open Foundation

inductive SetKind where
  | read
  | write
  | except
  deriving DecidableEq

instance : Fintype SetKind where
  elems := {.read, .write, .except}
  complete := by
    intro k
    cases k <;> decide

abbrev FdSets :=
  SetKind -> Option (Finset Nat)

abbrev LocalSets :=
  SetKind -> Finset Nat

/-- `FD_SETSIZE`, the number of bits of an `fd_set`. -/
def fdSetSize : Nat := 1024

def FdSets.members (sets : FdSets) : LocalSets :=
  fun k => (sets k).getD ∅

def FdSets.saved (sets : FdSets) : LocalSets :=
  fun k => (sets.members k).filter fun fd => fd < fdSetSize

structure Timeval where
  sec : Int
  usec : Int
  deriving DecidableEq

structure SelectArgs where
  nfds : Int
  sets : FdSets
  timeout : Option Timeval

abbrev SelectCall :=
  SelectArgs -> FdSets × Int

/-- A kernel whose `select` succeeds: each set becomes a subset of its members
below `nfds`, and the result is the number of members left. -/
structure SelectCall.Succeeds (kernel : SelectCall) : Prop where
  isSome : forall args k,
    ((kernel args).1 k).isSome = (args.sets k).isSome
  subset : forall args k fd, fd ∈ FdSets.members (kernel args).1 k ->
    fd ∈ args.sets.members k ∧ (fd : Int) < args.nfds
  count : forall args,
    (kernel args).2 =
      ((∑ k, (FdSets.members (kernel args).1 k).card : Nat) : Int)

namespace Select

/-!
## The function
-/

def kinds : List SetKind :=
  [.read, .write, .except]

def inAny (sets : LocalSets) (fd : Nat) : Bool :=
  kinds.any fun k => decide (fd ∈ sets k)

structure Scan where
  nv : LocalSets
  hasVelox : Bool
  maxNvFd : Int

/-- A round of the first loop.  There is nothing to read behind the end of the
local copies. -/
def scanRound (r : FdRange) (orig : LocalSets) (s : Scan) (fd : Nat) :
    Option Scan :=
  if fdSetSize <= fd then none
  else if r.isAssignedByVelox fd then
    some { s with hasVelox := s.hasVelox || inAny orig fd }
  else
    some
      { s with
        nv := fun k => if fd ∈ orig k then insert fd (s.nv k) else s.nv k
        maxNvFd :=
          if inAny orig fd ∧ s.maxNvFd < fd then (fd : Int) else s.maxNvFd }

def scan (r : FdRange) (orig : LocalSets) (nfds : Int) : Option Scan :=
  tryLoop nfds.toNat (scanRound r orig)
    { nv := fun _ => ∅, hasVelox := false, maxNvFd := -1 }

def zero (sets : FdSets) : FdSets :=
  fun k => (sets k).map fun s => s.filter fun fd => fdSetSize <= fd

/-- `FD_SET` in each of the caller's sets whose counterpart has the
descriptor. -/
def setFd (source : LocalSets) (sets : FdSets) (fd : Nat) : FdSets :=
  fun k => (sets k).map fun s => if fd ∈ source k then insert fd s else s

structure Merge where
  sets : FdSets
  nready : Int

def kernelCall (s : Scan) : Option SelectArgs :=
  if 0 <= s.maxNvFd then
    some { nfds := s.maxNvFd + 1
           sets := fun k => some (s.nv k)
           timeout := some { sec := 0, usec := 0 } }
  else
    none

def askKernel (kernel : SelectCall) (s : Scan) (sets : FdSets) : Merge :=
  match kernelCall s with
  | none => { sets := sets, nready := 0 }
  | some call =>
      let answer := kernel call
      if 0 < answer.2 then
        { sets := forLoop (s.maxNvFd + 1).toNat
            (setFd (FdSets.members answer.1)) sets
          nready := answer.2 }
      else
        { sets := sets, nready := 0 }

def markRound (r : FdRange) (orig : LocalSets) (s : Merge) (fd : Nat) :
    Merge :=
  if r.isAssignedByVelox fd then
    { sets := setFd orig s.sets fd
      nready :=
        if kinds.any fun k => (s.sets k).isSome && decide (fd ∈ orig k) then
          s.nready + 1
        else
          s.nready }
  else
    s

structure Outcome where
  sets : FdSets
  ret : Int
  asked : Option SelectArgs

/-- The part of `select` behind the first loop. -/
def delegate (r : FdRange) (kernel : SelectCall) (args : SelectArgs)
    (s : Scan) : Outcome :=
  if s.hasVelox then
    let asked := askKernel kernel s (zero args.sets)
    let merged :=
      forLoop args.nfds.toNat (markRound r args.sets.saved) asked
    { sets := merged.sets
      ret := merged.nready
      asked := kernelCall s }
  else
    { sets := (kernel args).1
      ret := (kernel args).2
      asked := some args }

end Select

def select (r : FdRange) (kernel : SelectCall) (args : SelectArgs) :
    Option Select.Outcome :=
  (Select.scan r args.sets.saved args.nfds).map
    (Select.delegate r kernel args)

namespace Select

/-!
## The three loops
-/

theorem inAny_iff {sets : LocalSets} {fd : Nat} :
    inAny sets fd = true <-> exists k, fd ∈ sets k := by
  unfold inAny kinds
  constructor
  case mp =>
    intro h
    rcases List.any_eq_true.1 h with ⟨k, _, hk⟩
    exact ⟨k, of_decide_eq_true hk⟩
  case mpr =>
    rintro ⟨k, hk⟩
    refine List.any_eq_true.2 ⟨k, ?_, decide_eq_true hk⟩
    cases k <;> simp

def nonVelox (r : FdRange) (fd : Nat) : Bool :=
  !r.isAssignedByVelox fd

structure ScanAt (r : FdRange) (orig : LocalSets) (n : Nat) (s : Scan) :
    Prop where
  nv : forall k, s.nv k = below (nonVelox r) (orig k) n
  hasVelox : s.hasVelox = true <->
    exists fd, fd < n ∧ r.isAssignedByVelox fd = true ∧
      inAny orig fd = true
  le_maxNvFd : forall k fd, fd ∈ s.nv k -> (fd : Int) <= s.maxNvFd

theorem ScanAt.round_velox {r : FdRange} {orig : LocalSets} {n : Nat}
    {s : Scan} (h : ScanAt r orig n s)
    (hvelox : r.isAssignedByVelox n = true) :
    ScanAt r orig (n + 1)
      { s with hasVelox := s.hasVelox || inAny orig n } := by
  have hkind : nonVelox r n = false := by
    rw [nonVelox, hvelox]
    rfl
  constructor
  case nv =>
    intro k
    rw [below_succ_of_not fun hn => Bool.false_ne_true (hkind ▸ hn.right)]
    exact h.nv k
  case hasVelox =>
    rw [Bool.or_eq_true, h.hasVelox, Nat.exists_lt_succ_right,
      and_iff_right hvelox]
  case le_maxNvFd => exact h.le_maxNvFd

theorem ScanAt.round_nonVelox {r : FdRange} {orig : LocalSets} {n : Nat}
    {s : Scan} (h : ScanAt r orig n s)
    (hvelox : ¬ r.isAssignedByVelox n = true) :
    ScanAt r orig (n + 1)
      { s with
        nv := fun k => if n ∈ orig k then insert n (s.nv k) else s.nv k
        maxNvFd :=
          if inAny orig n ∧ s.maxNvFd < n then (n : Int)
          else s.maxNvFd } := by
  have hkind : nonVelox r n = true := by simp [nonVelox, hvelox]
  constructor
  case nv =>
    intro k
    simp only
    split
    case isTrue hmem => rw [below_succ_of_mem hkind hmem, h.nv]
    case isFalse hmem =>
      rw [below_succ_of_not fun hn => hmem hn.left, h.nv]
  case hasVelox =>
    rw [h.hasVelox, Nat.exists_lt_succ_right]
    exact (or_iff_left fun hn => hvelox hn.left).symm
  case le_maxNvFd =>
    intro k fd hfd
    have hmax : s.maxNvFd <=
        if inAny orig n ∧ s.maxNvFd < n then (n : Int) else s.maxNvFd := by
      split <;> omega
    simp only at hfd
    split at hfd
    case isTrue hmem =>
      rcases Finset.mem_insert.1 hfd with rfl | hold
      · have hin : inAny orig fd = true := inAny_iff.2 ⟨k, hmem⟩
        simp only [hin, true_and]
        split <;> omega
      · exact le_trans (h.le_maxNvFd k fd hold) hmax
    case isFalse hmem => exact le_trans (h.le_maxNvFd k fd hfd) hmax

theorem ScanAt.round {r : FdRange} {orig : LocalSets} {n : Nat} {s : Scan}
    (h : ScanAt r orig n s) (hn : n < fdSetSize) :
    exists s', scanRound r orig s n = some s' ∧ ScanAt r orig (n + 1) s' := by
  unfold scanRound
  rw [if_neg (Nat.not_le.2 hn)]
  split
  case isTrue hvelox => exact ⟨_, rfl, h.round_velox hvelox⟩
  case isFalse hvelox => exact ⟨_, rfl, h.round_nonVelox hvelox⟩

theorem scanAt_scan (r : FdRange) (orig : LocalSets) {nfds : Int}
    (hnfds : nfds <= fdSetSize) :
    exists s, scan r orig nfds = some s ∧ ScanAt r orig nfds.toNat s := by
  refine tryLoop_rule ?_ ?_
  case refine_1 =>
    constructor
    case nv => exact fun k => (below_zero _ _).symm
    case hasVelox => simp
    case le_maxNvFd =>
      intro k fd hfd
      cases hfd
  case refine_2 =>
    intro i s hi hs
    exact hs.round (by lia)

theorem scan_eq_none (r : FdRange) (orig : LocalSets) {nfds : Int}
    (hnfds : (fdSetSize : Int) < nfds) : scan r orig nfds = none := by
  refine tryLoop_eq_none (i := fdSetSize) (by lia) ?_
  intro s
  rw [scanRound, if_pos (Nat.le_refl fdSetSize)]

def add (sets : FdSets) (more : LocalSets) : FdSets :=
  fun k => (sets k).map fun s => s ∪ more k

theorem add_empty (sets : FdSets) : add sets (fun _ => ∅) = sets := by
  funext k
  simp [add]

theorem add_add (sets : FdSets) (more more' : LocalSets) :
    add (add sets more) more' = add sets fun k => more k ∪ more' k := by
  funext k
  simp [add, Option.map_map, Function.comp_def, Finset.union_assoc]

theorem isSome_add (sets : FdSets) (more : LocalSets) (k : SetKind) :
    (add sets more k).isSome = (sets k).isSome :=
  Option.isSome_map

theorem isSome_zero (sets : FdSets) (k : SetKind) :
    (zero sets k).isSome = (sets k).isSome :=
  Option.isSome_map

theorem isSome_of_mem_saved {sets : FdSets} {k : SetKind} {fd : Nat}
    (h : fd ∈ sets.saved k) : (sets k).isSome = true := by
  have hmem := (Finset.mem_filter.1 h).left
  unfold FdSets.members at hmem
  cases hk : sets k with
  | none => simp [hk] at hmem
  | some s => rfl

/-- The members that `FD_ZERO` does not reach. -/
def leftOver (sets : FdSets) : LocalSets :=
  fun k => (sets.members k).filter fun fd => fdSetSize <= fd

theorem members_add_zero {sets : FdSets} {more : LocalSets} {k : SetKind}
    (h : forall fd, fd ∈ more k -> (sets k).isSome = true) :
    FdSets.members (add (zero sets) more) k = leftOver sets k ∪ more k := by
  unfold leftOver FdSets.members add zero
  cases hk : sets k with
  | none =>
      refine (Finset.eq_empty_of_forall_notMem ?_).symm
      intro fd hfd
      rcases Finset.mem_union.1 hfd with hold | hmore
      · cases (Finset.mem_filter.1 hold).left
      · have hsome := h fd hmore
        rw [hk] at hsome
        cases hsome
  | some s => rfl

theorem setFd_add {p : Nat -> Bool} {n : Nat} (hp : p n = true)
    (source : LocalSets) (sets : FdSets) :
    setFd source (add sets fun k => below p (source k) n) n =
      add sets fun k => below p (source k) (n + 1) := by
  funext k
  unfold setFd add
  rw [Option.map_map]
  refine congrArg (fun f => Option.map f (sets k)) (funext fun s => ?_)
  show (if n ∈ source k then insert n (s ∪ below p (source k) n)
      else s ∪ below p (source k) n) = s ∪ below p (source k) (n + 1)
  split
  case isTrue hmem =>
    rw [below_succ_of_mem hp hmem, Finset.union_insert]
  case isFalse hmem => rw [below_succ_of_not fun hn => hmem hn.left]

theorem forLoop_setFd (source : LocalSets) (sets : FdSets) (n : Nat) :
    forLoop n (setFd source) sets =
      add sets fun k => below (fun _ => true) (source k) n := by
  refine @forLoop_rule _
    (fun n s => s = add sets fun k => below (fun _ => true) (source k) n)
    _ _ _ ?_ ?_
  case refine_1 => simp [below_zero, add_empty]
  case refine_2 =>
    intro i s _ hs
    rw [hs, setFd_add rfl]

def counted (r : FdRange) (orig : LocalSets) (fd : Nat) : Bool :=
  r.isAssignedByVelox fd && inAny orig fd

def markAt (r : FdRange) (orig : LocalSets) (start : Merge) (n : Nat) :
    Merge where
  sets := add start.sets fun k => below r.isAssignedByVelox (orig k) n
  nready := start.nready +
    (((Finset.range n).filter fun fd => counted r orig fd = true).card : Int)

theorem any_isSome {sets : FdSets} {orig : LocalSets}
    (h : forall k fd, fd ∈ orig k -> (sets k).isSome = true) (fd : Nat) :
    (kinds.any fun k => (sets k).isSome && decide (fd ∈ orig k)) =
      inAny orig fd := by
  unfold inAny
  refine congrArg (fun f => kinds.any f) (funext fun k => ?_)
  by_cases hmem : fd ∈ orig k
  · simp [hmem, h k fd hmem]
  · simp [hmem]

theorem markRound_markAt (r : FdRange) {orig : LocalSets} {start : Merge}
    (h : forall k fd, fd ∈ orig k -> (start.sets k).isSome = true) (n : Nat) :
    markRound r orig (markAt r orig start n) n =
      markAt r orig start (n + 1) := by
  unfold markRound
  split
  case isTrue hvelox =>
    have hsome : forall k fd, fd ∈ orig k ->
        ((markAt r orig start n).sets k).isSome = true := by
      intro k fd hfd
      rw [markAt, isSome_add]
      exact h k fd hfd
    have hcounted : counted r orig n = inAny orig n := by
      rw [counted, hvelox, Bool.true_and]
    rw [any_isSome hsome]
    simp only [markAt, setFd_add hvelox, card_filter_range_succ, hcounted]
    cases inAny orig n <;> simp [add_assoc]
  case isFalse hvelox =>
    have hcounted : counted r orig n = false := by simp [counted, hvelox]
    simp only [markAt, card_filter_range_succ, hcounted]
    simp only [below_succ_of_not fun hn => hvelox hn.right]
    simp

theorem mark_eq (r : FdRange) {orig : LocalSets} {start : Merge}
    (h : forall k fd, fd ∈ orig k -> (start.sets k).isSome = true) (n : Nat) :
    forLoop n (markRound r orig) start = markAt r orig start n := by
  refine @forLoop_rule _ (fun n s => s = markAt r orig start n) _ _ _ ?_ ?_
  case refine_1 =>
    simp [markAt, below_zero, add_empty]
  case refine_2 =>
    intro i s _ hs
    rw [hs, markRound_markAt r h]

/-!
## The sets
-/

/-- What the kernel reports, nothing if it is not asked. -/
def reported (kernel : SelectCall) : Option SelectArgs -> LocalSets
  | none => fun _ => ∅
  | some call => FdSets.members (kernel call).1

section Kernel

variable {kernel : SelectCall} (hkernel : kernel.Succeeds)

include hkernel

theorem members_kernel_eq_empty {call : SelectArgs}
    (hret : ¬ 0 < (kernel call).2) : FdSets.members (kernel call).1 =
      fun _ => ∅ := by
  rw [hkernel.count] at hret
  have hsum : ∑ k, (FdSets.members (kernel call).1 k).card = 0 := by omega
  funext k
  exact Finset.card_eq_zero.1 (Finset.sum_eq_zero_iff.1 hsum k
    (Finset.mem_univ k))

theorem below_members_kernel (call : SelectArgs) (k : SetKind) :
    below (fun _ => true) (FdSets.members (kernel call).1 k)
      call.nfds.toNat = FdSets.members (kernel call).1 k := by
  ext fd
  rw [mem_below]
  constructor
  case mp => exact And.left
  case mpr =>
    intro hfd
    have hlt := (hkernel.subset call k fd hfd).right
    exact ⟨hfd, rfl, by omega⟩

theorem askKernel_eq (s : Scan) (sets : FdSets) :
    askKernel kernel s sets =
      { sets := add sets (reported kernel (kernelCall s))
        nready := ((∑ k, (reported kernel (kernelCall s) k).card : Nat) :
          Int) } := by
  unfold askKernel
  cases hcall : kernelCall s with
  | none => simp [reported, add_empty]
  | some call =>
      have hnfds : call.nfds = s.maxNvFd + 1 := by
        unfold kernelCall at hcall
        split at hcall
        · cases hcall
          rfl
        · cases hcall
      simp only [reported]
      split
      case isTrue hret =>
        simp only [forLoop_setFd, ← hnfds, below_members_kernel hkernel,
          ← hkernel.count]
      case isFalse hret =>
        rw [members_kernel_eq_empty hkernel hret, add_empty]
        simp

theorem mem_reported {r : FdRange} {orig : LocalSets} {n : Nat} {s : Scan}
    (hscan : ScanAt r orig n s) {k : SetKind} {fd : Nat}
    (h : fd ∈ reported kernel (kernelCall s) k) :
    fd ∈ orig k ∧ nonVelox r fd = true ∧ fd < n := by
  unfold kernelCall at h
  split at h
  case isTrue _ =>
    have hmem := (hkernel.subset _ k fd h).left
    have hnv : fd ∈ s.nv k := hmem
    rw [hscan.nv k] at hnv
    exact mem_below.1 hnv
  case isFalse _ => cases h

end Kernel

/-- A call with a descriptor of Velox below `nfds` in one of its sets. -/
def HasVelox (r : FdRange) (args : SelectArgs) : Prop :=
  exists fd k, r.isAssignedByVelox fd = true ∧ (fd : Int) < args.nfds ∧
    fd ∈ args.sets.members k

def handedBack (r : FdRange) (kernel : SelectCall) (args : SelectArgs)
    (s : Scan) : LocalSets :=
  fun k =>
    reported kernel (kernelCall s) k ∪
      below r.isAssignedByVelox (args.sets.members k) args.nfds.toNat

section Handed

variable {kernel : SelectCall} (hkernel : kernel.Succeeds) {r : FdRange}
  {args : SelectArgs} {s : Scan}
  (hscan : ScanAt r args.sets.saved args.nfds.toNat s)

include hkernel hscan

theorem mem_handedBack {k : SetKind} {fd : Nat}
    (h : fd ∈ handedBack r kernel args s k) :
    fd ∈ args.sets.members k ∧ (fd : Int) < args.nfds := by
  rcases Finset.mem_union.1 h with hrep | hvelox
  · have hfrom := mem_reported hkernel hscan hrep
    exact ⟨(Finset.mem_filter.1 hfrom.left).left, by lia⟩
  · have hbelow := mem_below.1 hvelox
    exact ⟨hbelow.left, by lia⟩

theorem disjoint_handedBack (k : SetKind) :
    Disjoint (reported kernel (kernelCall s) k)
      (below r.isAssignedByVelox (args.sets.members k) args.nfds.toNat) := by
  refine Finset.disjoint_left.2 ?_
  intro fd hrep hvelox
  have hkind := (mem_reported hkernel hscan hrep).right.left
  rw [nonVelox, (mem_below.1 hvelox).right.left] at hkind
  cases hkind

end Handed

/-!
A call whose `nfds` the local copies have room for, behind its first loop.
-/

section Scanned

variable {kernel : SelectCall} (hkernel : kernel.Succeeds) {r : FdRange}
  {args : SelectArgs} (hnfds : args.nfds <= fdSetSize) {s : Scan}
  (hscan : ScanAt r args.sets.saved args.nfds.toNat s)

include hnfds

theorem mem_saved_iff {k : SetKind} {fd : Nat}
    (hlt : (fd : Int) < args.nfds) :
    fd ∈ args.sets.saved k <-> fd ∈ args.sets.members k := by
  unfold FdSets.saved
  rw [Finset.mem_filter]
  exact and_iff_left (by lia)

theorem below_saved (k : SetKind) :
    below r.isAssignedByVelox (args.sets.saved k) args.nfds.toNat =
      below r.isAssignedByVelox (args.sets.members k) args.nfds.toNat := by
  ext fd
  rw [mem_below, mem_below]
  refine and_congr_left fun hfd => mem_saved_iff hnfds ?_
  lia

include hscan

theorem scan_hasVelox_iff : s.hasVelox = true <-> HasVelox r args := by
  rw [hscan.hasVelox]
  constructor
  case mp =>
    rintro ⟨fd, hfd, hvelox, hin⟩
    rcases inAny_iff.1 hin with ⟨k, hk⟩
    exact ⟨fd, k, hvelox, by lia, (Finset.mem_filter.1 hk).left⟩
  case mpr =>
    rintro ⟨fd, k, hvelox, hfd, hk⟩
    exact ⟨fd, by lia, hvelox, inAny_iff.2 ⟨k, (mem_saved_iff hnfds hfd).2 hk⟩⟩

theorem delegate_delegated (h : ¬ HasVelox r args) (kernel : SelectCall) :
    delegate r kernel args s =
      { sets := (kernel args).1
        ret := (kernel args).2
        asked := some args } := by
  unfold delegate
  rw [← scan_hasVelox_iff hnfds hscan] at h
  exact if_neg h

include hkernel

theorem delegate_merged (h : HasVelox r args) :
    delegate r kernel args s =
      { sets := add (zero args.sets) (handedBack r kernel args s)
        ret :=
          ((∑ k, (reported kernel (kernelCall s) k).card : Nat) : Int) +
          (((Finset.range args.nfds.toNat).filter fun fd =>
            counted r args.sets.saved fd = true).card : Int)
        asked := kernelCall s } := by
  have hthere : forall (more : LocalSets) k fd, fd ∈ args.sets.saved k ->
      (add (zero args.sets) more k).isSome = true := by
    intro more k fd hfd
    rw [isSome_add, isSome_zero]
    exact isSome_of_mem_saved hfd
  unfold delegate
  rw [if_pos ((scan_hasVelox_iff hnfds hscan).2 h), askKernel_eq hkernel]
  dsimp only
  rw [mark_eq r (hthere _)]
  simp only [markAt, add_add, below_saved hnfds]
  rfl

theorem members_merged (h : HasVelox r args) (k : SetKind) :
    FdSets.members (delegate r kernel args s).sets k =
      leftOver args.sets k ∪ handedBack r kernel args s k := by
  rw [delegate_merged hkernel hnfds hscan h]
  refine members_add_zero ?_
  intro fd hfd
  have hmem := mem_handedBack hkernel hscan hfd
  exact isSome_of_mem_saved ((mem_saved_iff hnfds hmem.right).2 hmem.left)

theorem disjoint_leftOver (k : SetKind) :
    Disjoint (leftOver args.sets k) (handedBack r kernel args s k) := by
  refine Finset.disjoint_left.2 ?_
  intro fd hold hback
  have hge := (Finset.mem_filter.1 hold).right
  have hlt := (mem_handedBack hkernel hscan hback).right
  lia

end Scanned

/-- The sets that a call hands back, and what it shows to the kernel. -/
structure RightSets (r : FdRange) (kernel : SelectCall) (args : SelectArgs)
    (out : Outcome) : Prop where
  isSome : forall k, (out.sets k).isSome = (args.sets k).isSome
  mem : forall k fd, fd ∈ out.sets.members k <->
    (r.isAssignedByVelox fd = true ∧ (fd : Int) < args.nfds ∧
        fd ∈ args.sets.members k) ∨
      (r.isAssignedByVelox fd = false ∧ (fd : Int) < args.nfds ∧
        fd ∈ reported kernel out.asked k)
  asked : forall k fd, r.isAssignedByVelox fd = false ->
    (fd : Int) < args.nfds -> fd ∈ args.sets.members k ->
      exists call, out.asked = some call ∧ fd ∈ call.sets.members k ∧
        (fd : Int) < call.nfds
  not_shown : HasVelox r args -> forall call, out.asked = some call ->
    forall k fd, fd ∈ call.sets.members k -> r.isAssignedByVelox fd = false

/-- The local copies have room for every descriptor below `nfds`; and where
the caller's sets are emptied, they have no members behind an `fd_set`. -/
structure InBounds (r : FdRange) (args : SelectArgs) : Prop where
  nfds : args.nfds <= fdSetSize
  members : HasVelox r args ->
    forall k fd, fd ∈ args.sets.members k -> fd < fdSetSize

theorem nonVelox_iff {r : FdRange} {fd : Nat} :
    nonVelox r fd = true <-> r.isAssignedByVelox fd = false := by
  rw [nonVelox, Bool.not_eq_true']

theorem InBounds.leftOver_eq_empty {r : FdRange} {args : SelectArgs}
    (h : InBounds r args) (hvelox : HasVelox r args) (k : SetKind) :
    leftOver args.sets k = ∅ := by
  refine Finset.eq_empty_of_forall_notMem ?_
  intro fd hfd
  have hmem := Finset.mem_filter.1 hfd
  exact absurd (h.members hvelox k fd hmem.left) (Nat.not_lt.2 hmem.right)

section Scanned

variable {kernel : SelectCall} (hkernel : kernel.Succeeds) {r : FdRange}
  {args : SelectArgs} {s : Scan}

theorem select_of_scan (h : scan r args.sets.saved args.nfds = some s) :
    select r kernel args = some (delegate r kernel args s) := by
  rw [select, h]
  rfl

theorem scanAt_of_select {out : Outcome}
    (h : select r kernel args = some out) :
    args.nfds <= fdSetSize ∧ exists s,
      ScanAt r args.sets.saved args.nfds.toNat s ∧
        out = delegate r kernel args s := by
  have hnfds : args.nfds <= fdSetSize := by
    by_contra hlarge
    rw [select, scan_eq_none r _ (Int.not_le.1 hlarge)] at h
    cases h
  rcases scanAt_scan r args.sets.saved hnfds with ⟨s, hscan, hat⟩
  rw [select_of_scan hscan] at h
  exact ⟨hnfds, s, hat, (Option.some.inj h).symm⟩

include hkernel

theorem rightSets_delegated (hnfds : args.nfds <= fdSetSize)
    (hscan : ScanAt r args.sets.saved args.nfds.toNat s)
    (h : ¬ HasVelox r args) :
    RightSets r kernel args (delegate r kernel args s) := by
  rw [delegate_delegated hnfds hscan h]
  constructor
  case isSome => exact hkernel.isSome args
  case mem =>
    intro k fd
    constructor
    case mp =>
      intro hfd
      have hsub := hkernel.subset args k fd hfd
      refine Or.inr ⟨?_, hsub.right, hfd⟩
      rw [← Bool.not_eq_true]
      intro hvelox
      exact h ⟨fd, k, hvelox, hsub.right, hsub.left⟩
    case mpr =>
      rintro (⟨hvelox, hlt, hmem⟩ | ⟨_, _, hmem⟩)
      · exact absurd ⟨fd, k, hvelox, hlt, hmem⟩ h
      · exact hmem
  case asked =>
    intro k fd _ hlt hmem
    exact ⟨args, rfl, hmem, hlt⟩
  case not_shown => exact fun hvelox => absurd hvelox h

theorem rightSets_merged (hbounds : InBounds r args)
    (hscan : ScanAt r args.sets.saved args.nfds.toNat s)
    (h : HasVelox r args) :
    RightSets r kernel args (delegate r kernel args s) := by
  have hnfds := hbounds.nfds
  have hmerged := delegate_merged hkernel hnfds hscan h
  have hasked : (delegate r kernel args s).asked = kernelCall s := by
    rw [hmerged]
  constructor
  case isSome =>
    intro k
    rw [hmerged, isSome_add, isSome_zero]
  case mem =>
    intro k fd
    rw [members_merged hkernel hnfds hscan h,
      hbounds.leftOver_eq_empty h, Finset.empty_union, handedBack,
      Finset.mem_union, hasked, mem_below]
    constructor
    case mp =>
      rintro (hrep | ⟨hmem, hvelox, hlt⟩)
      · have hfrom := mem_reported hkernel hscan hrep
        exact Or.inr ⟨nonVelox_iff.1 hfrom.right.left, by lia, hrep⟩
      · exact Or.inl ⟨hvelox, by lia, hmem⟩
    case mpr =>
      rintro (⟨hvelox, hlt, hmem⟩ | ⟨_, _, hrep⟩)
      · exact Or.inr ⟨hmem, hvelox, by lia⟩
      · exact Or.inl hrep
  case asked =>
    intro k fd hkind hlt hmem
    have hnv : fd ∈ s.nv k := by
      rw [hscan.nv]
      exact mem_below.2 ⟨(mem_saved_iff hnfds hlt).2 hmem,
        nonVelox_iff.2 hkind, by lia⟩
    have hmax := hscan.le_maxNvFd k fd hnv
    refine ⟨_, hasked.trans (if_pos (by lia)), hnv, ?_⟩
    exact Int.lt_add_one_of_le hmax
  case not_shown =>
    intro _ call hcall k fd hfd
    rw [hasked, kernelCall] at hcall
    split at hcall
    case isTrue _ =>
      cases hcall
      have hnv : fd ∈ s.nv k := hfd
      rw [hscan.nv] at hnv
      exact nonVelox_iff.1 (mem_below.1 hnv).right.left
    case isFalse _ => cases hcall

/-- A call hands back the right sets exactly if it stays within the size of
an `fd_set`. -/
theorem select_rightSets_iff :
    (exists out, select r kernel args = some out ∧
        RightSets r kernel args out) <-> InBounds r args := by
  constructor
  case mp =>
    rintro ⟨out, hselect, hright⟩
    rcases scanAt_of_select hselect with ⟨hnfds, s, hscan, rfl⟩
    refine ⟨hnfds, ?_⟩
    intro hvelox k fd hmem
    by_contra hlarge
    have hback : fd ∈ FdSets.members (delegate r kernel args s).sets k := by
      rw [members_merged hkernel hnfds hscan hvelox]
      exact Finset.mem_union_left _
        (Finset.mem_filter.2 ⟨hmem, Nat.not_lt.1 hlarge⟩)
    rcases (hright.mem k fd).1 hback with ⟨_, hlt, _⟩ | ⟨_, hlt, _⟩
    · lia
    · lia
  case mpr =>
    intro hbounds
    rcases scanAt_scan r args.sets.saved hbounds.nfds with ⟨s, hscan, hat⟩
    refine ⟨_, select_of_scan hscan, ?_⟩
    by_cases h : HasVelox r args
    · exact rightSets_merged hkernel hbounds hat h
    · exact rightSets_delegated hkernel hbounds.nfds hat h

end Scanned

def total (sets : FdSets) : Int :=
  ((∑ k, (sets.members k).card : Nat) : Int)

def allReady : SelectCall :=
  fun args =>
    let sets : FdSets := fun k =>
      (args.sets k).map fun s => s.filter fun fd => fd < args.nfds.toNat
    (sets, total sets)

theorem allReady_succeeds : allReady.Succeeds := by
  constructor
  case isSome => exact fun args k => Option.isSome_map
  case subset =>
    intro args k fd hfd
    unfold FdSets.members allReady at *
    dsimp only at hfd
    cases hk : args.sets k with
    | none =>
        rw [hk] at hfd
        cases hfd
    | some s =>
        rw [hk] at hfd
        have hmem := Finset.mem_filter.1 hfd
        exact ⟨hmem.left, by omega⟩
  case count => exact fun args => rfl

def twoGranted : FdRange :=
  ⟨5, 2, by decide, FdHistory.twoSlots.count_ne_zero⟩

/-- The descriptor 2 of the kernel and two of Velox, of which 6 is not below
`nfds`; the last set is absent. -/
def mixedCall : SelectArgs where
  nfds := 6
  sets
    | .read => some {2, 5, 6}
    | .write => some {2}
    | .except => none
  timeout := none

theorem select_rightSets_mixedCall :
    InBounds twoGranted mixedCall ∧
      exists out, select twoGranted allReady mixedCall = some out ∧
        RightSets twoGranted allReady mixedCall out := by
  have hbounds : InBounds twoGranted mixedCall := by
    refine ⟨by decide, ?_⟩
    intro _ k fd hfd
    cases k <;> revert hfd <;> simp [mixedCall, FdSets.members, fdSetSize] <;>
      lia
  exact ⟨hbounds, (select_rightSets_iff allReady_succeeds).2 hbounds⟩

/-- The first descriptor of the range that the daemon grants is waited for. -/
def grantedCall : SelectArgs where
  nfds := 4097
  sets
    | .read => some {4096}
    | .write => none
    | .except => none
  timeout := none

theorem select_reads_behind_copies :
    allReady.Succeeds ∧ HasVelox FdProcess.granted grantedCall ∧
      select FdProcess.granted allReady grantedCall = none ∧
      ¬ exists out, select FdProcess.granted allReady grantedCall = some out ∧
        RightSets FdProcess.granted allReady grantedCall out := by
  have hnone : select FdProcess.granted allReady grantedCall = none := by
    rw [select, scan_eq_none _ _ (by decide)]
    rfl
  refine ⟨allReady_succeeds, ⟨4096, .read, by decide⟩, hnone, ?_⟩
  rintro ⟨out, hout, _⟩
  rw [hnone] at hout
  cases hout

/-!
## The result
-/

def VeloxOnce (r : FdRange) (args : SelectArgs) : Prop :=
  forall fd, r.isAssignedByVelox fd = true -> (fd : Int) < args.nfds ->
    forall k k', fd ∈ args.sets.members k -> fd ∈ args.sets.members k' ->
      k = k'

theorem counted_iff {r : FdRange} {orig : LocalSets} {fd : Nat} :
    counted r orig fd = true <->
      exists k, r.isAssignedByVelox fd = true ∧ fd ∈ orig k := by
  rw [counted, Bool.and_eq_true, inAny_iff, exists_and_left]

theorem below_eq_filter_range (p : Nat -> Bool) (s : Finset Nat) (n : Nat) :
    below p s n =
      (Finset.range n).filter fun fd => p fd = true ∧ fd ∈ s := by
  ext fd
  rw [mem_below, Finset.mem_filter, Finset.mem_range]
  tauto

section Counted

variable {r : FdRange} {args : SelectArgs}

theorem counted_saved (hnfds : args.nfds <= fdSetSize) :
    ((Finset.range args.nfds.toNat).filter fun fd =>
        counted r args.sets.saved fd = true) =
      (Finset.range args.nfds.toNat).filter fun fd =>
        exists k, r.isAssignedByVelox fd = true ∧
          fd ∈ args.sets.members k := by
  refine Finset.filter_congr ?_
  intro fd hfd
  have hlt := Finset.mem_range.1 hfd
  rw [counted_iff]
  refine exists_congr fun k => and_congr_right fun _ => ?_
  exact mem_saved_iff hnfds (by lia)

/-- The last loop counts a descriptor once, and each set that has it counts
in the total. -/
theorem card_counted_eq_iff (hnfds : args.nfds <= fdSetSize) :
    ((Finset.range args.nfds.toNat).filter fun fd =>
        counted r args.sets.saved fd = true).card =
      ∑ k, (below r.isAssignedByVelox (args.sets.members k)
        args.nfds.toNat).card <-> VeloxOnce r args := by
  simp only [counted_saved hnfds, below_eq_filter_range]
  rw [card_filter_exists_eq_sum_iff]
  constructor
  case mp =>
    intro h fd hvelox hlt k k' hk hk'
    exact h fd (Finset.mem_range.2 (by lia)) k k' ⟨hvelox, hk⟩ ⟨hvelox, hk'⟩
  case mpr =>
    intro h fd hfd k k' hk hk'
    have hlt := Finset.mem_range.1 hfd
    exact h fd hk.left (by lia) k k' hk.right hk'.right

theorem card_counted_le (hnfds : args.nfds <= fdSetSize) :
    ((Finset.range args.nfds.toNat).filter fun fd =>
        counted r args.sets.saved fd = true).card <=
      ∑ k, (below r.isAssignedByVelox (args.sets.members k)
        args.nfds.toNat).card := by
  simp only [counted_saved hnfds, below_eq_filter_range]
  exact card_filter_exists_le_sum _ _

theorem sum_leftOver_eq_zero_iff :
    ∑ k, (leftOver args.sets k).card = 0 <->
      forall k fd, fd ∈ args.sets.members k -> fd < fdSetSize := by
  rw [Finset.sum_eq_zero_iff]
  constructor
  case mp =>
    intro h k fd hmem
    by_contra hlarge
    have hnone := Finset.card_eq_zero.1 (h k (Finset.mem_univ k))
    have hfd : fd ∈ leftOver args.sets k :=
      Finset.mem_filter.2 ⟨hmem, Nat.not_lt.1 hlarge⟩
    rw [hnone] at hfd
    cases hfd
  case mpr =>
    intro h k _
    rw [Finset.card_eq_zero]
    refine Finset.eq_empty_of_forall_notMem ?_
    intro fd hfd
    have hmem := Finset.mem_filter.1 hfd
    exact absurd (h k fd hmem.left) (Nat.not_lt.2 hmem.right)

variable {kernel : SelectCall} (hkernel : kernel.Succeeds)

include hkernel

theorem total_merged (hnfds : args.nfds <= fdSetSize) {s : Scan}
    (hscan : ScanAt r args.sets.saved args.nfds.toNat s)
    (h : HasVelox r args) :
    total (delegate r kernel args s).sets =
      ((∑ k, (leftOver args.sets k).card : Nat) : Int) +
      (((∑ k, (reported kernel (kernelCall s) k).card : Nat) : Int) +
      ((∑ k, (below r.isAssignedByVelox (args.sets.members k)
          args.nfds.toNat).card : Nat) : Int)) := by
  unfold total
  rw [← Int.natCast_add, ← Int.natCast_add, ← Finset.sum_add_distrib,
    ← Finset.sum_add_distrib]
  refine congrArg Nat.cast (Finset.sum_congr rfl fun k _ => ?_)
  rw [members_merged hkernel hnfds hscan h,
    Finset.card_union_of_disjoint (disjoint_leftOver hkernel hnfds hscan k),
    handedBack,
    Finset.card_union_of_disjoint (disjoint_handedBack hkernel hscan k)]

/-- The result is the number of members of the sets handed back exactly when
the call stays within the size of an `fd_set` and no descriptor of Velox is in
two of the sets. -/
theorem select_ret_eq_total_iff :
    (exists out, select r kernel args = some out ∧
        out.ret = total out.sets) <->
      InBounds r args ∧ VeloxOnce r args := by
  have hcase : forall s, args.nfds <= fdSetSize ->
      ScanAt r args.sets.saved args.nfds.toNat s ->
      ((delegate r kernel args s).ret =
          total (delegate r kernel args s).sets <->
        InBounds r args ∧ VeloxOnce r args) := by
    intro s hnfds hscan
    by_cases h : HasVelox r args
    case pos =>
      have hbounds : InBounds r args <->
          ∑ k, (leftOver args.sets k).card = 0 := by
        rw [sum_leftOver_eq_zero_iff]
        exact ⟨fun hin => hin.members h, fun hall => ⟨hnfds, fun _ => hall⟩⟩
      have hle := card_counted_le (r := r) hnfds
      rw [total_merged hkernel hnfds hscan h, ← card_counted_eq_iff hnfds,
        hbounds, delegate_merged hkernel hnfds hscan h]
      dsimp only
      lia
    case neg =>
      rw [delegate_delegated hnfds hscan h]
      refine iff_of_true (hkernel.count args)
        ⟨⟨hnfds, fun hv => absurd hv h⟩, ?_⟩
      intro fd hvelox hlt k _ hk
      exact absurd ⟨fd, k, hvelox, hlt, hk⟩ h
  constructor
  case mp =>
    rintro ⟨out, hselect, hret⟩
    rcases scanAt_of_select hselect with ⟨hnfds, s, hscan, rfl⟩
    exact (hcase s hnfds hscan).1 hret
  case mpr =>
    intro hright
    rcases scanAt_scan r args.sets.saved hright.left.nfds with ⟨s, hscan, hat⟩
    exact ⟨_, select_of_scan hscan, (hcase s hright.left.nfds hat).2 hright⟩

end Counted

def bothWays : SelectArgs where
  nfds := 6
  sets
    | .read => some {5}
    | .write => some {5}
    | .except => none
  timeout := none

theorem select_ret_of_mixedCall :
    (exists out, select twoGranted allReady mixedCall = some out ∧
        out.ret = 3) ∧
      InBounds twoGranted mixedCall ∧ VeloxOnce twoGranted mixedCall :=
  ⟨⟨_, rfl, by decide⟩,
    (select_ret_eq_total_iff allReady_succeeds).1 ⟨_, rfl, by decide⟩⟩

theorem select_ret_of_bothWays :
    allReady.Succeeds ∧
      exists out, select twoGranted allReady bothWays = some out ∧
        out.ret = 1 ∧ out.sets = bothWays.sets ∧ total out.sets = 2 :=
  ⟨allReady_succeeds, _, rfl, by decide, by decide, by decide⟩

end Select
end Velox
