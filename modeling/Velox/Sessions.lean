import Velox.Foundation.FirstBest
import Velox.Session

/-!
# The sessions of a protocol

`Sessions::find` looks for the receiver of a packet in the list of sessions
that a protocol keeps.  The list holds weak references, so a session of the
list may have been destroyed; it is never taken off the list.
-/

namespace Velox

open Foundation

namespace Sessions

/-- `in_addr_match`: the address zero matches any other, with a lower score. -/
def inAddrMatch (ours theirs : UInt32) : Int :=
  if ours = 0 then 0 else if ours = theirs then 1 else -1

/-- The score of a session, if it matches: `faddr` and `fport` are the source
of the packet, `laddr` and `lport` its destination. -/
def accum (curr : Session) (faddr : UInt32) (fport : UInt16) (laddr : UInt32)
    (lport : UInt16) : Option Int :=
  if curr.lport ≠ lport then none
  else if curr.fport ≠ 0 ∧ curr.fport ≠ fport then none
  else if inAddrMatch curr.faddr faddr = -1 then none
  else if inAddrMatch curr.laddr laddr = -1 then none
  else some (1 + (if curr.fport ≠ 0 then 1 else 0) +
    inAddrMatch curr.faddr faddr + inAddrMatch curr.laddr laddr)

variable {ρ : Type}

/-- `find`; `lock` gives the session of a reference that has not expired. -/
def find (lock : ρ -> Option Session) (c : List ρ) (faddr : UInt32)
    (fport : UInt16) (laddr : UInt32) (lport : UInt16) : Option ρ :=
  firstBest
    (fun it => (lock it).bind fun curr => accum curr faddr fport laddr lport)
    c (none, -1)

theorem find_live {lock : ρ -> Option Session} {c : List ρ} {faddr : UInt32}
    {fport : UInt16} {laddr : UInt32} {lport : UInt16} {r : ρ}
    (h : find lock c faddr fport laddr lport = some r) :
    r ∈ c ∧ exists curr, lock r = some curr := by
  rcases firstBest_scored h with hnone | ⟨hmem, n, hscore⟩
  · cases hnone
  · rcases Option.bind_eq_some_iff.1 hscore with ⟨curr, hlock, _⟩
    exact ⟨hmem, curr, hlock⟩

/-!
## The best match

A zero in a session is a wildcard, for the port of the local end apart.
-/

def Matches (curr : Session) (faddr : UInt32) (fport : UInt16)
    (laddr : UInt32) (lport : UInt16) : Prop :=
  curr.lport = lport ∧ (curr.fport = 0 ∨ curr.fport = fport) ∧
    (curr.faddr = 0 ∨ curr.faddr = faddr) ∧
    (curr.laddr = 0 ∨ curr.laddr = laddr)

/-- The number of fields that the session has in common with the packet,
wildcards not counted. -/
def exactFields (curr : Session) (faddr : UInt32) (fport : UInt16)
    (laddr : UInt32) (lport : UInt16) : Nat :=
  (if curr.lport = lport then 1 else 0) +
    (if curr.fport ≠ 0 ∧ curr.fport = fport then 1 else 0) +
    (if curr.faddr ≠ 0 ∧ curr.faddr = faddr then 1 else 0) +
    (if curr.laddr ≠ 0 ∧ curr.laddr = laddr then 1 else 0)

theorem inAddrMatch_ne_iff {ours theirs : UInt32} :
    inAddrMatch ours theirs ≠ -1 <-> ours = 0 ∨ ours = theirs := by
  unfold inAddrMatch
  by_cases hzero : ours = 0
  · simp [hzero]
  · by_cases hsame : ours = theirs
    · subst hsame
      simp [hzero]
    · simp [hzero, hsame]

theorem inAddrMatch_eq {ours theirs : UInt32}
    (h : ours = 0 ∨ ours = theirs) :
    inAddrMatch ours theirs =
      ((if ours ≠ 0 ∧ ours = theirs then 1 else 0 : Nat) : Int) := by
  unfold inAddrMatch
  by_cases hzero : ours = 0
  · simp [hzero]
  · simp [h.resolve_left hzero]

theorem accum_of_matches {curr : Session} {faddr : UInt32} {fport : UInt16}
    {laddr : UInt32} {lport : UInt16}
    (h : Matches curr faddr fport laddr lport) :
    accum curr faddr fport laddr lport =
      some (exactFields curr faddr fport laddr lport : Int) := by
  rcases h with ⟨hlport, hfport, hfaddr, hladdr⟩
  have hfport' : ¬ (curr.fport ≠ 0 ∧ curr.fport ≠ fport) := by
    rintro ⟨hzero, hother⟩
    exact hother (hfport.resolve_left hzero)
  have hport : (if curr.fport ≠ 0 then 1 else 0 : Int) =
      ((if curr.fport ≠ 0 ∧ curr.fport = fport then 1 else 0 : Nat) : Int) := by
    by_cases hzero : curr.fport = 0
    · simp [hzero]
    · simp [hfport.resolve_left hzero]
  unfold accum exactFields
  rw [if_neg (fun hne => hne hlport), if_neg hfport',
    if_neg (inAddrMatch_ne_iff.2 hfaddr), if_neg (inAddrMatch_ne_iff.2 hladdr),
    if_pos hlport, hport, inAddrMatch_eq hfaddr, inAddrMatch_eq hladdr]
  push_cast
  rfl

theorem accum_of_not_matches {curr : Session} {faddr : UInt32}
    {fport : UInt16} {laddr : UInt32} {lport : UInt16}
    (h : ¬ Matches curr faddr fport laddr lport) :
    accum curr faddr fport laddr lport = none := by
  unfold accum
  by_cases hlport : curr.lport = lport
  · rw [if_neg (fun hne => hne hlport)]
    by_cases hfport : curr.fport ≠ 0 ∧ curr.fport ≠ fport
    · rw [if_pos hfport]
    · rw [if_neg hfport]
      by_cases hfaddr : inAddrMatch curr.faddr faddr = -1
      · rw [if_pos hfaddr]
      · rw [if_neg hfaddr]
        by_cases hladdr : inAddrMatch curr.laddr laddr = -1
        · rw [if_pos hladdr]
        · refine absurd ⟨hlport, ?_, inAddrMatch_ne_iff.1 hfaddr,
            inAddrMatch_ne_iff.1 hladdr⟩ h
          by_contra hport
          exact hfport (not_or.1 hport)
  · rw [if_pos hlport]

theorem accum_eq_some_iff {curr : Session} {faddr : UInt32} {fport : UInt16}
    {laddr : UInt32} {lport : UInt16} {m : Int} :
    accum curr faddr fport laddr lport = some m <->
      Matches curr faddr fport laddr lport ∧
        m = exactFields curr faddr fport laddr lport := by
  by_cases hmatch : Matches curr faddr fport laddr lport
  · rw [accum_of_matches hmatch, and_iff_right hmatch]
    exact Option.some_inj.trans eq_comm
  · rw [accum_of_not_matches hmatch]
    exact ⟨nofun, fun h => absurd h.left hmatch⟩

section BestMatch

variable (lock : ρ -> Option Session) (faddr : UInt32) (fport : UInt16)
  (laddr : UInt32) (lport : UInt16)

def LiveMatch (it : ρ) (n : Nat) : Prop :=
  exists curr, lock it = some curr ∧ Matches curr faddr fport laddr lport ∧
    n = exactFields curr faddr fport laddr lport

/-- The earliest reference of the list among those whose session is live,
matches, and has as many exact fields as any. -/
def BestMatch (c : List ρ) (r : ρ) : Prop :=
  exists before after n, c = before ++ r :: after ∧
    LiveMatch lock faddr fport laddr lport r n ∧
    (forall it m, it ∈ before -> LiveMatch lock faddr fport laddr lport it m ->
      m < n) ∧
    (forall it m, it ∈ after -> LiveMatch lock faddr fport laddr lport it m ->
      m <= n)

variable {lock faddr fport laddr lport}

theorem score_eq_some_iff {it : ρ} {m : Int} :
    ((lock it).bind fun curr => accum curr faddr fport laddr lport) = some m <->
      exists n : Nat, m = n ∧ LiveMatch lock faddr fport laddr lport it n := by
  rw [Option.bind_eq_some_iff]
  constructor
  · rintro ⟨curr, hlock, hscore⟩
    rcases accum_eq_some_iff.1 hscore with ⟨hmatch, hm⟩
    exact ⟨_, hm, curr, hlock, hmatch, rfl⟩
  · rintro ⟨n, hm, curr, hlock, hmatch, hn⟩
    exact ⟨curr, hlock, accum_eq_some_iff.2 ⟨hmatch, by rw [hm, hn]⟩⟩

theorem score_of_liveMatch {it : ρ} {n : Nat}
    (h : LiveMatch lock faddr fport laddr lport it n) :
    ((lock it).bind fun curr => accum curr faddr fport laddr lport) =
      some (n : Int) :=
  score_eq_some_iff.2 ⟨n, rfl, h⟩

end BestMatch

/-- `find` returns null exactly if no live session matches, and otherwise the
best match; references that are expired or do not match can be put into the
list or taken from it anywhere. -/
theorem find_bestMatch (lock : ρ -> Option Session) (c : List ρ)
    (faddr : UInt32) (fport : UInt16) (laddr : UInt32) (lport : UInt16) :
    (find lock c faddr fport laddr lport = none <->
      forall it, it ∈ c -> forall n,
        ¬ LiveMatch lock faddr fport laddr lport it n) ∧
    (forall r, find lock c faddr fport laddr lport = some r ->
      BestMatch lock faddr fport laddr lport c r) ∧
    (forall before it after, c = before ++ it :: after ->
      (forall n, ¬ LiveMatch lock faddr fport laddr lport it n) ->
      find lock c faddr fport laddr lport =
        find lock (before ++ after) faddr fport laddr lport) := by
  have hcase := firstBest_cases (fun it => (lock it).bind fun curr =>
    accum curr faddr fport laddr lport) c (none, -1)
  refine ⟨?_, ?_, ?_⟩
  · unfold find
    generalize firstBest _ c (none, -1) = result at hcase ⊢
    cases hcase with
    | kept hall =>
        refine ⟨fun _ it hit n hmatch => ?_, fun _ => rfl⟩
        have hle := hall it hit n (score_of_liveMatch hmatch)
        exact absurd hle (by lia)
    | found before after r n hl hscore _ _ _ =>
        refine ⟨nofun, fun hnone => ?_⟩
        rcases score_eq_some_iff.1 hscore with ⟨k, _, hmatch⟩
        rw [hl] at hnone
        have hmem : r ∈ before ++ r :: after :=
          List.mem_append_right before List.mem_cons_self
        exact absurd hmatch (hnone r hmem k)
  · intro r hfind
    unfold find at hfind
    generalize firstBest _ c (none, -1) = result at hcase hfind
    cases hcase with
    | kept _ => cases hfind
    | found before after r' n hl hscore _ hbefore hafter =>
        cases hfind
        rcases score_eq_some_iff.1 hscore with ⟨k, rfl, hmatch⟩
        refine ⟨before, after, k, hl, hmatch, ?_, ?_⟩
        · intro it m hit hm
          exact Int.ofNat_lt.1 (hbefore it hit m (score_of_liveMatch hm))
        · intro it m hit hm
          exact Int.ofNat_le.1 (hafter it hit m (score_of_liveMatch hm))
  · rintro before it after rfl hnone
    apply firstBest_insert
    rw [Option.eq_none_iff_forall_ne_some]
    intro m hm
    rcases score_eq_some_iff.1 hm with ⟨n, _, hmatch⟩
    exact hnone n hmatch

/-!
## The session with the four-tuple of the packet
-/

/-- A field that is a wildcard or the packet's counts no more than the
packet's own, and less if it is not that. -/
theorem exactField_le {α : Type} [DecidableEq α] {zero ours theirs : α}
    (h : ours = zero ∨ ours = theirs) :
    (if ours ≠ zero ∧ ours = theirs then 1 else 0) <=
        (if theirs ≠ zero ∧ theirs = theirs then 1 else 0) ∧
      ((if ours ≠ zero ∧ ours = theirs then 1 else 0) =
        (if theirs ≠ zero ∧ theirs = theirs then 1 else 0) ->
          ours = theirs) := by
  by_cases hsame : ours = theirs
  · rw [hsame]
    exact ⟨Nat.le_refl _, fun _ => rfl⟩
  · have hzero := h.resolve_right hsame
    rw [if_neg (fun hexact => hsame hexact.right)]
    refine ⟨Nat.zero_le _, fun heq => ?_⟩
    by_contra _
    have htheirs : theirs ≠ zero := fun h0 => hsame (hzero.trans h0.symm)
    rw [if_pos ⟨htheirs, rfl⟩] at heq
    cases heq

/-- A session that matches and is not the one with the four-tuple of the
packet has a wildcard where that one has not. -/
theorem exactFields_lt {s curr : Session} (hne : curr ≠ s)
    (h : Matches curr s.faddr s.fport s.laddr s.lport) :
    exactFields curr s.faddr s.fport s.laddr s.lport <
      exactFields s s.faddr s.fport s.laddr s.lport := by
  rcases h with ⟨hlport, hfport, hfaddr, hladdr⟩
  have hports := exactField_le hfport
  have hforeign := exactField_le hfaddr
  have hlocal := exactField_le hladdr
  by_contra hnot
  apply hne
  unfold exactFields at hnot
  rw [if_pos hlport, if_pos rfl] at hnot
  have hfport : curr.fport = s.fport := hports.right (by omega)
  have hfaddr : curr.faddr = s.faddr := hforeign.right (by omega)
  have hladdr : curr.laddr = s.laddr := hlocal.right (by omega)
  cases curr
  cases s
  dsimp only at hlport hfport hfaddr hladdr
  rw [hlport, hfport, hfaddr, hladdr]

/-- The only live session with the four-tuple of the packet is found, whatever
sessions with wildcards there are. -/
theorem find_eq {lock : ρ -> Option Session} {c : List ρ} {r : ρ}
    {s : Session} (hmem : r ∈ c) (hlock : lock r = some s)
    (honly : forall it, it ∈ c -> it ≠ r -> lock it ≠ some s) :
    find lock c s.faddr s.fport s.laddr s.lport = some r := by
  have hself : LiveMatch lock s.faddr s.fport s.laddr s.lport r
      (exactFields s s.faddr s.fport s.laddr s.lport) :=
    ⟨s, hlock, ⟨rfl, .inr rfl, .inr rfl, .inr rfl⟩, rfl⟩
  apply firstBest_eq hmem (score_of_liveMatch hself)
  · show (-1 : Int) < _
    lia
  · intro it hit hne m hm
    rcases score_eq_some_iff.1 hm with ⟨n, rfl, curr, hcurr, hmatch, rfl⟩
    refine Int.ofNat_lt.2 (exactFields_lt ?_ hmatch)
    intro heq
    exact honly it hit hne (heq ▸ hcurr)

end Sessions

end Velox
