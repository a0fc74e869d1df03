import Velox.Foundation.Insertion
import Velox.Ip.Isolation

/-!
# Insertion into a group

Where `Reassembler::defrag` links a frame.  The walk behind the first frame
compares stored offsets with `ours_off`, which is read without conversion to
host order: it may stop at once, and then the null pointer `prev` is used, or
at a place that is not that of the offset.
-/

namespace Velox

open Foundation

namespace FragGroup

/-!
## The place of a frame
-/

def ahead (skbuf : FrameBuf) : List FrameBuf -> List FrameBuf
  | [] => []
  | first :: rest =>
      if fragOffset skbuf < fragOffset first then []
      else first :: rest.takeWhile fun f => fragOffset f < oursOff skbuf

def behind (skbuf : FrameBuf) : List FrameBuf -> List FrameBuf
  | [] => []
  | first :: rest =>
      if fragOffset skbuf < fragOffset first then first :: rest
      else rest.dropWhile fun f => fragOffset f < oursOff skbuf

theorem ahead_append_behind (skbuf : FrameBuf) (frames : List FrameBuf) :
    ahead skbuf frames ++ behind skbuf frames = frames := by
  cases frames with
  | nil => rfl
  | cons first rest =>
      rw [ahead, behind]
      split
      · rfl
      · rw [List.cons_append, List.takeWhile_append_dropWhile]

theorem linkBehind_eq (skbuf : FrameBuf) (frames : List FrameBuf) :
    linkBehind skbuf frames =
      (frames.takeWhile fun f => fragOffset f < oursOff skbuf) ++
        skbuf :: frames.dropWhile fun f => fragOffset f < oursOff skbuf := by
  induction frames with
  | nil => rfl
  | cons curr rest ih =>
      rw [linkBehind]
      by_cases hlt : fragOffset curr < oursOff skbuf
      · rw [if_pos hlt, ih, List.takeWhile_cons_of_pos (by simpa using hlt),
          List.dropWhile_cons_of_pos (by simpa using hlt), List.cons_append]
      · rw [if_neg hlt, List.takeWhile_cons_of_neg (by simpa using hlt),
          List.dropWhile_cons_of_neg (by simpa using hlt), List.nil_append]

theorem link_eq {skbuf : FrameBuf} {frames frames' : List FrameBuf}
    (h : link skbuf frames = some frames') :
    frames' = ahead skbuf frames ++ skbuf :: behind skbuf frames := by
  cases frames with
  | nil =>
      cases h
      rfl
  | cons first rest =>
      rw [link] at h
      rw [ahead, behind]
      by_cases hfront : fragOffset skbuf < fragOffset first
      · rw [if_pos hfront] at h ⊢
        rw [if_pos hfront]
        cases h
        rfl
      · rw [if_neg hfront] at h ⊢
        rw [if_neg hfront]
        split at h
        · cases h
          rw [linkBehind_eq, List.cons_append]
        · cases h

/-!
## No null pointer, no lost frame
-/

/-- The insertion finds a place, and the group then has the new frame and all
the frames it had. -/
def Inserts (skbuf : FrameBuf) (frames : List FrameBuf) : Prop :=
  exists frames', link skbuf frames = some frames' ∧
    frames'.Perm (frames ++ [skbuf])

/-- The insertion loses nothing, so that it does what it should exactly if the
walk gets past the first frame or need not start. -/
theorem inserts_iff_linkSafe (skbuf : FrameBuf) (frames : List FrameBuf) :
    Inserts skbuf frames <-> LinkSafe skbuf frames := by
  rw [← link_isSome_iff, Option.isSome_iff_exists]
  constructor
  · rintro ⟨frames', hlink, _⟩
    exact ⟨frames', hlink⟩
  · rintro ⟨frames', hlink⟩
    exact ⟨frames', hlink, (link_perm hlink).trans
      (List.perm_append_singleton skbuf frames).symm⟩

/-!
## Order
-/

def SortedByOffset (frames : List FrameBuf) : Prop :=
  frames.Pairwise fun f g => fragOffset f <= fragOffset g

instance (frames : List FrameBuf) : Decidable (SortedByOffset frames) :=
  inferInstanceAs (Decidable (frames.Pairwise _))

/-- If the frame goes behind the first one, no other offset of the group lies
between its own and `ours_off`. -/
def InOrder (skbuf : FrameBuf) : List FrameBuf -> Prop
  | [] => True
  | first :: rest =>
      fragOffset first <= fragOffset skbuf ->
        fragOffset first < oursOff skbuf ->
        forall f, f ∈ rest -> fragOffset f ≠ fragOffset skbuf ->
          (fragOffset f < oursOff skbuf <-> fragOffset f < fragOffset skbuf)

theorem sortedByOffset_front {skbuf first : FrameBuf} {rest : List FrameBuf}
    (h : SortedByOffset (first :: rest))
    (hlt : fragOffset skbuf < fragOffset first) :
    SortedByOffset (skbuf :: first :: rest) := by
  refine List.pairwise_cons.2 ⟨?_, h⟩
  intro f hf
  rcases List.mem_cons.1 hf with rfl | hrest
  · exact Nat.le_of_lt hlt
  · exact Nat.le_trans (Nat.le_of_lt hlt) ((List.pairwise_cons.1 h).1 f hrest)

theorem sortedByOffset_behind_iff {skbuf first : FrameBuf}
    {rest : List FrameBuf} (h : SortedByOffset (first :: rest))
    (hle : fragOffset first <= fragOffset skbuf) :
    SortedByOffset (first :: linkBehind skbuf rest) <->
      forall f, f ∈ rest -> fragOffset f ≠ fragOffset skbuf ->
        (fragOffset f < oursOff skbuf <-> fragOffset f < fragOffset skbuf) := by
  have hrest := List.pairwise_cons.1 h
  have hfirst : forall f, f ∈ linkBehind skbuf rest ->
      fragOffset first <= fragOffset f := by
    intro f hf
    rcases List.mem_cons.1 ((linkBehind_perm skbuf rest).mem_iff.1 hf) with
      rfl | hold
    · exact hle
    · exact hrest.1 f hold
  rw [SortedByOffset, List.pairwise_cons, and_iff_right hfirst, linkBehind_eq]
  exact pairwise_insert_bound_iff hrest.2

/-- An insertion keeps the order of a group exactly if the frame is in order
with the group. -/
theorem sortedByOffset_link_iff {skbuf : FrameBuf}
    {frames frames' : List FrameBuf} (h : SortedByOffset frames)
    (hlink : link skbuf frames = some frames') :
    SortedByOffset frames' <-> InOrder skbuf frames := by
  cases frames with
  | nil =>
      cases hlink
      exact ⟨fun _ => trivial, fun _ => List.pairwise_singleton _ _⟩
  | cons first rest =>
      rw [link] at hlink
      rw [InOrder]
      by_cases hfront : fragOffset skbuf < fragOffset first
      · rw [if_pos hfront] at hlink
        cases hlink
        constructor
        · intro _ hle
          exact absurd hfront (Nat.not_lt.2 hle)
        · intro _
          exact sortedByOffset_front h hfront
      · rw [if_neg hfront] at hlink
        have hle := Nat.le_of_not_lt hfront
        by_cases hbehind : fragOffset first < oursOff skbuf
        · rw [if_pos hbehind] at hlink
          cases hlink
          rw [sortedByOffset_behind_iff h hle]
          exact ⟨fun hsep _ _ => hsep, fun hsep => hsep hle hbehind⟩
        · rw [if_neg hbehind] at hlink
          cases hlink

/-- A frame for which the insertion uses the null pointer is not linked out of
order. -/
theorem inOrder_of_link_eq_none {skbuf : FrameBuf} {frames : List FrameBuf}
    (hlink : link skbuf frames = none) : InOrder skbuf frames := by
  cases frames with
  | nil => trivial
  | cons first rest =>
      intro hle hlt
      rw [link, if_neg (Nat.not_lt.2 hle), if_pos hlt] at hlink
      cases hlink

end FragGroup

/-!
## Runs
-/

namespace Reassembler

open FragGroup

def advance (groups : List FragGroup) (skbuf : FrameBuf) :
    Option (List FragGroup) :=
  (defrag skbuf groups).map Prod.fst

def SortedAfter (groups : List FragGroup) (skbuf : FrameBuf) : Prop :=
  forall frames, link skbuf (framesOf (fragKey skbuf) groups) = some frames ->
    SortedByOffset frames ∧
      forall g, g ∈ groups -> g.key ≠ fragKey skbuf -> SortedByOffset g.first

def LinkedInOrder (groups : List FragGroup) (skbuf : FrameBuf) : Prop :=
  InOrder skbuf (framesOf (fragKey skbuf) groups)

theorem framesOf_of_all {P : List FrameBuf -> Prop} {groups : List FragGroup}
    (hnil : P []) (h : forall g, g ∈ groups -> P g.first) (k : FragKey) :
    P (framesOf k groups) := by
  induction groups with
  | nil => exact hnil
  | cons g rest ih =>
      rw [framesOf]
      split
      · exact h g List.mem_cons_self
      · exact ih fun g' hg' => h g' (List.mem_cons_of_mem g hg')

def GroupsSorted (groups : List FragGroup) : Prop :=
  forall g, g ∈ groups -> SortedByOffset g.first

theorem GroupsSorted.framesOf {groups : List FragGroup}
    (h : GroupsSorted groups) (k : FragKey) :
    SortedByOffset (framesOf k groups) :=
  framesOf_of_all List.Pairwise.nil h k

theorem sortedAfter_iff {groups : List FragGroup} (h : GroupsSorted groups)
    (skbuf : FrameBuf) :
    SortedAfter groups skbuf <-> LinkedInOrder groups skbuf := by
  rw [LinkedInOrder]
  cases hlink : link skbuf (framesOf (fragKey skbuf) groups) with
  | none =>
      constructor
      · intro _
        exact inOrder_of_link_eq_none hlink
      · intro _ frames hsome
        rw [hlink] at hsome
        cases hsome
  | some frames =>
      rw [← sortedByOffset_link_iff (h.framesOf _) hlink]
      constructor
      · intro hafter
        exact (hafter frames hlink).1
      · intro hsorted frames' hsome
        rw [hlink] at hsome
        cases hsome
        exact ⟨hsorted, fun g hg _ => h g hg⟩

theorem groupsSorted_advance {groups groups' : List FragGroup}
    {skbuf : FrameBuf} (h : GroupsSorted groups)
    (horder : LinkedInOrder groups skbuf)
    (hstep : advance groups skbuf = some groups') : GroupsSorted groups' := by
  rcases Option.map_eq_some_iff.1 hstep with ⟨⟨mid, result⟩, hdefrag, rfl⟩
  refine (defrag_change hdefrag).forall_first h ?_
  intro frames hlink
  exact (sortedByOffset_link_iff (h.framesOf _) hlink).2 horder

/-- The groups stay in order exactly if every frame is in order with the group
it goes to. -/
theorem sortedAfter_run_iff (frames : List FrameBuf) :
    StepsMeet advance SortedAfter [] frames <->
      StepsMeet advance LinkedInOrder [] frames :=
  stepsMeet_congr (fun _ _ _ => groupsSorted_advance)
    (fun _ skbuf h => sortedAfter_iff h skbuf)
    (fun _ hg => absurd hg List.not_mem_nil)

def atOffset (off : UInt8) : FrameBuf := hostFragment 0x34 0 28 0x20 off

def waitingFor (frames : List FrameBuf) : List FragGroup :=
  [{ key := datagramKey, first := frames }]

/-- The fragments with the offsets 0, 3 and 2 are linked in the order of their
arrival. -/
theorem third_fragment_out_of_order :
    advance (waitingFor [atOffset 0, atOffset 3]) (atOffset 2) =
      some (waitingFor [atOffset 0, atOffset 3, atOffset 2]) ∧
      ¬ StepsMeet advance SortedAfter []
        [atOffset 0, atOffset 3, atOffset 2] := by
  have hfirst : advance [] (atOffset 0) = some (waitingFor [atOffset 0]) := by
    decide
  have hsecond : advance (waitingFor [atOffset 0]) (atOffset 3) =
      some (waitingFor [atOffset 0, atOffset 3]) := by decide
  refine ⟨by decide, ?_⟩
  rw [StepsMeet, hfirst]
  rintro ⟨_, h⟩
  change StepsMeet advance SortedAfter (waitingFor [atOffset 0]) _ at h
  rw [StepsMeet, hsecond] at h
  have hthird := (h.2.1 [atOffset 0, atOffset 3, atOffset 2] (by decide)).1
  exact absurd hthird (by decide)

/-- A last fragment at the offset 256: its field without conversion has no
offset bits, so that the walk stops at the first fragment. -/
theorem last_fragment_uses_null_prev :
    defragAll [] [atOffset 0] = some (waitingFor [atOffset 0], [none]) ∧
      fragOffset (hostFragment 0x34 0 28 0 32) = 32 ∧
      oursOff (hostFragment 0x34 0 28 0 32) = 0 ∧
      ¬ Inserts (hostFragment 0x34 0 28 0 32) [atOffset 0] := by
  refine ⟨by decide, by decide, by decide, ?_⟩
  rintro ⟨frames, hlink, _⟩
  have hnone : link (hostFragment 0x34 0 28 0 32) [atOffset 0] = none := by
    decide
  rw [hnone] at hlink
  cases hlink

end Reassembler

end Velox
