import Velox.Ip.Reassembler

/-!
# Groups of fragments

What one call of `defrag` does to the groups: the frame is linked into the
group of its own key, if the insertion does not dereference a null pointer,
and the groups of other datagrams stay as they are.
-/

namespace Velox

/-!
## Linking a frame into its group
-/

namespace FragGroup

/-- The walk gets past the first frame of the group, or need not start. -/
def LinkSafe (skbuf : FrameBuf) : List FrameBuf -> Prop
  | [] => True
  | first :: _ =>
      fragOffset skbuf < fragOffset first ∨ fragOffset first < oursOff skbuf

theorem link_isSome_iff (skbuf : FrameBuf) (frames : List FrameBuf) :
    (link skbuf frames).isSome = true <-> LinkSafe skbuf frames := by
  cases frames with
  | nil =>
      constructor
      · intro _
        trivial
      · intro _
        rfl
  | cons first rest =>
      rw [link, LinkSafe]
      by_cases hfront : fragOffset skbuf < fragOffset first
      · rw [if_pos hfront]
        exact ⟨fun _ => Or.inl hfront, fun _ => rfl⟩
      · by_cases hbehind : fragOffset first < oursOff skbuf
        · rw [if_neg hfront, if_pos hbehind]
          exact ⟨fun _ => Or.inr hbehind, fun _ => rfl⟩
        · rw [if_neg hfront, if_neg hbehind]
          constructor
          · intro h
            cases h
          · intro h
            rcases h with h | h
            · exact absurd h hfront
            · exact absurd h hbehind

theorem linkBehind_perm (skbuf : FrameBuf) (frames : List FrameBuf) :
    (linkBehind skbuf frames).Perm (skbuf :: frames) := by
  induction frames with
  | nil => exact List.Perm.refl _
  | cons curr rest ih =>
      rw [linkBehind]
      by_cases hlt : fragOffset curr < oursOff skbuf
      · rw [if_pos hlt]
        exact (ih.cons curr).trans (List.Perm.swap skbuf curr rest)
      · rw [if_neg hlt]

theorem link_perm {skbuf : FrameBuf} {frames frames' : List FrameBuf}
    (h : link skbuf frames = some frames') :
    frames'.Perm (skbuf :: frames) := by
  cases frames with
  | nil =>
      cases h
      exact List.Perm.refl _
  | cons first rest =>
      rw [link] at h
      by_cases hfront : fragOffset skbuf < fragOffset first
      · rw [if_pos hfront] at h
        cases h
        exact List.Perm.refl _
      · by_cases hbehind : fragOffset first < oursOff skbuf
        · rw [if_neg hfront, if_pos hbehind] at h
          cases h
          exact ((linkBehind_perm skbuf rest).cons first).trans
            (List.Perm.swap skbuf first rest)
        · rw [if_neg hfront, if_neg hbehind] at h
          cases h

inductive AddCase (g : FragGroup) (skbuf : FrameBuf) :
    Option (Option FragGroup × Option Skbuf) -> Prop where
  | crash (hlink : link skbuf g.first = none) : AddCase g skbuf none
  | kept (frames : List FrameBuf) (hlink : link skbuf g.first = some frames)
      (hcomplete : complete frames = false) :
      AddCase g skbuf (some (some { g with first := frames }, none))
  | packet (first : FrameBuf) (rest : List FrameBuf)
      (hlink : link skbuf g.first = some (first :: rest))
      (hcomplete : complete (first :: rest) = true) :
      AddCase g skbuf (some (none, some (assemble first rest)))

theorem add_cases (g : FragGroup) (skbuf : FrameBuf) :
    AddCase g skbuf (g.add skbuf) := by
  unfold add
  cases hlink : link skbuf g.first with
  | none => exact .crash hlink
  | some frames =>
      cases frames with
      | nil =>
          have hlen := (link_perm hlink).length_eq
          cases hlen
      | cons first rest =>
          cases hcomplete : complete (first :: rest) with
          | true =>
              simp only [hcomplete, if_true]
              exact .packet first rest hlink hcomplete
          | false =>
              simp only [hcomplete, Bool.false_eq_true, if_false]
              exact .kept (first :: rest) hlink hcomplete

end FragGroup

/-!
## The groups of other datagrams
-/

namespace Reassembler

open FragGroup

def framesOf (k : FragKey) : List FragGroup -> List FrameBuf
  | [] => []
  | g :: rest => if g.key = k then g.first else framesOf k rest

theorem framesOf_eq_nil {k : FragKey} {groups : List FragGroup}
    (h : forall g, g ∈ groups -> g.key ≠ k) : framesOf k groups = [] := by
  induction groups with
  | nil => rfl
  | cons g rest ih =>
      rw [framesOf, if_neg (h g List.mem_cons_self)]
      exact ih fun g' hmem => h g' (List.mem_cons_of_mem g hmem)

/-- What one call does to the group of its frame and to the others. -/
inductive DefragCase (skbuf : FrameBuf) (groups : List FragGroup) :
    Option (List FragGroup × Option Skbuf) -> Prop where
  | crash (hlink : link skbuf (framesOf (fragKey skbuf) groups) = none) :
      DefragCase skbuf groups none
  | kept (groups' : List FragGroup)
      (hlink : link skbuf (framesOf (fragKey skbuf) groups) =
        some (framesOf (fragKey skbuf) groups'))
      (hcomplete : complete (framesOf (fragKey skbuf) groups') = false)
      (hother : forall k, k ≠ fragKey skbuf ->
        framesOf k groups' = framesOf k groups) :
      DefragCase skbuf groups (some (groups', none))
  | packet (groups' : List FragGroup) (first : FrameBuf)
      (rest : List FrameBuf)
      (hlink : link skbuf (framesOf (fragKey skbuf) groups) =
        some (first :: rest))
      (hcomplete : complete (first :: rest) = true)
      (hother : forall k, k ≠ fragKey skbuf ->
        framesOf k groups' = framesOf k groups) :
      DefragCase skbuf groups (some (groups', some (assemble first rest)))

theorem framesOf_self {k : FragKey} {g : FragGroup} (hkey : g.key = k)
    (rest : List FragGroup) : framesOf k (g :: rest) = g.first := by
  rw [framesOf, if_pos hkey]

theorem framesOf_skip {k : FragKey} {g : FragGroup} (hkey : g.key ≠ k)
    (rest : List FragGroup) :
    framesOf k (g :: rest) = framesOf k rest := by
  rw [framesOf, if_neg hkey]

theorem defrag_nil (skbuf : FrameBuf) :
    DefragCase skbuf [] (defrag skbuf []) := by
  rw [defrag]
  generalize hadd : FragGroup.add { key := fragKey skbuf, first := [] }
    skbuf = result
  cases hadd ▸ add_cases { key := fragKey skbuf, first := [] } skbuf with
  | crash hlink => exact .crash hlink
  | kept frames hlink hcomplete =>
      have hnew : framesOf (fragKey skbuf)
          [{ key := fragKey skbuf, first := frames }] = frames :=
        framesOf_self (g := { key := fragKey skbuf, first := frames }) rfl []
      refine .kept [{ key := fragKey skbuf, first := frames }] ?_ ?_ ?_
      · rw [hnew]
        exact hlink
      · rw [hnew]
        exact hcomplete
      · intro k hk
        exact framesOf_skip hk.symm []
  | packet first rest hlink hcomplete =>
      exact .packet [] first rest hlink hcomplete fun k hk => rfl

theorem defrag_here {skbuf : FrameBuf} {g : FragGroup}
    (hkey : g.key = fragKey skbuf) (groups : List FragGroup) :
    DefragCase skbuf (g :: groups) (defrag skbuf (g :: groups)) := by
  have hself := framesOf_self hkey groups
  have hskip : forall first k, k ≠ fragKey skbuf ->
      framesOf k ({ g with first := first } :: groups) =
        framesOf k groups := by
    intro first k hk
    exact framesOf_skip (g := { g with first := first })
      (fun h => hk (h.symm.trans hkey)) groups
  rw [defrag, if_pos hkey]
  generalize hadd : g.add skbuf = result
  cases hadd ▸ add_cases g skbuf with
  | crash hlink =>
      refine .crash ?_
      rw [hself]
      exact hlink
  | kept frames hlink hcomplete =>
      have hnew : framesOf (fragKey skbuf)
          ({ g with first := frames } :: groups) = frames :=
        framesOf_self (g := { g with first := frames }) hkey groups
      refine .kept ({ g with first := frames } :: groups) ?_ ?_ ?_
      · rw [hself, hnew]
        exact hlink
      · rw [hnew]
        exact hcomplete
      · intro k hk
        exact (hskip frames k hk).trans (hskip g.first k hk).symm
  | packet first rest hlink hcomplete =>
      refine .packet groups first rest ?_ hcomplete ?_
      · rw [hself]
        exact hlink
      · intro k hk
        exact (hskip g.first k hk).symm

theorem defrag_there {skbuf : FrameBuf} {g : FragGroup}
    (hkey : g.key ≠ fragKey skbuf) {groups : List FragGroup}
    (h : DefragCase skbuf groups (defrag skbuf groups)) :
    DefragCase skbuf (g :: groups) (defrag skbuf (g :: groups)) := by
  have hown := framesOf_skip hkey groups
  have hkeep : forall groups' k, framesOf k groups' = framesOf k groups ->
      framesOf k (g :: groups') = framesOf k (g :: groups) := by
    intro groups' k heq
    rw [framesOf, framesOf, heq]
  rw [defrag, if_neg hkey]
  generalize hrest : defrag skbuf groups = result
  rw [hrest] at h
  cases h with
  | crash hlink =>
      refine .crash ?_
      rw [hown]
      exact hlink
  | kept groups' hlink hcomplete hother =>
      refine .kept (g :: groups') ?_ ?_ ?_
      · rw [hown, framesOf_skip hkey]
        exact hlink
      · rw [framesOf_skip hkey]
        exact hcomplete
      · intro k hk
        exact hkeep groups' k (hother k hk)
  | packet groups' first rest hlink hcomplete hother =>
      refine .packet (g :: groups') first rest ?_ hcomplete ?_
      · rw [hown]
        exact hlink
      · intro k hk
        exact hkeep groups' k (hother k hk)

theorem defrag_cases (skbuf : FrameBuf) (groups : List FragGroup) :
    DefragCase skbuf groups (defrag skbuf groups) := by
  induction groups with
  | nil => exact defrag_nil skbuf
  | cons g rest ih =>
      by_cases hkey : g.key = fragKey skbuf
      · exact defrag_here hkey rest
      · exact defrag_there hkey ih

end Reassembler

end Velox
