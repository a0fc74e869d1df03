import Velox.Ip.Reassembly

/-!
# One group for each datagram

The list of groups over whole runs of `Reassembler::defrag`.  A call changes
one group, which it finds by the key of its frame or makes at the end of the
list; from this every invariant of the list follows.
-/

namespace Velox

namespace Reassembler

open FragGroup

/-!
## What a call changes
-/

/-- One call changes one group: a new one behind all others, or the first one
with the key of the frame. -/
inductive Change (skbuf : FrameBuf) :
    List FragGroup -> List FragGroup -> Option Skbuf -> Prop where
  | made (groups : List FragGroup) (kept : Option FragGroup)
      (result : Option Skbuf)
      (hnew : forall g, g ∈ groups -> g.key ≠ fragKey skbuf)
      (hadd : FragGroup.add { key := fragKey skbuf, first := [] } skbuf =
        some (kept, result)) :
      Change skbuf groups (groups ++ kept.toList) result
  | found (before : List FragGroup) (g : FragGroup) (after : List FragGroup)
      (kept : Option FragGroup) (result : Option Skbuf)
      (hbefore : forall g', g' ∈ before -> g'.key ≠ fragKey skbuf)
      (hkey : g.key = fragKey skbuf)
      (hadd : g.add skbuf = some (kept, result)) :
      Change skbuf (before ++ g :: after) (before ++ (kept.toList ++ after))
        result

theorem Change.cons {skbuf : FrameBuf} {groups groups' : List FragGroup}
    {result : Option Skbuf} (h : Change skbuf groups groups' result)
    {g : FragGroup} (hkey : g.key ≠ fragKey skbuf) :
    Change skbuf (g :: groups) (g :: groups') result := by
  have hcons : forall {before : List FragGroup},
      (forall g', g' ∈ before -> g'.key ≠ fragKey skbuf) ->
      forall g', g' ∈ g :: before -> g'.key ≠ fragKey skbuf := by
    intro before hbefore g' hmem
    rcases List.mem_cons.1 hmem with rfl | hrest
    · exact hkey
    · exact hbefore g' hrest
  cases h with
  | made _ kept _ hnew hadd =>
      exact .made (g :: groups) kept result (hcons hnew) hadd
  | found before g' after kept _ hbefore hkey' hadd =>
      exact .found (g :: before) g' after kept result (hcons hbefore) hkey'
        hadd

theorem defrag_change {skbuf : FrameBuf} {groups groups' : List FragGroup}
    {result : Option Skbuf}
    (h : defrag skbuf groups = some (groups', result)) :
    Change skbuf groups groups' result := by
  induction groups generalizing groups' with
  | nil =>
      rw [defrag] at h
      rcases Option.map_eq_some_iff.1 h with ⟨⟨kept, out⟩, hadd, heq⟩
      cases heq
      exact .made [] kept out (fun g hg => absurd hg List.not_mem_nil) hadd
  | cons g rest ih =>
      rw [defrag] at h
      by_cases hkey : g.key = fragKey skbuf
      · rw [if_pos hkey] at h
        rcases Option.map_eq_some_iff.1 h with ⟨⟨kept, out⟩, hadd, heq⟩
        cases heq
        exact .found [] g rest kept out
          (fun g hg => absurd hg List.not_mem_nil) hkey hadd
      · rw [if_neg hkey] at h
        rcases Option.map_eq_some_iff.1 h with ⟨⟨later, out⟩, hrest, heq⟩
        cases heq
        exact (ih hrest).cons hkey

theorem framesOf_split {k : FragKey} {before : List FragGroup} {g : FragGroup}
    (hbefore : forall g', g' ∈ before -> g'.key ≠ k) (hkey : g.key = k)
    (after : List FragGroup) : framesOf k (before ++ g :: after) = g.first := by
  induction before with
  | nil => exact framesOf_self hkey after
  | cons g' rest ih =>
      rw [List.cons_append, framesOf_skip (hbefore g' List.mem_cons_self)]
      exact ih fun h hh => hbefore h (List.mem_cons_of_mem g' hh)

/-- What holds of the frames of every group still does after a call if it
holds of the frames with the new one among them. -/
theorem Change.forall_first {P : List FrameBuf -> Prop} {skbuf : FrameBuf}
    {groups groups' : List FragGroup} {result : Option Skbuf}
    (h : Change skbuf groups groups' result)
    (hgroups : forall g, g ∈ groups -> P g.first)
    (hlink : forall frames,
      link skbuf (framesOf (fragKey skbuf) groups) = some frames -> P frames) :
    forall g, g ∈ groups' -> P g.first := by
  cases h with
  | made _ kept _ hnew hadd =>
      intro g hg
      rcases List.mem_append.1 hg with hold | hkept
      · exact hgroups g hold
      · rw [framesOf_eq_nil hnew] at hlink
        cases hadd ▸ add_cases { key := fragKey skbuf, first := [] } skbuf with
        | packet first rest hplace hcomplete => cases hkept
        | kept frames hplace hcomplete =>
            cases List.mem_singleton.1 hkept
            exact hlink frames hplace
  | found before g' after kept _ hbefore hkey hadd =>
      intro g hg
      rw [framesOf_split hbefore hkey] at hlink
      rcases List.mem_append.1 hg with hold | hg
      · exact hgroups g (List.mem_append_left _ hold)
      · rcases List.mem_append.1 hg with hkept | hold
        · cases hadd ▸ add_cases g' skbuf with
          | packet first rest hplace hcomplete => cases hkept
          | kept frames hplace hcomplete =>
              cases List.mem_singleton.1 hkept
              exact hlink frames hplace
        · exact hgroups g (List.mem_append_right _
            (List.mem_cons_of_mem g' hold))

/-!
## Isolation
-/

/-- The lists of groups that runs lead to: one group for each key, none of
them empty, each with fragments of its own key only. -/
structure Isolated (groups : List FragGroup) : Prop where
  keys_nodup : (groups.map FragGroup.key).Nodup
  own_key : forall g, g ∈ groups -> forall f, f ∈ g.first -> fragKey f = g.key
  nonempty : forall g, g ∈ groups -> g.first ≠ []

theorem isolated_nil : Isolated [] where
  keys_nodup := List.nodup_nil
  own_key := fun _ hg => absurd hg List.not_mem_nil
  nonempty := fun _ hg => absurd hg List.not_mem_nil

theorem Isolated.sublist {groups groups' : List FragGroup}
    (h : Isolated groups) (hsub : groups'.Sublist groups) :
    Isolated groups' where
  keys_nodup := h.keys_nodup.sublist (hsub.map FragGroup.key)
  own_key := fun g hg => h.own_key g (hsub.subset hg)
  nonempty := fun g hg => h.nonempty g (hsub.subset hg)

theorem Isolated.insert {before after : List FragGroup} {g : FragGroup}
    (h : Isolated (before ++ after))
    (hnew : g.key ∉ (before ++ after).map FragGroup.key)
    (hown : forall f, f ∈ g.first -> fragKey f = g.key)
    (hfull : g.first ≠ []) : Isolated (before ++ g :: after) := by
  have hperm : (before ++ g :: after).Perm (g :: (before ++ after)) :=
    List.perm_middle
  refine ⟨?_, ?_, ?_⟩
  · rw [(hperm.map FragGroup.key).nodup_iff, List.map_cons, List.nodup_cons]
    exact ⟨hnew, h.keys_nodup⟩
  · intro g' hg'
    rcases List.mem_cons.1 (hperm.mem_iff.1 hg') with rfl | hrest
    · exact hown
    · exact h.own_key g' hrest
  · intro g' hg'
    rcases List.mem_cons.1 (hperm.mem_iff.1 hg') with rfl | hrest
    · exact hfull
    · exact h.nonempty g' hrest

theorem Isolated.key_notMem {before after : List FragGroup} {g : FragGroup}
    (h : Isolated (before ++ g :: after)) :
    g.key ∉ (before ++ after).map FragGroup.key := by
  have hnodup := h.keys_nodup
  rw [(List.perm_middle.map FragGroup.key).nodup_iff, List.map_cons,
    List.nodup_cons] at hnodup
  exact hnodup.1

theorem link_own_key {skbuf : FrameBuf} {frames frames' : List FrameBuf}
    (hlink : link skbuf frames = some frames')
    (hown : forall f, f ∈ frames -> fragKey f = fragKey skbuf) :
    (forall f, f ∈ frames' -> fragKey f = fragKey skbuf) ∧ frames' ≠ [] := by
  have hperm := link_perm hlink
  constructor
  · intro f hf
    rcases List.mem_cons.1 (hperm.mem_iff.1 hf) with rfl | hold
    · rfl
    · exact hown f hold
  · intro hnil
    rw [hnil] at hperm
    cases hperm.length_eq

theorem Isolated.change {skbuf : FrameBuf} {groups groups' : List FragGroup}
    {result : Option Skbuf} (h : Isolated groups)
    (hchange : Change skbuf groups groups' result) : Isolated groups' := by
  cases hchange with
  | made _ kept _ hnew hadd =>
      cases hadd ▸ add_cases { key := fragKey skbuf, first := [] } skbuf with
      | packet first rest hlink hcomplete =>
          rw [Option.toList_none, List.append_nil]
          exact h
      | kept frames hlink hcomplete =>
          have hframes := link_own_key hlink
            fun f hf => absurd hf List.not_mem_nil
          have hrest : Isolated (groups ++ []) := by
            rw [List.append_nil]
            exact h
          refine hrest.insert ?_ hframes.1 hframes.2
          rw [List.append_nil]
          intro hmem
          rcases List.mem_map.1 hmem with ⟨g, hg, hkey⟩
          exact hnew g hg hkey
  | found before g after kept _ hbefore hkey hadd =>
      have hrest : Isolated (before ++ after) :=
        h.sublist ((List.sublist_cons_self g after).append_left before)
      have hown := h.own_key g (List.mem_append_right before
        List.mem_cons_self)
      cases hadd ▸ add_cases g skbuf with
      | packet first rest hlink hcomplete => exact hrest
      | kept frames hlink hcomplete =>
          rw [hkey] at hown
          have hframes := link_own_key hlink hown
          refine hrest.insert h.key_notMem ?_ hframes.2
          intro f hf
          exact (hframes.1 f hf).trans hkey.symm

/-- What a call may do: the groups of other keys stay as they are and in their
order, a packet takes exactly the group of its key away, and a call without a
packet takes none away. -/
structure OwnGroupOnly (skbuf : FrameBuf) (groups groups' : List FragGroup)
    (result : Option Skbuf) : Prop where
  others : groups'.filter (fun g => g.key ≠ fragKey skbuf) =
    groups.filter fun g => g.key ≠ fragKey skbuf
  packet : result.isSome = true ->
    groups' = groups.filter fun g => g.key ≠ fragKey skbuf
  null : result = none ->
    exists added, groups'.map FragGroup.key =
      groups.map FragGroup.key ++ added

theorem filter_key_ne {k : FragKey} {groups : List FragGroup}
    (h : forall g, g ∈ groups -> g.key ≠ k) :
    groups.filter (fun g => g.key ≠ k) = groups :=
  List.filter_eq_self.2 fun g hg => decide_eq_true (h g hg)

theorem Isolated.ownGroupOnly {skbuf : FrameBuf}
    {groups groups' : List FragGroup} {result : Option Skbuf}
    (h : Isolated groups) (hchange : Change skbuf groups groups' result) :
    OwnGroupOnly skbuf groups groups' result := by
  cases hchange with
  | made _ kept _ hnew hadd =>
      have hall := filter_key_ne hnew
      cases hadd ▸ add_cases { key := fragKey skbuf, first := [] } skbuf with
      | packet first rest hlink hcomplete =>
          rw [Option.toList_none, List.append_nil]
          exact ⟨rfl, fun _ => hall.symm, nofun⟩
      | kept frames hlink hcomplete =>
          refine ⟨?_, nofun, fun _ => ⟨_, List.map_append⟩⟩
          rw [List.filter_append, Option.toList_some,
            List.filter_cons_of_neg (by simp), List.filter_nil,
            List.append_nil]
  | found before g after kept _ hbefore hkey hadd =>
      have hrest : (before ++ after).filter
          (fun g => g.key ≠ fragKey skbuf) = before ++ after := by
        refine filter_key_ne fun g' hg' heq => h.key_notMem ?_
        rw [hkey, ← heq]
        exact List.mem_map_of_mem hg'
      -- a group of the frame's own key between the others does not count
      have hskip : forall frames, (before ++ { g with first := frames } ::
          after).filter (fun g => g.key ≠ fragKey skbuf) = before ++ after := by
        intro frames
        rw [List.filter_append, List.filter_cons_of_neg (by simp [hkey]),
          ← List.filter_append]
        exact hrest
      cases hadd ▸ add_cases g skbuf with
      | packet first rest hlink hcomplete =>
          refine ⟨?_, ?_, nofun⟩
          · exact hrest.trans (hskip g.first).symm
          · intro _
            exact (hskip g.first).symm
      | kept frames hlink hcomplete =>
          refine ⟨?_, nofun, ?_⟩
          · exact (hskip frames).trans (hskip g.first).symm
          · intro _
            refine ⟨[], ?_⟩
            rw [List.append_nil, Option.toList_some, List.singleton_append,
              List.map_append, List.map_append]
            rfl

/-!
## Runs
-/

theorem isolated_defragAll {groups groups' : List FragGroup}
    {frames : List FrameBuf} {results : List (Option Skbuf)}
    (h : Isolated groups)
    (hrun : defragAll groups frames = some (groups', results)) :
    Isolated groups' := by
  induction frames generalizing groups results with
  | nil =>
      cases hrun
      exact h
  | cons skbuf rest ih =>
      rcases defragAll_cons hrun with
        ⟨mid, result, later, rfl, hdefrag, hlater⟩
      exact ih (h.change (defrag_change hdefrag)) hlater

/-- After any sequence of calls the groups are isolated, and the next call
keeps to the group of its own key. -/
theorem groups_isolated_by_key {frames : List FrameBuf}
    {groups : List FragGroup} {results : List (Option Skbuf)}
    (hrun : defragAll [] frames = some (groups, results)) :
    Isolated groups ∧
      forall skbuf groups' result,
        defrag skbuf groups = some (groups', result) ->
          OwnGroupOnly skbuf groups groups' result := by
  have hisolated := isolated_defragAll isolated_nil hrun
  refine ⟨hisolated, ?_⟩
  intro skbuf groups' result hdefrag
  exact hisolated.ownGroupOnly (defrag_change hdefrag)

def hostFragment (id len1 len0 frag1 frag0 : UInt8) : FrameBuf :=
  TunIface.rx
    [0x45, 0, len1, len0, 0x12, id, frag1, frag0, 64, 17, 0, 0, 192, 168, 0,
      2, 192, 168, 0, 1, 1, 2, 3, 4, 5, 6, 7, 8]

def otherHalf : FrameBuf := hostFragment 0x35 0 28 0x20 0

def twoGroups : List FragGroup :=
  [{ key := datagramKey, first := [firstHalf.frame] },
    { key := fragKey otherHalf, first := [otherHalf] }]

theorem groups_isolated_two_datagrams :
    Isolated twoGroups ∧
      forall groups' result,
        defrag secondHalf.frame twoGroups = some (groups', result) ->
          OwnGroupOnly secondHalf.frame twoGroups groups' result := by
  have hrun : defragAll [] [firstHalf.frame, otherHalf] =
      some (twoGroups, [none, none]) := by decide
  exact ⟨(groups_isolated_by_key hrun).1,
    fun groups' result => (groups_isolated_by_key hrun).2 _ groups' result⟩

end Reassembler

end Velox
