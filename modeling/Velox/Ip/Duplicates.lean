import Velox.Foundation.FirstArrivals
import Velox.Ip.Chains
import Velox.Ip.Insertion

/-!
# Repeated fragments

A set of fragments that cut a payload arrives, each of them at least once.
The group that collects them is a run of insertions, and a packet comes out
when the list is complete.  A repeated fragment stays in the list: it breaks
the sequence of the offsets, or it brings bytes of its header along.
-/

namespace Velox

open Foundation

/-!
## Fragments as pieces
-/

def pieceOf (f : FrameBuf) : Piece where
  off := fragOffset f * 8
  len := (fragPayloadLen f).toNat

section Cut

variable {payload : Bytes} {k : FragKey}

theorem Fragment.payloadLen_eq (frag : Fragment payload k) :
    fragPayloadLen frag.frame = frag.piece.len := by
  rw [fragPayloadLen, frag.totLen_eq, frag.length_eq]
  lia

theorem Fragment.pieceOf_frame (frag : Fragment payload k) :
    pieceOf frag.frame = frag.piece := by
  rw [pieceOf, frag.payloadLen_eq, frag.off_eq]
  rfl

def Cutting.Has (c : Cutting payload k) (f : FrameBuf) : Prop :=
  exists frag, frag ∈ c.frags ∧ frag.frame = f

theorem Cutting.Has.payloadLen_nonneg {c : Cutting payload k} {f : FrameBuf}
    (h : c.Has f) : 0 <= fragPayloadLen f := by
  rcases h with ⟨frag, _, rfl⟩
  rw [frag.payloadLen_eq]
  exact Int.natCast_nonneg _

theorem Cutting.Has.key_eq {c : Cutting payload k} {f : FrameBuf}
    (h : c.Has f) : fragKey f = k := by
  rcases h with ⟨frag, _, rfl⟩
  exact frag.key_eq

variable (c : Cutting payload k)

theorem Cutting.end_le {frag : Fragment payload k} (h : frag ∈ c.frags) :
    frag.piece.off + frag.piece.len <= payload.length := by
  have hend := c.tiles.end_le (List.mem_map_of_mem h)
  rw [c.total, Nat.zero_add] at hend
  exact hend

theorem Cutting.getLast_of_last {frag : Fragment payload k}
    (h : frag ∈ c.frags) (hlast : moreFragments frag.frame = false) :
    exists before, c.frags = before ++ [frag] := by
  rcases List.eq_nil_or_concat c.frags with hnil | ⟨before, z, hsplit⟩
  · rw [hnil] at h
    exact absurd h List.not_mem_nil
  · rw [List.concat_eq_append] at hsplit
    have hmem := h
    rw [hsplit] at hmem
    rcases List.mem_append.1 hmem with hbefore | hz
    · have hmore := (c.nonLast frag (by
        rw [hsplit, List.dropLast_concat]
        exact hbefore)).2
      rw [hlast] at hmore
      cases hmore
    · cases List.mem_singleton.1 hz
      exact ⟨before, hsplit⟩

theorem Cutting.end_last {frag : Fragment payload k} (h : frag ∈ c.frags)
    (hlast : moreFragments frag.frame = false) :
    frag.piece.off + frag.piece.len = payload.length := by
  rcases c.getLast_of_last h hlast with ⟨before, hsplit⟩
  have htiles := c.tiles
  rw [hsplit, List.map_append] at htiles
  have hend := htiles.end_last
  have htotal := c.total
  rw [hsplit, List.map_append] at htotal
  rw [hend, Nat.zero_add]
  exact htotal

theorem Cutting.eq_of_last {frag frag' : Fragment payload k}
    (h : frag ∈ c.frags) (hlast : moreFragments frag.frame = false)
    (h' : frag' ∈ c.frags) (hlast' : moreFragments frag'.frame = false) :
    frag = frag' := by
  rcases c.getLast_of_last h hlast with ⟨before, hsplit⟩
  rcases c.getLast_of_last h' hlast' with ⟨before', hsplit'⟩
  rw [hsplit] at hsplit'
  exact (List.append_singleton_inj.1 hsplit').2

theorem Cutting.eq_of_covers {frag frag' : Fragment payload k}
    (h : frag ∈ c.frags) (h' : frag' ∈ c.frags) {x : Nat}
    (hx : frag.piece.Covers x) (hx' : frag'.piece.Covers x) :
    frag = frag' := by
  by_contra hne
  have hsymm : Std.Symm fun f g : Fragment payload k =>
      f.piece.Before g.piece ∨ g.piece.Before f.piece := ⟨fun _ _ => Or.symm⟩
  have hpair : c.frags.Pairwise fun f g =>
      f.piece.Before g.piece ∨ g.piece.Before f.piece :=
    (List.pairwise_map.1 c.tiles.pairwise_before).imp Or.inl
  rcases hpair.forall h h' hne with hbefore | hbefore
  · exact hbefore.not_covers hx hx'
  · exact hbefore.not_covers hx' hx

end Cut

namespace Reassembler

open FragGroup

/-!
## A group as a run of insertions
-/

def Returns (groups : List FragGroup) (before : List FrameBuf)
    (final : FrameBuf) (packet : Skbuf) : Prop :=
  exists mid results after,
    defragAll groups before = some (mid, results) ∧
      (forall r, r ∈ results -> r = none) ∧
      defrag final mid = some (after, some packet)

def insertStep (frames : List FrameBuf) (skbuf : FrameBuf) :
    Option (List FrameBuf) :=
  link skbuf frames

def waitStep (frames : List FrameBuf) (skbuf : FrameBuf) :
    Option (List FrameBuf) :=
  match link skbuf frames with
  | none => none
  | some frames' => if complete frames' then none else some frames'

theorem waitStep_eq_some {frames frames' : List FrameBuf} {skbuf : FrameBuf} :
    waitStep frames skbuf = some frames' <->
      link skbuf frames = some frames' ∧ complete frames' = false := by
  rw [waitStep]
  cases hlink : link skbuf frames with
  | none =>
      constructor
      · intro h
        cases h
      · intro h
        cases h.1
  | some linked =>
      show (if complete linked then none else some linked) = some frames' <-> _
      cases hcomplete : complete linked with
      | true =>
          rw [if_pos rfl]
          constructor
          · intro h
            cases h
          · rintro ⟨heq, hfalse⟩
            cases heq
            rw [hcomplete] at hfalse
            cases hfalse
      | false =>
          rw [if_neg (by decide)]
          constructor
          · intro h
            cases h
            exact ⟨rfl, hcomplete⟩
          · intro h
            exact h.1

section Group

variable {k : FragKey} {skbuf : FrameBuf} (hkey : fragKey skbuf = k)

include hkey

theorem waitStep_of_defrag {groups groups' : List FragGroup}
    (h : defrag skbuf groups = some (groups', none)) :
    waitStep (framesOf k groups) skbuf = some (framesOf k groups') := by
  have hcase := defrag_cases skbuf groups
  rw [h] at hcase
  cases hcase with
  | kept _ hlink hcomplete hother =>
      rw [hkey] at hlink hcomplete
      exact waitStep_eq_some.2 ⟨hlink, hcomplete⟩

theorem defrag_of_waitStep {groups : List FragGroup} {frames : List FrameBuf}
    (h : waitStep (framesOf k groups) skbuf = some frames) :
    exists groups', defrag skbuf groups = some (groups', none) ∧
      framesOf k groups' = frames := by
  rcases waitStep_eq_some.1 h with ⟨hplace, hwait⟩
  generalize hresult : defrag skbuf groups = outcome
  have hcase := defrag_cases skbuf groups
  rw [hresult] at hcase
  cases hcase with
  | crash hlink =>
      rw [hkey, hplace] at hlink
      cases hlink
  | kept groups' hlink hcomplete hother =>
      rw [hkey, hplace] at hlink
      exact ⟨groups', rfl, (Option.some.inj hlink).symm⟩
  | packet groups' first rest hlink hcomplete hother =>
      rw [hkey, hplace] at hlink
      cases hlink
      rw [hwait] at hcomplete
      cases hcomplete

theorem defrag_packet_iff {groups : List FragGroup} {packet : Skbuf} :
    (exists after, defrag skbuf groups = some (after, some packet)) <->
      exists first rest,
        link skbuf (framesOf k groups) = some (first :: rest) ∧
          complete (first :: rest) = true ∧ packet = assemble first rest := by
  generalize hresult : defrag skbuf groups = outcome
  have hcase := defrag_cases skbuf groups
  rw [hresult] at hcase
  constructor
  · rintro ⟨after, rfl⟩
    cases hcase with
    | packet _ first rest hlink hcomplete hother =>
        rw [hkey] at hlink
        exact ⟨first, rest, hlink, hcomplete, rfl⟩
  · rintro ⟨first, rest, hplace, hfull, rfl⟩
    cases hcase with
    | crash hlink =>
        rw [hkey, hplace] at hlink
        cases hlink
    | kept groups' hlink hcomplete hother =>
        rw [hkey] at hlink hcomplete
        rw [← Option.some.inj (hplace.symm.trans hlink), hfull] at hcomplete
        cases hcomplete
    | packet after first' rest' hlink hcomplete hother =>
        rw [hkey, hplace] at hlink
        cases hlink
        exact ⟨after, rfl⟩

end Group

theorem returns_nil_iff {groups : List FragGroup} {final : FrameBuf}
    {packet : Skbuf} :
    Returns groups [] final packet <->
      exists after, defrag final groups = some (after, some packet) := by
  constructor
  · rintro ⟨mid, results, after, hrun, _, hlast⟩
    cases hrun
    exact ⟨after, hlast⟩
  · rintro ⟨after, hlast⟩
    exact ⟨groups, [], after, rfl, fun _ hr => absurd hr List.not_mem_nil,
      hlast⟩

theorem returns_cons_iff {groups : List FragGroup} {f final : FrameBuf}
    {more : List FrameBuf} {packet : Skbuf} :
    Returns groups (f :: more) final packet <->
      exists groups', defrag f groups = some (groups', none) ∧
        Returns groups' more final packet := by
  constructor
  · rintro ⟨mid, results, after, hrun, hnull, hlast⟩
    rcases defragAll_cons hrun with
      ⟨groups', result, later, rfl, hdefrag, hlater⟩
    cases hnull result List.mem_cons_self
    exact ⟨groups', hdefrag, mid, later, after, hlater,
      fun r hr => hnull r (List.mem_cons_of_mem _ hr), hlast⟩
  · rintro ⟨groups', hdefrag, mid, later, after, hlater, hnull, hlast⟩
    refine ⟨mid, none :: later, after, defragAll_cons_eq hdefrag hlater,
      ?_, hlast⟩
    intro r hr
    rcases List.mem_cons.1 hr with rfl | hrest
    · rfl
    · exact hnull r hrest

theorem returns_iff {k : FragKey} {groups : List FragGroup}
    {before : List FrameBuf} {final : FrameBuf} {packet : Skbuf}
    (hkeys : forall f, f ∈ before ++ [final] -> fragKey f = k) :
    Returns groups before final packet <->
      exists held first rest,
        run waitStep (framesOf k groups) before = some held ∧
          link final held = some (first :: rest) ∧
          complete (first :: rest) = true ∧ packet = assemble first rest := by
  induction before generalizing groups with
  | nil =>
      rw [returns_nil_iff, defrag_packet_iff (hkeys final List.mem_cons_self)]
      constructor
      · rintro ⟨first, rest, h⟩
        exact ⟨_, first, rest, rfl, h⟩
      · rintro ⟨held, first, rest, hrun, h⟩
        cases hrun
        exact ⟨first, rest, h⟩
  | cons f more ih =>
      have hkey := hkeys f List.mem_cons_self
      have hmore : forall g, g ∈ more ++ [final] -> fragKey g = k :=
        fun g hg => hkeys g (List.mem_cons_of_mem f hg)
      rw [returns_cons_iff]
      constructor
      · rintro ⟨groups', hdefrag, hreturns⟩
        rcases (ih hmore).1 hreturns with ⟨held, first, rest, hwait, h⟩
        exact ⟨held, first, rest,
          (run_of_step (waitStep_of_defrag hkey hdefrag) more).trans hwait, h⟩
      · rintro ⟨held, first, rest, hrun, h⟩
        rcases run_cons hrun with ⟨frames, hstep, hwait⟩
        rcases defrag_of_waitStep hkey hstep with ⟨groups', hdefrag, rfl⟩
        exact ⟨groups', hdefrag, (ih hmore).2 ⟨held, first, rest, hwait, h⟩⟩

/-!
## Complete lists of fragments
-/

/-- One frame belongs before another one: it ends before the other starts, and
nothing but last fragments comes behind a last fragment. -/
def Precedes (f g : FrameBuf) : Prop :=
  (pieceOf f).Before (pieceOf g) ∧
    (moreFragments f = false -> moreFragments g = false)

theorem contiguous_iff_tiles {frames : List FrameBuf}
    (h : forall f, f ∈ frames -> 0 <= fragPayloadLen f) (e : Nat) :
    contiguous e frames = true <-> Tiles e (frames.map pieceOf) := by
  induction frames generalizing e with
  | nil => exact ⟨fun _ => trivial, fun _ => rfl⟩
  | cons f rest ih =>
      have hlen : ((fragPayloadLen f).toNat : Int) = fragPayloadLen f :=
        Int.toNat_of_nonneg (h f List.mem_cons_self)
      have hrest := ih (fun g hg => h g (List.mem_cons_of_mem f hg))
      rw [contiguous, Bool.and_eq_true, decide_eq_true_eq, List.map_cons,
        Tiles, ← hrest (e + (pieceOf f).len)]
      constructor
      · rintro ⟨hoff, hmore⟩
        refine ⟨by exact_mod_cast hoff, ?_⟩
        rw [hoff, ← hlen] at hmore
        exact_mod_cast hmore
      · rintro ⟨hoff, hmore⟩
        have hoff' : (fragOffset f : Int) * 8 = e := by exact_mod_cast hoff
        refine ⟨hoff', ?_⟩
        rw [hoff', ← hlen]
        exact_mod_cast hmore

section Complete

variable {payload : Bytes} {k : FragKey} (c : Cutting payload k)
  {frames : List FrameBuf} (hframes : forall f, f ∈ frames -> c.Has f)

theorem last_of_complete {frames : List FrameBuf}
    (h : complete frames = true) :
    exists before last, frames = before ++ [last] ∧
      moreFragments last = false := by
  rw [complete, Bool.and_eq_true] at h
  cases hlast : frames.getLast? with
  | none =>
      rw [hlast] at h
      cases h.2
  | some last =>
      rw [hlast] at h
      rcases List.getLast?_eq_some_iff.1 hlast with ⟨before, hsplit⟩
      exact ⟨before, last, hsplit, by simpa using h.2⟩

include hframes

theorem tiles_of_complete (h : complete frames = true) :
    Tiles 0 (frames.map pieceOf) := by
  rw [complete, Bool.and_eq_true] at h
  exact (contiguous_iff_tiles
    (fun f hf => (hframes f hf).payloadLen_nonneg) 0).1 h.1

theorem totalLen_of_complete (h : complete frames = true) :
    totalLen (frames.map pieceOf) = payload.length := by
  have htiles := tiles_of_complete c hframes h
  rcases last_of_complete h with ⟨before, last, hsplit, hlast⟩
  rcases hframes last (by simp [hsplit]) with ⟨frag, hfrag, rfl⟩
  rw [hsplit, List.map_append] at htiles ⊢
  have hend := htiles.end_last
  rw [frag.pieceOf_frame, c.end_last hfrag hlast, Nat.zero_add] at hend
  rw [List.map_singleton, frag.pieceOf_frame]
  exact hend.symm

theorem mem_of_complete (h : complete frames = true)
    {frag : Fragment payload k} (hfrag : frag ∈ c.frags)
    (hneed : 0 < frag.piece.len ∨ moreFragments frag.frame = false) :
    frag.frame ∈ frames := by
  rcases hneed with hlen | hlast
  · have hcovers : frag.piece.Covers frag.piece.off :=
      ⟨Nat.le_refl _, Nat.lt_add_of_pos_right hlen⟩
    have hend := c.end_le hfrag
    rcases (tiles_of_complete c hframes h).exists_covers (Nat.zero_le _)
      (show frag.piece.off < 0 + totalLen (frames.map pieceOf) by
        rw [totalLen_of_complete c hframes h]
        lia) with ⟨p, hp, hp'⟩
    rcases List.mem_map.1 hp with ⟨f, hf, rfl⟩
    rcases hframes f hf with ⟨frag', hfrag', rfl⟩
    rw [frag'.pieceOf_frame] at hp'
    rw [c.eq_of_covers hfrag hfrag' hcovers hp']
    exact hf
  · rcases last_of_complete h with ⟨before, last, hsplit, hlast'⟩
    have hmem : last ∈ frames := by simp [hsplit]
    rcases hframes last hmem with ⟨frag', hfrag', rfl⟩
    rw [c.eq_of_last hfrag hlast hfrag' hlast']
    exact hmem

theorem precedes_of_complete (h : complete frames = true)
    (hnodup : frames.Nodup) : frames.Pairwise Precedes := by
  have hbefore := List.pairwise_map.1
    (tiles_of_complete c hframes h).pairwise_before
  rcases last_of_complete h with ⟨before, last, hsplit, hlast⟩
  have hmem : last ∈ frames := by simp [hsplit]
  rcases hframes last hmem with ⟨frag, hfrag, rfl⟩
  -- only the frame at the end is marked as the last one
  have honly : forall f, f ∈ before -> moreFragments f ≠ false := by
    intro f hf hmore
    rcases hframes f (by rw [hsplit]; exact List.mem_append_left _ hf) with
      ⟨frag', hfrag', rfl⟩
    rw [c.eq_of_last hfrag' hmore hfrag hlast] at hf
    rw [hsplit, List.nodup_append] at hnodup
    exact hnodup.2.2 _ hf _ (List.mem_singleton.2 rfl) rfl
  rw [hsplit, List.pairwise_append] at hbefore ⊢
  refine ⟨hbefore.1.imp_of_mem ?_, List.pairwise_singleton _ _, ?_⟩
  · intro f g hf _ hfg
    exact ⟨hfg, fun hmore => absurd hmore (honly f hf)⟩
  · intro f hf g hg
    exact ⟨hbefore.2.2 f hf g hg, fun hmore => absurd hmore (honly f hf)⟩

theorem tiles_of_precedes (horder : frames.Pairwise Precedes)
    (hall : forall frag, frag ∈ c.frags -> 0 < frag.piece.len ->
      frag.frame ∈ frames) : Tiles 0 (frames.map pieceOf) := by
  refine tiles_of_covers (n := payload.length) ?_ (fun _ _ => Nat.zero_le _)
    ?_ ?_
  · exact List.pairwise_map.2 (horder.imp And.left)
  · intro p hp
    rcases List.mem_map.1 hp with ⟨f, hf, rfl⟩
    rcases hframes f hf with ⟨frag, hfrag, rfl⟩
    rw [frag.pieceOf_frame]
    exact Nat.le_trans (Nat.le_add_right _ _) (c.end_le hfrag)
  · intro x hlow hx
    rcases c.tiles.exists_covers hlow (by
      rw [c.total, Nat.zero_add]
      exact hx) with ⟨p, hp, hcovers⟩
    rcases List.mem_map.1 hp with ⟨frag, hfrag, rfl⟩
    refine ⟨pieceOf frag.frame, List.mem_map_of_mem (hall frag hfrag ?_), ?_⟩
    · unfold Piece.Covers at hcovers
      lia
    · rw [frag.pieceOf_frame]
      exact hcovers

/-- A list in order that has all fragments, but for empty ones before the last,
is complete. -/
theorem complete_of_precedes (hne : c.frags ≠ [])
    (horder : frames.Pairwise Precedes)
    (hall : forall frag, frag ∈ c.frags ->
      0 < frag.piece.len ∨ moreFragments frag.frame = false ->
        frag.frame ∈ frames) : complete frames = true := by
  have htiles := tiles_of_precedes c hframes horder
    fun frag hfrag hlen => hall frag hfrag (Or.inl hlen)
  have hlast := c.last _ (List.getLast?_eq_some_getLast hne)
  have hmem := hall _ (List.getLast_mem hne) (Or.inr hlast)
  rw [complete, Bool.and_eq_true]
  refine ⟨(contiguous_iff_tiles
    (fun f hf => (hframes f hf).payloadLen_nonneg) 0).2 htiles, ?_⟩
  rcases List.eq_nil_or_concat frames with rfl | ⟨before, w, rfl⟩
  · exact absurd hmem List.not_mem_nil
  · rw [List.concat_eq_append] at hmem horder ⊢
    rw [List.getLast?_concat]
    have hw : moreFragments w = false := by
      rcases List.mem_append.1 hmem with hbefore | hw
      · exact ((List.pairwise_append.1 horder).2.2 _ hbefore w
          (List.mem_singleton.2 rfl)).2 hlast
      · rw [← List.mem_singleton.1 hw]
        exact hlast
    show (!moreFragments w) = true
    rw [hw]
    rfl

end Complete

/-!
## Runs of insertions
-/

section Insertions

variable {frames frames' : List FrameBuf} {arrivals : List FrameBuf}

theorem insert_run_perm
    (h : run insertStep frames arrivals = some frames') :
    frames'.Perm (frames ++ arrivals) := by
  induction arrivals generalizing frames with
  | nil =>
      cases h
      rw [List.append_nil]
  | cons f rest ih =>
      rcases run_cons h with ⟨mid, hstep, hrest⟩
      have hmid : mid.Perm (f :: frames) := link_perm hstep
      exact (ih hrest).trans ((hmid.append_right rest).trans
        List.perm_middle.symm)

theorem perm_of_insert_run (h : run insertStep [] arrivals = some frames') :
    frames'.Perm arrivals :=
  insert_run_perm h

theorem link_sublist {skbuf : FrameBuf}
    (h : link skbuf frames = some frames') : frames.Sublist frames' := by
  rw [link_eq h]
  conv => lhs; rw [← ahead_append_behind skbuf frames]
  exact (List.sublist_cons_self _ _).append_left _

theorem insert_run_sublist
    (h : run insertStep frames arrivals = some frames') :
    frames.Sublist frames' := by
  induction arrivals generalizing frames with
  | nil =>
      cases h
      exact List.Sublist.refl _
  | cons f rest ih =>
      rcases run_cons h with ⟨mid, hstep, hrest⟩
      exact (link_sublist hstep).trans (ih hrest)

theorem head_link {skbuf : FrameBuf}
    (h : link skbuf frames = some frames') :
    frames'.head? = pickLess fragOffset frames.head? skbuf := by
  rw [link_eq h]
  cases frames with
  | nil => rfl
  | cons first rest =>
      rw [ahead, List.head?_cons, pickLess]
      by_cases hfront : fragOffset skbuf < fragOffset first
      · rw [if_pos hfront, if_pos hfront]
        rfl
      · rw [if_neg hfront, if_neg hfront]
        rfl

theorem insert_run_head
    (h : run insertStep frames arrivals = some frames') :
    frames'.head? = arrivals.foldl (pickLess fragOffset) frames.head? := by
  induction arrivals generalizing frames with
  | nil =>
      cases h
      rfl
  | cons f rest ih =>
      rcases run_cons h with ⟨mid, hstep, hrest⟩
      rw [ih hrest, head_link hstep, List.foldl_cons]

theorem insert_of_wait (h : run waitStep frames arrivals = some frames') :
    run insertStep frames arrivals = some frames' :=
  run_mono (fun _ _ _ hstep => (waitStep_eq_some.1 hstep).1) h

theorem incomplete_of_wait (hopen : complete frames = false)
    (h : run waitStep frames arrivals = some frames') :
    complete frames' = false :=
  run_invariant (fun _ _ _ _ hstep => (waitStep_eq_some.1 hstep).2) hopen h

theorem wait_of_insert (h : run insertStep frames arrivals = some frames')
    (hopen : forall held : List FrameBuf,
      (forall f, f ∈ held -> f ∈ frames ∨ f ∈ arrivals) ->
        complete held = false) :
    run waitStep frames arrivals = some frames' := by
  induction arrivals generalizing frames with
  | nil => exact h
  | cons f rest ih =>
      rcases run_cons h with ⟨mid, hstep, hrest⟩
      have hmid : forall g, g ∈ mid -> g ∈ frames ∨ g ∈ f :: rest := by
        intro g hg
        have hperm : mid.Perm (f :: frames) := link_perm hstep
        rcases List.mem_cons.1 (hperm.mem_iff.1 hg) with rfl | hold
        · exact Or.inr List.mem_cons_self
        · exact Or.inl hold
      have hwait : waitStep frames f = some mid :=
        waitStep_eq_some.2 ⟨hstep, hopen mid hmid⟩
      rw [run_of_step hwait]
      refine ih hrest ?_
      intro held hheld
      refine hopen held ?_
      intro g hg
      rcases hheld g hg with hold | hnew
      · exact hmid g hold
      · exact Or.inr (List.mem_cons_of_mem f hnew)

/-- The frame finds a place, behind frames that belong before it and before
frames that belong behind it. -/
def InPlace (frames : List FrameBuf) (skbuf : FrameBuf) : Prop :=
  LinkSafe skbuf frames ∧
    (forall f, f ∈ ahead skbuf frames -> Precedes f skbuf) ∧
    (forall f, f ∈ behind skbuf frames -> Precedes skbuf f)

theorem inPlace_iff (h : frames.Pairwise Precedes) (skbuf : FrameBuf) :
    InPlace frames skbuf <->
      exists frames', link skbuf frames = some frames' ∧
        frames'.Pairwise Precedes := by
  have hparts : (ahead skbuf frames ++ behind skbuf frames).Pairwise
      Precedes := by
    rw [ahead_append_behind]
    exact h
  rw [InPlace, ← link_isSome_iff, Option.isSome_iff_exists]
  constructor
  · rintro ⟨⟨linked, hlink⟩, hplace⟩
    refine ⟨linked, hlink, ?_⟩
    rw [link_eq hlink]
    exact (pairwise_insert_iff hparts).2 hplace
  · rintro ⟨linked, hlink, horder⟩
    rw [link_eq hlink] at horder
    exact ⟨⟨linked, hlink⟩, (pairwise_insert_iff hparts).1 horder⟩

/-- The insertions are all in place exactly if they lead to a list in order. -/
theorem stepsMeet_inPlace_iff (h : frames.Pairwise Precedes) :
    StepsMeet insertStep InPlace frames arrivals <->
      exists frames', run insertStep frames arrivals = some frames' ∧
        frames'.Pairwise Precedes := by
  induction arrivals generalizing frames with
  | nil =>
      constructor
      · intro _
        exact ⟨frames, rfl, h⟩
      · intro _
        trivial
  | cons f rest ih =>
      rw [StepsMeet]
      constructor
      · rintro ⟨hplace, hrest⟩
        rcases (inPlace_iff h f).1 hplace with ⟨mid, hlink, horder⟩
        have hstep : insertStep frames f = some mid := hlink
        rw [hstep] at hrest
        rcases (ih horder).1 hrest with ⟨linked, hrun, hlinked⟩
        exact ⟨linked, (run_of_step hstep rest).trans hrun, hlinked⟩
      · rintro ⟨linked, hrun, hlinked⟩
        rcases run_cons hrun with ⟨mid, hlink, hrest⟩
        have horder : mid.Pairwise Precedes :=
          hlinked.sublist (insert_run_sublist hrest)
        refine ⟨(inPlace_iff h f).2 ⟨mid, hlink, horder⟩, ?_⟩
        rw [hlink]
        exact (ih horder).2 ⟨linked, hrest, hlinked⟩

end Insertions

/-!
## Repetitions
-/

/-- Repeated fragments do no harm: a packet comes out when the last fragment
arrives for the first time, and it has the payload that it has without the
repetitions. -/
def RepeatsHarmless (groups : List FragGroup) (before : List FrameBuf)
    (final : FrameBuf) : Prop :=
  exists packet once, Returns groups before final packet ∧
    Returns groups (firstArrivals before) final once ∧
    ipPayload packet = ipPayload once

section Repeats

variable {payload : Bytes} {k : FragKey} (c : Cutting payload k)

/-- The length of a packet: all headers but the first one count. -/
theorem length_ipPayload_complete {first : FrameBuf} {rest : List FrameBuf}
    (hframes : forall f, f ∈ first :: rest -> c.Has f)
    (h : complete (first :: rest) = true) :
    (ipPayload (assemble first rest)).length + 3 * IpHdr.ihl first =
      payload.length + 3 * ((first :: rest).map IpHdr.ihl).sum := by
  have hsum : ((first :: rest).map FrameBuf.behindHeader).sum =
      payload.length := by
    rw [← totalLen_of_complete c hframes h, totalLen, List.map_map]
    congr 1
    apply List.map_congr_left
    intro f hf
    rcases hframes f hf with ⟨frag, _, rfl⟩
    show _ = (pieceOf frag.frame).len
    rw [frag.behindHeader, frag.pieceOf_frame]
  rw [length_ipPayload_assemble, hsum, List.map_cons, List.sum_cons]
  · lia
  · intro f hf
    rcases hframes f hf with ⟨frag, _, rfl⟩
    exact frag.frame_ok

variable {groups : List FragGroup} (hfresh : framesOf k groups = [])

include hfresh

theorem chain_of_returns {before : List FrameBuf} {final : FrameBuf}
    (hkeys : forall f, f ∈ before ++ [final] -> fragKey f = k)
    {packet : Skbuf} (h : Returns groups before final packet) :
    exists first rest, packet = assemble first rest ∧
      run insertStep [] (before ++ [final]) = some (first :: rest) ∧
      complete (first :: rest) = true := by
  rcases (returns_iff hkeys).1 h with
    ⟨held, first, rest, hwait, hlink, hcomplete, hpacket⟩
  rw [hfresh] at hwait
  refine ⟨first, rest, hpacket, ?_, hcomplete⟩
  rw [run_append (insert_of_wait hwait)]
  exact run_of_step (show insertStep held final = some _ from hlink) []

theorem nodup_of_repeatsHarmless {before : List FrameBuf} {final : FrameBuf}
    (hall : forall f, f ∈ before ++ [final] -> c.Has f)
    (hfirst : final ∉ before) (h : RepeatsHarmless groups before final) :
    (before ++ [final]).Nodup := by
  by_contra hrep
  rcases h with ⟨packet, once, hpacket, honce, hpayload⟩
  have hkeys : forall f, f ∈ before ++ [final] -> fragKey f = k :=
    fun f hf => (hall f hf).key_eq
  have harrive : firstArrivals before ++ [final] =
      firstArrivals (before ++ [final]) :=
    (firstArrivals_append_of_notMem hfirst).symm
  rcases chain_of_returns hfresh hkeys hpacket with
    ⟨first, rest, rfl, hrun, hcomplete⟩
  rcases chain_of_returns hfresh (fun f hf => hkeys f (by
    rw [harrive] at hf
    exact mem_firstArrivals.1 hf)) honce with
    ⟨first', rest', rfl, hrun', hcomplete'⟩
  rw [harrive] at hrun'
  have hperm := perm_of_insert_run hrun
  have hperm' := perm_of_insert_run hrun'
  have hlen := length_ipPayload_complete c
    (fun f hf => hall f (hperm.mem_iff.1 hf)) hcomplete
  have hlen' := length_ipPayload_complete c
    (fun f hf => hall f (mem_firstArrivals.1 (hperm'.mem_iff.1 hf))) hcomplete'
  -- the first frame is the same, so the repetitions make the difference
  have hhead : some first = some first' :=
    (insert_run_head hrun).trans ((firstLeast_firstArrivals fragOffset
      (before ++ [final])).symm.trans (insert_run_head hrun').symm)
  have hihl : forall f, f ∈ before ++ [final] -> 0 < IpHdr.ihl f := by
    intro f hf
    rcases hall f hf with ⟨frag, _, rfl⟩
    exact Nat.lt_of_lt_of_le (by decide) frag.ihl_ge
  have hlt := sum_firstArrivals_lt hihl hrep
  rw [(hperm.map IpHdr.ihl).sum_nat] at hlen
  rw [(hperm'.map IpHdr.ihl).sum_nat, ← hpayload,
    ← Option.some.inj hhead] at hlen'
  lia

section Once

variable {before : List FrameBuf} {final : FrameBuf}
  (hall : forall f, f ∈ before ++ [final] <-> c.Has f)
  (hnodup : (before ++ [final]).Nodup)

include hall hnodup

/-- A list that lacks an empty fragment before the last is complete already. -/
theorem needed_of_returns {packet : Skbuf}
    (h : Returns groups before final packet) :
    0 < (pieceOf final).len ∨ moreFragments final = false := by
  rcases (hall final).1 (by simp) with ⟨frag, hfrag, hframe⟩
  rcases (returns_iff (fun f hf => ((hall f).1 hf).key_eq)).1 h with
    ⟨held, first, rest, hwait, hlink, hcomplete, _⟩
  rw [hfresh] at hwait
  have hheld := perm_of_insert_run (insert_of_wait hwait)
  have hperm := ((link_perm hlink).trans (hheld.cons final)).trans
    (List.perm_append_singleton final before).symm
  have horder := precedes_of_complete c
    (fun f hf => (hall f).1 (hperm.mem_iff.1 hf)) hcomplete
    (hperm.nodup_iff.2 hnodup)
  by_contra hempty
  have hfull : complete held = true := by
    refine complete_of_precedes c ?_ (List.ne_nil_of_mem hfrag)
      (horder.sublist (link_sublist hlink)) ?_
    · intro f hf
      exact (hall f).1 (List.mem_append_left _ (hheld.mem_iff.1 hf))
    · intro frag' hfrag' hneed
      rcases List.mem_append.1 ((hall frag'.frame).2 ⟨frag', hfrag', rfl⟩) with
        hbefore | hfinal
      · exact hheld.mem_iff.2 hbefore
      · rw [← frag'.pieceOf_frame, List.mem_singleton.1 hfinal] at hneed
        exact absurd hneed hempty
  rw [incomplete_of_wait rfl hwait] at hfull
  cases hfull

omit hfresh in
theorem incomplete_without_final
    (hneed : 0 < (pieceOf final).len ∨ moreFragments final = false)
    {held : List FrameBuf} (hheld : forall f, f ∈ held -> f ∈ before) :
    complete held = false := by
  rcases (hall final).1 (by simp) with ⟨frag, hfrag, rfl⟩
  rw [frag.pieceOf_frame] at hneed
  cases hfull : complete held with
  | false => rfl
  | true =>
      have hmem := mem_of_complete c
        (fun f hf => (hall f).1 (List.mem_append_left _ (hheld f hf))) hfull
        hfrag hneed
      exact absurd rfl ((List.nodup_append.1 hnodup).2.2 frag.frame
        (hheld _ hmem) frag.frame (List.mem_singleton.2 rfl))

theorem returns_of_inPlace
    (hneed : 0 < (pieceOf final).len ∨ moreFragments final = false)
    {linked : List FrameBuf}
    (hrun : run insertStep [] (before ++ [final]) = some linked)
    (horder : linked.Pairwise Precedes) :
    exists packet, Returns groups before final packet := by
  rcases (hall final).1 (by simp) with ⟨frag, hfrag, _⟩
  have hperm := perm_of_insert_run hrun
  have hcomplete : complete linked = true :=
    complete_of_precedes c (fun f hf => (hall f).1 (hperm.mem_iff.1 hf))
      (List.ne_nil_of_mem hfrag) horder
      fun frag' hfrag' _ => hperm.mem_iff.2 ((hall _).2 ⟨frag', hfrag', rfl⟩)
  rcases run_split hrun with ⟨held, hbefore, hfinal⟩
  rcases run_cons hfinal with ⟨linked', hlink, hend⟩
  cases hend
  have hwait : run waitStep [] before = some held := by
    refine wait_of_insert hbefore ?_
    intro frames hframes
    refine incomplete_without_final c hall hnodup hneed ?_
    intro f hf
    exact (hframes f hf).resolve_left List.not_mem_nil
  cases linked with
  | nil => exact absurd hcomplete (by decide)
  | cons first rest =>
      refine ⟨assemble first rest,
        (returns_iff fun f hf => ((hall f).1 hf).key_eq).2
          ⟨held, first, rest, ?_, hlink, hcomplete, rfl⟩⟩
      rw [hfresh]
      exact hwait

end Once

/-- Repeated fragments do no harm exactly if there are none, every fragment is
linked in its place, and the last one to arrive is not an empty one that the
others can do without. -/
theorem repeatsHarmless_iff {before : List FrameBuf} {final : FrameBuf}
    (hall : forall f, f ∈ before ++ [final] <-> c.Has f)
    (hfirst : final ∉ before) :
    RepeatsHarmless groups before final <->
      before.Nodup ∧
        (0 < (pieceOf final).len ∨ moreFragments final = false) ∧
        StepsMeet insertStep InPlace [] (before ++ [final]) := by
  rw [stepsMeet_inPlace_iff List.Pairwise.nil]
  constructor
  · intro h
    have hnodup := nodup_of_repeatsHarmless c hfresh
      (fun f hf => (hall f).1 hf) hfirst h
    rcases h with ⟨packet, once, hpacket, _, _⟩
    rcases chain_of_returns hfresh (fun f hf => ((hall f).1 hf).key_eq)
      hpacket with ⟨first, rest, _, hrun, hcomplete⟩
    have hperm := perm_of_insert_run hrun
    refine ⟨(List.nodup_append.1 hnodup).1,
      needed_of_returns c hfresh hall hnodup hpacket, first :: rest, hrun, ?_⟩
    exact precedes_of_complete c
      (fun f hf => (hall f).1 (hperm.mem_iff.1 hf)) hcomplete
      (hperm.nodup_iff.2 hnodup)
  · rintro ⟨hnodup, hneed, linked, hrun, horder⟩
    have hnodup' : (before ++ [final]).Nodup :=
      (List.perm_append_singleton final before).nodup_iff.2
        (List.nodup_cons.2 ⟨hfirst, hnodup⟩)
    rcases returns_of_inPlace c hfresh hall hnodup' hneed hrun horder with
      ⟨packet, hpacket⟩
    refine ⟨packet, packet, hpacket, ?_, rfl⟩
    rw [firstArrivals_eq_self hnodup]
    exact hpacket

end Repeats

theorem halvesCutting_has (f : FrameBuf) :
    f ∈ [firstHalf.frame] ++ [secondHalf.frame] <-> halvesCutting.Has f := by
  constructor
  · intro hf
    rcases List.mem_cons.1 hf with rfl | hrest
    · exact ⟨firstHalf, List.mem_cons_self, rfl⟩
    · cases List.mem_singleton.1 hrest
      exact ⟨secondHalf, List.mem_cons_of_mem _ List.mem_cons_self, rfl⟩
  · rintro ⟨frag, hfrag, rfl⟩
    exact List.mem_map_of_mem hfrag

theorem repeatsHarmless_without_repeats :
    RepeatsHarmless [] [firstHalf.frame] secondHalf.frame <->
      [firstHalf.frame].Nodup ∧
        (0 < (pieceOf secondHalf.frame).len ∨
          moreFragments secondHalf.frame = false) ∧
        StepsMeet insertStep InPlace []
          ([firstHalf.frame] ++ [secondHalf.frame]) :=
  repeatsHarmless_iff halvesCutting rfl halvesCutting_has (by decide)

/-- A first half that comes twice: the second half does not complete the
packet, which it does without the repetition. -/
theorem repeated_first_half_blocks :
    (forall f, f ∈ [firstHalf.frame, firstHalf.frame] ++ [secondHalf.frame] <->
      halvesCutting.Has f) ∧
      (defragAll [] [firstHalf.frame, firstHalf.frame, secondHalf.frame]).map
        Prod.snd = some [none, none, none] ∧
      (defragAll [] [firstHalf.frame, secondHalf.frame]).map Prod.snd =
        some [none, some (assemble firstHalf.frame [secondHalf.frame])] ∧
      ¬ RepeatsHarmless [] [firstHalf.frame, firstHalf.frame]
        secondHalf.frame := by
  refine ⟨?_, by decide, by decide, ?_⟩
  · intro f
    rw [← halvesCutting_has]
    simp
  · intro h
    have hnodup := nodup_of_repeatsHarmless halvesCutting rfl ?_ (by decide) h
    · exact absurd hnodup (by decide)
    · intro f hf
      refine (halvesCutting_has f).1 ?_
      simpa using hf

end Reassembler

end Velox
