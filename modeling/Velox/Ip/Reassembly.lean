import Velox.Foundation.Pieces
import Velox.Foundation.Runs
import Velox.Ip.FragGroups

/-!
# Reassembly against fragmentation

A payload is cut into fragments, which arrive in some order between the
fragments of other datagrams.  `Reassembler::defrag` should give the payload
back when the last of them arrives.  It does so only for a payload in one
fragment: the adjustment of every further fragment takes the wrong length for
its header.
-/

namespace Velox

open Foundation

/-!
## Fragments
-/

/-- A fragment of a payload, as the interface passes it on: the header at the
start of the frame, the piece of the payload behind it. -/
structure Fragment (payload : Bytes) (k : FragKey) where
  frame : FrameBuf
  piece : Piece
  key_eq : fragKey frame = k
  networkHdr : frame.networkHdr = some 0
  payloadEnd : frame.userPayloadEnd = some frame.rawBytes.length
  ihl_ge : 5 <= IpHdr.ihl frame
  off_eq : fragOffset frame * 8 = piece.off
  totLen_eq : (ntohs (IpHdr.totLen frame)).toNat = frame.rawBytes.length
  length_eq : frame.rawBytes.length = IpHdr.ihl frame * 4 + piece.len
  bytes_eq : frame.rawBytes.drop (IpHdr.ihl frame * 4) = slice payload piece

/-- A payload cut into fragments, in the order of their offsets. -/
structure Cutting (payload : Bytes) (k : FragKey) where
  frags : List (Fragment payload k)
  tiles : Tiles 0 (frags.map Fragment.piece)
  total : totalLen (frags.map Fragment.piece) = payload.length
  fits : forall frag, frag ∈ frags ->
    IpHdr.ihl frag.frame * 4 + payload.length <= 65535
  nonLast : forall frag, frag ∈ frags.dropLast ->
    frag.piece.len % 8 = 0 ∧ moreFragments frag.frame = true
  last : forall frag, frags.getLast? = some frag ->
    moreFragments frag.frame = false

inductive Arrival (payload : Bytes) (k : FragKey) where
  | own (frag : Fragment payload k)
  | other (frame : FrameBuf) (hkey : fragKey frame ≠ k)

namespace Arrival

variable {payload : Bytes} {k : FragKey}

def frame : Arrival payload k -> FrameBuf
  | .own frag => frag.frame
  | .other f _ => f

def isOwn : Arrival payload k -> Bool
  | .own _ => true
  | .other _ _ => false

def owns (arrivals : List (Arrival payload k)) : List (Fragment payload k) :=
  arrivals.filterMap fun arrival =>
    match arrival with
    | .own frag => some frag
    | .other _ _ => none

theorem isOwn_of_owns_eq_nil {arrivals : List (Arrival payload k)}
    (h : owns arrivals = []) {arrival : Arrival payload k}
    (hmem : arrival ∈ arrivals) : arrival.isOwn = false := by
  cases arrival with
  | other f hkey => rfl
  | own frag =>
      have hnone := List.filterMap_eq_nil_iff.1 h _ hmem
      cases hnone

end Arrival

structure FragmentFrame (f : FrameBuf) : Prop where
  networkHdr : f.networkHdr = some 0
  payloadEnd : f.userPayloadEnd = some f.rawBytes.length
  ihl_ge : 5 <= IpHdr.ihl f
  header_le : IpHdr.ihl f * 4 <= f.rawBytes.length

def FrameBuf.behindHeader (f : FrameBuf) : Nat :=
  f.rawBytes.length - IpHdr.ihl f * 4

theorem Fragment.frame_ok {payload : Bytes} {k : FragKey}
    (frag : Fragment payload k) : FragmentFrame frag.frame where
  networkHdr := frag.networkHdr
  payloadEnd := frag.payloadEnd
  ihl_ge := frag.ihl_ge
  header_le := by
    rw [frag.length_eq]
    exact Nat.le_add_right _ _

theorem Fragment.behindHeader {payload : Bytes} {k : FragKey}
    (frag : Fragment payload k) :
    frag.frame.behindHeader = frag.piece.len := by
  rw [FrameBuf.behindHeader, frag.length_eq, Nat.add_sub_cancel_left]

/-!
## The returned chain
-/

namespace FragGroup

theorem adjustFirst_fields {f : FrameBuf} (h : FragmentFrame f)
    (payloadlen : UInt16) :
    exists v, (adjustFirst f payloadlen).rawBytes = store16 f.rawBytes 2 v ∧
      (adjustFirst f payloadlen).networkHdr = some 0 ∧
      (adjustFirst f payloadlen).userPayloadEnd =
        some f.rawBytes.length := by
  refine ⟨ntohs (payloadlen + UInt16.ofNat (IpHdr.ihl f * 4)), ?_⟩
  rw [adjustFirst, IpHdr.setTotLen, h.networkHdr]
  exact ⟨rfl, h.networkHdr, h.payloadEnd⟩

theorem ihl_adjustFirst {f : FrameBuf} (h : FragmentFrame f)
    (payloadlen : UInt16) :
    IpHdr.ihl (adjustFirst f payloadlen) = IpHdr.ihl f := by
  rcases adjustFirst_fields h payloadlen with ⟨v, hraw, hnetwork, _⟩
  rw [IpHdr.ihl, IpHdr.ihl, hnetwork, h.networkHdr, FrameBuf.pointee,
    FrameBuf.pointee, hraw, List.drop_zero, List.drop_zero,
    byteAt_store16_of_disjoint _ _ (by decide)]

theorem payload_adjustFirst {f : FrameBuf} (h : FragmentFrame f)
    (payloadlen : UInt16) :
    (adjustFirst f payloadlen).range
      ((adjustFirst f payloadlen).networkHdr.map fun o =>
        o + IpHdr.ihl (adjustFirst f payloadlen) * 4)
      (adjustFirst f payloadlen).userPayloadEnd =
        f.rawBytes.drop (IpHdr.ihl f * 4) := by
  rcases adjustFirst_fields h payloadlen with ⟨v, hraw, hnetwork, hend⟩
  have hihl := h.ihl_ge
  rw [ihl_adjustFirst h, hnetwork, hend]
  show ((adjustFirst f payloadlen).rawBytes.drop
    (0 + IpHdr.ihl f * 4)).take
      (f.rawBytes.length - (0 + IpHdr.ihl f * 4)) = _
  rw [hraw, store16, Nat.zero_add, List.drop_set_of_lt (by lia),
    List.drop_set_of_lt (by lia)]
  exact List.take_of_length_le (by rw [List.length_drop])

/-- A subsequent fragment is read from inside its header on. -/
theorem adjustNext_payload {f : FrameBuf} (h : FragmentFrame f) :
    (adjustNext f).userPayload = f.rawBytes.drop (IpHdr.ihl f) ∧
      0 < (adjustNext f).userPayloadLen := by
  have hihl := h.ihl_ge
  have hheader := h.header_le
  constructor
  · show f.range (some (IpHdr.ihl f)) f.userPayloadEnd = _
    rw [h.payloadEnd]
    exact List.take_of_length_le (by rw [List.length_drop])
  · show 0 < FrameBuf.pointerDiff f.userPayloadEnd (some (IpHdr.ihl f))
    rw [h.payloadEnd, FrameBuf.pointerDiff]
    lia

theorem length_drain_adjustNext {frames : List FrameBuf}
    (h : forall f, f ∈ frames -> FragmentFrame f) :
    (drainSkbufChain (frames.map adjustNext)).length =
      (frames.map FrameBuf.behindHeader).sum +
        3 * (frames.map IpHdr.ihl).sum := by
  induction frames with
  | nil => rfl
  | cons f rest ih =>
      have hf := h f List.mem_cons_self
      have hrest := ih fun g hg => h g (List.mem_cons_of_mem f hg)
      have hheader := hf.header_le
      have hpayload := adjustNext_payload hf
      rw [List.map_cons, drainSkbufChain, if_pos hpayload.2, hpayload.1,
        List.length_append, List.length_drop, hrest, List.map_cons,
        List.map_cons, List.sum_cons, List.sum_cons, FrameBuf.behindHeader]
      lia

/-- Every further fragment makes the payload longer than it should be. -/
theorem length_ipPayload_assemble {first : FrameBuf} {rest : List FrameBuf}
    (h : forall f, f ∈ first :: rest -> FragmentFrame f) :
    (ipPayload (assemble first rest)).length =
      ((first :: rest).map FrameBuf.behindHeader).sum +
        3 * (rest.map IpHdr.ihl).sum := by
  have hfirst := h first List.mem_cons_self
  have hrest := length_drain_adjustNext
    fun f hf => h f (List.mem_cons_of_mem first hf)
  simp only [ipPayload, assemble, payload_adjustFirst hfirst]
  rw [List.length_append, hrest, List.length_drop, List.map_cons,
    List.sum_cons, FrameBuf.behindHeader, Nat.add_assoc]

theorem ipPayload_assemble_single {first : FrameBuf}
    (h : FragmentFrame first) :
    ipPayload (assemble first []) =
      first.rawBytes.drop (IpHdr.ihl first * 4) := by
  simp only [ipPayload, assemble, payload_adjustFirst h]
  exact List.append_nil _

end FragGroup

/-!
## Runs
-/

namespace Reassembler

open FragGroup

variable {payload : Bytes} {k : FragKey}

/-- The fragments of the payload give no packet until the last of them
arrives, which gives the payload. -/
def ReassemblesTo (groups : List FragGroup)
    (before : List (Arrival payload k)) (final : Fragment payload k) : Prop :=
  exists mid results after packet,
    defragAll groups (before.map Arrival.frame) = some (mid, results) ∧
      (forall p, p ∈ before.zip results -> p.1.isOwn = true -> p.2 = none) ∧
      defrag final.frame mid = some (after, some packet) ∧
      ipPayload packet = payload

def step (groups : List FragGroup) (arrival : Arrival payload k) :
    Option (List FragGroup) :=
  (defrag arrival.frame groups).map Prod.fst

/-- A fragment of another datagram finds its place in the group it meets. -/
def OtherSafe (groups : List FragGroup) : Arrival payload k -> Prop
  | .own _ => True
  | .other f _ => LinkSafe f (framesOf (fragKey f) groups)

theorem defragAll_cons {groups mid : List FragGroup}
    {results : List (Option Skbuf)} {skbuf : FrameBuf}
    {rest : List FrameBuf}
    (h : defragAll groups (skbuf :: rest) = some (mid, results)) :
    exists groups' result later, results = result :: later ∧
      defrag skbuf groups = some (groups', result) ∧
      defragAll groups' rest = some (mid, later) := by
  rw [defragAll] at h
  cases hdefrag : defrag skbuf groups with
  | none =>
      rw [hdefrag] at h
      cases h
  | some outcome =>
      rcases outcome with ⟨groups', result⟩
      rw [hdefrag] at h
      rcases Option.map_eq_some_iff.1 h with ⟨later, hlater, heq⟩
      cases heq
      exact ⟨groups', result, later.2, rfl, rfl, hlater⟩

theorem defragAll_cons_eq {groups groups' mid : List FragGroup}
    {result : Option Skbuf} {later : List (Option Skbuf)} {skbuf : FrameBuf}
    {rest : List FrameBuf}
    (hdefrag : defrag skbuf groups = some (groups', result))
    (hlater : defragAll groups' rest = some (mid, later)) :
    defragAll groups (skbuf :: rest) = some (mid, result :: later) := by
  rw [defragAll, hdefrag]
  simp only [hlater, Option.map_some]

theorem defragAll_append {groups mid : List FragGroup}
    {first : List FrameBuf} {results : List (Option Skbuf)}
    (h : defragAll groups first = some (mid, results))
    (rest : List FrameBuf) :
    defragAll groups (first ++ rest) =
      (defragAll mid rest).map fun later =>
        (later.1, results ++ later.2) := by
  induction first generalizing groups results with
  | nil =>
      cases h
      exact Option.map_id'.symm
  | cons skbuf others ih =>
      rcases defragAll_cons h with
        ⟨groups', result, later, rfl, hdefrag, hothers⟩
      rw [List.cons_append, defragAll, hdefrag]
      simp only [ih hothers, Option.map_map]
      rfl

def holding (k : FragKey) (frames : List FrameBuf) : List FragGroup :=
  if frames = [] then [] else [⟨k, frames⟩]

theorem defrag_before {k : FragKey} {skbuf : FrameBuf}
    {frames : List FrameBuf} (hkey : fragKey skbuf = k)
    (hbefore : forall f, f ∈ frames -> fragOffset skbuf < fragOffset f) :
    defrag skbuf (holding k frames) =
      if complete (skbuf :: frames) then some ([], some (assemble skbuf frames))
      else some ([⟨k, skbuf :: frames⟩], none) := by
  subst hkey
  have hlink : link skbuf frames = some (skbuf :: frames) := by
    cases frames with
    | nil => rfl
    | cons first rest => exact if_pos (hbefore first List.mem_cons_self)
  cases frames with
  | nil =>
      rw [holding, if_pos rfl, defrag, add, hlink]
      dsimp only
      split <;> rfl
  | cons first rest =>
      rw [holding, if_neg (List.cons_ne_nil first rest), defrag, if_pos rfl,
        add, hlink]
      dsimp only
      split <;> rfl

/-- Frames that arrive from the last to the first wait for the one at the
start of the datagram. -/
theorem defragAll_lastToFirst {k : FragKey} {frames : List FrameBuf}
    (hkey : forall f, f ∈ frames -> fragKey f = k)
    (hsorted : frames.Pairwise fun f g => fragOffset f < fragOffset g)
    (hpos : forall f, f ∈ frames -> 0 < fragOffset f) :
    exists results,
      defragAll [] frames.reverse = some (holding k frames, results) := by
  induction frames with
  | nil => exact ⟨[], rfl⟩
  | cons f rest ih =>
      rcases List.pairwise_cons.1 hsorted with ⟨hbefore, hrest⟩
      rcases ih (fun g hg => hkey g (List.mem_cons_of_mem f hg)) hrest
        (fun g hg => hpos g (List.mem_cons_of_mem f hg)) with ⟨results, hrun⟩
      have hoff := hpos f List.mem_cons_self
      have hopen : complete (f :: rest) = false := by
        rw [complete, contiguous, decide_eq_false (by lia), Bool.false_and,
          Bool.false_and]
      have hlast := defrag_before (hkey f List.mem_cons_self) hbefore
      rw [hopen, if_neg nofun] at hlast
      refine ⟨results ++ [none], ?_⟩
      rw [List.reverse_cons, defragAll_append hrun, defragAll, hlast]
      rfl

theorem linkSafe_of_defrag {skbuf : FrameBuf} {groups groups' : List FragGroup}
    {result : Option Skbuf} (h : defrag skbuf groups = some (groups', result)) :
    LinkSafe skbuf (framesOf (fragKey skbuf) groups) := by
  apply (link_isSome_iff _ _).1
  cases h ▸ defrag_cases skbuf groups with
  | kept groups'' hlink hcomplete hother => rw [hlink]; rfl
  | packet groups'' first rest hlink hcomplete hother => rw [hlink]; rfl

theorem defrag_of_linkSafe {skbuf : FrameBuf} {groups : List FragGroup}
    (h : LinkSafe skbuf (framesOf (fragKey skbuf) groups)) :
    exists groups' result, defrag skbuf groups = some (groups', result) := by
  have hsome := (link_isSome_iff _ _).2 h
  generalize hresult : defrag skbuf groups = outcome
  cases hresult ▸ defrag_cases skbuf groups with
  | crash hlink =>
      rw [hlink] at hsome
      cases hsome
  | kept groups' hlink hcomplete hother => exact ⟨groups', none, rfl⟩
  | packet groups' first rest hlink hcomplete hother =>
      exact ⟨groups', _, rfl⟩

theorem framesOf_other {skbuf : FrameBuf} {groups groups' : List FragGroup}
    {result : Option Skbuf} (h : defrag skbuf groups = some (groups', result))
    (hkey : fragKey skbuf ≠ k) : framesOf k groups' = framesOf k groups := by
  cases h ▸ defrag_cases skbuf groups with
  | kept groups'' hlink hcomplete hother => exact hother k hkey.symm
  | packet groups'' first rest hlink hcomplete hother =>
      exact hother k hkey.symm

/-- As long as no packet comes out, the group collects its fragments. -/
theorem framesOf_perm {groups mid : List FragGroup}
    {results : List (Option Skbuf)} {before : List (Arrival payload k)}
    (hrun : defragAll groups (before.map Arrival.frame) = some (mid, results))
    (hnull : forall p, p ∈ before.zip results -> p.1.isOwn = true ->
      p.2 = none) :
    (framesOf k mid).Perm
      ((Arrival.owns before).map Fragment.frame ++ framesOf k groups) := by
  induction before generalizing groups results with
  | nil =>
      cases hrun
      exact List.Perm.refl _
  | cons arrival rest ih =>
      rcases defragAll_cons hrun with
        ⟨groups', result, later, rfl, hdefrag, hlater⟩
      have hrest := ih hlater fun p hp =>
        hnull p (List.mem_cons_of_mem _ hp)
      cases arrival with
      | other f hkey =>
          rw [framesOf_other hdefrag hkey] at hrest
          exact hrest
      | own frag =>
          have hnone : result = none :=
            hnull (Arrival.own frag, result) List.mem_cons_self rfl
          have hframes : (framesOf k groups').Perm
              (frag.frame :: framesOf k groups) := by
            subst hnone
            have hcase := defrag_cases frag.frame groups
            rw [show defrag frag.frame groups = _ from hdefrag] at hcase
            cases hcase with
            | kept _ hlink hcomplete hother =>
                rw [frag.key_eq] at hlink
                exact link_perm hlink
          exact hrest.trans ((hframes.append_left _).trans
            List.perm_middle)

theorem stepsMeet_of_defragAll {groups mid : List FragGroup}
    {results : List (Option Skbuf)} {before : List (Arrival payload k)}
    (hrun : defragAll groups (before.map Arrival.frame) =
      some (mid, results)) :
    StepsMeet step OtherSafe groups before := by
  induction before generalizing groups results with
  | nil => trivial
  | cons arrival rest ih =>
      rcases defragAll_cons hrun with
        ⟨groups', result, later, rfl, hdefrag, hlater⟩
      have hstep : step groups arrival = some groups' := by
        rw [step, hdefrag]
        rfl
      rw [StepsMeet, hstep]
      refine ⟨?_, ih hlater⟩
      cases arrival with
      | own frag => trivial
      | other f hkey => exact linkSafe_of_defrag hdefrag

theorem defragAll_of_stepsMeet {groups : List FragGroup}
    {before : List (Arrival payload k)} (howns : Arrival.owns before = [])
    (hmeet : StepsMeet step OtherSafe groups before) :
    exists mid results,
      defragAll groups (before.map Arrival.frame) = some (mid, results) := by
  induction before generalizing groups with
  | nil => exact ⟨groups, [], rfl⟩
  | cons arrival rest ih =>
      cases arrival with
      | own frag => cases howns
      | other f hkey =>
          rw [StepsMeet] at hmeet
          rcases defrag_of_linkSafe hmeet.1 with ⟨groups', result, hdefrag⟩
          have hstep : step groups (Arrival.other f hkey : Arrival payload k) =
              some groups' := by
            show (defrag f groups).map Prod.fst = _
            rw [hdefrag]
            rfl
          rw [hstep] at hmeet
          rcases ih howns hmeet.2 with ⟨mid, later, hlater⟩
          exact ⟨mid, result :: later, defragAll_cons_eq hdefrag hlater⟩

theorem behindHeader_frags (frags : List (Fragment payload k)) :
    ((frags.map Fragment.frame).map FrameBuf.behindHeader).sum =
      totalLen (frags.map Fragment.piece) := by
  rw [totalLen, List.map_map, List.map_map]
  congr 1
  apply List.map_congr_left
  intro frag _
  exact frag.behindHeader

/-- A packet that holds the payload comes from one fragment. -/
theorem single_of_payload (c : Cutting payload k) {first : FrameBuf}
    {rest : List FrameBuf}
    (hperm : (first :: rest).Perm (c.frags.map Fragment.frame))
    (hpayload : ipPayload (assemble first rest) = payload) :
    c.frags.length = 1 := by
  have hframes : forall f, f ∈ first :: rest -> FragmentFrame f := by
    intro f hf
    rcases List.mem_map.1 (hperm.mem_iff.1 hf) with ⟨frag, _, rfl⟩
    exact frag.frame_ok
  have hsum := (hperm.map FrameBuf.behindHeader).sum_nat
  have hlen := length_ipPayload_assemble hframes
  rw [hsum, behindHeader_frags, c.total, hpayload] at hlen
  have hcount := hperm.length_eq
  rw [List.length_map] at hcount
  rw [← hcount]
  cases rest with
  | nil => rfl
  | cons f more =>
      have hihl := (hframes f (by simp)).ihl_ge
      rw [List.map_cons, List.sum_cons] at hlen
      lia

theorem defrag_single (c : Cutting payload k) {final : Fragment payload k}
    (hfrags : c.frags = [final]) {mid : List FragGroup}
    (hnone : framesOf k mid = []) :
    exists after packet, defrag final.frame mid = some (after, some packet) ∧
      ipPayload packet = payload := by
  have htiles := c.tiles
  have htotal := c.total
  have hlast := c.last final (by rw [hfrags]; rfl)
  rw [hfrags] at htiles htotal
  have hoff : fragOffset final.frame * 8 = 0 := final.off_eq.trans htiles.1
  have hlen : final.piece.len = payload.length := htotal
  have hcomplete : complete [final.frame] = true := by
    simp only [complete, contiguous, List.getLast?_singleton, hlast]
    simp only [Bool.not_false, Bool.and_true, decide_eq_true_eq]
    exact_mod_cast hoff
  have hbytes : ipPayload (assemble final.frame []) = payload := by
    rw [ipPayload_assemble_single final.frame_ok, final.bytes_eq, slice,
      htiles.1, hlen]
    exact List.take_length
  have hkey := final.key_eq
  generalize hresult : defrag final.frame mid = outcome
  have hcase := defrag_cases final.frame mid
  rw [hresult] at hcase
  cases hcase with
  | crash hlink =>
      rw [hkey, hnone] at hlink
      cases hlink
  | kept after hlink hincomplete hother =>
      rw [hkey, hnone] at hlink
      rw [hkey] at hincomplete
      rw [← Option.some.inj hlink, hcomplete] at hincomplete
      cases hincomplete
  | packet after first rest hlink hcomplete' hother =>
      rw [hkey, hnone] at hlink
      cases hlink
      exact ⟨after, _, rfl, hbytes⟩

theorem length_of_reassemblesTo (c : Cutting payload k)
    {groups : List FragGroup} (hfresh : forall g, g ∈ groups -> g.key ≠ k)
    {before : List (Arrival payload k)} {final : Fragment payload k}
    (harrive : (Arrival.owns before ++ [final]).Perm c.frags)
    (h : ReassemblesTo groups before final) : c.frags.length = 1 := by
  rcases h with ⟨mid, results, after, packet, hrun, hnull, hfinal, hpayload⟩
  have hcollected := framesOf_perm hrun hnull
  rw [framesOf_eq_nil hfresh, List.append_nil] at hcollected
  have hcase := defrag_cases final.frame mid
  rw [hfinal] at hcase
  cases hcase with
  | packet _ first rest hlink hcomplete hother =>
      rw [final.key_eq] at hlink
      refine single_of_payload c ?_ hpayload
      have harrived := harrive.map Fragment.frame
      rw [List.map_append] at harrived
      exact (link_perm hlink).trans ((hcollected.cons final.frame).trans
        (List.perm_append_comm.trans harrived))

/-- Reassembly gives the payload back exactly when the payload comes in one
fragment and no fragment of another datagram stops the daemon before. -/
theorem reassemblesTo_iff (c : Cutting payload k) {groups : List FragGroup}
    (hfresh : forall g, g ∈ groups -> g.key ≠ k)
    (before : List (Arrival payload k)) (final : Fragment payload k)
    (harrive : (Arrival.owns before ++ [final]).Perm c.frags) :
    ReassemblesTo groups before final <->
      c.frags.length = 1 ∧ StepsMeet step OtherSafe groups before := by
  constructor
  · intro h
    refine ⟨length_of_reassemblesTo c hfresh harrive h, ?_⟩
    rcases h with ⟨mid, results, after, packet, hrun, _⟩
    exact stepsMeet_of_defragAll hrun
  · rintro ⟨hsingle, hmeet⟩
    have hcount := harrive.length_eq
    rw [List.length_append, hsingle] at hcount
    have howns : Arrival.owns before = [] :=
      List.eq_nil_of_length_eq_zero (by simpa using hcount)
    rw [howns, List.nil_append] at harrive
    have hfrags : c.frags = [final] := List.perm_singleton.1 harrive.symm
    rcases defragAll_of_stepsMeet howns hmeet with ⟨mid, results, hrun⟩
    have hnull : forall p, p ∈ before.zip results -> p.1.isOwn = true ->
        p.2 = none := by
      intro p hp hown
      have hother := Arrival.isOwn_of_owns_eq_nil howns
        (List.of_mem_zip (show (p.1, p.2) ∈ _ from hp)).1
      rw [hown] at hother
      cases hother
    have hcollected := framesOf_perm hrun hnull
    rw [howns, framesOf_eq_nil hfresh] at hcollected
    rcases defrag_single c hfrags (List.perm_nil.1 hcollected) with
      ⟨after, packet, hfinal, hpayload⟩
    exact ⟨mid, results, after, packet, hrun, hnull, hfinal, hpayload⟩

/-!
Two datagrams of the same host: one of eight bytes in one fragment, one of
sixteen bytes in two.
-/

def datagramKey : FragKey where
  ipId := 0x3412
  ipProtocol := 17
  ipSaddr := 0x0200a8c0
  ipDaddr := 0x0100a8c0

def wholeFragment : Fragment [1, 2, 3, 4, 5, 6, 7, 8] datagramKey where
  frame := TunIface.rx
    [0x45, 0, 0, 28, 0x12, 0x34, 0, 0, 64, 17, 0, 0, 192, 168, 0, 2, 192, 168,
      0, 1, 1, 2, 3, 4, 5, 6, 7, 8]
  piece := ⟨0, 8⟩
  key_eq := by decide
  networkHdr := rfl
  payloadEnd := rfl
  ihl_ge := by decide
  off_eq := by decide
  totLen_eq := by decide
  length_eq := by decide
  bytes_eq := by decide

def wholeCutting : Cutting [1, 2, 3, 4, 5, 6, 7, 8] datagramKey where
  frags := [wholeFragment]
  tiles := by decide
  total := by decide
  fits := by
    intro frag hfrag
    cases List.mem_singleton.1 hfrag
    decide
  nonLast := by
    intro frag hfrag
    cases hfrag
  last := by
    intro frag hfrag
    cases hfrag
    decide

/-- The first fragment of a datagram with another identification. -/
def strayFragment : FrameBuf :=
  TunIface.rx
    [0x45, 0, 0, 28, 0x56, 0x78, 0x20, 0, 64, 17, 0, 0, 192, 168, 0, 2, 192,
      168, 0, 1, 8, 7, 6, 5, 4, 3, 2, 1]

def strayBefore : List (Arrival [1, 2, 3, 4, 5, 6, 7, 8] datagramKey) :=
  [.other strayFragment (by decide)]

theorem reassemblesTo_one_fragment :
    ReassemblesTo [] strayBefore wholeFragment := by
  have hsafe : StepsMeet step OtherSafe [] strayBefore :=
    ⟨trivial, trivial⟩
  exact (reassemblesTo_iff wholeCutting (List.forall_mem_nil _) strayBefore
    wholeFragment (List.Perm.refl _)).2 ⟨rfl, hsafe⟩

def longPayload : Bytes :=
  [1, 2, 3, 4, 5, 6, 7, 8, 9, 10, 11, 12, 13, 14, 15, 16]

def firstHalf : Fragment longPayload datagramKey where
  frame := TunIface.rx
    [0x45, 0, 0, 28, 0x12, 0x34, 0x20, 0, 64, 17, 0, 0, 192, 168, 0, 2, 192,
      168, 0, 1, 1, 2, 3, 4, 5, 6, 7, 8]
  piece := ⟨0, 8⟩
  key_eq := by decide
  networkHdr := rfl
  payloadEnd := rfl
  ihl_ge := by decide
  off_eq := by decide
  totLen_eq := by decide
  length_eq := by decide
  bytes_eq := by decide

def secondHalf : Fragment longPayload datagramKey where
  frame := TunIface.rx
    [0x45, 0, 0, 28, 0x12, 0x34, 0, 1, 64, 17, 0, 0, 192, 168, 0, 2, 192, 168,
      0, 1, 9, 10, 11, 12, 13, 14, 15, 16]
  piece := ⟨8, 8⟩
  key_eq := by decide
  networkHdr := rfl
  payloadEnd := rfl
  ihl_ge := by decide
  off_eq := by decide
  totLen_eq := by decide
  length_eq := by decide
  bytes_eq := by decide

def halvesCutting : Cutting longPayload datagramKey where
  frags := [firstHalf, secondHalf]
  tiles := by decide
  total := by decide
  fits := by
    intro frag hfrag
    rcases List.mem_cons.1 hfrag with rfl | hrest
    · decide
    · cases List.mem_singleton.1 hrest
      decide
  nonLast := by
    intro frag hfrag
    cases List.mem_singleton.1 hfrag
    decide
  last := by
    intro frag hfrag
    cases hfrag
    decide

/-- Two fragments in order: fifteen bytes of the second header come along. -/
theorem two_fragments_not_reassembled :
    (Arrival.owns [Arrival.own firstHalf] ++ [secondHalf]).Perm
        halvesCutting.frags ∧
      ((defragAll [] [firstHalf.frame, secondHalf.frame]).map fun outcome =>
        outcome.2.map (Option.map fun packet => (ipPayload packet).length)) =
          some [none, some 31] ∧
      ¬ ReassemblesTo [] [Arrival.own firstHalf] secondHalf := by
  refine ⟨List.Perm.refl _, by decide, ?_⟩
  intro h
  have hlen := length_of_reassemblesTo halvesCutting
    (fun _ hg => absurd hg List.not_mem_nil) (List.Perm.refl _) h
  cases hlen

end Reassembler

end Velox
