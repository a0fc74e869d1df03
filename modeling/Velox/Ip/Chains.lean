import Velox.Ip.Bounds
import Velox.Ip.Isolation

/-!
# Returned chains

What a packet of `Reassembler::defrag` consists of: all the fragments of its
key that have arrived since the group was made, in an order in which each one
starts where those before it end.  The total length written into the first
header is the length of the chain as long as that fits in 16 bits.
-/

namespace Velox

open Foundation

namespace Reassembler

open FragGroup

/-!
## The history of a group
-/

/-- What a call adds to the fragments that wait for the rest of a datagram; a
packet ends the group. -/
def collect (k : FragKey) (held : List FrameBuf)
    (call : FrameBuf × Option Skbuf) : List FrameBuf :=
  if fragKey call.1 = k then
    if call.2.isSome then [] else held ++ [call.1]
  else held

/-- The fragments of a key that have arrived since its group was made. -/
def receivedSince (k : FragKey) (frames : List FrameBuf)
    (results : List (Option Skbuf)) : List FrameBuf :=
  (frames.zip results).foldl (collect k) []

theorem mem_foldl_collect {k : FragKey}
    {calls : List (FrameBuf × Option Skbuf)} {held : List FrameBuf}
    {f : FrameBuf} (h : f ∈ calls.foldl (collect k) held) :
    f ∈ held ∨ f ∈ calls.map Prod.fst := by
  induction calls generalizing held with
  | nil => exact Or.inl h
  | cons call rest ih =>
      rcases ih h with hheld | hrest
      · rw [collect] at hheld
        split at hheld
        · split at hheld
          · exact absurd hheld List.not_mem_nil
          · rcases List.mem_append.1 hheld with hold | hnew
            · exact Or.inl hold
            · cases List.mem_singleton.1 hnew
              exact Or.inr List.mem_cons_self
        · exact Or.inl hheld
      · exact Or.inr (List.mem_cons_of_mem _ hrest)

theorem mem_of_mem_receivedSince {k : FragKey} {frames : List FrameBuf}
    {results : List (Option Skbuf)} {f : FrameBuf}
    (h : f ∈ receivedSince k frames results) : f ∈ frames := by
  rcases mem_foldl_collect h with hnil | hmem
  · exact absurd hnil List.not_mem_nil
  · rcases List.mem_map.1 hmem with ⟨call, hcall, rfl⟩
    exact (List.of_mem_zip (show (call.1, call.2) ∈ _ from hcall)).1

theorem framesOf_collect {k : FragKey} {skbuf : FrameBuf}
    {groups groups' : List FragGroup} {result : Option Skbuf}
    (h : Isolated groups)
    (hdefrag : defrag skbuf groups = some (groups', result))
    {held : List FrameBuf} (hheld : (framesOf k groups).Perm held) :
    (framesOf k groups').Perm (collect k held (skbuf, result)) := by
  rw [collect]
  by_cases hkey : fragKey skbuf = k
  · rw [if_pos hkey]
    subst hkey
    have hchange := h.ownGroupOnly (defrag_change hdefrag)
    have hcase := defrag_cases skbuf groups
    rw [hdefrag] at hcase
    cases hcase with
    | kept _ hlink hcomplete hother =>
        exact (link_perm hlink).trans ((hheld.cons skbuf).trans
          (List.perm_append_singleton skbuf held).symm)
    | packet _ first rest hlink hcomplete hother =>
        rw [hchange.packet rfl, framesOf_eq_nil]
        · exact List.Perm.refl _
        · intro g hg
          exact of_decide_eq_true (List.mem_filter.1 hg).2
  · rw [if_neg hkey, framesOf_other hdefrag hkey]
    exact hheld

theorem framesOf_defragAll {k : FragKey} {groups groups' : List FragGroup}
    {frames : List FrameBuf} {results : List (Option Skbuf)}
    (h : Isolated groups)
    (hrun : defragAll groups frames = some (groups', results))
    {held : List FrameBuf} (hheld : (framesOf k groups).Perm held) :
    (framesOf k groups').Perm
      ((frames.zip results).foldl (collect k) held) := by
  induction frames generalizing groups results held with
  | nil =>
      cases hrun
      exact hheld
  | cons skbuf rest ih =>
      rcases defragAll_cons hrun with
        ⟨mid, result, later, rfl, hdefrag, hlater⟩
      exact ih (h.change (defrag_change hdefrag)) hlater
        (framesOf_collect h hdefrag hheld)

/-!
## Completeness
-/

theorem contiguous_offset {e : Int} {before : List FrameBuf} {f : FrameBuf}
    {after : List FrameBuf} (h : contiguous e (before ++ f :: after) = true) :
    (fragOffset f : Int) * 8 = e + (before.map fragPayloadLen).sum := by
  induction before generalizing e with
  | nil =>
      rw [List.nil_append, contiguous, Bool.and_eq_true] at h
      rw [of_decide_eq_true h.1]
      exact (Int.add_zero e).symm
  | cons curr rest ih =>
      rw [List.cons_append, contiguous, Bool.and_eq_true] at h
      rw [ih h.2, of_decide_eq_true h.1, List.map_cons, List.sum_cons,
        Int.add_assoc]

/-- The offset of every fragment is the sum of the lengths of those before it,
and the last fragment is marked as the last one. -/
structure InSequence (chain : List FrameBuf) : Prop where
  first : forall f, chain.head? = some f -> fragOffset f = 0
  offset : forall before f after, chain = before ++ f :: after ->
    (fragOffset f : Int) * 8 = (before.map fragPayloadLen).sum
  last : forall f, chain.getLast? = some f -> moreFragments f = false

theorem inSequence_of_complete {chain : List FrameBuf}
    (h : complete chain = true) : InSequence chain := by
  rw [complete, Bool.and_eq_true] at h
  have hoffset : forall before f after, chain = before ++ f :: after ->
      (fragOffset f : Int) * 8 = (before.map fragPayloadLen).sum := by
    intro before f after hsplit
    rw [hsplit] at h
    rw [contiguous_offset h.1, Int.zero_add]
  refine ⟨?_, hoffset, ?_⟩
  · intro f hhead
    rcases List.head?_eq_some_iff.1 hhead with ⟨rest, hchain⟩
    have hzero := hoffset [] f rest hchain
    rw [List.map_nil, List.sum_nil] at hzero
    lia
  · intro f hlast
    have hmore := h.2
    rw [hlast] at hmore
    simpa using hmore

theorem chain_of_packet {frames : List FrameBuf} {groups : List FragGroup}
    {results : List (Option Skbuf)}
    (hrun : defragAll [] frames = some (groups, results)) {skbuf : FrameBuf}
    {groups' : List FragGroup} {packet : Skbuf}
    (hdefrag : defrag skbuf groups = some (groups', some packet)) :
    exists first rest, packet = assemble first rest ∧
      (first :: rest).Perm
        (receivedSince (fragKey skbuf) frames results ++ [skbuf]) ∧
      complete (first :: rest) = true := by
  have hheld := framesOf_defragAll isolated_nil hrun
    (List.Perm.refl (framesOf (fragKey skbuf) []))
  have hcase := defrag_cases skbuf groups
  rw [hdefrag] at hcase
  cases hcase with
  | packet _ first rest hlink hcomplete hother =>
      exact ⟨first, rest, rfl, (link_perm hlink).trans ((hheld.cons skbuf).trans
        (List.perm_append_singleton skbuf _).symm), hcomplete⟩

/-!
## The frames of a packet
-/

/-- The first fragment with another total length in its header. -/
structure IsHeadOf (head first : FrameBuf) : Prop where
  length : head.rawBytes.length = first.rawBytes.length
  bytes : forall i,
    (forall o, first.networkHdr = some o -> i < o + 2 ∨ o + 4 <= i) ->
      byteAt head.rawBytes i = byteAt first.rawBytes i
  pointers : head =
    { first with rawBytes := head.rawBytes, size_le := head.size_le }
  fragOff : IpHdr.fragOff head = IpHdr.fragOff first

/-- A fragment with another beginning of its payload, and without the pointer
to its header. -/
structure IsNextOf (frame f : FrameBuf) : Prop where
  rawBytes : frame.rawBytes = f.rawBytes
  transportHdr : frame.transportHdr = f.transportHdr
  networkHdr : frame.networkHdr = none
  userPayloadBegin : frame.userPayloadBegin = some (IpHdr.ihl f)
  userPayloadEnd : frame.userPayloadEnd = f.userPayloadEnd

theorem fragOff_setTotLen (f : FrameBuf) (v : UInt16) :
    IpHdr.fragOff (IpHdr.setTotLen f v) = IpHdr.fragOff f := by
  unfold IpHdr.setTotLen FrameBuf.write16
  cases hnet : f.networkHdr with
  | none => rfl
  | some o =>
      simp only [IpHdr.fragOff, FrameBuf.pointee, hnet]
      apply load16_shift
      intro k _
      rw [byteAt_drop, byteAt_drop]
      exact byteAt_store16_of_disjoint _ _ (by lia)

theorem isHeadOf_adjustFirst (first : FrameBuf) (payloadlen : UInt16) :
    IsHeadOf (adjustFirst first payloadlen) first := by
  have hfragOff := fragOff_setTotLen first
    (ntohs (payloadlen + UInt16.ofNat (IpHdr.ihl first * 4)))
  cases hnet : first.networkHdr with
  | none =>
      have hsame : adjustFirst first payloadlen = first := by
        rw [adjustFirst, IpHdr.setTotLen, hnet]
        rfl
      rw [hsame]
      exact ⟨rfl, fun _ _ => rfl, rfl, rfl⟩
  | some o =>
      rcases first with ⟨rawBytes, _, _, _, _, _, _, _⟩
      cases hnet
      refine ⟨length_store16 _ _ _, ?_, rfl, hfragOff⟩
      intro i hi
      have hapart := hi o rfl
      exact byteAt_store16_of_disjoint _ _ (by lia)

theorem isNextOf_adjustNext (f : FrameBuf) : IsNextOf (adjustNext f) f :=
  ⟨rfl, rfl, rfl, rfl, rfl⟩

/-- A packet consists exactly of the fragments received for its key since the
group was made, and they are in sequence. -/
theorem packet_chain_in_sequence {frames : List FrameBuf}
    {groups : List FragGroup} {results : List (Option Skbuf)}
    (hrun : defragAll [] frames = some (groups, results)) {skbuf : FrameBuf}
    {groups' : List FragGroup} {packet : Skbuf}
    (hdefrag : defrag skbuf groups = some (groups', some packet)) :
    exists first rest,
      IsHeadOf packet.head first ∧
      List.Forall₂ IsNextOf packet.next rest ∧
      (first :: rest).Perm
        (receivedSince (fragKey skbuf) frames results ++ [skbuf]) ∧
      InSequence (first :: rest) := by
  rcases chain_of_packet hrun hdefrag with
    ⟨first, rest, rfl, hperm, hcomplete⟩
  have hnext : List.Forall₂ IsNextOf (rest.map adjustNext) rest := by
    rw [List.forall₂_map_left_iff, List.forall₂_same]
    exact fun f _ => isNextOf_adjustNext f
  exact ⟨first, rest, isHeadOf_adjustFirst first _, hnext, hperm,
    inSequence_of_complete hcomplete⟩

theorem packet_chain_between_other_fragments :
    exists packet first rest,
      defrag secondHalf.frame twoGroups =
        some ([{ key := fragKey otherHalf, first := [otherHalf] }],
          some packet) ∧
      IsHeadOf packet.head first ∧
      List.Forall₂ IsNextOf packet.next rest ∧
      (first :: rest).Perm
        (receivedSince datagramKey [firstHalf.frame, otherHalf] [none, none] ++
          [secondHalf.frame]) ∧
      InSequence (first :: rest) := by
  have hrun : defragAll [] [firstHalf.frame, otherHalf] =
      some (twoGroups, [none, none]) := by decide
  have hdefrag : defrag secondHalf.frame twoGroups =
      some ([{ key := fragKey otherHalf, first := [otherHalf] }],
        some (assemble firstHalf.frame [secondHalf.frame])) := by decide
  have hchain := packet_chain_in_sequence hrun hdefrag
  rw [secondHalf.key_eq] at hchain
  rcases hchain with ⟨first, rest, hhead, hnext, hperm, hseq⟩
  exact ⟨_, first, rest, hdefrag, hhead, hnext, hperm, hseq⟩

/-!
## The total length
-/

def chainLength (first : FrameBuf) (rest : List FrameBuf) : Int :=
  4 * IpHdr.ihl first + ((first :: rest).map fragPayloadLen).sum

/-- The total length of the packet is that of its chain, and it is a length
that an IP header can hold. -/
def PacketLengthLaw (packet : Skbuf) (first : FrameBuf) (rest : List FrameBuf) :
    Prop :=
  ((ntohs (IpHdr.totLen packet.head)).toNat : Int) = chainLength first rest ∧
    chainLength first rest <= 65535

theorem totLen_setTotLen {f : FrameBuf} (h : f.Received) (v : UInt16) :
    IpHdr.totLen (IpHdr.setTotLen f v) = v := by
  have hheader := h.header
  rw [IpHdr.setTotLen, h.networkHdr, IpHdr.totLen]
  show load16 (FrameBuf.pointee _ f.networkHdr) 2 = v
  rw [h.networkHdr]
  show load16 ((store16 f.rawBytes (0 + 2) v).drop 0) 2 = v
  rw [List.drop_zero]
  exact load16_store16 _ _ _ (by lia)

/-- The end of the last fragment is the length of all payloads. -/
theorem InSequence.payload_sum {chain before : List FrameBuf}
    {last : FrameBuf} (h : InSequence chain)
    (hsplit : before ++ [last] = chain) :
    (fragOffset last : Int) * 8 + fragPayloadLen last =
      (chain.map fragPayloadLen).sum := by
  rw [h.offset before last [] hsplit.symm, ← hsplit, List.map_append,
    List.sum_append, List.map_singleton, List.sum_singleton]

theorem totLen_assemble {first : FrameBuf} {rest : List FrameBuf}
    (hfirst : first.Received) (h : InSequence (first :: rest)) :
    ((ntohs (IpHdr.totLen (assemble first rest).head)).toNat : Int) =
      chainLength first rest % 65536 := by
  have hsum := h.payload_sum
    (List.dropLast_concat_getLast (List.cons_ne_nil first rest))
  show ((ntohs (IpHdr.totLen (IpHdr.setTotLen first _))).toNat : Int) = _
  rw [totLen_setTotLen hfirst, ntohs, ntohs, bswap16_bswap16, payloadLen,
    hsum, chainLength, UInt16.toNat_add, UInt16.toNat_ofNat',
    UInt16.toNat_ofNat']
  lia

/-- The written length is right exactly if the length of the chain is one that
16 bits hold. -/
theorem packetLength_iff_fits {frames : List FrameBuf} {groups : List FragGroup}
    {results : List (Option Skbuf)} {skbuf : FrameBuf}
    (hreceived : forall f, f ∈ frames ++ [skbuf] -> f.Received)
    (hrun : defragAll [] frames = some (groups, results))
    {groups' : List FragGroup} {packet : Skbuf}
    (hdefrag : defrag skbuf groups = some (groups', some packet)) :
    exists first rest, packet = assemble first rest ∧
      (first :: rest).Perm
        (receivedSince (fragKey skbuf) frames results ++ [skbuf]) ∧
      (PacketLengthLaw packet first rest <->
        0 <= chainLength first rest ∧ chainLength first rest <= 65535) := by
  rcases chain_of_packet hrun hdefrag with
    ⟨first, rest, hpacket, hperm, hcomplete⟩
  refine ⟨first, rest, hpacket, hperm, ?_⟩
  have hfirst : first.Received := by
    apply hreceived
    rcases List.mem_append.1 (hperm.mem_iff.1 List.mem_cons_self) with
      hmem | hmem
    · exact List.mem_append_left _ (mem_of_mem_receivedSince hmem)
    · exact List.mem_append_right _ hmem
  have hwritten := totLen_assemble hfirst (inSequence_of_complete hcomplete)
  rw [PacketLengthLaw, hpacket, hwritten]
  lia

theorem hostFragment_received (id len1 len0 frag1 frag0 : UInt8) :
    (hostFragment id len1 len0 frag1 frag0).Received :=
  ⟨rfl, rfl, show 20 <= 28 by decide⟩

theorem length_of_two_short_fragments :
    exists first rest,
      assemble firstHalf.frame [secondHalf.frame] = assemble first rest ∧
      (first :: rest).Perm
        (receivedSince (fragKey secondHalf.frame) [firstHalf.frame] [none] ++
          [secondHalf.frame]) ∧
      (PacketLengthLaw (assemble firstHalf.frame [secondHalf.frame])
          first rest <->
        0 <= chainLength first rest ∧ chainLength first rest <= 65535) := by
  refine packetLength_iff_fits ?_
    (show defragAll [] [firstHalf.frame] =
      some ([{ key := datagramKey, first := [firstHalf.frame] }], [none]) by
        decide)
    (show defrag secondHalf.frame
        [{ key := datagramKey, first := [firstHalf.frame] }] =
      some ([], some (assemble firstHalf.frame [secondHalf.frame])) by decide)
  intro f hf
  rcases List.mem_cons.1 hf with rfl | hrest
  · exact ⟨rfl, rfl, by decide⟩
  · cases List.mem_singleton.1 hrest
    exact ⟨rfl, rfl, by decide⟩

/-- A first fragment whose header gives it 65504 bytes. -/
def longFirst : FrameBuf := hostFragment 0x34 0xff 0xf4 0x20 0

def farLast : FrameBuf := hostFragment 0x34 0 120 0x1f 0xfc

/-- The length of the packet is 65624, and 88 is written. -/
theorem length_wraps_at_last_fragment :
    longFirst.Received ∧ farLast.Received ∧
      (defragAll [] [longFirst, farLast]).map Prod.snd =
        some [none, some (assemble longFirst [farLast])] ∧
      (ntohs (IpHdr.totLen (assemble longFirst [farLast]).head)).toNat = 88 ∧
      chainLength longFirst [farLast] = 65624 ∧
      ¬ PacketLengthLaw (assemble longFirst [farLast]) longFirst [farLast] := by
  have hlength : chainLength longFirst [farLast] = 65624 := by decide
  refine ⟨hostFragment_received _ _ _ _ _, hostFragment_received _ _ _ _ _,
    by decide, by decide, hlength, ?_⟩
  intro h
  have hfits := h.2
  rw [hlength] at hfits
  cases hfits

end Reassembler

end Velox
