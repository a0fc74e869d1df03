import Velox.Ip.Bounds
import Velox.Tcp.Acknowledge

/-!
# The advance of an acknowledgement

`TcpSession::recv` acknowledges the payload of the head frame, while
`drain_skbuf_chain` walks the whole chain.  The two measure the same segment
only if nothing is linked behind the head.
-/

namespace Velox

open Foundation

/-!
## Frames behind the head
-/

/-- Of a frame that is linked behind another one, part of the IP header is
left, so the frame is never empty. -/
theorem FragGroup.adjustNext_pos {f : FrameBuf} (h : f.Received) :
    0 < (adjustNext f).userPayloadLen := by
  have hihl : IpHdr.ihl f < 16 := Nat.mod_lt _ (by decide)
  have hheader := h.header
  show 0 < FrameBuf.pointerDiff f.userPayloadEnd (some (IpHdr.ihl f))
  rw [h.userPayloadEnd, FrameBuf.pointerDiff]
  lia

theorem Ip.reassemble_next {groups groups' : List FragGroup}
    {skbuf : FrameBuf} {packet : Skbuf} (hheld : HeldReceived groups)
    (hskbuf : skbuf.Received)
    (h : reassemble groups skbuf = some (groups', some packet)) :
    forall f, f ∈ packet.next ->
      exists curr, curr.Received ∧ f = FragGroup.adjustNext curr := by
  unfold reassemble at h
  by_cases hfrag : IpHdrs.isFrag skbuf = true
  · rw [if_pos hfrag] at h
    rcases (Reassembler.defrag_leaves h).right packet rfl with
      ⟨first, rest, hsub, rfl⟩
    intro f hf
    rcases List.mem_map.1 hf with ⟨curr, hcurr, rfl⟩
    refine ⟨curr, ?_, rfl⟩
    rcases List.mem_cons.1 (hsub (List.mem_cons_of_mem first hcurr)) with
      rfl | hmem
    · exact hskbuf
    · exact hheld curr hmem
  · rw [if_neg hfrag] at h
    cases h
    exact List.forall_mem_nil _

theorem drainSkbufChain_eq_nil {frames : List FrameBuf}
    (h : forall f, f ∈ frames -> f.PayloadInside ∧ 0 < f.userPayloadLen) :
    drainSkbufChain frames = [] <-> frames = [] := by
  cases frames with
  | nil => exact ⟨fun _ => rfl, fun _ => rfl⟩
  | cons f rest =>
      rcases h f List.mem_cons_self with ⟨hinside, hpos⟩
      refine ⟨fun hnil => ?_,
        fun hcons => absurd hcons (List.cons_ne_nil f rest)⟩
      rw [drainSkbufChain_cons hinside] at hnil
      have hempty := (List.append_eq_nil_iff.1 hnil).left
      have hlen := hinside.length_eq
      rw [hempty, List.length_nil] at hlen
      lia

/-!
## One segment
-/

namespace TcpSession

/-- The segment goes into the queue, and the number that acknowledges it
exceeds its own by the bytes that the entry drains to. -/
def AdvanceLaw (s : TcpSession) (peerAddr : SockaddrIn) (skbuf : Skbuf) :
    Prop :=
  exists entry f payload,
    .putToRecvQ peerAddr entry ∈ (s.recv peerAddr skbuf).2 ∧
      .tx f payload ∈ (s.recv peerAddr skbuf).2 ∧
      (ntohl (TcpHdr.ackSeq f) - ntohl (TcpHdr.seq skbuf.head)).toNat =
        (drainSkbufChain entry.frames).length

theorem toNat_add_ofInt_sub (seq : UInt32) {n : Nat} (hlt : n < 2 ^ 32) :
    (seq + UInt32.ofInt n - seq).toNat = n := by
  rw [Receiver.ofInt_natCast hlt, UInt32.add_comm, UInt32.add_sub_cancel,
    UInt32.toNat_ofNat', Nat.mod_eq_of_lt hlt]

/-- The advance of the acknowledgement is the payload of the head frame. -/
theorem ack_advance (s : TcpSession) {f : FrameBuf}
    (hfits : (stripTcpHdr f).PayloadInside) :
    ((s.dataReceived f).recvNext - ntohl (TcpHdr.seq f)).toNat =
      (stripTcpHdr f).userPayload.length := by
  have hlt : (stripTcpHdr f).userPayload.length < 2 ^ 32 := by
    rcases hfits with ⟨b, e, hbegin, hend, _, hsize⟩
    have hmax := (stripTcpHdr f).size_le
    rw [FrameBuf.userPayload, hbegin, hend, FrameBuf.range, List.length_take,
      List.length_drop]
    rw [maxRawBytesSize] at hmax
    lia
  show (ntohl (TcpHdr.seq f) + UInt32.ofInt (stripTcpHdr f).userPayloadLen -
    ntohl (TcpHdr.seq f)).toNat = _
  rw [← hfits.length_eq, toNat_add_ofInt_sub _ hlt]

theorem advanceLaw_iff {s : TcpSession} (hestab : s.connState = .established)
    (peerAddr : SockaddrIn) {skbuf : Skbuf}
    (hfits : (stripTcpHdr skbuf.head).PayloadInside)
    (hdata : drainSkbufChain (stripHead skbuf).frames ≠ []) :
    s.AdvanceLaw peerAddr skbuf <-> drainSkbufChain skbuf.next = [] := by
  have hchain : drainSkbufChain (stripHead skbuf).frames =
      (stripTcpHdr skbuf.head).userPayload ++ drainSkbufChain skbuf.next :=
    drainSkbufChain_cons hfits skbuf.next
  by_cases hlen : (stripTcpHdr skbuf.head).userPayloadLen = 0
  · -- the payload is all behind the head: the segment is dropped silently
    have hempty : (stripTcpHdr skbuf.head).userPayload = [] := by
      apply List.eq_nil_of_length_eq_zero
      have hhead := hfits.length_eq
      lia
    rw [hchain, hempty, List.nil_append] at hdata
    refine ⟨?_, fun hnil => absurd hnil hdata⟩
    rintro ⟨entry, f, payload, hentry, _⟩
    rw [recv_empty hestab peerAddr hlen] at hentry
    cases hentry
  · have hlaw : s.AdvanceLaw peerAddr skbuf <->
        (stripTcpHdr skbuf.head).userPayload.length =
          (drainSkbufChain (stripHead skbuf).frames).length := by
      rw [← s.ack_advance hfits, AdvanceLaw, recv_data hestab peerAddr hlen]
      constructor
      · rintro ⟨entry, f, payload, hentry, hack, heq⟩
        rcases List.mem_cons.1 hentry with hfirst | hrest
        · cases hfirst
          rcases List.mem_cons.1 hack with hput | htx
          · cases hput
          · have hframe := (Effect.tx.inj (List.mem_singleton.1 htx)).left
            rw [hframe, ackSegment_ackSeq] at heq
            exact heq
        · exact absurd (List.mem_singleton.1 hrest) nofun
      · intro heq
        refine ⟨_, _, _, List.mem_cons_self,
          List.mem_cons_of_mem _ List.mem_cons_self, ?_⟩
        rw [ackSegment_ackSeq]
        exact heq
    rw [hlaw, hchain, List.length_append, Nat.left_eq_add,
      List.length_eq_zero_iff]

/-!
## Segments from the IP layer
-/

/-- For a data segment that the IP layer passes on, whatever the stack has
been through, the advance is that of the bytes delivered exactly if no frame
is linked behind the head. -/
theorem advanceLaw_iff_single_frame {ρ : Type} [DecidableEq ρ]
    {st st' : Stack ρ} {acts : List (StackAct ρ)} (hinit : st.groups = [])
    (hrun : run Stack.step st acts = some st') {frame : Bytes}
    (hheader : 20 <= (TunIface.rx frame).rawBytes.length)
    {groups : List FragGroup} {packet : Skbuf}
    (hpacket : Ip.reassemble st'.groups (TunIface.rx frame) =
      some (groups, some packet))
    {s : TcpSession} (hestab : s.connState = .established)
    (peerAddr : SockaddrIn) {skbuf : Skbuf}
    (hskbuf : skbuf = Ip.withTransportHdr (TunIface.rx frame) packet)
    (hfits : (stripTcpHdr skbuf.head).PayloadInside)
    (hdata : drainSkbufChain (stripHead skbuf).frames ≠ []) :
    s.AdvanceLaw peerAddr skbuf <-> skbuf.next = [] := by
  have hheld : Ip.HeldReceived st'.groups := Stack.heldReceived_run hinit hrun
  have hnext := Ip.reassemble_next hheld (Ip.rx_received hheader) hpacket
  rw [advanceLaw_iff hestab peerAddr hfits hdata]
  subst hskbuf
  apply drainSkbufChain_eq_nil
  intro f hf
  rcases hnext f hf with ⟨curr, hcurr, rfl⟩
  exact ⟨FragGroup.adjustNext_inside hcurr, FragGroup.adjustNext_pos hcurr⟩

def segmentIpHdr (totLen flags off : UInt8) : Bytes :=
  [0x45, 0, 0, totLen, 0x12, 0x34, flags, off, 64, 6, 0, 0, 192, 168, 0, 2,
    192, 168, 0, 1]

def segmentTcpHdr : Bytes :=
  [0, 80, 4, 1, 0, 0, 0, 8, 0, 0, 0, 2, 0x50, 0x10, 16, 0, 0, 0, 0, 0]

def wholeSegment : Bytes :=
  segmentIpHdr 48 0 0 ++ segmentTcpHdr ++ [1, 2, 3, 4, 5, 6, 7, 8]

def wholeSkbuf : Skbuf :=
  Ip.withTransportHdr (TunIface.rx wholeSegment) ⟨TunIface.rx wholeSegment, []⟩

theorem advanceLaw_of_whole_segment :
    run Stack.step Stack.quiet [] = some Stack.quiet ∧
      establishedSession.AdvanceLaw (SockaddrIn.inet 0 0) wholeSkbuf := by
  have hfits : (stripTcpHdr wholeSkbuf.head).PayloadInside :=
    ⟨40, 48, by decide, by decide, by decide, by decide⟩
  have hdata : drainSkbufChain (stripHead wholeSkbuf).frames ≠ [] := by decide
  refine ⟨rfl, ?_⟩
  exact (@advanceLaw_iff_single_frame Unit _ Stack.quiet Stack.quiet [] rfl rfl
    wholeSegment (by decide) [] _ rfl establishedSession rfl _ wholeSkbuf rfl
    hfits hdata).2 rfl

/-- The same segment in two fragments, of 24 and of 4 bytes. -/
def firstFragment : Bytes :=
  segmentIpHdr 44 0x20 0 ++ segmentTcpHdr ++ [1, 2, 3, 4]

def secondFragment : Bytes :=
  segmentIpHdr 24 0 3 ++ [5, 6, 7, 8]

def afterFirst : Stack Unit :=
  (Stack.quiet.step (.frame (SockaddrIn.inet 0 0) firstFragment)).getD
    Stack.quiet

def splitPacket : Skbuf :=
  FragGroup.assemble (TunIface.rx firstFragment) [TunIface.rx secondFragment]

def splitSkbuf : Skbuf :=
  Ip.withTransportHdr (TunIface.rx secondFragment) splitPacket

/-- Four bytes are acknowledged and 23 are delivered: the four of the head,
fifteen of the second IP header, and the other four. -/
theorem split_segment_advance :
    run Stack.step Stack.quiet
        [.frame (SockaddrIn.inet 0 0) firstFragment] = some afterFirst ∧
      Ip.reassemble afterFirst.groups (TunIface.rx secondFragment) =
        some ([], some splitPacket) ∧
      (establishedSession.dataReceived splitSkbuf.head).recvNext -
        ntohl (TcpHdr.seq splitSkbuf.head) = 4 ∧
      (drainSkbufChain (stripHead splitSkbuf).frames).length = 23 ∧
      ¬ establishedSession.AdvanceLaw (SockaddrIn.inet 0 0) splitSkbuf := by
  have hfits : (stripTcpHdr splitSkbuf.head).PayloadInside :=
    ⟨40, 44, by decide, by decide, by decide, by decide⟩
  have hdrained : (drainSkbufChain (stripHead splitSkbuf).frames).length = 23 :=
    by decide
  have hdata : drainSkbufChain (stripHead splitSkbuf).frames ≠ [] := by decide
  refine ⟨rfl, by decide, by decide, hdrained, ?_⟩
  intro hlaw
  have hnil := (advanceLaw_iff rfl (SockaddrIn.inet 0 0) hfits hdata).1 hlaw
  exact absurd hnil (by decide)

end TcpSession

end Velox
