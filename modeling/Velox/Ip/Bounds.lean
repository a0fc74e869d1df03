import Velox.Foundation.Runs
import Velox.Ip.Accesses

/-!
# Bounds of the receive path

The only length that the receive path tests is that of the IP header without
options, so the fields of that header are always inside the received bytes.
What else has to hold of a frame depends on the session it reaches; `Ip.Fits`
says it for every stack that frames and sessions can lead to.
-/

namespace Velox

open Foundation

/-!
## Fields of the IP header
-/

/-- A frame that has passed the length test. -/
structure FrameBuf.Received (f : FrameBuf) : Prop where
  networkHdr : f.networkHdr = some 0
  userPayloadEnd : f.userPayloadEnd = some f.rawBytes.length
  header : 20 <= f.rawBytes.length

theorem FrameBuf.Received.field_safe {f : FrameBuf} (h : f.Received)
    {off len : Nat} (hlen : off + len <= 20) :
    (Access.field f f.networkHdr off len).Safe := by
  rw [h.networkHdr]
  show 0 + off + len <= f.rawBytes.length
  have hheader := h.header
  omega

def HeaderAccess (frames : List FrameBuf) (a : Access) : Prop :=
  exists f off len, f ∈ frames ∧ off + len <= 20 ∧
    a = .field f f.networkHdr off len

theorem HeaderAccess.safe {frames : List FrameBuf} {a : Access}
    (h : HeaderAccess frames a)
    (hreceived : forall f, f ∈ frames -> f.Received) : a.Safe := by
  rcases h with ⟨f, off, len, hmem, hlen, rfl⟩
  exact (hreceived f hmem).field_safe hlen

theorem HeaderAccess.mono {frames frames' : List FrameBuf} {a : Access}
    (h : HeaderAccess frames a) (hsub : frames ⊆ frames') :
    HeaderAccess frames' a := by
  rcases h with ⟨f, off, len, hmem, hlen, rfl⟩
  exact ⟨f, off, len, hsub hmem, hlen, rfl⟩

section Reads

variable {f : FrameBuf} {frames : List FrameBuf} (hmem : f ∈ frames)

include hmem

theorem headerAccess_ihl : HeaderAccess frames (IpHdr.ihlRead f) :=
  ⟨f, 0, 1, hmem, by decide, rfl⟩

theorem headerAccess_totLen : HeaderAccess frames (IpHdr.totLenRead f) :=
  ⟨f, 2, 2, hmem, by decide, rfl⟩

theorem headerAccess_fragOff : HeaderAccess frames (IpHdr.fragOffRead f) :=
  ⟨f, 6, 2, hmem, by decide, rfl⟩

theorem headerAccess_key {a : Access} (ha : a ∈ Reassembler.keyReads f) :
    HeaderAccess frames a := by
  simp only [Reassembler.keyReads, List.mem_cons, List.not_mem_nil,
    or_false] at ha
  rcases ha with rfl | rfl | rfl | rfl
  · exact ⟨f, 4, 2, hmem, by decide, rfl⟩
  · exact ⟨f, 9, 1, hmem, by decide, rfl⟩
  · exact ⟨f, 12, 4, hmem, by decide, rfl⟩
  · exact ⟨f, 16, 4, hmem, by decide, rfl⟩

end Reads

/-!
## Reassembly

Every access of `defrag` is to the IP header of the new frame or of a frame
in a group.
-/

namespace FragGroup

theorem walkReads_header {skbuf : FrameBuf} {frames : List FrameBuf}
    {a : Access} (ha : a ∈ walkReads skbuf frames) :
    HeaderAccess frames a := by
  induction frames with
  | nil => cases ha
  | cons curr rest ih =>
      rw [walkReads] at ha
      rcases List.mem_cons.1 ha with rfl | hrest
      · exact headerAccess_fragOff List.mem_cons_self
      · by_cases hlt : fragOffset curr < oursOff skbuf
        · rw [if_pos hlt] at hrest
          exact (ih hrest).mono (List.subset_cons_self curr rest)
        · rw [if_neg hlt] at hrest
          cases hrest

theorem linkReads_header {skbuf : FrameBuf} {frames : List FrameBuf}
    {a : Access} (ha : a ∈ linkReads skbuf frames) :
    HeaderAccess (skbuf :: frames) a := by
  cases frames with
  | nil => cases ha
  | cons first rest =>
      rw [linkReads] at ha
      rcases List.mem_cons.1 ha with rfl | ha
      · exact headerAccess_fragOff
          (List.mem_cons_of_mem skbuf List.mem_cons_self)
      rcases List.mem_cons.1 ha with rfl | ha
      · exact headerAccess_fragOff List.mem_cons_self
      by_cases hfront : fragOffset skbuf < fragOffset first
      · rw [if_pos hfront] at ha
        cases ha
      · rw [if_neg hfront] at ha
        rcases List.mem_cons.1 ha with rfl | ha
        · exact headerAccess_fragOff List.mem_cons_self
        · exact (walkReads_header ha).mono (List.subset_cons_self skbuf _)

theorem contiguousReads_header {frames : List FrameBuf} {expectedOff : Int}
    {a : Access} (ha : a ∈ contiguousReads expectedOff frames) :
    HeaderAccess frames a := by
  induction frames generalizing expectedOff with
  | nil => cases ha
  | cons curr rest ih =>
      rw [contiguousReads] at ha
      rcases List.mem_cons.1 ha with rfl | ha
      · exact headerAccess_fragOff List.mem_cons_self
      by_cases hoff : (fragOffset curr : Int) * 8 = expectedOff
      · rw [if_pos hoff] at ha
        rcases List.mem_cons.1 ha with rfl | ha
        · exact headerAccess_totLen List.mem_cons_self
        rcases List.mem_cons.1 ha with rfl | ha
        · exact headerAccess_ihl List.mem_cons_self
        · exact (ih ha).mono (List.subset_cons_self curr rest)
      · rw [if_neg hoff] at ha
        cases ha

theorem lastReads_header {frames : List FrameBuf} {a : Access}
    (ha : a ∈ lastReads frames) : HeaderAccess frames a := by
  unfold lastReads at ha
  cases hlast : frames.getLast? with
  | none =>
      rw [hlast] at ha
      cases ha
  | some last =>
      rw [hlast] at ha
      have hmem : last ∈ frames := List.mem_of_getLast? hlast
      rcases List.mem_cons.1 ha with rfl | ha
      · exact headerAccess_fragOff hmem
      by_cases hmore : moreFragments last = true
      · rw [if_pos hmore] at ha
        cases ha
      · rw [if_neg hmore] at ha
        rcases List.mem_cons.1 ha with rfl | ha
        · exact headerAccess_totLen hmem
        · rw [List.mem_singleton.1 ha]
          exact headerAccess_ihl hmem

theorem completeReads_header {frames : List FrameBuf} {a : Access}
    (ha : a ∈ completeReads frames) : HeaderAccess frames a := by
  rcases List.mem_append.1 ha with ha | ha
  · exact contiguousReads_header ha
  · by_cases hcontiguous : contiguous 0 frames = true
    · rw [if_pos hcontiguous] at ha
      exact lastReads_header ha
    · rw [if_neg hcontiguous] at ha
      cases ha

theorem assembleReads_header {frames : List FrameBuf} {a : Access}
    (ha : a ∈ assembleReads frames) : HeaderAccess frames a := by
  cases frames with
  | nil => cases ha
  | cons first rest =>
      rw [assembleReads] at ha
      rcases List.mem_cons.1 ha with rfl | ha
      · exact headerAccess_ihl List.mem_cons_self
      rcases List.mem_cons.1 ha with rfl | ha
      · exact headerAccess_totLen List.mem_cons_self
      · rcases List.mem_map.1 ha with ⟨curr, hcurr, rfl⟩
        exact headerAccess_ihl (List.mem_cons_of_mem first hcurr)

theorem addReads_header {g : FragGroup} {skbuf : FrameBuf} {a : Access}
    (ha : a ∈ g.addReads skbuf) : HeaderAccess (skbuf :: g.first) a := by
  rcases List.mem_append.1 ha with ha | ha
  · exact linkReads_header ha
  · cases hlink : link skbuf g.first with
    | none =>
        rw [hlink] at ha
        cases ha
    | some frames =>
        rw [hlink] at ha
        have hsub := (link_perm hlink).subset
        rcases List.mem_append.1 ha with ha | ha
        · exact (completeReads_header ha).mono hsub
        · by_cases hcomplete : complete frames = true
          · rw [if_pos hcomplete] at ha
            exact (assembleReads_header ha).mono hsub
          · rw [if_neg hcomplete] at ha
            cases ha

end FragGroup

namespace Reassembler

def held (groups : List FragGroup) : List FrameBuf :=
  groups.flatMap FragGroup.first

theorem defragReads_header {skbuf : FrameBuf} {groups : List FragGroup}
    {a : Access} (ha : a ∈ defragReads skbuf groups) :
    HeaderAccess (skbuf :: held groups) a := by
  induction groups with
  | nil =>
      rcases List.mem_append.1 ha with ha | ha
      · exact headerAccess_key List.mem_cons_self ha
      · exact FragGroup.addReads_header ha
  | cons g rest ih =>
      have hheld : held (g :: rest) = g.first ++ held rest := rfl
      rw [hheld]
      rcases List.mem_append.1 ha with ha | ha
      · exact headerAccess_key List.mem_cons_self ha
      by_cases hkey : g.key = fragKey skbuf
      · rw [if_pos hkey] at ha
        apply (FragGroup.addReads_header ha).mono
        exact List.cons_subset_cons skbuf (List.subset_append_left _ _)
      · rw [if_neg hkey] at ha
        apply (ih ha).mono
        exact List.cons_subset_cons skbuf (List.subset_append_right _ _)

/-- What a call of `defrag` leaves: groups of frames that it got, and at most
one packet assembled from such frames. -/
def Leaves (frames : List FrameBuf) (groups : List FragGroup)
    (result : Option Skbuf) : Prop :=
  held groups ⊆ frames ∧
    forall packet, result = some packet ->
      exists first rest, first :: rest ⊆ frames ∧
        packet = FragGroup.assemble first rest

theorem Leaves.mono {frames frames' : List FrameBuf}
    {groups : List FragGroup} {result : Option Skbuf}
    (h : Leaves frames groups result) (hsub : frames ⊆ frames') :
    Leaves frames' groups result := by
  refine ⟨fun f hf => hsub (h.left hf), ?_⟩
  intro packet hpacket
  rcases h.right packet hpacket with ⟨first, rest, hfirst, heq⟩
  exact ⟨first, rest, fun f hf => hsub (hfirst hf), heq⟩

theorem add_leaves {g : FragGroup} {skbuf : FrameBuf}
    {kept : Option FragGroup} {result : Option Skbuf}
    (h : g.add skbuf = some (kept, result)) :
    Leaves (skbuf :: g.first) kept.toList result := by
  have hcase := g.add_cases skbuf
  rw [h] at hcase
  cases hcase with
  | kept frames hlink _ =>
      constructor
      · show frames ++ [] ⊆ _
        rw [List.append_nil]
        exact (FragGroup.link_perm hlink).subset
      · nofun
  | packet first rest hlink _ =>
      constructor
      · exact List.nil_subset _
      · intro packet hpacket
        cases hpacket
        exact ⟨first, rest, (FragGroup.link_perm hlink).subset, rfl⟩

theorem defrag_leaves {skbuf : FrameBuf} {groups groups' : List FragGroup}
    {result : Option Skbuf} (h : defrag skbuf groups = some (groups', result)) :
    Leaves (skbuf :: held groups) groups' result := by
  induction groups generalizing groups' with
  | nil =>
      rcases Option.map_eq_some_iff.1 h with ⟨⟨kept, packet⟩, hadd, heq⟩
      cases heq
      exact add_leaves hadd
  | cons g rest ih =>
      have hheld : forall gs, held (g :: gs) = g.first ++ held gs :=
        fun _ => rfl
      rw [defrag] at h
      rw [hheld]
      by_cases hkey : g.key = fragKey skbuf
      · rw [if_pos hkey] at h
        rcases Option.map_eq_some_iff.1 h with ⟨⟨kept, packet⟩, hadd, heq⟩
        cases heq
        have hleaves := (add_leaves hadd).mono
          (List.cons_subset_cons skbuf (List.subset_append_left _ (held rest)))
        refine ⟨?_, hleaves.right⟩
        show held (kept.toList ++ rest) ⊆ _
        rw [held, List.flatMap_append]
        apply List.append_subset.2
        constructor
        · exact hleaves.left
        · exact List.subset_cons_of_subset _ (List.subset_append_right _ _)
      · rw [if_neg hkey] at h
        rcases Option.map_eq_some_iff.1 h with ⟨⟨later, packet⟩, hrest, heq⟩
        cases heq
        have hleaves := (ih hrest).mono
          (List.cons_subset_cons skbuf (List.subset_append_right g.first _))
        refine ⟨?_, hleaves.right⟩
        rw [hheld]
        apply List.append_subset.2
        constructor
        · exact List.subset_cons_of_subset _ (List.subset_append_left _ _)
        · exact hleaves.left

end Reassembler

/-- A packet of received frames: the first has its IP header, the others are
ready to be drained. -/
structure Skbuf.Received (skbuf : Skbuf) : Prop where
  head : skbuf.head.Received
  next : forall f, f ∈ skbuf.next -> f.PayloadInside

theorem FragGroup.adjustFirst_received {f : FrameBuf} (h : f.Received)
    (payloadlen : UInt16) : (adjustFirst f payloadlen).Received := by
  unfold adjustFirst IpHdr.setTotLen
  rw [h.networkHdr]
  refine ⟨h.networkHdr, ?_, ?_⟩
  · show f.userPayloadEnd = some (store16 f.rawBytes _ _).length
    rw [length_store16]
    exact h.userPayloadEnd
  · show 20 <= (store16 f.rawBytes _ _).length
    rw [length_store16]
    exact h.header

theorem FragGroup.adjustNext_inside {f : FrameBuf} (h : f.Received) :
    (adjustNext f).PayloadInside := by
  have hihl : IpHdr.ihl f < 16 := Nat.mod_lt _ (by decide)
  have hheader := h.header
  refine ⟨_, _, rfl, h.userPayloadEnd, ?_, Nat.le_refl _⟩
  omega

theorem FragGroup.assemble_received {first : FrameBuf} {rest : List FrameBuf}
    (h : forall f, f ∈ first :: rest -> f.Received) :
    (assemble first rest).Received := by
  constructor
  · exact adjustFirst_received (h first List.mem_cons_self) _
  · intro f hf
    rcases List.mem_map.1 hf with ⟨curr, hcurr, rfl⟩
    exact adjustNext_inside (h curr (List.mem_cons_of_mem first hcurr))

/-!
## The sessions

`o` is the offset of the transport header.
-/

def TcpSession.Fits (ndebug : Bool) (s : TcpSession) (so : Endpoint)
    (f : FrameBuf) (o : Nat) : Prop :=
  match s.connState with
  | .synSent =>
      o + 8 <= f.rawBytes.length ∧
        (ndebug = false -> o + 14 <= f.rawBytes.length)
  | .established =>
      o + 14 <= f.rawBytes.length ∧
        (so.recvQOverLimit = false ->
          o + TcpHdr.doff f * 4 <= f.rawBytes.length)
  | _ => True

section Sessions

variable {skbuf : Skbuf} {o : Nat} (h : skbuf.Received)
  (ho : skbuf.head.transportHdr = some o)

include ho in
theorem transportField_safe (off len : Nat) :
    (Access.field skbuf.head skbuf.head.transportHdr off len).Safe <->
      o + off + len <= skbuf.head.rawBytes.length := by
  rw [ho]
  exact Iff.rfl

include h in
theorem queued_safe {b : Nat} :
    (Access.queued { skbuf with
      head := { skbuf.head with userPayloadBegin := some b } }).Safe <->
      b <= skbuf.head.rawBytes.length := by
  have hhead : FrameBuf.PayloadInside
      { skbuf.head with userPayloadBegin := some b } <->
        b <= skbuf.head.rawBytes.length := by
    constructor
    · rintro ⟨_, _, hbegin, _, hle, hsize⟩
      cases hbegin
      exact Nat.le_trans hle hsize
    · intro hle
      exact ⟨_, _, rfl, h.head.userPayloadEnd, hle, Nat.le_refl _⟩
  rw [← hhead]
  constructor
  · intro hsafe
    exact hsafe _ List.mem_cons_self
  · intro hinside f hf
    rcases List.mem_cons.1 hf with rfl | hf
    · exact hinside
    · exact h.next f hf

include h ho

theorem UdpSession.recv_safe_iff (so : Endpoint) (peerAddr : SockaddrIn) :
    (forall a, a ∈ UdpSession.recvAccesses so peerAddr skbuf -> a.Safe) <->
      (so.recvQOverLimit = false ->
        o + 8 <= skbuf.head.rawBytes.length) := by
  unfold UdpSession.recvAccesses UdpSession.recv
  rw [ho, ← queued_safe h]
  cases hroom : so.recvQOverLimit with
  | true => simp [Endpoint.accesses, hroom]
  | false => simp [Endpoint.accesses, hroom]

theorem TcpSession.put_safe_iff {s : TcpSession}
    (hestab : s.connState = .established)
    (hlen : (stripTcpHdr skbuf.head).userPayloadLen ≠ 0) (so : Endpoint)
    (peerAddr : SockaddrIn) :
    (forall a, a ∈ (s.recv peerAddr skbuf).2.flatMap so.accesses -> a.Safe) <->
      (so.recvQOverLimit = false ->
        o + TcpHdr.doff skbuf.head * 4 <= skbuf.head.rawBytes.length) := by
  have hstrip : stripHead skbuf = { skbuf with head := { skbuf.head with
      userPayloadBegin := some (o + TcpHdr.doff skbuf.head * 4) } } := by
    simp only [stripHead, stripTcpHdr, ho, Option.map_some]
  have hput : (s.recv peerAddr skbuf).2.flatMap so.accesses =
      if so.recvQOverLimit then [] else [.queued (stripHead skbuf)] := by
    rw [recv_data hestab peerAddr hlen]
    exact List.append_nil _
  rw [hput, hstrip, ← queued_safe h]
  cases hroom : so.recvQOverLimit with
  | true => simp
  | false => simp

theorem stripTcpHdr_empty
    (hlen : (TcpSession.stripTcpHdr skbuf.head).userPayloadLen = 0) :
    o + TcpHdr.doff skbuf.head * 4 <= skbuf.head.rawBytes.length := by
  have hdiff : (TcpSession.stripTcpHdr skbuf.head).userPayloadLen =
      (skbuf.head.rawBytes.length : Int) -
        ((o + TcpHdr.doff skbuf.head * 4 : Nat) : Int) := by
    unfold TcpSession.stripTcpHdr FrameBuf.userPayloadLen
    dsimp only
    rw [h.head.userPayloadEnd, ho]
    rfl
  omega

omit h in
theorem ackRead_safe (hflags : o + 13 + 1 <= skbuf.head.rawBytes.length) :
    forall a, a ∈ (if TcpHdr.ack skbuf.head then
      [TcpHdr.ackSeqRead skbuf.head] else []) -> a.Safe := by
  intro a ha
  split at ha
  · rw [List.mem_singleton.1 ha, TcpHdr.ackSeqRead, transportField_safe ho]
    omega
  · cases ha

theorem TcpSession.recv_safe_iff (ndebug : Bool) (s : TcpSession)
    (so : Endpoint) (peerAddr : SockaddrIn) :
    (forall a, a ∈ s.recvAccesses ndebug so peerAddr skbuf -> a.Safe) <->
      s.Fits ndebug so skbuf.head o := by
  have hfield := transportField_safe ho
  unfold TcpSession.recvAccesses TcpSession.Fits
  cases hstate : s.connState with
  | synSent =>
      dsimp only
      rw [List.forall_mem_append, List.forall_mem_singleton, TcpHdr.seqRead,
        hfield]
      cases ndebug with
      | true => simp
      | false =>
          simp only [Bool.false_eq_true, if_false, List.forall_mem_singleton,
            TcpHdr.flagsRead, hfield, forall_const]
          omega
  | established =>
      have hack := ackRead_safe ho
      dsimp only
      rw [List.forall_mem_cons, List.forall_mem_append, List.forall_mem_cons,
        TcpHdr.flagsRead, TcpHdr.doffRead, hfield, hfield]
      by_cases hlen : (stripTcpHdr skbuf.head).userPayloadLen = 0
      · have hnot : ¬ (stripTcpHdr skbuf.head).userPayloadLen ≠ 0 :=
          not_not.2 hlen
        rw [if_neg hnot]
        have hroom := stripTcpHdr_empty h ho hlen
        constructor
        · intro hsafe
          exact ⟨hsafe.left, fun _ => hroom⟩
        · intro hfits
          refine ⟨hfits.left, hack hfits.left, ?_, List.forall_mem_nil _⟩
          exact Nat.le_of_succ_le hfits.left
      · have hsome : (stripTcpHdr skbuf.head).userPayloadLen ≠ 0 := hlen
        rw [if_pos hsome, List.forall_mem_append, List.forall_mem_singleton,
          TcpHdr.seqRead, hfield,
          TcpSession.put_safe_iff h ho hstate hlen so peerAddr]
        constructor
        · intro hsafe
          exact ⟨hsafe.left, hsafe.right.right.right.left⟩
        · intro hfits
          refine ⟨hfits.left, hack hfits.left, ?_, hfits.right, ?_⟩
          · exact Nat.le_of_succ_le hfits.left
          · have hflags := hfits.left
            omega
  | closed | listen | synReceived | finWait1 | finWait2 | closing |
    timeWait | closeWait | lastAck => simp

end Sessions

/-!
## The transport layers
-/

section Transports

variable {ρ : Type}

def Udp.Fits (st : Stack ρ) (skbufHead : Skbuf) (o : Nat) : Prop :=
  let f := skbufHead.head
  o + 4 <= f.rawBytes.length ∧
    match Sessions.find st.lock st.udpPcbs (IpHdr.saddr f) (UdpHdr.source f)
        (IpHdr.daddr f) (UdpHdr.dest f) with
    | none => True
    | some pcb =>
        match st.socks pcb with
        | some ⟨so, .udp _⟩ =>
            so.recvQOverLimit = false -> o + 8 <= f.rawBytes.length
        | _ => True

def Tcp.Fits (ndebug : Bool) (st : Stack ρ) (skbufHead : Skbuf) (o : Nat) :
    Prop :=
  let f := skbufHead.head
  o + 4 <= f.rawBytes.length ∧
    match Sessions.find st.lock st.tcpPcbs (IpHdr.saddr f) (TcpHdr.source f)
        (IpHdr.daddr f) (TcpHdr.dest f) with
    | none => True
    | some pcb =>
        match st.socks pcb with
        | some ⟨so, .tcp s⟩ => s.Fits ndebug so f o
        | _ => True

variable {skbuf : Skbuf} {o : Nat} (h : skbuf.Received)
  (ho : skbuf.head.transportHdr = some o)

include h ho

theorem tuple_safe_iff :
    (forall a, a ∈ [IpHdr.saddrRead skbuf.head, IpHdr.daddrRead skbuf.head,
      UdpHdr.sourceRead skbuf.head, UdpHdr.destRead skbuf.head] -> a.Safe) <->
      o + 4 <= skbuf.head.rawBytes.length := by
  have hfield := transportField_safe ho
  have hsaddr : (IpHdr.saddrRead skbuf.head).Safe :=
    h.head.field_safe (by decide)
  have hdaddr : (IpHdr.daddrRead skbuf.head).Safe :=
    h.head.field_safe (by decide)
  rw [List.forall_mem_cons, List.forall_mem_cons, List.forall_mem_cons,
    List.forall_mem_singleton, UdpHdr.sourceRead, UdpHdr.destRead, hfield,
    hfield]
  constructor
  · intro hsafe
    exact hsafe.right.right.right
  · intro hfits
    refine ⟨hsaddr, hdaddr, ?_, hfits⟩
    omega

theorem Udp.rx_safe_iff (st : Stack ρ) :
    (forall a, a ∈ Udp.rxAccesses st skbuf -> a.Safe) <->
      Udp.Fits st skbuf o := by
  unfold Udp.rxAccesses Udp.Fits
  dsimp only
  rw [List.forall_mem_append]
  refine and_congr (tuple_safe_iff h ho) ?_
  generalize Sessions.find st.lock st.udpPcbs (IpHdr.saddr skbuf.head)
    (UdpHdr.source skbuf.head) (IpHdr.daddr skbuf.head)
    (UdpHdr.dest skbuf.head) = found
  cases found with
  | none => simp
  | some pcb =>
      dsimp only
      cases st.socks pcb with
      | none => simp
      | some sock =>
          rcases sock with ⟨so, s | s⟩
          · exact UdpSession.recv_safe_iff h ho so _
          · simp

theorem Tcp.rx_safe_iff (ndebug : Bool) (st : Stack ρ)
    (uninit : SockaddrIn) :
    (forall a, a ∈ Tcp.rxAccesses ndebug st uninit skbuf -> a.Safe) <->
      Tcp.Fits ndebug st skbuf o := by
  unfold Tcp.rxAccesses Tcp.Fits
  dsimp only
  rw [List.forall_mem_append]
  refine and_congr (tuple_safe_iff h ho) ?_
  generalize Sessions.find st.lock st.tcpPcbs (IpHdr.saddr skbuf.head)
    (TcpHdr.source skbuf.head) (IpHdr.daddr skbuf.head)
    (TcpHdr.dest skbuf.head) = found
  cases found with
  | none => simp
  | some pcb =>
      dsimp only
      cases st.socks pcb with
      | none => simp
      | some sock =>
          rcases sock with ⟨so, s | s⟩
          · simp
          · exact TcpSession.recv_safe_iff h ho ndebug s so uninit

end Transports

/-!
## The IP layer
-/

namespace Ip

variable {ρ : Type}

/-- The room that the packet needs, and a protocol number that has an entry;
`iphdr` is the frame that arrived last. -/
def PacketFits (ndebug : Bool) (st : Stack ρ) (iphdr : FrameBuf)
    (skbuf : Skbuf) : Prop :=
  (IpHdr.protocol iphdr).toNat < IpHdrs.protoxmapSize ∧
    match IpHdrs.protocol iphdr with
    | .udp => Udp.Fits st (withTransportHdr iphdr skbuf) (IpHdr.ihl iphdr * 4)
    | .tcp =>
        Tcp.Fits ndebug st (withTransportHdr iphdr skbuf)
          (IpHdr.ihl iphdr * 4)
    | _ => True

/-- What a frame needs for all of its accesses to be in bounds. -/
def Fits (ndebug : Bool) (st : Stack ρ) (frame : Bytes) : Prop :=
  let skbuf := TunIface.rx frame
  0 < skbuf.rawBytes.length ∧
    (IpHdr.version skbuf = 4 -> 20 <= skbuf.rawBytes.length ->
      forall groups packet,
        reassemble st.groups skbuf = some (groups, some packet) ->
        PacketFits ndebug st skbuf packet)

theorem demultiplex_safe_iff {iphdr : FrameBuf} {skbuf : Skbuf}
    (hiphdr : iphdr.Received) (h : skbuf.Received) (ndebug : Bool)
    (st : Stack ρ) (uninit : SockaddrIn) :
    (forall a, a ∈ demultiplexAccesses ndebug st uninit iphdr skbuf ->
      a.Safe) <-> PacketFits ndebug st iphdr skbuf := by
  have hreceived : (withTransportHdr iphdr skbuf).Received :=
    ⟨⟨h.head.networkHdr, h.head.userPayloadEnd, h.head.header⟩, h.next⟩
  have ho : (withTransportHdr iphdr skbuf).head.transportHdr =
      some (IpHdr.ihl iphdr * 4) := by
    show skbuf.head.networkHdr.map _ = _
    rw [h.head.networkHdr, Option.map_some, Nat.zero_add]
  have hfixed : (forall a, a ∈ IpHdr.ihlRead iphdr :: protocolAccesses iphdr ->
      a.Safe) <->
      (IpHdr.protocol iphdr).toNat < IpHdrs.protoxmapSize := by
    have hihl : (IpHdr.ihlRead iphdr).Safe := hiphdr.field_safe (by decide)
    have hproto : (IpHdr.protocolRead iphdr).Safe :=
      hiphdr.field_safe (by decide)
    have hindex : forall i size, (Access.index i size).Safe <-> i < size :=
      fun _ _ => Iff.rfl
    simp [protocolAccesses, hihl, hproto, hindex, IpHdrs.protoxmapSize]
  unfold demultiplexAccesses PacketFits
  rw [List.forall_mem_append, hfixed]
  apply and_congr_right
  intro _
  cases IpHdrs.protocol iphdr with
  | udp => exact Udp.rx_safe_iff hreceived ho st
  | tcp => exact Tcp.rx_safe_iff hreceived ho ndebug st uninit
  | ip | icmp | igmp => simp

def HeldReceived (groups : List FragGroup) : Prop :=
  forall f, f ∈ Reassembler.held groups -> f.Received

theorem reassemble_received {groups groups' : List FragGroup}
    {skbuf : FrameBuf} {result : Option Skbuf} (hheld : HeldReceived groups)
    (hskbuf : skbuf.Received)
    (h : reassemble groups skbuf = some (groups', result)) :
    HeldReceived groups' ∧
      forall packet, result = some packet -> packet.Received := by
  unfold reassemble at h
  by_cases hfrag : IpHdrs.isFrag skbuf = true
  · rw [if_pos hfrag] at h
    have hleaves := Reassembler.defrag_leaves h
    have hall : forall f, f ∈ skbuf :: Reassembler.held groups ->
        f.Received := List.forall_mem_cons.2 ⟨hskbuf, hheld⟩
    constructor
    · intro f hf
      exact hall f (hleaves.left hf)
    · intro packet hpacket
      rcases hleaves.right packet hpacket with ⟨first, rest, hsub, rfl⟩
      exact FragGroup.assemble_received fun f hf => hall f (hsub hf)
  · rw [if_neg hfrag] at h
    cases h
    refine ⟨hheld, ?_⟩
    intro packet hpacket
    cases hpacket
    exact ⟨hskbuf, nofun⟩

theorem pointerDiff_rx (frame : Bytes) :
    FrameBuf.pointerDiff (TunIface.rx frame).userPayloadEnd
        (TunIface.rx frame).hdrsBegin < 20 <->
      ¬ 20 <= (TunIface.rx frame).rawBytes.length := by
  show ((TunIface.rx frame).rawBytes.length : Int) - ((0 : Nat) : Int) < 20 <->
    _
  omega

theorem rx_received {frame : Bytes}
    (h : 20 <= (TunIface.rx frame).rawBytes.length) :
    (TunIface.rx frame).Received :=
  ⟨rfl, rfl, h⟩

theorem ipReads_safe {st : Stack ρ} {skbuf : FrameBuf}
    (hheld : HeldReceived st.groups) (hskbuf : skbuf.Received) :
    forall a, a ∈ [IpHdr.saddrRead skbuf, IpHdr.daddrRead skbuf,
        IpHdr.fragOffRead skbuf] ++
      (if IpHdrs.isFrag skbuf then
        IpHdr.fragOffRead skbuf :: Reassembler.defragReads skbuf st.groups
      else []) -> a.Safe := by
  have hall : forall f, f ∈ skbuf :: Reassembler.held st.groups ->
      f.Received := List.forall_mem_cons.2 ⟨hskbuf, hheld⟩
  have hfragOff : (IpHdr.fragOffRead skbuf).Safe :=
    hskbuf.field_safe (by decide)
  rw [List.forall_mem_append]
  constructor
  · rw [List.forall_mem_cons, List.forall_mem_cons, List.forall_mem_singleton]
    exact ⟨hskbuf.field_safe (by decide), hskbuf.field_safe (by decide),
      hfragOff⟩
  · by_cases hfrag : IpHdrs.isFrag skbuf = true
    · rw [if_pos hfrag, List.forall_mem_cons]
      refine ⟨hfragOff, ?_⟩
      intro a ha
      exact (Reassembler.defragReads_header ha).safe hall
    · rw [if_neg hfrag]
      exact List.forall_mem_nil _

theorem rxAccesses_safe_iff {st : Stack ρ} (hheld : HeldReceived st.groups)
    (ndebug : Bool) (uninit : SockaddrIn) (frame : Bytes) :
    (forall a, a ∈ rxAccesses ndebug st uninit frame -> a.Safe) <->
      Fits ndebug st frame := by
  have hfirst : (IpHdr.ihlRead (TunIface.rx frame)).Safe <->
      0 < (TunIface.rx frame).rawBytes.length := by
    show 0 + 0 + 1 <= _ <-> _
    omega
  unfold rxAccesses Fits
  dsimp only
  rw [List.forall_mem_cons, hfirst]
  apply and_congr_right
  intro _
  by_cases hversion : IpHdr.version (TunIface.rx frame) = 4
  · rw [if_neg (not_not.2 hversion), rxLoopAccesses, imp_iff_right hversion]
    by_cases hlen : 20 <= (TunIface.rx frame).rawBytes.length
    · have hskbuf := rx_received hlen
      rw [if_neg (fun hlt => (pointerDiff_rx frame).1 hlt hlen),
        imp_iff_right hlen, List.forall_mem_append,
        iff_true_intro (ipReads_safe hheld hskbuf), true_and]
      cases hpacket : reassemble st.groups (TunIface.rx frame) with
      | none => simp
      | some result =>
          rcases result with ⟨groups, _ | packet⟩
          · simp
          · have hreceived :=
              (reassemble_received hheld hskbuf hpacket).right packet rfl
            dsimp only
            rw [demultiplex_safe_iff hskbuf hreceived]
            constructor
            · intro hfits groups' packet' heq
              cases heq
              exact hfits
            · intro hfits
              exact hfits groups packet rfl
    · rw [if_pos ((pointerDiff_rx frame).2 hlen)]
      exact ⟨fun _ hle => absurd hle hlen, fun _ => List.forall_mem_nil _⟩
  · rw [if_pos hversion]
    exact ⟨fun _ hfour => absurd hfour hversion, fun _ => List.forall_mem_nil _⟩

end Ip

/-!
## Stacks that frames and sessions lead to
-/

/-- What happens to the stack: a frame arrives, the sessions change in any
way, or a timer removes a group. -/
inductive StackAct (ρ : Type) where
  | frame (uninit : SockaddrIn) (frame : Bytes)
  | sessions (udpPcbs tcpPcbs : List ρ) (socks : ρ -> Option Sock)
  | expire (i : Nat)

namespace Stack

variable {ρ : Type} [DecidableEq ρ]

def step (st : Stack ρ) : StackAct ρ -> Option (Stack ρ)
  | .frame uninit frame => (Ip.rx st uninit frame).map Prod.fst
  | .sessions udpPcbs tcpPcbs socks =>
      some { st with udpPcbs := udpPcbs, tcpPcbs := tcpPcbs, socks := socks }
  | .expire i => some { st with groups := st.groups.eraseIdx i }

theorem groups_deliver (st : Stack ρ) (r : ρ) (peerAddr : SockaddrIn)
    (skbuf : Skbuf) : (st.deliver r peerAddr skbuf).1.groups = st.groups := by
  unfold deliver
  split
  · rfl
  · rfl

theorem groups_demultiplex (st : Stack ρ) (uninit : SockaddrIn)
    (iphdr : FrameBuf) (skbuf : Skbuf) :
    (Ip.demultiplex st uninit iphdr skbuf).1.groups = st.groups := by
  unfold Ip.demultiplex Udp.rx Tcp.rx
  cases IpHdrs.protocol iphdr with
  | udp =>
      dsimp only
      split
      · rfl
      · exact groups_deliver ..
  | tcp =>
      dsimp only
      split
      · rfl
      · exact groups_deliver ..
  | ip | icmp | igmp => rfl

theorem heldReceived_rx {st : Stack ρ} (h : Ip.HeldReceived st.groups)
    {uninit : SockaddrIn} {frame : Bytes} {result : Stack ρ × List Effect}
    (hrx : Ip.rx st uninit frame = some result) :
    Ip.HeldReceived result.1.groups := by
  unfold Ip.rx Ip.rxLoop at hrx
  dsimp only at hrx
  by_cases hversion : IpHdr.version (TunIface.rx frame) = 4
  · rw [if_neg (not_not.2 hversion)] at hrx
    by_cases hlen : 20 <= (TunIface.rx frame).rawBytes.length
    · rw [if_neg (fun hlt => (Ip.pointerDiff_rx frame).1 hlt hlen)] at hrx
      cases hre : Ip.reassemble st.groups (TunIface.rx frame) with
      | none =>
          rw [hre] at hrx
          cases hrx
      | some reassembled =>
          rcases reassembled with ⟨groups, packet⟩
          have hgroups := (Ip.reassemble_received h (Ip.rx_received hlen)
            hre).left
          rw [hre] at hrx
          cases packet with
          | none =>
              cases hrx
              exact hgroups
          | some packet =>
              cases hrx
              rw [groups_demultiplex]
              exact hgroups
    · rw [if_pos ((Ip.pointerDiff_rx frame).2 hlen)] at hrx
      cases hrx
      exact h
  · rw [if_pos hversion] at hrx
    cases hrx
    exact h

theorem heldReceived_step {st st' : Stack ρ} {act : StackAct ρ}
    (h : Ip.HeldReceived st.groups) (hstep : st.step act = some st') :
    Ip.HeldReceived st'.groups := by
  cases act with
  | frame uninit frame =>
      rcases Option.map_eq_some_iff.1 hstep with ⟨result, hrx, heq⟩
      subst heq
      exact heldReceived_rx h hrx
  | sessions udpPcbs tcpPcbs socks =>
      cases hstep
      exact h
  | expire i =>
      cases hstep
      intro f hf
      rcases List.mem_flatMap.1 hf with ⟨g, hg, hfirst⟩
      apply h
      exact List.mem_flatMap.2 ⟨g, List.mem_of_mem_eraseIdx hg, hfirst⟩

theorem heldReceived_run {st st' : Stack ρ} {acts : List (StackAct ρ)}
    (hinit : st.groups = []) (hrun : run step st acts = some st') :
    Ip.HeldReceived st'.groups := by
  have hstart : Ip.HeldReceived st.groups := by
    rw [hinit]
    nofun
  have hpres : forall (s : Stack ρ) a s', Ip.HeldReceived s.groups ->
      s.step a = some s' -> Ip.HeldReceived s'.groups :=
    fun _ _ _ h hstep => heldReceived_step h hstep
  exact run_invariant hpres hstart hrun

/-- Whatever the stack has been through, the accesses for a frame are in
bounds exactly if the frame fits. -/
theorem rx_in_bounds_iff {st st' : Stack ρ} {acts : List (StackAct ρ)}
    (hinit : st.groups = []) (hrun : run step st acts = some st')
    (ndebug : Bool) (uninit : SockaddrIn) (frame : Bytes) :
    (forall a, a ∈ Ip.rxAccesses ndebug st' uninit frame -> a.Safe) <->
      Ip.Fits ndebug st' frame :=
  Ip.rxAccesses_safe_iff (heldReceived_run hinit hrun) ndebug uninit frame

def quiet : Stack Unit where
  groups := []
  udpPcbs := []
  tcpPcbs := []
  socks := fun _ => none

/-- An IP header without options and nothing behind it; `frag` is the high
byte of the field with the fragment offset. -/
def bareHeader (frag proto : UInt8) : Bytes :=
  [0x45, 0, 0, 20, 0, 1, frag, 0, 64, proto, 0, 0, 192, 168, 0, 1, 192, 168, 0,
    2]

def waiting : Stack Unit :=
  (quiet.step (.frame (SockaddrIn.inet 0 0) (bareHeader 0x20 17))).getD quiet

theorem rx_in_bounds_iff_after_fragment :
    run step quiet [.frame (SockaddrIn.inet 0 0) (bareHeader 0x20 17)] =
        some waiting ∧
      ((forall a, a ∈ Ip.rxAccesses true waiting (SockaddrIn.inet 0 0)
          (bareHeader 0 1) -> a.Safe) <->
        Ip.Fits true waiting (bareHeader 0 1)) := by
  have hrun : run step quiet
      [.frame (SockaddrIn.inet 0 0) (bareHeader 0x20 17)] = some waiting := rfl
  refine ⟨hrun, ?_⟩
  exact rx_in_bounds_iff rfl hrun true (SockaddrIn.inet 0 0) (bareHeader 0 1)

/-- A frame of 20 bytes with the protocol number 255 indexes `protoxmap`
behind its end. -/
theorem protocol_255_out_of_bounds :
    (bareHeader 0 255).length <= maxRawBytesSize ∧
      ¬ forall a, a ∈ Ip.rxAccesses true quiet (SockaddrIn.inet 0 0)
        (bareHeader 0 255) -> a.Safe := by
  refine ⟨by decide, ?_⟩
  intro hsafe
  have hheld : Ip.HeldReceived quiet.groups := nofun
  have hfits := (Ip.rxAccesses_safe_iff hheld true (SockaddrIn.inet 0 0)
    (bareHeader 0 255)).1 hsafe
  have hpacket := hfits.right rfl (by decide) [] _ rfl
  exact absurd hpacket.left (by decide)

end Stack

end Velox
