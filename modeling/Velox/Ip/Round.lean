import Velox.Ip.Bounds
import Velox.Ip.Insertion

/-!
# A round of the receive loop

The loop of the IP layer takes a frame from the queue, passes it through the
reassembler if it is a fragment, and gives the packet to the transport layer.
The groups stay isolated whatever the stack goes through.  The loop keeps the
header of the frame while the reassembler may return another one: the header
length that locates `transport_hdr` is that of the frame, and the packet may
start with a fragment whose header has another length.
-/

namespace Velox

open Foundation

namespace Ip

/-!
## Packets for the transport layer
-/

def forTransport (skbuf : FrameBuf) (packet : Skbuf) : Option Skbuf :=
  match IpHdrs.protocol skbuf with
  | .udp | .tcp => some (withTransportHdr skbuf packet)
  | _ => none

/-- The round of a frame up to the switch: the groups that it leaves and the
packet that it passes to `Udp::rx` or `Tcp::rx`. -/
def handed (groups : List FragGroup) (frame : Bytes) :
    Option (List FragGroup × Option Skbuf) :=
  let skbuf := TunIface.rx frame
  if IpHdr.version skbuf ≠ 4 then some (groups, none)
  else if FrameBuf.pointerDiff skbuf.userPayloadEnd skbuf.hdrsBegin < 20 then
    some (groups, none)
  else
    (reassemble groups skbuf).map fun result =>
      (result.1, result.2.bind (forTransport skbuf))

section Receive

variable {ρ : Type} [DecidableEq ρ]

def passOn (st : Stack ρ) (uninit : SockaddrIn) (frame : Bytes)
    (packet : Skbuf) : Stack ρ × List Effect :=
  match IpHdrs.protocol (TunIface.rx frame) with
  | .udp => Udp.rx st packet
  | .tcp => Tcp.rx st uninit packet
  | _ => (st, [])

theorem rx_eq_handed (st : Stack ρ) (uninit : SockaddrIn) (frame : Bytes) :
    rx st uninit frame =
      (handed st.groups frame).map fun result =>
        match result.2 with
        | none => ({ st with groups := result.1 }, [])
        | some packet =>
            passOn { st with groups := result.1 } uninit frame packet := by
  unfold rx handed rxLoop
  dsimp only
  split
  · rfl
  · split
    · rfl
    · cases reassemble st.groups (TunIface.rx frame) with
      | none => rfl
      | some result =>
          rcases result with ⟨groups, _ | packet⟩
          · rfl
          · unfold demultiplex passOn
            simp only [Option.map_some, Option.bind_some, forTransport]
            cases IpHdrs.protocol (TunIface.rx frame) with
            | ip | icmp | igmp | udp | tcp => rfl

end Receive

/-!
## The groups
-/

theorem isolated_handed {groups groups' : List FragGroup} {frame : Bytes}
    {out : Option Skbuf} (h : Reassembler.Isolated groups)
    (hhanded : handed groups frame = some (groups', out)) :
    Reassembler.Isolated groups' := by
  unfold handed at hhanded
  dsimp only at hhanded
  split at hhanded
  · cases hhanded
    exact h
  · split at hhanded
    · cases hhanded
      exact h
    · rcases Option.map_eq_some_iff.1 hhanded with ⟨⟨mid, result⟩, hre, heq⟩
      cases heq
      unfold reassemble at hre
      split at hre
      · exact h.change (Reassembler.defrag_change hre)
      · cases hre
        exact h

section Groups

variable {ρ : Type} [DecidableEq ρ]

theorem groups_passOn (st : Stack ρ) (uninit : SockaddrIn) (frame : Bytes)
    (packet : Skbuf) :
    (passOn st uninit frame packet).1.groups = st.groups := by
  unfold passOn Udp.rx Tcp.rx
  cases IpHdrs.protocol (TunIface.rx frame) with
  | udp | tcp =>
      dsimp only
      split
      · rfl
      · exact st.groups_deliver ..
  | ip | icmp | igmp => rfl

theorem isolated_rx {st : Stack ρ} (h : Reassembler.Isolated st.groups)
    {uninit : SockaddrIn} {frame : Bytes} {result : Stack ρ × List Effect}
    (hrx : rx st uninit frame = some result) :
    Reassembler.Isolated result.1.groups := by
  rw [rx_eq_handed] at hrx
  rcases Option.map_eq_some_iff.1 hrx with ⟨⟨groups, out⟩, hhanded, rfl⟩
  have hgroups := isolated_handed h hhanded
  cases out with
  | none => exact hgroups
  | some packet =>
      show Reassembler.Isolated (passOn _ uninit frame packet).1.groups
      rw [groups_passOn]
      exact hgroups

end Groups

/-!
## The transport header
-/

def TransportLaw (groups : List FragGroup) (frame : Bytes) : Prop :=
  forall groups' packet, handed groups frame = some (groups', some packet) ->
    packet.head.transportHdr =
      packet.head.networkHdr.map fun o => o + IpHdr.ihl packet.head * 4

/-- A fragment that completes a packet for the transport layer has a header as
long as that of the first fragment. -/
def SameHeaderLength (groups : List FragGroup) (frame : Bytes) : Prop :=
  forall groups' packet first rest,
    handed groups frame = some (groups', some packet) ->
      IpHdrs.isFrag (TunIface.rx frame) = true ->
      FragGroup.link (TunIface.rx frame)
          (Reassembler.framesOf (fragKey (TunIface.rx frame)) groups) =
        some (first :: rest) ->
      IpHdr.ihl (TunIface.rx frame) = IpHdr.ihl first

theorem ihl_setTotLen (f : FrameBuf) (v : UInt16) :
    IpHdr.ihl (IpHdr.setTotLen f v) = IpHdr.ihl f := by
  rw [IpHdr.setTotLen, IpHdr.ihl, IpHdr.ihl]
  cases hnetwork : f.networkHdr with
  | none =>
      show (byteAt (f.pointee f.networkHdr) 0).toNat % 16 = _
      rw [hnetwork]
  | some o =>
      have hkept : (f.write16 (some o) 2 v).networkHdr = some o := hnetwork
      rw [hkept]
      show (byteAt ((store16 f.rawBytes (o + 2) v).drop o) 0).toNat % 16 =
        (byteAt (f.rawBytes.drop o) 0).toNat % 16
      rw [byteAt_drop, byteAt_drop, byteAt_store16_of_disjoint _ _ (by lia)]

/-- The packet of a frame: the frame itself if it is not a fragment, or the
list of fragments that it completes. -/
inductive PacketCase (groups : List FragGroup) (skbuf : FrameBuf) :
    Skbuf -> Prop where
  | whole (hfrag : IpHdrs.isFrag skbuf = false) :
      PacketCase groups skbuf ⟨skbuf, []⟩
  | completed (first : FrameBuf) (rest : List FrameBuf)
      (hfrag : IpHdrs.isFrag skbuf = true)
      (hlink : FragGroup.link skbuf
        (Reassembler.framesOf (fragKey skbuf) groups) = some (first :: rest)) :
      PacketCase groups skbuf (FragGroup.assemble first rest)

theorem reassemble_cases {groups groups' : List FragGroup} {skbuf : FrameBuf}
    {packet : Skbuf}
    (h : reassemble groups skbuf = some (groups', some packet)) :
    PacketCase groups skbuf packet := by
  unfold reassemble at h
  cases hfrag : IpHdrs.isFrag skbuf with
  | false =>
      rw [hfrag, if_neg (by decide)] at h
      cases h
      exact .whole hfrag
  | true =>
      rw [hfrag, if_pos rfl] at h
      have hcase := Reassembler.defrag_cases skbuf groups
      rw [h] at hcase
      cases hcase with
      | packet _ first rest hlink hcomplete hother =>
          exact .completed first rest hfrag hlink

theorem eq_of_forTransport {skbuf : FrameBuf} {packet out : Skbuf}
    (h : forTransport skbuf packet = some out) :
    out = withTransportHdr skbuf packet := by
  unfold forTransport at h
  split at h
  · cases h
    rfl
  · cases h
    rfl
  · cases h

theorem handed_cases {groups groups' : List FragGroup} {frame : Bytes}
    {packet : Skbuf}
    (h : handed groups frame = some (groups', some packet)) :
    20 <= (TunIface.rx frame).rawBytes.length ∧
      exists skbuf, PacketCase groups (TunIface.rx frame) skbuf ∧
        packet = withTransportHdr (TunIface.rx frame) skbuf := by
  unfold handed at h
  dsimp only at h
  split at h
  · cases h
  · split at h
    · cases h
    · rename_i hlen
      refine ⟨not_not.1 (fun hlt => hlen ((pointerDiff_rx frame).2 hlt)), ?_⟩
      rcases Option.map_eq_some_iff.1 h with ⟨⟨mid, result⟩, hre, heq⟩
      rcases Option.bind_eq_some_iff.1 (Prod.mk.inj heq).2 with
        ⟨skbuf, hresult, hfor⟩
      subst hresult
      exact ⟨skbuf, reassemble_cases hre, eq_of_forTransport hfor⟩

theorem HeldReceived.framesOf {groups : List FragGroup}
    (h : HeldReceived groups) (k : FragKey) :
    forall f, f ∈ Reassembler.framesOf k groups -> f.Received := by
  refine Reassembler.framesOf_of_all
    (P := fun frames => forall f, f ∈ frames -> f.Received)
    (List.forall_mem_nil _) ?_ k
  intro g hg f hf
  exact h f (List.mem_flatMap.2 ⟨g, hg, hf⟩)

theorem transportHdr_assemble_iff {first : FrameBuf} (h : first.Received)
    (skbuf : FrameBuf) (rest : List FrameBuf) :
    (withTransportHdr skbuf (FragGroup.assemble first rest)).head.transportHdr =
        (withTransportHdr skbuf
          (FragGroup.assemble first rest)).head.networkHdr.map (fun o =>
            o + IpHdr.ihl (withTransportHdr skbuf
              (FragGroup.assemble first rest)).head * 4) <->
      IpHdr.ihl skbuf = IpHdr.ihl first := by
  have hihl : IpHdr.ihl (withTransportHdr skbuf
      (FragGroup.assemble first rest)).head = IpHdr.ihl first :=
    ihl_setTotLen first _
  have hnetwork : (FragGroup.assemble first rest).head.networkHdr = some 0 :=
    (FragGroup.adjustFirst_received h _).networkHdr
  rw [hihl]
  show (FragGroup.assemble first rest).head.networkHdr.map _ =
    (FragGroup.assemble first rest).head.networkHdr.map _ <-> _
  rw [hnetwork, Option.map_some, Option.map_some, Option.some.injEq]
  lia

theorem transportLaw_iff_of_held {groups : List FragGroup}
    (hheld : HeldReceived groups) (frame : Bytes) :
    TransportLaw groups frame <-> SameHeaderLength groups frame := by
  -- the first fragment is the frame itself or one that waits in the group
  have hreceived : forall first rest,
      20 <= (TunIface.rx frame).rawBytes.length ->
      FragGroup.link (TunIface.rx frame)
          (Reassembler.framesOf (fragKey (TunIface.rx frame)) groups) =
        some (first :: rest) -> first.Received := by
    intro first rest hlen hlink
    rcases List.mem_cons.1 ((FragGroup.link_perm hlink).mem_iff.1
      List.mem_cons_self) with rfl | hold
    · exact rx_received hlen
    · exact hheld.framesOf _ first hold
  constructor
  · intro hlaw groups' packet first rest hhanded hfrag hlink
    have heq := hlaw groups' packet hhanded
    rcases handed_cases hhanded with ⟨hlen, skbuf, hcase, rfl⟩
    cases hcase with
    | whole hwhole =>
        rw [hfrag] at hwhole
        cases hwhole
    | completed first' rest' _ hlink' =>
        rw [hlink] at hlink'
        cases hlink'
        exact (transportHdr_assemble_iff (hreceived first rest hlen hlink) _
          rest).1 heq
  · intro hsame groups' packet hhanded
    rcases handed_cases hhanded with ⟨hlen, skbuf, hcase, rfl⟩
    cases hcase with
    | whole hwhole => rfl
    | completed first rest hfrag hlink =>
        exact (transportHdr_assemble_iff (hreceived first rest hlen hlink) _
          rest).2 (hsame groups' _ first rest hhanded hfrag hlink)

end Ip

/-!
## Stacks
-/

namespace Stack

section Runs

variable {ρ : Type} [DecidableEq ρ]

theorem isolated_step {st st' : Stack ρ} {act : StackAct ρ}
    (h : Reassembler.Isolated st.groups) (hstep : st.step act = some st') :
    Reassembler.Isolated st'.groups := by
  cases act with
  | frame uninit frame =>
      rcases Option.map_eq_some_iff.1 hstep with ⟨result, hrx, rfl⟩
      exact Ip.isolated_rx h hrx
  | sessions udpPcbs tcpPcbs socks =>
      cases hstep
      exact h
  | expire i =>
      cases hstep
      exact h.sublist (List.eraseIdx_sublist _ i)

/-- Whatever the stack goes through, there is one group for each datagram. -/
theorem isolated_run {st st' : Stack ρ} {acts : List (StackAct ρ)}
    (h : Reassembler.Isolated st.groups)
    (hrun : run step st acts = some st') : Reassembler.Isolated st'.groups := by
  have hpres : forall (s : Stack ρ) a s', Reassembler.Isolated s.groups ->
      s.step a = some s' -> Reassembler.Isolated s'.groups :=
    fun _ _ _ hs hstep => isolated_step hs hstep
  exact run_invariant hpres h hrun

/-- Whatever the stack has been through, the transport header of a packet is
located from its own header exactly if the fragment that completes it has a
header as long as that of the first fragment. -/
theorem transport_header_iff {st st' : Stack ρ} {acts : List (StackAct ρ)}
    (hinit : st.groups = []) (hrun : run step st acts = some st')
    (frame : Bytes) :
    Ip.TransportLaw st'.groups frame <->
      Ip.SameHeaderLength st'.groups frame :=
  Ip.transportLaw_iff_of_held (heldReceived_run hinit hrun) frame

end Runs

/-- A first fragment with four bytes of IP options. -/
def optionsFirst : Bytes :=
  [0x46, 0, 0, 32, 0x12, 0x34, 0x20, 0, 64, 17, 0, 0, 192, 168, 0, 2, 192, 168,
    0, 1, 1, 1, 1, 0, 0, 53, 4, 1, 0, 16, 0, 0]

/-- The last fragment of the datagram, without options. -/
def plainLast : Bytes :=
  [0x45, 0, 0, 28, 0x12, 0x34, 0, 1, 64, 17, 0, 0, 192, 168, 0, 2, 192, 168, 0,
    1, 1, 2, 3, 4, 5, 6, 7, 8]

def afterOptions : Stack Unit :=
  (quiet.step (.frame (SockaddrIn.inet 0 0) optionsFirst)).getD quiet

/-- The last fragment of the datagram, with options as the first has them. -/
def optionsLast : Bytes :=
  [0x46, 0, 0, 32, 0x12, 0x34, 0, 1, 64, 17, 0, 0, 192, 168, 0, 2, 192, 168, 0,
    1, 1, 1, 1, 0, 1, 2, 3, 4, 5, 6, 7, 8]

theorem transport_header_after_options :
    (exists packet, Ip.handed afterOptions.groups optionsLast =
        some ([], some packet) ∧
      packet.head.transportHdr = some 24) ∧
      Ip.TransportLaw afterOptions.groups optionsLast ∧
      Ip.SameHeaderLength afterOptions.groups optionsLast := by
  have hrun : run step quiet [.frame (SockaddrIn.inet 0 0) optionsFirst] =
      some afterOptions := rfl
  have hlinked : FragGroup.link (TunIface.rx optionsLast)
      (Reassembler.framesOf (fragKey (TunIface.rx optionsLast))
        afterOptions.groups) =
      some [TunIface.rx optionsFirst, TunIface.rx optionsLast] := by
    decide
  have hsame : Ip.SameHeaderLength afterOptions.groups optionsLast := by
    intro groups' packet first rest _ _ hlink
    rw [hlinked] at hlink
    cases hlink
    rfl
  exact ⟨⟨_, rfl, by decide⟩,
    (transport_header_iff rfl hrun optionsLast).2 hsame, hsame⟩

def optionsPacket : Skbuf :=
  Ip.withTransportHdr (TunIface.rx plainLast)
    (FragGroup.assemble (TunIface.rx optionsFirst) [TunIface.rx plainLast])

/-- The UDP header is sought four bytes before its place. -/
theorem transport_header_inside_options :
    run step quiet [.frame (SockaddrIn.inet 0 0) optionsFirst] =
        some afterOptions ∧
      Ip.handed afterOptions.groups plainLast =
        some ([], some optionsPacket) ∧
      optionsPacket.head.transportHdr = some 20 ∧
      IpHdr.ihl optionsPacket.head = 6 ∧
      ¬ Ip.TransportLaw afterOptions.groups plainLast := by
  have hhanded : Ip.handed afterOptions.groups plainLast =
      some ([], some optionsPacket) := by decide
  refine ⟨rfl, hhanded, by decide, by decide, ?_⟩
  intro h
  exact absurd (h [] optionsPacket hhanded) (by decide)

end Stack

end Velox
