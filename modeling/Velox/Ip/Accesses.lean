import Velox.Ip.FragGroups
import Velox.Ip.Rx

/-!
# Memory accesses of the receive path

For each function on the way of a frame, the header fields that it reads, the
arrays that it indexes and the chains that it queues, in the order of the
source.  A build without `NDEBUG` also evaluates the assertions.
-/

namespace Velox

open Foundation

inductive Access where
  /-- `len` bytes at offset `off` from a header pointer of a frame. -/
  | field (f : FrameBuf) (hdr : Option Nat) (off len : Nat)
  | index (i size : Nat)
  | queued (skbuf : Skbuf)

def Access.Safe : Access -> Prop
  | .field f (some o) off len => o + off + len <= f.rawBytes.length
  | .field _ none _ _ => False
  | .index i size => i < size
  | .queued skbuf => forall f, f ∈ skbuf.frames -> f.PayloadInside

/-!
## Header fields
-/

namespace IpHdr

/-- The byte that `version` shares with `ihl`. -/
def ihlRead (f : FrameBuf) : Access := .field f f.networkHdr 0 1

def totLenRead (f : FrameBuf) : Access := .field f f.networkHdr 2 2

def idRead (f : FrameBuf) : Access := .field f f.networkHdr 4 2

def fragOffRead (f : FrameBuf) : Access := .field f f.networkHdr 6 2

def protocolRead (f : FrameBuf) : Access := .field f f.networkHdr 9 1

def saddrRead (f : FrameBuf) : Access := .field f f.networkHdr 12 4

def daddrRead (f : FrameBuf) : Access := .field f f.networkHdr 16 4

end IpHdr

namespace UdpHdr

def sourceRead (f : FrameBuf) : Access := .field f f.transportHdr 0 2

def destRead (f : FrameBuf) : Access := .field f f.transportHdr 2 2

end UdpHdr

namespace TcpHdr

def sourceRead (f : FrameBuf) : Access := .field f f.transportHdr 0 2

def destRead (f : FrameBuf) : Access := .field f f.transportHdr 2 2

def seqRead (f : FrameBuf) : Access := .field f f.transportHdr 4 4

def ackSeqRead (f : FrameBuf) : Access := .field f f.transportHdr 8 4

def doffRead (f : FrameBuf) : Access := .field f f.transportHdr 12 1

def flagsRead (f : FrameBuf) : Access := .field f f.transportHdr 13 1

end TcpHdr

/-!
## Reassembly
-/

namespace FragGroup

open IpHdr

def walkReads (skbuf : FrameBuf) : List FrameBuf -> List Access
  | [] => []
  | curr :: rest =>
      fragOffRead curr ::
        if fragOffset curr < oursOff skbuf then walkReads skbuf rest else []

def linkReads (skbuf : FrameBuf) : List FrameBuf -> List Access
  | [] => []
  | first :: rest =>
      fragOffRead first :: fragOffRead skbuf ::
        if fragOffset skbuf < fragOffset first then []
        else fragOffRead skbuf :: walkReads skbuf (first :: rest)

def contiguousReads : Int -> List FrameBuf -> List Access
  | _, [] => []
  | expectedOff, curr :: rest =>
      fragOffRead curr ::
        if (fragOffset curr : Int) * 8 = expectedOff then
          totLenRead curr :: ihlRead curr ::
            contiguousReads ((fragOffset curr : Int) * 8 + fragPayloadLen curr)
              rest
        else []

def lastReads (frames : List FrameBuf) : List Access :=
  match frames.getLast? with
  | none => []
  | some last =>
      fragOffRead last ::
        if moreFragments last then [] else [totLenRead last, ihlRead last]

def completeReads (frames : List FrameBuf) : List Access :=
  contiguousReads 0 frames ++
    if contiguous 0 frames then lastReads frames else []

/-- The adjustment of the fragments; `tot_len` is written. -/
def assembleReads : List FrameBuf -> List Access
  | [] => []
  | first :: rest => ihlRead first :: totLenRead first :: rest.map ihlRead

def addReads (g : FragGroup) (skbuf : FrameBuf) : List Access :=
  linkReads skbuf g.first ++
    match link skbuf g.first with
    | none => []
    | some frames =>
        completeReads frames ++
          if complete frames then assembleReads frames else []

end FragGroup

namespace Reassembler

open IpHdr

def keyReads (skbuf : FrameBuf) : List Access :=
  [idRead skbuf, protocolRead skbuf, saddrRead skbuf, daddrRead skbuf]

def defragReads (skbuf : FrameBuf) : List FragGroup -> List Access
  | [] =>
      keyReads skbuf ++
        FragGroup.addReads { key := fragKey skbuf, first := [] } skbuf
  | g :: rest =>
      keyReads skbuf ++
        if g.key = fragKey skbuf then g.addReads skbuf
        else defragReads skbuf rest

end Reassembler

/-!
## Sessions
-/

/-- `putToRecvQ`, which drops the packet if the queue is over its limit. -/
def Endpoint.accesses (so : Endpoint) : Effect -> List Access
  | .putToRecvQ _ skbuf => if so.recvQOverLimit then [] else [.queued skbuf]
  | _ => []

def UdpSession.recvAccesses (so : Endpoint) (peerAddr : SockaddrIn)
    (skbuf : Skbuf) : List Access :=
  (UdpSession.recv peerAddr skbuf).flatMap so.accesses

def TcpSession.recvAccesses (ndebug : Bool) (s : TcpSession) (so : Endpoint)
    (peerAddr : SockaddrIn) (skbuf : Skbuf) : List Access :=
  match s.connState with
  | .synSent =>
      (if ndebug then [] else [TcpHdr.flagsRead skbuf.head]) ++
        [TcpHdr.seqRead skbuf.head]
  | .established =>
      TcpHdr.flagsRead skbuf.head ::
        ((if TcpHdr.ack skbuf.head then [TcpHdr.ackSeqRead skbuf.head]
          else []) ++
        TcpHdr.doffRead skbuf.head ::
          if (stripTcpHdr skbuf.head).userPayloadLen ≠ 0 then
            (s.recv peerAddr skbuf).2.flatMap so.accesses ++
              [TcpHdr.seqRead skbuf.head]
          else [])
  | _ => []

section Stacks

variable {ρ : Type}

def Udp.rxAccesses (st : Stack ρ) (skbufHead : Skbuf) : List Access :=
  let f := skbufHead.head
  let peerAddr := SockaddrIn.inet (IpHdr.saddr f) (UdpHdr.source f)
  [IpHdr.saddrRead f, IpHdr.daddrRead f, UdpHdr.sourceRead f,
    UdpHdr.destRead f] ++
  match Sessions.find st.lock st.udpPcbs (IpHdr.saddr f) (UdpHdr.source f)
      (IpHdr.daddr f) (UdpHdr.dest f) with
  | none => []
  | some pcb =>
      match st.socks pcb with
      | some ⟨so, .udp _⟩ => UdpSession.recvAccesses so peerAddr skbufHead
      | _ => []

def Tcp.rxAccesses (ndebug : Bool) (st : Stack ρ) (uninit : SockaddrIn)
    (skbufHead : Skbuf) : List Access :=
  let f := skbufHead.head
  [IpHdr.saddrRead f, IpHdr.daddrRead f, TcpHdr.sourceRead f,
    TcpHdr.destRead f] ++
  match Sessions.find st.lock st.tcpPcbs (IpHdr.saddr f) (TcpHdr.source f)
      (IpHdr.daddr f) (TcpHdr.dest f) with
  | none => []
  | some pcb =>
      match st.socks pcb with
      | some ⟨so, .tcp s⟩ => s.recvAccesses ndebug so uninit skbufHead
      | _ => []

namespace Ip

/-- `IpHdrs::protocol`, which sets four entries and reads one. -/
def protocolAccesses (iphdr : FrameBuf) : List Access :=
  [.index 1 IpHdrs.protoxmapSize, .index 2 IpHdrs.protoxmapSize,
    .index 6 IpHdrs.protoxmapSize, .index 17 IpHdrs.protoxmapSize,
    IpHdr.protocolRead iphdr,
    .index (IpHdr.protocol iphdr).toNat IpHdrs.protoxmapSize]

def demultiplexAccesses (ndebug : Bool) (st : Stack ρ) (uninit : SockaddrIn)
    (iphdr : FrameBuf) (skbuf : Skbuf) : List Access :=
  IpHdr.ihlRead iphdr :: protocolAccesses iphdr ++
  match IpHdrs.protocol iphdr with
  | .udp => Udp.rxAccesses st (withTransportHdr iphdr skbuf)
  | .tcp => Tcp.rxAccesses ndebug st uninit (withTransportHdr iphdr skbuf)
  | _ => []

def rxLoopAccesses (ndebug : Bool) (st : Stack ρ) (uninit : SockaddrIn)
    (skbuf : FrameBuf) : List Access :=
  if FrameBuf.pointerDiff skbuf.userPayloadEnd skbuf.hdrsBegin < 20 then []
  else
    [IpHdr.saddrRead skbuf, IpHdr.daddrRead skbuf, IpHdr.fragOffRead skbuf] ++
    (if IpHdrs.isFrag skbuf then
      IpHdr.fragOffRead skbuf :: Reassembler.defragReads skbuf st.groups
    else []) ++
    match reassemble st.groups skbuf with
    | some (_, some packet) =>
        demultiplexAccesses ndebug st uninit skbuf packet
    | _ => []

/-- All accesses for a frame, those of `Ip::enRxQue` first. -/
def rxAccesses (ndebug : Bool) (st : Stack ρ) (uninit : SockaddrIn)
    (frame : Bytes) : List Access :=
  IpHdr.ihlRead (TunIface.rx frame) ::
    if IpHdr.version (TunIface.rx frame) ≠ 4 then []
    else rxLoopAccesses ndebug st uninit (TunIface.rx frame)

end Ip

end Stacks

end Velox
