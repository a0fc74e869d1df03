import Mathlib.Logic.Function.Basic
import Velox.Arbiter.RpcDispatch
import Velox.Ip.Reassembler
import Velox.Sessions

/-!
# The receive path

A frame that `TunIface::rx` has read goes through `Ip::enRxQue`, the loop of
the IP layer with its reassembler, `Udp::rx` or `Tcp::rx`, and the session that
`Sessions::find` chooses.  A stack holds the lists of weak references that the
two protocols keep; a reference that has not expired leads to a socket.
-/

namespace Velox

open Foundation

namespace IpHdrs

inductive ProtocolX where
  | ip
  | icmp
  | igmp
  | udp
  | tcp
  deriving DecidableEq

def isFrag (f : FrameBuf) : Bool :=
  !(ntohs (IpHdr.fragOff f) &&& ipOffMask == 0 &&
    ntohs (IpHdr.fragOff f) &&& ipMfMask == 0)

def protoxmapSize : Nat := 255

/-- The entries of `protoxmap`; those that are not set are zero. -/
def protoxmap (i : Nat) : ProtocolX :=
  if i = 1 then .icmp
  else if i = 2 then .igmp
  else if i = 6 then .tcp
  else if i = 17 then .udp
  else .ip

def protocol (f : FrameBuf) : ProtocolX :=
  protoxmap (IpHdr.protocol f).toNat

end IpHdrs

structure Stack (ρ : Type) where
  groups : List FragGroup
  udpPcbs : List ρ
  tcpPcbs : List ρ
  socks : ρ -> Option Sock

def Endpoint.apply (so : Endpoint) : Effect -> Endpoint
  | .putToRecvQ peerAddr skbuf => so.putToRecvQ ⟨peerAddr, skbuf⟩
  | _ => so

namespace Stack

variable {ρ : Type}

def lock (st : Stack ρ) (r : ρ) : Option Session :=
  (st.socks r).map fun sock => sock.pcb.session

variable [DecidableEq ρ]

def deliver (st : Stack ρ) (r : ρ) (peerAddr : SockaddrIn) (skbuf : Skbuf) :
    Stack ρ × List Effect :=
  match st.socks r with
  | none => (st, [])
  | some sock =>
      let received := sock.pcb.recv peerAddr skbuf
      ({ st with
          socks := Function.update st.socks r
            (some ⟨received.2.foldl Endpoint.apply sock.so, received.1⟩) },
        received.2)

end Stack

def Udp.rx {ρ : Type} [DecidableEq ρ] (st : Stack ρ) (skbufHead : Skbuf) :
    Stack ρ × List Effect :=
  let faddr := IpHdr.saddr skbufHead.head
  let laddr := IpHdr.daddr skbufHead.head
  let fport := UdpHdr.source skbufHead.head
  let lport := UdpHdr.dest skbufHead.head
  match Sessions.find st.lock st.udpPcbs faddr fport laddr lport with
  | none => (st, [])
  | some pcb => st.deliver pcb (SockaddrIn.inet faddr fport) skbufHead

/-- `Tcp::rx`; `uninit` is the address variable of `TcpSession::recv`. -/
def Tcp.rx {ρ : Type} [DecidableEq ρ] (st : Stack ρ) (uninit : SockaddrIn)
    (skbufHead : Skbuf) : Stack ρ × List Effect :=
  let faddr := IpHdr.saddr skbufHead.head
  let laddr := IpHdr.daddr skbufHead.head
  let fport := TcpHdr.source skbufHead.head
  let lport := TcpHdr.dest skbufHead.head
  match Sessions.find st.lock st.tcpPcbs faddr fport laddr lport with
  | none => (st, [])
  | some pcb => st.deliver pcb uninit skbufHead

namespace Ip

/-- The part of the loop that may pass the frame through the reassembler; the
result is `none` where that dereferences a null pointer. -/
def reassemble (groups : List FragGroup) (skbuf : FrameBuf) :
    Option (List FragGroup × Option Skbuf) :=
  if IpHdrs.isFrag skbuf then Reassembler.defrag skbuf groups
  else some (groups, some ⟨skbuf, []⟩)

/-- `transport_hdr` of the packet, from the header of the frame that arrived
last. -/
def withTransportHdr (iphdr : FrameBuf) (skbuf : Skbuf) : Skbuf :=
  { skbuf with
    head := { skbuf.head with
      transportHdr :=
        skbuf.head.networkHdr.map fun o => o + IpHdr.ihl iphdr * 4 } }

variable {ρ : Type} [DecidableEq ρ]

def demultiplex (st : Stack ρ) (uninit : SockaddrIn) (iphdr : FrameBuf)
    (skbuf : Skbuf) : Stack ρ × List Effect :=
  match IpHdrs.protocol iphdr with
  | .udp => Udp.rx st (withTransportHdr iphdr skbuf)
  | .tcp => Tcp.rx st uninit (withTransportHdr iphdr skbuf)
  | _ => (st, [])

/-- One round of the loop, for a frame that `enRxQue` has accepted. -/
def rxLoop (st : Stack ρ) (uninit : SockaddrIn) (skbuf : FrameBuf) :
    Option (Stack ρ × List Effect) :=
  if FrameBuf.pointerDiff skbuf.userPayloadEnd skbuf.hdrsBegin < 20 then
    some (st, [])
  else
    match reassemble st.groups skbuf with
    | none => none
    | some (groups, none) => some ({ st with groups := groups }, [])
    | some (groups, some packet) =>
        some (demultiplex { st with groups := groups } uninit skbuf packet)

def rx (st : Stack ρ) (uninit : SockaddrIn) (frame : Bytes) :
    Option (Stack ρ × List Effect) :=
  let skbuf := TunIface.rx frame
  if IpHdr.version skbuf ≠ 4 then some (st, [])
  else rxLoop st uninit skbuf

end Ip

end Velox
