import Velox.Frame.FrameBuf

/-!
# Packet headers

The fields of `struct iphdr`, `struct tcphdr` and the overlay `PseudoHdr`, read
and written natively at `network_hdr` and `transport_hdr`.  Bit fields follow
the layout of a little-endian compiler: the first declared field takes the low
bits of its byte.
-/

namespace Velox

open Foundation

/-- `__be16_to_cpu`, `__cpu_to_be16`, `ntohs` and `htons`. -/
def ntohs (v : UInt16) : UInt16 := bswap16 v

/-- `ntohl` and `htonl`. -/
def ntohl (v : UInt32) : UInt32 := bswap32 v

def ipOffMask : UInt16 := 0x1fff

def ipMfMask : UInt16 := 0x2000

namespace IpHdr

def ihl (f : FrameBuf) : Nat :=
  (byteAt (f.pointee f.networkHdr) 0).toNat % 16

def version (f : FrameBuf) : Nat :=
  (byteAt (f.pointee f.networkHdr) 0).toNat / 16

def totLen (f : FrameBuf) : UInt16 := load16 (f.pointee f.networkHdr) 2

def id (f : FrameBuf) : UInt16 := load16 (f.pointee f.networkHdr) 4

def fragOff (f : FrameBuf) : UInt16 := load16 (f.pointee f.networkHdr) 6

def protocol (f : FrameBuf) : UInt8 := byteAt (f.pointee f.networkHdr) 9

def saddr (f : FrameBuf) : UInt32 := load32 (f.pointee f.networkHdr) 12

def daddr (f : FrameBuf) : UInt32 := load32 (f.pointee f.networkHdr) 16

def setVersion (f : FrameBuf) (v : Nat) : FrameBuf :=
  f.write8 f.networkHdr 0 (UInt8.ofNat (16 * v + ihl f))

def setIhl (f : FrameBuf) (v : Nat) : FrameBuf :=
  f.write8 f.networkHdr 0 (UInt8.ofNat (16 * version f + v))

def setTotLen (f : FrameBuf) (v : UInt16) : FrameBuf :=
  f.write16 f.networkHdr 2 v

def setId (f : FrameBuf) (v : UInt16) : FrameBuf :=
  f.write16 f.networkHdr 4 v

def setCheck (f : FrameBuf) (v : UInt16) : FrameBuf :=
  f.write16 f.networkHdr 10 v

end IpHdr

/-!
## The overlay of the transport layer

`PseudoHdr` lies over the IP header: its `protocol_len` is the checksum field.
-/

namespace PseudoHdr

def setTos (f : FrameBuf) (v : UInt8) : FrameBuf :=
  f.write8 f.networkHdr 1 v

def setLen (f : FrameBuf) (v : UInt16) : FrameBuf :=
  f.write16 f.networkHdr 2 v

def setTtl (f : FrameBuf) (v : UInt8) : FrameBuf :=
  f.write8 f.networkHdr 8 v

def setProtocol (f : FrameBuf) (v : UInt8) : FrameBuf :=
  f.write8 f.networkHdr 9 v

def setProtocolLen (f : FrameBuf) (v : UInt16) : FrameBuf :=
  f.write16 f.networkHdr 10 v

def setSaddr (f : FrameBuf) (v : UInt32) : FrameBuf :=
  f.write32 f.networkHdr 12 v

def setDaddr (f : FrameBuf) (v : UInt32) : FrameBuf :=
  f.write32 f.networkHdr 16 v

end PseudoHdr

namespace TcpHdr

def source (f : FrameBuf) : UInt16 := load16 (f.pointee f.transportHdr) 0

def dest (f : FrameBuf) : UInt16 := load16 (f.pointee f.transportHdr) 2

def seq (f : FrameBuf) : UInt32 := load32 (f.pointee f.transportHdr) 4

def ackSeq (f : FrameBuf) : UInt32 := load32 (f.pointee f.transportHdr) 8

def doff (f : FrameBuf) : Nat :=
  (byteAt (f.pointee f.transportHdr) 12).toNat / 16

def syn (f : FrameBuf) : Bool :=
  (byteAt (f.pointee f.transportHdr) 13).toNat.testBit 1

def rst (f : FrameBuf) : Bool :=
  (byteAt (f.pointee f.transportHdr) 13).toNat.testBit 2

def ack (f : FrameBuf) : Bool :=
  (byteAt (f.pointee f.transportHdr) 13).toNat.testBit 4

def setSource (f : FrameBuf) (v : UInt16) : FrameBuf :=
  f.write16 f.transportHdr 0 v

def setDest (f : FrameBuf) (v : UInt16) : FrameBuf :=
  f.write16 f.transportHdr 2 v

def setSeq (f : FrameBuf) (v : UInt32) : FrameBuf :=
  f.write32 f.transportHdr 4 v

def setAckSeq (f : FrameBuf) (v : UInt32) : FrameBuf :=
  f.write32 f.transportHdr 8 v

def setDoff (f : FrameBuf) (v : Nat) : FrameBuf :=
  f.write8 f.transportHdr 12
    (UInt8.ofNat (16 * v + (byteAt (f.pointee f.transportHdr) 12).toNat % 16))

def setSyn (f : FrameBuf) : FrameBuf :=
  f.write8 f.transportHdr 13
    (byteAt (f.pointee f.transportHdr) 13 ||| 0x02)

def setAck (f : FrameBuf) : FrameBuf :=
  f.write8 f.transportHdr 13
    (byteAt (f.pointee f.transportHdr) 13 ||| 0x10)

def setWindow (f : FrameBuf) (v : UInt16) : FrameBuf :=
  f.write16 f.transportHdr 14 v

def setCheck (f : FrameBuf) (v : UInt16) : FrameBuf :=
  f.write16 f.transportHdr 16 v

end TcpHdr

namespace UdpHdr

def source (f : FrameBuf) : UInt16 := load16 (f.pointee f.transportHdr) 0

def dest (f : FrameBuf) : UInt16 := load16 (f.pointee f.transportHdr) 2

def setSource (f : FrameBuf) (v : UInt16) : FrameBuf :=
  f.write16 f.transportHdr 0 v

def setDest (f : FrameBuf) (v : UInt16) : FrameBuf :=
  f.write16 f.transportHdr 2 v

def setLen (f : FrameBuf) (v : UInt16) : FrameBuf :=
  f.write16 f.transportHdr 4 v

def setCheck (f : FrameBuf) (v : UInt16) : FrameBuf :=
  f.write16 f.transportHdr 6 v

end UdpHdr

end Velox
