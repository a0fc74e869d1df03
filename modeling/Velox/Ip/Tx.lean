import Velox.Base.Csum16
import Velox.Frame.Headers

/-!
# Transmission through the IP layer

`Ip::tx` completes the header that the transport layer has prepared and hands
the frame to the interface, which writes the headers and the user payload as
one packet.
-/

namespace Velox

open Foundation

/-- What is handed to `Interface::tx`: the head frame, and the string that its
user payload pointers address. -/
structure TxFrame where
  skbuf : FrameBuf
  userPayload : Bytes

/-- `IpIdGenerator::next`: the identification in network order, and the new
value of `last`. -/
def IpIdGenerator.next (last : UInt16) : UInt16 × UInt16 :=
  let wrapped := if last = 65535 then 0 else last
  (ntohs (wrapped + 1), wrapped + 1)

def Ip.tx (last : UInt16) (skbufHead : FrameBuf) (userPayload : Bytes) :
    TxFrame × UInt16 :=
  let iphdr := IpHdr.setIhl (IpHdr.setVersion skbufHead 4) (20 / 4)
  let named := IpHdr.setId iphdr (IpIdGenerator.next last).1
  let check := Csum16.checksum (named.pointee named.networkHdr)
    (IpHdr.ihl named * 4) 0
  ({ skbuf := IpHdr.setCheck named check.toUInt16, userPayload := userPayload },
    (IpIdGenerator.next last).2)

/-- The bytes that `TunIface::tx` writes for an unfragmented frame. -/
def TunIface.tx (frame : TxFrame) : Bytes :=
  frame.skbuf.range frame.skbuf.hdrsBegin frame.skbuf.hdrsEnd ++
    frame.userPayload

end Velox
