import Velox.Ip.Tx
import Velox.Session

/-!
# UDP sessions

A UDP session has no state of its own beside the four-tuple.
-/

namespace Velox

open Foundation

namespace UdpSession

/-- The head frame of a datagram, without the fields of the session. -/
def headFrame : FrameBuf where
  rawBytes := List.replicate 68 0
  transportHdr := some 60
  networkHdr := some 40
  hdrsBegin := some 40
  hdrsEnd := some 68
  userPayloadBegin := none
  userPayloadEnd := none
  size_le := by decide

/-- The headers of a datagram as `send` leaves them for `Ip::tx`. -/
def datagram (s : Session) (buf : Bytes) : FrameBuf :=
  let ipovly := PseudoHdr.setDaddr
    (PseudoHdr.setSaddr
      (PseudoHdr.setProtocolLen (PseudoHdr.setProtocol headFrame 17)
        (ntohs (UInt16.ofNat (buf.length + 8)))) s.laddr) s.faddr
  let udphdr := UdpHdr.setCheck
    (UdpHdr.setLen
      (UdpHdr.setDest (UdpHdr.setSource ipovly s.lport) s.fport)
      (ntohs (UInt16.ofNat (buf.length + 8)))) 0
  PseudoHdr.setProtocolLen
    (PseudoHdr.setLen (PseudoHdr.setTos (PseudoHdr.setTtl udphdr 64) 0)
      (ntohs (UInt16.ofNat (buf.length + 28)))) 0

/-- `UdpSession::send(buf)`; the error of the superclass is dropped. -/
def send (s : Session) (port : UInt16) (buf : Bytes) : SendResult Session :=
  let bound := (s.send port).1
  { session := bound.1
    port := bound.2
    ret := Int32.ofNat buf.length
    effects := [.tx (datagram bound.1 buf) buf] }

/-- `UdpSession::send(faddr, fport, buf)`: connected for one datagram. -/
def sendTo (s : Session) (port : UInt16) (faddr : UInt32) (fport : UInt16)
    (buf : Bytes) : SendResult Session :=
  let bound := (s.sendTo port fport).1
  let connected := bound.1.connect bound.2 faddr fport
  let sent := send connected.1 connected.2 buf
  { sent with session := sent.session.disconnect }

/-- `bind` is called three times in a one-shot datagram: by both `send` and
by `connect`. -/
theorem sendTo_eq (s : Session) (port : UInt16) (faddr : UInt32)
    (fport : UInt16) (buf : Bytes) :
    let bound := s.bind port
    let connected := bound.1.connect bound.2 faddr fport
    (sendTo s port faddr fport buf).session =
        (connected.1.bind connected.2).1.disconnect ∧
      (sendTo s port faddr fport buf).port =
        (connected.1.bind connected.2).2 := by
  dsimp only [sendTo, send, Session.sendTo, Session.send]
  exact ⟨rfl, rfl⟩

def recv (peerAddr : SockaddrIn) (skbuf : Skbuf) : List Effect :=
  let stripped : FrameBuf :=
    { skbuf.head with
      userPayloadBegin := skbuf.head.transportHdr.map fun o => o + 8 }
  [.putToRecvQ peerAddr { skbuf with head := stripped }]

end UdpSession

end Velox
