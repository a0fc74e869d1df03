import Velox.Ip.Tx
import Velox.Session

/-!
# TCP sessions

The state machine of `TcpSession`.  Operations return the new session together
with the effects they have on the rest of the daemon, in the order in which
the source performs them.
-/

namespace Velox

open Foundation

inductive TcpState where
  | closed
  | listen
  | synSent
  | synReceived
  | established
  | finWait1
  | finWait2
  | closing
  | timeWait
  | closeWait
  | lastAck
  deriving DecidableEq

/-- A `TcpSession`; `onConnEstabCB` records whether a callback is set.  The
sequence variables of a fresh session are uninitialised, hence arbitrary. -/
structure TcpSession extends Session where
  connState : TcpState
  onConnEstabCB : Bool
  sendUnack : UInt32
  sendNext : UInt32
  irs : UInt32
  recvNext : UInt32
  deriving DecidableEq

namespace TcpSession

def iss : UInt32 := 1

/-- `socketBufferOfTcpTempl`: 40 bytes are left free for IP options. -/
def socketBufferOfTcpTempl (s : TcpSession) : FrameBuf :=
  let skbufHead : FrameBuf :=
    { rawBytes := List.replicate 120 0
      transportHdr := some 60
      networkHdr := some 40
      hdrsBegin := some 40
      hdrsEnd := some 80
      userPayloadBegin := none
      userPayloadEnd := none
      size_le := by decide }
  TcpHdr.setWindow
    (TcpHdr.setDoff
      (TcpHdr.setDest (TcpHdr.setSource skbufHead s.lport) s.fport) (20 / 4))
    (ntohs 4096)

/-- The part of the IP header that enters the TCP checksum, written through
the overlay. -/
def fillPseudoHdr (s : TcpSession) (skbufHead : FrameBuf) (buf : Bytes) :
    FrameBuf :=
  PseudoHdr.setDaddr
    (PseudoHdr.setSaddr
      (PseudoHdr.setProtocolLen (PseudoHdr.setProtocol skbufHead 6)
        (ntohs (UInt16.ofNat (buf.length + 20)))) s.laddr) s.faddr

/-- `prepareBeforeIpTx`: the checksum is taken over the overlay, which is then
overwritten with the rest of the IP header. -/
def prepareBeforeIpTx (s : TcpSession) (skbufHead : FrameBuf) (buf : Bytes) :
    FrameBuf :=
  let ipovly := s.fillPseudoHdr skbufHead buf
  let sum := Csum16.sumLoop buf 0
  let check := Csum16.checksum (ipovly.pointee ipovly.networkHdr)
    (TcpHdr.doff ipovly * 4 + 20) sum.toInt32
  PseudoHdr.setProtocolLen
    (PseudoHdr.setLen
      (PseudoHdr.setTos
        (PseudoHdr.setTtl (TcpHdr.setCheck ipovly check.toUInt16) 64) 0)
      (ntohs (UInt16.ofNat (buf.length + 40)))) 0

def ackFrame (s : TcpSession) (value : UInt32) : FrameBuf :=
  TcpHdr.setSeq
    (TcpHdr.setAckSeq (TcpHdr.setAck s.socketBufferOfTcpTempl) (ntohl value))
    (ntohl s.sendNext)

def ack2peer (s : TcpSession) (value : UInt32) : Effect :=
  .tx (s.prepareBeforeIpTx (s.ackFrame value) []) []

/-- The header of `send` in the state `CLOSED`. -/
def synFrame (s : TcpSession) : FrameBuf :=
  TcpHdr.setSyn (TcpHdr.setSeq s.socketBufferOfTcpTempl (ntohl iss))

def synSegment (s : TcpSession) (buf : Bytes) : Effect :=
  .tx (s.prepareBeforeIpTx s.synFrame buf) buf

/-- The header of `send` in the state `ESTABLISHED`. -/
def dataFrame (s : TcpSession) : FrameBuf :=
  TcpHdr.setAckSeq
    (TcpHdr.setAck
      (TcpHdr.setSeq s.socketBufferOfTcpTempl (ntohl s.sendNext)))
    (ntohl s.recvNext)

def dataSegment (s : TcpSession) (buf : Bytes) : Effect :=
  .tx (s.prepareBeforeIpTx s.dataFrame buf) buf

/-- The session after `Session::send`, which binds it; the error number is
dropped, as the source drops it. -/
def superSend (s : TcpSession) (port : UInt16) : TcpSession :=
  { s with toSession := (s.toSession.send port).1.1 }

def send (s : TcpSession) (port : UInt16) (buf : Bytes) :
    SendResult TcpSession :=
  let bound := s.superSend port
  let counter := (s.toSession.send port).1.2
  match s.connState with
  | .closed =>
      { session :=
          { bound with
            sendUnack := iss
            sendNext := iss + 1
            connState := .synSent }
        port := counter
        ret := Int32.ofNat buf.length
        effects := [bound.synSegment buf] }
  | .established =>
      { session :=
          { bound with
            sendNext := bound.sendNext + UInt32.ofNat buf.length }
        port := counter
        ret := Int32.ofNat buf.length
        effects := [bound.dataSegment buf] }
  | _ => { session := bound, port := counter, ret := 0, effects := [] }

/-- `TcpSession::connect`: the superclass, then `send` of an empty string. -/
def connect (s : TcpSession) (port : UInt16) (faddr : UInt32)
    (fport : UInt16) : SendResult TcpSession :=
  let super := s.toSession.connect port faddr fport
  let sent := send { s with toSession := super.1 } super.2 []
  { sent with ret := 0 }

def readAck (s : TcpSession) (f : FrameBuf) : TcpSession :=
  if TcpHdr.ack f && decide (s.sendUnack < ntohl (TcpHdr.ackSeq f)) then
    { s with sendUnack := ntohl (TcpHdr.ackSeq f) }
  else s

/-- The head frame with `user_payload_begin` moved behind the TCP header. -/
def stripTcpHdr (f : FrameBuf) : FrameBuf :=
  { f with
    userPayloadBegin := f.transportHdr.map (fun o => o + TcpHdr.doff f * 4) }

def stripHead (skbuf : Skbuf) : Skbuf :=
  { skbuf with head := stripTcpHdr skbuf.head }

def synReceived (s : TcpSession) (f : FrameBuf) : TcpSession :=
  { s with
    irs := ntohl (TcpHdr.seq f)
    recvNext := ntohl (TcpHdr.seq f) + 1
    sendUnack := s.sendUnack + 1
    connState := .established }

def dataReceived (s : TcpSession) (f : FrameBuf) : TcpSession :=
  { s.readAck f with
    recvNext := ntohl (TcpHdr.seq f) +
      UInt32.ofInt (stripTcpHdr f).userPayloadLen }

/-- `TcpSession::recv`; `peerAddr` is its uninitialised local variable. -/
def recv (s : TcpSession) (peerAddr : SockaddrIn) (skbuf : Skbuf) :
    TcpSession × List Effect :=
  match s.connState with
  | .synSent =>
      let estab := s.synReceived skbuf.head
      (estab,
        [.assertion (TcpHdr.syn skbuf.head && TcpHdr.ack skbuf.head),
          estab.ack2peer estab.recvNext, .runOnConnEstabCB])
  | .established =>
      if (stripTcpHdr skbuf.head).userPayloadLen ≠ 0 then
        let advanced := s.dataReceived skbuf.head
        (advanced,
          [.putToRecvQ peerAddr (stripHead skbuf),
            advanced.ack2peer advanced.recvNext])
      else (s.readAck skbuf.head, [])
  | _ => (s, [])

def fresh (base : Session) (sendUnack sendNext irs recvNext : UInt32) :
    TcpSession :=
  { base with
    connState := .closed
    onConnEstabCB := false
    sendUnack := sendUnack
    sendNext := sendNext
    irs := irs
    recvNext := recvNext }

/-- An operation together with the value of the port counter at the time of
the call, which other sessions advance as well. -/
inductive Op where
  | connect (port : UInt16) (faddr : UInt32) (fport : UInt16)
  | send (port : UInt16) (buf : Bytes)
  | recv (peerAddr : SockaddrIn) (skbuf : Skbuf)

def apply (s : TcpSession) : Op -> TcpSession × List Effect
  | .connect port faddr fport =>
      ((s.connect port faddr fport).session,
        (s.connect port faddr fport).effects)
  | .send port buf => ((s.send port buf).session, (s.send port buf).effects)
  | .recv peerAddr skbuf => s.recv peerAddr skbuf

def perform (s : TcpSession) : List Op -> TcpSession × List Effect
  | [] => (s, [])
  | op :: rest =>
      (((s.apply op).1.perform rest).1,
        (s.apply op).2 ++ ((s.apply op).1.perform rest).2)

/-!
## One case per branch
-/

inductive SendCase (s : TcpSession) (port : UInt16) (buf : Bytes) :
    SendResult TcpSession -> Prop where
  | syn (hstate : s.connState = .closed) :
      SendCase s port buf
        { session :=
            { s.superSend port with
              sendUnack := iss
              sendNext := iss + 1
              connState := .synSent }
          port := (s.toSession.send port).1.2
          ret := Int32.ofNat buf.length
          effects := [(s.superSend port).synSegment buf] }
  | data (hstate : s.connState = .established) :
      SendCase s port buf
        { session :=
            { s.superSend port with
              sendNext := s.sendNext + UInt32.ofNat buf.length }
          port := (s.toSession.send port).1.2
          ret := Int32.ofNat buf.length
          effects := [(s.superSend port).dataSegment buf] }
  | other (hclosed : s.connState ≠ .closed)
      (hestab : s.connState ≠ .established) :
      SendCase s port buf
        { session := s.superSend port
          port := (s.toSession.send port).1.2
          ret := 0
          effects := [] }

theorem send_cases (s : TcpSession) (port : UInt16) (buf : Bytes) :
    SendCase s port buf (s.send port buf) := by
  unfold send
  cases hstate : s.connState with
  | closed => exact .syn hstate
  | established => exact .data hstate
  | listen | synSent | synReceived | finWait1 | finWait2 | closing |
    timeWait | closeWait | lastAck =>
      exact .other (by rw [hstate]; nofun) (by rw [hstate]; nofun)

inductive RecvCase (s : TcpSession) (peerAddr : SockaddrIn) (skbuf : Skbuf) :
    TcpSession × List Effect -> Prop where
  | syn (hstate : s.connState = .synSent) :
      RecvCase s peerAddr skbuf
        (s.synReceived skbuf.head,
          [.assertion (TcpHdr.syn skbuf.head && TcpHdr.ack skbuf.head),
            (s.synReceived skbuf.head).ack2peer
              (ntohl (TcpHdr.seq skbuf.head) + 1), .runOnConnEstabCB])
  | data (hstate : s.connState = .established)
      (hlen : (stripTcpHdr skbuf.head).userPayloadLen ≠ 0) :
      RecvCase s peerAddr skbuf
        (s.dataReceived skbuf.head,
          [.putToRecvQ peerAddr (stripHead skbuf),
            (s.dataReceived skbuf.head).ack2peer
              (s.dataReceived skbuf.head).recvNext])
  | empty (hstate : s.connState = .established)
      (hlen : (stripTcpHdr skbuf.head).userPayloadLen = 0) :
      RecvCase s peerAddr skbuf (s.readAck skbuf.head, [])
  | other (hsyn : s.connState ≠ .synSent)
      (hestab : s.connState ≠ .established) :
      RecvCase s peerAddr skbuf (s, [])

theorem recv_cases (s : TcpSession) (peerAddr : SockaddrIn) (skbuf : Skbuf) :
    RecvCase s peerAddr skbuf (s.recv peerAddr skbuf) := by
  unfold recv
  cases hstate : s.connState with
  | synSent => exact .syn hstate
  | established =>
      by_cases hlen : (stripTcpHdr skbuf.head).userPayloadLen = 0
      · rw [if_neg (fun h => h hlen)]
        exact .empty hstate hlen
      · rw [if_pos hlen]
        exact .data hstate hlen
  | closed | listen | synReceived | finWait1 | finWait2 | closing |
    timeWait | closeWait | lastAck =>
      exact .other (by rw [hstate]; nofun) (by rw [hstate]; nofun)

theorem recv_data {s : TcpSession} (hestab : s.connState = .established)
    (peerAddr : SockaddrIn) {skbuf : Skbuf}
    (hlen : (stripTcpHdr skbuf.head).userPayloadLen ≠ 0) :
    s.recv peerAddr skbuf =
      (s.dataReceived skbuf.head,
        [.putToRecvQ peerAddr (stripHead skbuf),
          (s.dataReceived skbuf.head).ack2peer
            (s.dataReceived skbuf.head).recvNext]) := by
  have hcase := s.recv_cases peerAddr skbuf
  generalize s.recv peerAddr skbuf = result at hcase ⊢
  cases hcase with
  | syn hstate =>
      rw [hestab] at hstate
      cases hstate
  | data _ _ => rfl
  | empty _ hzero => exact absurd hzero hlen
  | other _ hother => exact absurd hestab hother

theorem recv_empty {s : TcpSession} (hestab : s.connState = .established)
    (peerAddr : SockaddrIn) {skbuf : Skbuf}
    (hlen : (stripTcpHdr skbuf.head).userPayloadLen = 0) :
    s.recv peerAddr skbuf = (s.readAck skbuf.head, []) := by
  have hcase := s.recv_cases peerAddr skbuf
  generalize s.recv peerAddr skbuf = result at hcase ⊢
  cases hcase with
  | syn hstate =>
      rw [hestab] at hstate
      cases hstate
  | data _ hsome => exact absurd hlen hsome
  | empty _ _ => rfl
  | other _ hother => exact absurd hestab hother

theorem readAck_eq (s : TcpSession) (f : FrameBuf) :
    exists una, s.readAck f = { s with sendUnack := una } := by
  unfold readAck
  split
  · exact ⟨_, rfl⟩
  · exact ⟨s.sendUnack, rfl⟩

end TcpSession

end Velox
