import Velox.Tcp.TcpSession
import Velox.Foundation.Simulation

/-!
# The two threads of a TCP session

`connect` and `send` run on the thread of the event loop, `recv` on the thread
that reads packets, and no lock guards the session.  This module splits the
three functions at every access to a member that the other thread may write or
read; a step is one such access.  Accesses are taken in the order of the
source and as indivisible.  A member that only one of the threads ever writes
and the other never reads needs no step of its own.
-/

namespace Velox

open Foundation

namespace TcpSession

/-!
## Whole calls
-/

inductive LoopCall where
  | connect (port : UInt16) (faddr : UInt32) (fport : UInt16)
  | send (port : UInt16) (buf : Bytes)

namespace LoopCall

/-- The string given to `send`; `connect` sends an empty one. -/
def buf : LoopCall -> Bytes
  | .connect _ _ _ => []
  | .send _ buf => buf

def returns : LoopCall -> Int32 -> Int32
  | .connect _ _ _, _ => 0
  | .send _ _, value => value

def perform (s : TcpSession) : LoopCall -> SendResult TcpSession
  | .connect port faddr fport => s.connect port faddr fport
  | .send port buf => s.send port buf

end LoopCall

/-- What can be seen of the two threads: the session, what is left to do, and
what each of them has done to the rest of the daemon. -/
structure Progress where
  session : TcpSession
  calls : List LoopCall
  segments : List (SockaddrIn × Skbuf)
  sent : List Effect
  returned : List Int32
  received : List Effect

inductive Thread where
  | eventLoop
  | ip
  deriving DecidableEq

namespace Progress

def called (p : Progress) (call : LoopCall) (rest : List LoopCall) : Progress :=
  { p with
    session := (call.perform p.session).session
    calls := rest
    sent := p.sent ++ (call.perform p.session).effects
    returned := p.returned ++ [(call.perform p.session).ret] }

def arrived (p : Progress) (peerAddr : SockaddrIn) (skbuf : Skbuf)
    (rest : List (SockaddrIn × Skbuf)) : Progress :=
  { p with
    session := (p.session.recv peerAddr skbuf).1
    segments := rest
    received := p.received ++ (p.session.recv peerAddr skbuf).2 }

/-- The threads take turns with whole calls. -/
def step (p : Progress) : Thread -> Option Progress
  | .eventLoop =>
      match p.calls with
      | [] => none
      | call :: rest => some (p.called call rest)
  | .ip =>
      match p.segments with
      | [] => none
      | (peerAddr, skbuf) :: rest => some (p.arrived peerAddr skbuf rest)

end Progress

/-!
## The event loop, access by access
-/

/-- The points of `TcpSession::send`, with the local variables alive there. -/
inductive SendPoint where
  | bind (port : UInt16)
  | templ
  | switch (skbufHead : FrameBuf)
  -- case TCP_STATE__CLOSED
  | storeIss (skbufHead : FrameBuf)
  | storeUnack (skbufHead : FrameBuf)
  | synSeq (skbufHead : FrameBuf)
  | synLoad (skbufHead : FrameBuf)
  | synStore (skbufHead : FrameBuf) (next : UInt32)
  | storeState (skbufHead : FrameBuf)
  -- case TCP_STATE__ESTABLISHED
  | dataSeq (skbufHead : FrameBuf)
  | dataLoad (skbufHead : FrameBuf)
  | dataStore (skbufHead : FrameBuf) (next : UInt32)
  | dataAck (skbufHead : FrameBuf)
  -- after the switch
  | prepare (skbufHead : FrameBuf)
  | tx (skbufHead : FrameBuf)
  | leave (value : Int32)

/-- Where the event loop is; a `connect` first runs `Session::connect`. -/
inductive CallState where
  | idle
  | storeFaddr (port : UInt16) (faddr : UInt32) (fport : UInt16)
  | storeFport (port : UInt16) (faddr : UInt32) (fport : UInt16)
  | connectBind (port : UInt16) (faddr : UInt32) (fport : UInt16)
  | sending (call : LoopCall) (point : SendPoint)

def LoopCall.enter : LoopCall -> CallState
  | .connect port faddr fport => .storeFaddr port faddr fport
  | .send port buf => .sending (.send port buf) (.bind port)

/-!
## The packet thread, access by access
-/

/-- The points of `TcpSession::recv` and of the `ack2peer` it calls; `estab`
tells whether the callback is still to run. -/
inductive RecvPoint where
  | switch
  -- case TCP_STATE__SYN_SENT
  | storeIrs
  | storeRecvNext
  | unackLoad
  | unackStore (unack : UInt32)
  | storeState
  | synAck
  -- case TCP_STATE__ESTABLISHED
  | readAck
  | storeAck
  | put
  | storeNext
  | dataAck
  -- ack2peer
  | ackSource (estab : Bool) (value : UInt32)
  | ackDest (estab : Bool) (value : UInt32) (source : UInt16)
  | ackSeq (estab : Bool) (value : UInt32) (skbufHead : FrameBuf)
  | ackPrepare (estab : Bool) (value : UInt32) (skbufHead : FrameBuf)
  | ackTx (estab : Bool) (value : UInt32) (skbufHead : FrameBuf)
  | callback

inductive RecvState where
  | idle
  | receiving (peerAddr : SockaddrIn) (skbuf : Skbuf) (point : RecvPoint)

structure Threads extends Progress where
  eventLoop : CallState
  ip : RecvState

namespace Threads

def sendBranch (skbufHead : FrameBuf) : TcpState -> SendPoint
  | .closed => .storeIss skbufHead
  | .established => .dataSeq skbufHead
  | _ => .leave 0

def stepSend (t : Threads) (call : LoopCall) : SendPoint -> Threads
  | .bind port =>
      { t with
        session :=
          { t.session with toSession := (t.session.toSession.bind port).1 }
        eventLoop := .sending call .templ }
  | .templ =>
      { t with
        eventLoop := .sending call (.switch t.session.socketBufferOfTcpTempl) }
  | .switch f =>
      { t with
        eventLoop := .sending call (sendBranch f t.session.connState) }
  | .storeIss f =>
      { t with
        session := { t.session with sendNext := iss }
        eventLoop := .sending call (.storeUnack f) }
  | .storeUnack f =>
      { t with
        session := { t.session with sendUnack := t.session.sendNext }
        eventLoop := .sending call (.synSeq f) }
  | .synSeq f =>
      { t with
        eventLoop := .sending call
          (.synLoad (TcpHdr.setSeq f (ntohl t.session.sendNext))) }
  | .synLoad f =>
      { t with
        eventLoop := .sending call (.synStore f (t.session.sendNext + 1)) }
  | .synStore f next =>
      { t with
        session := { t.session with sendNext := next }
        eventLoop := .sending call (.storeState (TcpHdr.setSyn f)) }
  | .storeState f =>
      { t with
        session := { t.session with connState := .synSent }
        eventLoop := .sending call (.prepare f) }
  | .dataSeq f =>
      { t with
        eventLoop := .sending call
          (.dataLoad (TcpHdr.setSeq f (ntohl t.session.sendNext))) }
  | .dataLoad f =>
      { t with
        eventLoop := .sending call
          (.dataStore f
            (t.session.sendNext + UInt32.ofNat call.buf.length)) }
  | .dataStore f next =>
      { t with
        session := { t.session with sendNext := next }
        eventLoop := .sending call (.dataAck (TcpHdr.setAck f)) }
  | .dataAck f =>
      { t with
        eventLoop := .sending call
          (.prepare (TcpHdr.setAckSeq f (ntohl t.session.recvNext))) }
  | .prepare f =>
      { t with
        eventLoop := .sending call
          (.tx (t.session.prepareBeforeIpTx f call.buf)) }
  | .tx f =>
      { t with
        sent := t.sent ++ [.tx f call.buf]
        eventLoop := .sending call (.leave (Int32.ofNat call.buf.length)) }
  | .leave value =>
      { t with
        returned := t.returned ++ [call.returns value]
        eventLoop := .idle }

def stepEventLoop (t : Threads) : Option Threads :=
  match t.eventLoop with
  | .idle =>
      match t.calls with
      | [] => none
      | call :: rest => some { t with calls := rest, eventLoop := call.enter }
  | .storeFaddr port faddr fport =>
      some
        { t with
          session := { t.session with faddr := faddr }
          eventLoop := .storeFport port faddr fport }
  | .storeFport port faddr fport =>
      some
        { t with
          session := { t.session with fport := fport }
          eventLoop := .connectBind port faddr fport }
  | .connectBind port faddr fport =>
      some
        { t with
          session :=
            { t.session with toSession := (t.session.toSession.bind port).1 }
          eventLoop := .sending (.connect port faddr fport)
            (.bind (t.session.toSession.bind port).2) }
  | .sending call point => some (t.stepSend call point)

def recvBranch (peerAddr : SockaddrIn) (skbuf : Skbuf) : TcpState -> RecvState
  | .synSent => .receiving peerAddr skbuf .storeIrs
  | .established => .receiving peerAddr skbuf .readAck
  | _ => .idle

def recvAssert (skbuf : Skbuf) : TcpState -> List Effect
  | .synSent => [.assertion (TcpHdr.syn skbuf.head && TcpHdr.ack skbuf.head)]
  | _ => []

def stepRecv (t : Threads) (peerAddr : SockaddrIn) (skbuf : Skbuf) :
    RecvPoint -> Threads
  | .switch =>
      { t with
        received := t.received ++ recvAssert skbuf t.session.connState
        ip := recvBranch peerAddr skbuf t.session.connState }
  | .storeIrs =>
      { t with
        session := { t.session with irs := ntohl (TcpHdr.seq skbuf.head) }
        ip := .receiving peerAddr skbuf .storeRecvNext }
  | .storeRecvNext =>
      { t with
        session := { t.session with recvNext := t.session.irs + 1 }
        ip := .receiving peerAddr skbuf .unackLoad }
  | .unackLoad =>
      { t with
        ip := .receiving peerAddr skbuf
          (.unackStore (t.session.sendUnack + 1)) }
  | .unackStore unack =>
      { t with
        session := { t.session with sendUnack := unack }
        ip := .receiving peerAddr skbuf .storeState }
  | .storeState =>
      { t with
        session := { t.session with connState := .established }
        ip := .receiving peerAddr skbuf .synAck }
  | .synAck =>
      { t with
        ip := .receiving peerAddr skbuf (.ackSource true t.session.recvNext) }
  | .readAck =>
      { t with
        ip := .receiving peerAddr skbuf
          (if TcpHdr.ack skbuf.head && decide
              (t.session.sendUnack < ntohl (TcpHdr.ackSeq skbuf.head))
            then .storeAck else .put) }
  | .storeAck =>
      { t with
        session :=
          { t.session with sendUnack := ntohl (TcpHdr.ackSeq skbuf.head) }
        ip := .receiving peerAddr skbuf .put }
  | .put =>
      if (stripTcpHdr skbuf.head).userPayloadLen ≠ 0 then
        { t with
          received := t.received ++ [.putToRecvQ peerAddr (stripHead skbuf)]
          ip := .receiving peerAddr skbuf .storeNext }
      else { t with ip := .idle }
  | .storeNext =>
      { t with
        session :=
          { t.session with
            recvNext := ntohl (TcpHdr.seq skbuf.head) +
              UInt32.ofInt (stripTcpHdr skbuf.head).userPayloadLen }
        ip := .receiving peerAddr skbuf .dataAck }
  | .dataAck =>
      { t with
        ip := .receiving peerAddr skbuf (.ackSource false t.session.recvNext) }
  | .ackSource estab value =>
      { t with
        ip := .receiving peerAddr skbuf
          (.ackDest estab value t.session.lport) }
  | .ackDest estab value source =>
      { t with
        ip := .receiving peerAddr skbuf
          (.ackSeq estab value
            (TcpHdr.setAckSeq
              (TcpHdr.setAck
                { t.session with lport := source }.socketBufferOfTcpTempl)
              (ntohl value))) }
  | .ackSeq estab value f =>
      { t with
        ip := .receiving peerAddr skbuf
          (.ackPrepare estab value
            (TcpHdr.setSeq f (ntohl t.session.sendNext))) }
  | .ackPrepare estab value f =>
      { t with
        ip := .receiving peerAddr skbuf
          (.ackTx estab value (t.session.prepareBeforeIpTx f [])) }
  | .ackTx estab _ f =>
      { t with
        received := t.received ++ [.tx f []]
        ip := if estab then .receiving peerAddr skbuf .callback else .idle }
  | .callback =>
      { t with received := t.received ++ [.runOnConnEstabCB], ip := .idle }

def stepIp (t : Threads) : Option Threads :=
  match t.ip with
  | .idle =>
      match t.segments with
      | [] => none
      | (peerAddr, skbuf) :: rest =>
          some
            { t with
              segments := rest
              ip := .receiving peerAddr skbuf .switch }
  | .receiving peerAddr skbuf point => some (t.stepRecv peerAddr skbuf point)

/-- The scheduler picks the thread that makes the next access. -/
def step (t : Threads) : Thread -> Option Threads
  | .eventLoop => t.stepEventLoop
  | .ip => t.stepIp

def Idle (t : Threads) : Prop :=
  t.eventLoop = .idle ∧ t.ip = .idle

end Threads

def Progress.start (p : Progress) : Threads :=
  { p with eventLoop := .idle, ip := .idle }

end TcpSession

end Velox
