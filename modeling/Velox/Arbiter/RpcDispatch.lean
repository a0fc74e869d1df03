import Velox.Arbiter.Endpoint
import Velox.Rpc
import Velox.Tcp.TcpSession
import Velox.Udp.UdpSession

/-!
# Handling of requests

The functions of `RpcDispatch` on the socket of a channel.  A socket is an
endpoint with its session; the type of the endpoint is the kind of session,
since `socketCall` creates the two together.  Calls that return at once are
given as functions; the parts of `recvfromCall` and `connectCall` that other
threads can interrupt are given one by one.
-/

namespace Velox

open Foundation

inductive Pcb where
  | udp (s : Session)
  | tcp (s : TcpSession)
  deriving DecidableEq

structure Sock where
  so : Endpoint
  pcb : Pcb
  deriving DecidableEq

namespace Pcb

def session : Pcb -> Session
  | .udp s => s
  | .tcp s => s.toSession

def isTcp : Pcb -> Bool
  | .udp _ => false
  | .tcp _ => true

def connect (pcb : Pcb) (port : UInt16) (addr : SockaddrIn) : Pcb :=
  match pcb with
  | .udp s => .udp (s.connect port addr.sinAddr addr.sinPort).1
  | .tcp s => .tcp (s.connect port addr.sinAddr addr.sinPort).session

/-- `setOnConnEstabCB`, which only a TCP session overrides. -/
def setOnConnEstabCB : Pcb -> Pcb
  | .udp s => .udp s
  | .tcp s => .tcp { s with onConnEstabCB := true }

def onConnEstabCB : Pcb -> Bool
  | .udp _ => false
  | .tcp s => s.onConnEstabCB

/-- The two virtual functions `recv`; a UDP session gets the address from
`Udp::rx`. -/
def recv (pcb : Pcb) (peerAddr : SockaddrIn) (skbuf : Skbuf) :
    Pcb × List Effect :=
  match pcb with
  | .udp s => (.udp s, UdpSession.recv peerAddr skbuf)
  | .tcp s => (.tcp (s.recv peerAddr skbuf).1, (s.recv peerAddr skbuf).2)

theorem recv_isTcp (pcb : Pcb) (peerAddr : SockaddrIn) (skbuf : Skbuf) :
    (pcb.recv peerAddr skbuf).1.isTcp = pcb.isTcp := by
  cases pcb <;> rfl

def sendto (pcb : Pcb) (port : UInt16) (buf : Bytes) (addr : Option Bytes) :
    Pcb × Int32 :=
  match pcb, addr with
  | .udp s, some bytes =>
      let destAddr := SockaddrIn.ofBytes bytes
      let sent := UdpSession.sendTo s port destAddr.sinAddr destAddr.sinPort buf
      (.udp sent.session, sent.ret)
  | .udp s, none =>
      let sent := UdpSession.send s port buf
      (.udp sent.session, sent.ret)
  | .tcp s, _ =>
      let sent := s.send port buf
      (.tcp sent.session, sent.ret)

end Pcb

namespace RpcDispatch

def ret (n : Int32) : CallRet where
  ret := n
  errno := none

def okResponse (returning : Returning) : Response where
  returning := returning
  retCode := some .ok

def emptyResponse : Response where
  returning := .notSet
  retCode := none

def waitNextResponse : Response where
  returning := .notSet
  retCode := some .waitNext

def eAgain : Int32 := 11

def eInProgress : Int32 := 115

def sockStream : Int32 := 1

def sockDgram : Int32 := 2

def sockNonblock : Int32 := 2048

/-- `socketCall`; `uninit` is what the sequence variables of a new TCP
session hold. A type with neither bit leaves null pointers. -/
def socketCall (laddr uninit : UInt32) (type : Int32) :
    Option (Sock × Response) :=
  let so := Endpoint.create (type &&& sockNonblock != 0)
  let resp := okResponse (.socketCall (ret 0))
  if type &&& sockStream != 0 then
    some (⟨so, .tcp (TcpSession.fresh (Session.create laddr) uninit uninit
      uninit uninit)⟩, resp)
  else if type &&& sockDgram != 0 then
    some (⟨so, .udp (Session.create laddr)⟩, resp)
  else none

/-!
## Calls that return at once
-/

def closeCall : Response :=
  okResponse (.closeCall (ret 0))

def sendtoCall (pcb : Pcb) (port : UInt16) (buf : Bytes)
    (addr : Option Bytes) : Pcb × Response :=
  let sent := pcb.sendto port buf addr
  (sent.1, okResponse (.sendtoCall (ret sent.2)))

def getpeernameCall (pcb : Pcb) : Response :=
  let sockname := SockaddrIn.inet pcb.session.faddr pcb.session.fport
  okResponse (.getpeernameCall (ret 0) (some sockname.toBytes))

def getsocknameCall (pcb : Pcb) : Response :=
  let sockname := SockaddrIn.inet pcb.session.laddr pcb.session.lport
  okResponse (.getsocknameCall (ret 0) (some sockname.toBytes))

def getsockoptCall : Response :=
  okResponse (.getsockoptCall (ret 0))

def setsockoptCall : Response :=
  emptyResponse

def fcntlCall : Response :=
  okResponse (.fcntlCall (ret 0))

def atstartAction : Response :=
  okResponse (.atstartAction 4096 (some 1024))

/-- The UDP part of `connectCall`: the return code is not set. -/
def connectUdp (pcb : Pcb) (port : UInt16) (addr : Bytes) : Pcb × Response :=
  (pcb.connect port (SockaddrIn.ofBytes addr),
    { returning := .connectCall (ret 0), retCode := none })

/-- The label `tcp_in_progress` of `connectCall`. -/
def tcpInProgress : Response :=
  okResponse (.recvfromCall (ret eInProgress) none none)

/-- The response that the callback of `connectCall` writes. -/
def connEstabResponse : Response :=
  okResponse (.connectCall (ret 0))

/-!
## Parts of `recvfromCall`
-/

def recvfromPacket (requireAddr : Bool) (packet : Packet) : Response :=
  let buf := drainSkbufChain packet.skbuf.frames
  okResponse (.recvfromCall (ret (Int32.ofNat buf.length)) (some buf)
    (if requireAddr then some packet.peerAddr.toBytes else none))

/-- The label `e_again`. -/
def recvfromAgain : Response :=
  okResponse (.recvfromCall (ret eAgain) none none)

/-- The callback that the label `wait_next` binds. -/
def asyncCallback (pcb : Pcb) (requireAddr : Bool) : AsyncNewPacket :=
  match pcb with
  | .udp _ => .udp requireAddr
  | .tcp _ => .tcp

/-- The response of `onAsyncNewUdpPacket` and `onAsyncNewTcpPacket`, which
does not give the address. -/
def asyncResponse (cb : AsyncNewPacket) (packet : Packet) : Response :=
  match cb with
  | .udp requireAddr => recvfromPacket requireAddr packet
  | .tcp => recvfromPacket false packet

/-!
## Whole requests

`handleRequest` without interference of other threads.
-/

def recvfromCall (sock : Sock) (requireAddr : Bool) : Sock × Response :=
  match sock.so.tryTakeFromRecvQ with
  | some (packet, so) => ({ sock with so := so },
      recvfromPacket requireAddr packet)
  | none =>
      if sock.so.nonblocking then (sock, recvfromAgain)
      else
        ({ sock with
            so := (sock.so.setOnAsyncNewPacketCB
              (asyncCallback sock.pcb requireAddr)).setWaiting true },
          waitNextResponse)

/-- `sChannelReadCb` without interference, with the response that the callback
writes; the result is `none` where the callback blocks on an empty queue. -/
def sChannelReadCb (so : Endpoint) : Option (Endpoint × Option Response) :=
  if so.waiting then
    match so.onAsyncNewPacket with
    | none => some ({ so with pipe := 0, waiting := false }, none)
    | some cb =>
        match so.tryTakeFromRecvQ with
        | none => none
        | some (packet, so) =>
            some ({ so with pipe := 0, waiting := false },
              some (asyncResponse cb packet))
  else some ({ so with pipe := 0 }, none)

def connectCall (sock : Sock) (port : UInt16) (addr : Bytes) :
    Sock × Response :=
  match sock.pcb with
  | .udp _ =>
      ({ sock with pcb := (connectUdp sock.pcb port addr).1 },
        (connectUdp sock.pcb port addr).2)
  | .tcp _ =>
      if sock.so.nonblocking then (sock, tcpInProgress)
      else
        ({ sock with
            pcb := sock.pcb.setOnConnEstabCB.connect port
              (SockaddrIn.ofBytes addr) },
          waitNextResponse)

/-- `handleRequest` on the socket of the channel, if it has one; the result
is `none` where the source dereferences a null pointer. -/
def handleRequest (laddr uninit : UInt32) (port : UInt16)
    (socket : Option Sock) (calling : Calling) :
    Option (Option Sock × Response) :=
  match calling, socket with
  | .socketCall _ type _, _ =>
      (socketCall laddr uninit type).map fun made => (some made.1, made.2)
  | .connectCall addr, some sock =>
      some (some (connectCall sock port addr).1,
        (connectCall sock port addr).2)
  | .recvfromCall _ _ requireAddr, some sock =>
      some (some (recvfromCall sock requireAddr).1,
        (recvfromCall sock requireAddr).2)
  | .sendtoCall buf _ addr, some sock =>
      some (some { sock with pcb := (sendtoCall sock.pcb port buf addr).1 },
        (sendtoCall sock.pcb port buf addr).2)
  | .getpeernameCall, some sock => some (sock, getpeernameCall sock.pcb)
  | .getsocknameCall, some sock => some (sock, getsocknameCall sock.pcb)
  | .closeCall, _ => some (socket, closeCall)
  | .pollCall, _ => some (socket, emptyResponse)
  | .selectCall, _ => some (socket, emptyResponse)
  | .getsockoptCall, _ => some (socket, getsockoptCall)
  | .setsockoptCall, _ => some (socket, setsockoptCall)
  | .fcntlCall, _ => some (socket, fcntlCall)
  | .atstartAction _, _ => some (socket, atstartAction)
  | .notSet, _ => some (socket, emptyResponse)
  | _, none => none

end RpcDispatch

end Velox
