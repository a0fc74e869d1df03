import Velox.Frame.Headers

/-!
# Protocol sessions

The part of a session that TCP and UDP share: the address pair and its binding
to a local port, and what the sessions do to the rest of the daemon.  Each
protocol keeps one static counter from which `nextAvailPort` hands out ports;
operations that may bind take the counter and return it.
-/

namespace Velox

open Foundation

/-- The four-tuple of a session, in network byte order. -/
structure Session where
  faddr : UInt32
  fport : UInt16
  laddr : UInt32
  lport : UInt16
  deriving DecidableEq

def nextAvailPort (port : UInt16) : UInt16 × UInt16 :=
  (ntohs (port + 1), port + 1)

def eNotConn : Int32 := 107

def eIsConn : Int32 := 106

/-- What a session does to the rest of the daemon: a packet for `Ip::tx`, an
entry for the endpoint, the test and call of `onConnEstabCB`, and an `assert`,
which a release build does not evaluate. -/
inductive Effect where
  | tx (skbufHead : FrameBuf) (userPayload : Bytes)
  | putToRecvQ (peerAddr : SockaddrIn) (skbuf : Skbuf)
  | runOnConnEstabCB
  | assertion (holds : Bool)
  deriving DecidableEq

/-- What an operation of the application leaves: the session, the port
counter, the number returned to the caller and the effects. -/
structure SendResult (σ : Type) where
  session : σ
  port : UInt16
  ret : Int32
  effects : List Effect

namespace Session

/-- The constructor: only the local address is set. -/
def create (laddr : UInt32) : Session where
  faddr := 0
  fport := 0
  laddr := laddr
  lport := 0

def bind (s : Session) (port : UInt16) : Session × UInt16 :=
  if s.lport = 0 then
    ({ s with lport := (nextAvailPort port).1 }, (nextAvailPort port).2)
  else (s, port)

def connect (s : Session) (port : UInt16) (faddr : UInt32) (fport : UInt16) :
    Session × UInt16 :=
  bind { s with faddr := faddr, fport := fport } port

/-- `Session::send(buf)` with the error number it returns. -/
def send (s : Session) (port : UInt16) : (Session × UInt16) × Int32 :=
  (bind s port, if s.fport = 0 then eNotConn else 0)

/-- `Session::send(faddr, fport, buf)`: the port tested is the argument. -/
def sendTo (s : Session) (port : UInt16) (fport : UInt16) :
    (Session × UInt16) × Int32 :=
  (bind s port, if fport ≠ 0 then eIsConn else 0)

def disconnect (s : Session) : Session :=
  { s with faddr := 0, fport := 0 }

end Session

end Velox
