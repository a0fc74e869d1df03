import Velox.Frame.FrameBuf

/-!
# Endpoints

The part of a socket between the packet thread and the event loop: the queue
of received packets, the notify pipe and the flag and callback of a reader
that waits.  The concurrent queue is a first-in first-out list; the pipe is
the number of its unread bytes.
-/

namespace Velox

/-- An entry of `recvQ`: the address of the peer and the chain. -/
structure Packet where
  peerAddr : SockaddrIn
  skbuf : Skbuf
  deriving DecidableEq

/-- The functions that `recvfromCall` binds as `onAsyncNewPacket`. -/
inductive AsyncNewPacket where
  | udp (requireAddr : Bool)
  | tcp
  deriving DecidableEq

structure Endpoint where
  nonblocking : Bool
  pipe : Nat
  waiting : Bool
  onAsyncNewPacket : Option AsyncNewPacket
  recvQ : List Packet
  deriving DecidableEq

namespace Endpoint

def recvQlimit : Nat := 128

/-- The bytes a pipe holds by default. -/
def pipeCapacity : Nat := 65536

def create (isnonblocking : Bool) : Endpoint where
  nonblocking := isnonblocking
  pipe := 0
  waiting := false
  onAsyncNewPacket := none
  recvQ := []

def setWaiting (so : Endpoint) (v : Bool) : Endpoint :=
  { so with waiting := v }

def setOnAsyncNewPacketCB (so : Endpoint) (cb : AsyncNewPacket) : Endpoint :=
  { so with onAsyncNewPacket := some cb }

def recvQOverLimit (so : Endpoint) : Bool :=
  decide (recvQlimit < so.recvQ.length)

def enqueue (so : Endpoint) (packet : Packet) : Endpoint :=
  { so with recvQ := so.recvQ ++ [packet] }

/-- One byte is written; a full pipe refuses it and the error is ignored. -/
def markSChannelAsReadable (so : Endpoint) : Endpoint :=
  { so with pipe := if so.pipe < pipeCapacity then so.pipe + 1 else so.pipe }

def putToRecvQ (so : Endpoint) (packet : Packet) : Endpoint :=
  if so.recvQOverLimit then so
  else (so.enqueue packet).markSChannelAsReadable

/-- `try_takeFromRecvQ`, and `takeFromRecvQ`, which blocks where this one
fails. -/
def tryTakeFromRecvQ (so : Endpoint) : Option (Packet × Endpoint) :=
  match so.recvQ with
  | [] => none
  | packet :: rest => some (packet, { so with recvQ := rest })

end Endpoint

end Velox
