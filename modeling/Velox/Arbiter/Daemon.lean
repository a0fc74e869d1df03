import Mathlib.Logic.Function.Basic
import Velox.Arbiter.RpcDispatch
import Velox.Foundation.Runs
import Velox.Ip.Rx

/-!
# Channels, endpoints and sessions

The objects of the daemon and the pointers between them.  `Arbiter` owns the
channels, a channel owns its endpoint and an endpoint owns its session; the
pointers back, and those in the lists of `Tcp` and `Udp`, are weak.  An object
lives as long as an owner of it does, and a weak pointer can be locked as long
as its object lives.  The thread of the IP layer owns the session, and later
the endpoint, of the packet that it delivers.
-/

namespace Velox

open Foundation

structure AgentChannelObj where
  socket : Option Nat

structure EndpointObj where
  so : Endpoint
  pcb : Option Nat
  /-- A weak pointer. -/
  rrChannel : Option Nat

structure SessionObj where
  pcb : Pcb
  /-- A weak pointer. -/
  socket : Option Nat

inductive InFlight where
  | idle
  | found (s : Nat) (peerAddr : SockaddrIn) (skbuf : Skbuf)
  | locked (s : Nat) (e : Nat) (peerAddr : SockaddrIn) (skbuf : Skbuf)

namespace InFlight

def session : InFlight -> Option Nat
  | .idle => none
  | .found s _ _ => some s
  | .locked s _ _ _ => some s

def endpoint : InFlight -> Option Nat
  | .locked _ e _ _ => some e
  | _ => none

end InFlight

structure Opened where
  channel : Nat
  endpoint : Nat
  session : Nat
  deriving DecidableEq

/-- The daemon; `opened`, `queued` and `answered` are histories: the sessions
and endpoints of the packets handed to `putToRecvQ`, and the channels and
endpoints of the packets taken from a queue. -/
structure Daemon where
  /-- The number of objects so far, which is the name of the next one. -/
  next : Nat
  rrChannels : List Nat
  channel : Nat -> AgentChannelObj
  endpoint : Nat -> EndpointObj
  session : Nat -> SessionObj
  tcpPcbs : List Nat
  udpPcbs : List Nat
  delivery : InFlight
  opened : List Opened
  queued : List (Nat × Nat)
  answered : List (Nat × Nat)

/-- What the two threads do; the last three actions are the IP thread's. -/
inductive DaemonAct where
  | accept
  | socketCall (c : Nat) (laddr uninit : UInt32) (type : Int32)
  /-- Any other request on a channel, or a callback, and what it leaves. -/
  | request (c : Nat) (sock : Sock)
  /-- A packet is taken from the queue and sent to the process. -/
  | answer (c : Nat)
  | removeRRChannel (c : Nat)
  | find (tcp : Bool) (uninit : SockaddrIn) (skbuf : Skbuf)
  | recv
  | putToRecvQ

def DaemonAct.IsEventLoop : DaemonAct -> Prop
  | .find _ _ _ => False
  | .recv => False
  | .putToRecvQ => False
  | _ => True

def DaemonAct.Ends (c : Nat) : DaemonAct -> Prop
  | .removeRRChannel ch => ch = c
  | .socketCall ch _ _ _ => ch = c
  | _ => False

namespace Daemon

def init : Daemon where
  next := 0
  rrChannels := []
  channel := fun _ => ⟨none⟩
  endpoint := fun _ => ⟨Endpoint.create false, none, none⟩
  session := fun _ => ⟨.udp (Session.create 0), none⟩
  tcpPcbs := []
  udpPcbs := []
  delivery := .idle
  opened := []
  queued := []
  answered := []

/-!
## Ownership
-/

def liveEndpoints (d : Daemon) : List Nat :=
  d.rrChannels.filterMap (fun c => (d.channel c).socket) ++
    d.delivery.endpoint.toList

def liveSessions (d : Daemon) : List Nat :=
  d.liveEndpoints.filterMap (fun e => (d.endpoint e).pcb) ++
    d.delivery.session.toList

/-- `lock` of a session's pointer to its endpoint. -/
def lockSocket (d : Daemon) (s : Nat) : Option Nat :=
  match (d.session s).socket with
  | none => none
  | some e => if e ∈ d.liveEndpoints then some e else none

/-- `lock` of a pointer in a list of sessions. -/
def lockSession (d : Daemon) (s : Nat) : Option Session :=
  if s ∈ d.liveSessions then some (d.session s).pcb.session else none

def pcbs (d : Daemon) (tcp : Bool) : List Nat :=
  if tcp then d.tcpPcbs else d.udpPcbs

/-!
## Steps
-/

def accept (d : Daemon) : Daemon :=
  { d with
    next := d.next + 1
    rrChannels := d.rrChannels ++ [d.next]
    channel := Function.update d.channel d.next ⟨none⟩ }

/-- `socketCall`: the new endpoint and session, and the four pointers. -/
def openSocket (d : Daemon) (c : Nat) (sock : Sock) : Daemon :=
  let e := d.next
  let s := d.next + 1
  { d with
    next := d.next + 2
    channel := Function.update d.channel c ⟨some e⟩
    endpoint := Function.update d.endpoint e ⟨sock.so, some s, some c⟩
    session := Function.update d.session s ⟨sock.pcb, some e⟩
    tcpPcbs := if sock.pcb.isTcp then d.tcpPcbs ++ [s] else d.tcpPcbs
    udpPcbs := if sock.pcb.isTcp then d.udpPcbs else d.udpPcbs ++ [s]
    opened := ⟨c, e, s⟩ :: d.opened }

def removeRRChannel (d : Daemon) (c : Nat) : Daemon :=
  { d with rrChannels := d.rrChannels.filter fun ch => ch ≠ c }

def setSock (d : Daemon) (e s : Nat) (so : Endpoint) (pcb : Pcb) : Daemon :=
  { d with
    endpoint := Function.update d.endpoint e { d.endpoint e with so := so }
    session := Function.update d.session s { d.session s with pcb := pcb } }

/-- A request finds the endpoint and session of its channel, and does not turn
a session of one protocol into one of the other. -/
def request (d : Daemon) (c : Nat) (sock : Sock) : Option Daemon :=
  match (d.channel c).socket with
  | none => none
  | some e =>
      match (d.endpoint e).pcb with
      | none => none
      | some s =>
          if sock.pcb.isTcp = (d.session s).pcb.isTcp then
            some (d.setSock e s sock.so sock.pcb)
          else none

def answer (d : Daemon) (c : Nat) : Option Daemon :=
  match (d.channel c).socket with
  | none => none
  | some e =>
      match (d.endpoint e).so.tryTakeFromRecvQ with
      | none => none
      | some (_, so) =>
          some
            { d with
              endpoint :=
                Function.update d.endpoint e { d.endpoint e with so := so }
              answered := (c, e) :: d.answered }

/-- The search of `Udp::rx` and `Tcp::rx`; the address that a UDP session gets
is that of the packet. -/
def find (d : Daemon) (tcp : Bool) (uninit : SockaddrIn) (skbuf : Skbuf) :
    Daemon :=
  let faddr := IpHdr.saddr skbuf.head
  let fport := UdpHdr.source skbuf.head
  let peerAddr := if tcp then uninit else SockaddrIn.inet faddr fport
  match Sessions.find d.lockSession (d.pcbs tcp) faddr fport
      (IpHdr.daddr skbuf.head) (UdpHdr.dest skbuf.head) with
  | none => d
  | some s => { d with delivery := .found s peerAddr skbuf }

/-- Whether `recv` gets as far as `socket().lock()`. -/
def queues (pcb : Pcb) (peerAddr : SockaddrIn) (skbuf : Skbuf) : Bool :=
  (pcb.recv peerAddr skbuf).2.any fun
    | .putToRecvQ _ _ => true
    | _ => false

/-- `recv` up to the lock of the endpoint, which is dereferenced at once: the
result is `none` if that is a null pointer. -/
def recv (d : Daemon) : Option Daemon :=
  match d.delivery with
  | .found s peerAddr skbuf =>
      if queues (d.session s).pcb peerAddr skbuf then
        match d.lockSocket s with
        | none => none
        | some e => some { d with delivery := .locked s e peerAddr skbuf }
      else
        some
          { d with
            session := Function.update d.session s { d.session s with
              pcb := ((d.session s).pcb.recv peerAddr skbuf).1 }
            delivery := .idle }
  | _ => none

/-- The rest of `recv`, from `putToRecvQ` on. -/
def putToRecvQ (d : Daemon) : Option Daemon :=
  match d.delivery with
  | .locked s e peerAddr skbuf =>
      let received := (d.session s).pcb.recv peerAddr skbuf
      some
        { d.setSock e s (received.2.foldl Endpoint.apply (d.endpoint e).so)
            received.1 with
          delivery := .idle
          queued := (s, e) :: d.queued }
  | _ => none

def step (d : Daemon) : DaemonAct -> Option Daemon
  | .accept => some d.accept
  | .socketCall c laddr uninit type =>
      if c ∈ d.rrChannels then
        (RpcDispatch.socketCall laddr uninit type).map fun made =>
          d.openSocket c made.1
      else none
  | .request c sock => if c ∈ d.rrChannels then d.request c sock else none
  | .answer c => if c ∈ d.rrChannels then d.answer c else none
  | .removeRRChannel c => some (d.removeRRChannel c)
  | .find tcp uninit skbuf =>
      match d.delivery with
      | .idle => some (d.find tcp uninit skbuf)
      | _ => none
  | .recv => d.recv
  | .putToRecvQ => d.putToRecvQ

end Daemon

end Velox
