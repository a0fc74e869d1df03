import Velox.Arbiter.RpcDispatch
import Velox.Foundation.Runs

/-!
# One channel, its clients and the threads of the daemon

The clients of a channel send requests and read responses; the event loop of
the daemon handles requests and notifications; the packet thread delivers
packets to the session.  The threads interleave between any two accesses to
what they share: the receive queue, the notify pipe, the flag `waiting`, the
callbacks and the channel itself.  Nothing writes to the pipe by which a TCP
session could announce the end of its handshake to the event loop, so that
callback runs in the packet thread only.
-/

namespace Velox

/-- A message on its way to the clients, with the index of the request it
answers and the packet it carries. -/
structure Reply where
  answers : Nat
  resp : Response
  packet : Option Packet
  deriving DecidableEq

/-- Where the event loop stands.  The first group is `onReadReady` with the
parts of `handleRequest`, the second is `sChannelReadCb`. -/
inductive LoopPc where
  | idle
  | handling (k : Nat) (calling : Calling)
  | recvfromEmpty (k : Nat) (requireAddr : Bool)
  | recvfromBound (k : Nat)
  | connectBound (k : Nat) (addr : SockaddrIn)
  | writing (r : Reply)
  | draining
  | drained
  | calling
  | taken (r : Reply)
  | called
  deriving DecidableEq

/-- What the packet thread still has to do for the packet at hand. -/
inductive IpOp where
  | effect (e : Effect)
  | enqueue (packet : Packet)
  | markSChannelAsReadable
  | write (r : Reply)
  deriving DecidableEq

/-- The state of a channel with clients `ι`.  `recvArmed` and `connArmed` are
the requests whose handling bound the two callbacks; `accepted` records the
packets that went into the queue and `written` the messages that were written
to the clients. -/
structure Channel (ι : Type) where
  outstanding : ι -> Option Nat
  sent : List (ι × Calling)
  returned : List (ι × Reply)
  toDaemon : List (Nat × Calling)
  toClient : List Reply
  written : List Reply
  so : Endpoint
  pcb : Pcb
  loop : LoopPc
  ip : List IpOp
  recvArmed : Nat
  connArmed : Nat
  accepted : List Packet

/-- A step of one of the parties.  A step of the event loop that may bind a
port is given the value of the port counter. -/
inductive Action (ι : Type) where
  | chanSend (c : ι) (calling : Calling)
  | chanRecv (c : ι)
  | readReady
  | pipeReady
  | loopStep (port : UInt16)
  | ipDeliver (peerAddr : SockaddrIn) (skbuf : Skbuf)
  | ipStep

namespace Channel

variable {ι : Type} [DecidableEq ι]

def post (s : Channel ι) (r : Reply) : Channel ι :=
  { s with toClient := s.toClient ++ [r], written := s.written ++ [r] }

/-- `AgentChannel::write`.  A longer response fails the assertion of its size;
without assertions it is not serialised and what the buffer held before is
sent, with memory behind it. -/
def write (s : Channel ι) (r : Reply) : Option (Channel ι) :=
  if r.resp.byteSize <= rpcMessageMaxSize then some (s.post r) else none

def finish (s : Channel ι) (k : Nat) (pcb : Pcb) (resp : Response) :
    Channel ι :=
  { s with pcb := pcb, loop := .writing ⟨k, resp, none⟩ }

/-- `try_takeFromRecvQ` in `recvfromCall`, and what depends on it alone. -/
def stepRecvfrom (s : Channel ι) (k : Nat) (requireAddr : Bool) :
    Channel ι :=
  match s.so.tryTakeFromRecvQ with
  | some (packet, so) =>
      { s with
        so := so
        loop := .writing
          ⟨k, RpcDispatch.recvfromPacket requireAddr packet, some packet⟩ }
  | none =>
      if s.so.nonblocking then s.finish k s.pcb RpcDispatch.recvfromAgain
      else { s with loop := .recvfromEmpty k requireAddr }

/-- `connectCall` up to the binding of the callback. -/
def stepConnect (s : Channel ι) (port : UInt16) (k : Nat)
    (addr : Foundation.Bytes) : Channel ι :=
  match s.pcb with
  | .udp _ =>
      s.finish k (RpcDispatch.connectUdp s.pcb port addr).1
        (RpcDispatch.connectUdp s.pcb port addr).2
  | .tcp _ =>
      if s.so.nonblocking then s.finish k s.pcb RpcDispatch.tcpInProgress
      else
        { s with
          pcb := s.pcb.setOnConnEstabCB
          connArmed := k
          loop := .connectBound k (SockaddrIn.ofBytes addr) }

def stepHandling (s : Channel ι) (port : UInt16) (k : Nat) :
    Calling -> Option (Channel ι)
  | .socketCall _ _ _ => none
  | .recvfromCall _ _ requireAddr => some (s.stepRecvfrom k requireAddr)
  | .connectCall addr => some (s.stepConnect port k addr)
  | .sendtoCall buf _ addr =>
      some (s.finish k (RpcDispatch.sendtoCall s.pcb port buf addr).1
        (RpcDispatch.sendtoCall s.pcb port buf addr).2)
  | .closeCall => some (s.finish k s.pcb RpcDispatch.closeCall)
  | .pollCall => some (s.finish k s.pcb RpcDispatch.emptyResponse)
  | .selectCall => some (s.finish k s.pcb RpcDispatch.emptyResponse)
  | .getpeernameCall =>
      some (s.finish k s.pcb (RpcDispatch.getpeernameCall s.pcb))
  | .getsocknameCall =>
      some (s.finish k s.pcb (RpcDispatch.getsocknameCall s.pcb))
  | .getsockoptCall => some (s.finish k s.pcb RpcDispatch.getsockoptCall)
  | .setsockoptCall => some (s.finish k s.pcb RpcDispatch.setsockoptCall)
  | .fcntlCall => some (s.finish k s.pcb RpcDispatch.fcntlCall)
  | .atstartAction _ => some (s.finish k s.pcb RpcDispatch.atstartAction)
  | .notSet => some (s.finish k s.pcb RpcDispatch.emptyResponse)

/-- One step of the event loop.  `takeFromRecvQ` in the callback blocks on an
empty queue. -/
def stepLoop (s : Channel ι) (port : UInt16) : Option (Channel ι) :=
  match s.loop with
  | .idle => none
  | .handling k calling => s.stepHandling port k calling
  | .recvfromEmpty k requireAddr =>
      some
        { s with
          so := s.so.setOnAsyncNewPacketCB
            (RpcDispatch.asyncCallback s.pcb requireAddr)
          recvArmed := k
          loop := .recvfromBound k }
  | .recvfromBound k =>
      some
        { s with
          so := s.so.setWaiting true
          loop := .writing ⟨k, RpcDispatch.waitNextResponse, none⟩ }
  | .connectBound k addr =>
      some
        { s with
          pcb := s.pcb.connect port addr
          loop := .writing ⟨k, RpcDispatch.waitNextResponse, none⟩ }
  | .writing r => (s.write r).map fun s' => { s' with loop := .idle }
  | .draining =>
      if s.so.pipe = 0 then some { s with loop := .drained }
      else
        some
          { s with
            so := { s.so with pipe := s.so.pipe - 8 }
            loop := .draining }
  | .drained =>
      if s.so.waiting then some { s with loop := .calling }
      else some { s with loop := .idle }
  | .calling =>
      match s.so.onAsyncNewPacket with
      | none => some { s with loop := .called }
      | some cb =>
          match s.so.tryTakeFromRecvQ with
          | none => none
          | some (packet, so) =>
              some
                { s with
                  so := so
                  loop := .taken ⟨s.recvArmed,
                    RpcDispatch.asyncResponse cb packet, some packet⟩ }
  | .taken r => (s.write r).map fun s' => { s' with loop := .called }
  | .called => some { s with so := s.so.setWaiting false, loop := .idle }

def stepIp (s : Channel ι) : Option (Channel ι) :=
  match s.ip with
  | [] => none
  | .effect (.tx _ _) :: rest => some { s with ip := rest }
  | .effect (.assertion _) :: rest => some { s with ip := rest }
  | .effect (.putToRecvQ peerAddr skbuf) :: rest =>
      if s.so.recvQOverLimit then some { s with ip := rest }
      else some { s with ip := .enqueue ⟨peerAddr, skbuf⟩ :: rest }
  | .effect .runOnConnEstabCB :: rest =>
      if s.pcb.onConnEstabCB then
        some
          { s with
            ip := .write
              ⟨s.connArmed, RpcDispatch.connEstabResponse, none⟩ :: rest }
      else some { s with ip := rest }
  | .enqueue packet :: rest =>
      some
        { s with
          so := s.so.enqueue packet
          accepted := s.accepted ++ [packet]
          ip := .markSChannelAsReadable :: rest }
  | .markSChannelAsReadable :: rest =>
      some { s with so := s.so.markSChannelAsReadable, ip := rest }
  | .write r :: rest => (s.write r).map fun s' => { s' with ip := rest }

/-- `chan_send` of a client that is not waiting for a response.  A client
opens a new channel for every `socketCall`. -/
def stepSend (s : Channel ι) (c : ι) (calling : Calling) :
    Option (Channel ι) :=
  match s.outstanding c, calling with
  | some _, _ => none
  | none, .socketCall _ _ _ => none
  | none, calling =>
      some
        { s with
          outstanding := Function.update s.outstanding c (some s.sent.length)
          toDaemon := s.toDaemon ++ [(s.sent.length, calling)]
          sent := s.sent ++ [(c, calling)] }

/-- One message of the loop of `chan_recv`.  A message without return code
cannot be unpacked. -/
def stepRecv (s : Channel ι) (c : ι) : Option (Channel ι) :=
  match s.outstanding c, s.toClient with
  | some _, r :: rest =>
      match r.resp.retCode with
      | none => none
      | some .waitNext => some { s with toClient := rest }
      | some _ =>
          some
            { s with
              toClient := rest
              outstanding := Function.update s.outstanding c none
              returned := s.returned ++ [(c, r)] }
  | _, _ => none

def step (s : Channel ι) : Action ι -> Option (Channel ι)
  | .chanSend c calling => s.stepSend c calling
  | .chanRecv c => s.stepRecv c
  | .readReady =>
      match s.loop, s.toDaemon with
      | .idle, (k, calling) :: rest =>
          some { s with toDaemon := rest, loop := .handling k calling }
      | _, _ => none
  | .pipeReady =>
      if s.loop = .idle ∧ 0 < s.so.pipe then some { s with loop := .draining }
      else none
  | .loopStep port => s.stepLoop port
  | .ipDeliver peerAddr skbuf =>
      match s.ip with
      | [] =>
          some
            { s with
              pcb := (s.pcb.recv peerAddr skbuf).1
              ip := (s.pcb.recv peerAddr skbuf).2.map IpOp.effect }
      | _ => none
  | .ipStep => s.stepIp

def opened (c : ι) (domain type protocol : Int32) (sock : Sock)
    (resp : Response) : Channel ι where
  outstanding := fun _ => none
  sent := [(c, .socketCall domain type protocol)]
  returned := [(c, ⟨0, resp, none⟩)]
  toDaemon := []
  toClient := []
  written := [⟨0, resp, none⟩]
  so := sock.so
  pcb := sock.pcb
  loop := .idle
  ip := []
  recvArmed := 0
  connArmed := 0
  accepted := []

def Opened (s : Channel ι) : Prop :=
  exists c laddr uninit port domain type protocol sock resp,
    RpcDispatch.handleRequest laddr uninit port none
        (.socketCall domain type protocol) = some (some sock, resp) ∧
      s = opened c domain type protocol sock resp

def Reachable (s : Channel ι) : Prop :=
  exists s₀ actions, Opened s₀ ∧ Foundation.run step s₀ actions = some s

def ReachableBy (Guard : Channel ι -> Action ι -> Prop) (s : Channel ι) :
    Prop :=
  exists s₀ actions, Opened s₀ ∧ Foundation.StepsMeet step Guard s₀ actions ∧
    Foundation.run step s₀ actions = some s

end Channel

end Velox
