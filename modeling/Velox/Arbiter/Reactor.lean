import Velox.Arbiter.Daemon

/-!
# Dispatch in the event loop

`EventReactor::loop` copies the handles that a poll returns and calls them one
after another.  A callback can unregister handles, by `unregisterSelf` or by
destroying the object that a handle belongs to, and the copy does not notice.
The IP thread works between the calls: at the end of a delivery it can be the
last owner of a session and an endpoint, and it runs the callback for the end
of a handshake.
-/

namespace Velox

open Foundation

/-- The handles by their owners: `AgentHub`, a channel, the pipe of an
endpoint for new packets, and the pipe of a TCP session. -/
inductive Handle where
  | listener
  | channel (c : Nat)
  | notify (e : Nat)
  | estab (s : Nat)
  deriving DecidableEq

namespace Handle

def Alive (d : Daemon) : Handle -> Prop
  | .listener => True
  | .channel c => c ∈ d.rrChannels
  | .notify e => e ∈ d.liveEndpoints
  | .estab s => s ∈ d.liveSessions

instance (d : Daemon) (h : Handle) : Decidable (h.Alive d) := by
  cases h <;> unfold Alive <;> infer_instance

end Handle

/-- What a callback finds to do; `written` tells whether the response could be
written. -/
inductive Handling where
  | nothing
  | accept (n : Nat)
  /-- The end of the connection, from `read` or as a close event. -/
  | close
  | socketCall (laddr uninit : UInt32) (type : Int32) (written : Bool)
  | request (sock : Sock) (written : Bool)
  /-- A request that leaves the socket of the channel as it is. -/
  | reply (written : Bool)
  /-- The callback `onAsyncNewPacket`. -/
  | answer (written : Bool)
  /-- The callback `onConnEstabCB`. -/
  | established (written : Bool)

structure Reactor where
  daemon : Daemon
  channels : List Handle
  actives : List Handle

/-- The last three actions are the IP thread's. -/
inductive ReactorAct where
  | poll (actives : List Handle)
  | dispatch (o : Handling)
  | find (tcp : Bool) (uninit : SockaddrIn) (skbuf : Skbuf)
  | recv (written : Bool)
  | putToRecvQ

def ReactorAct.calls : ReactorAct -> Bool
  | .dispatch _ => true
  | _ => false

namespace Reactor

def init : Reactor where
  daemon := Daemon.init
  channels := [.listener]
  actives := []

def addChannel (channels : List Handle) (h : Handle) : List Handle :=
  if h ∈ channels then channels else channels ++ [h]

def unregister (r : Reactor) (h : Handle) : Reactor :=
  { r with channels := r.channels.erase h }

/-- A change of the daemon, after which the destructors of the objects that
are gone have unregistered their handles. -/
def perform (r : Reactor) (a : DaemonAct) (added : List Handle) :
    Option Reactor :=
  (r.daemon.step a).map fun d =>
    { r with
      daemon := d
      channels := (added.foldl addChannel r.channels).filter fun h =>
        h.Alive d }

/-- `AgentChannel::write`, which unregisters the channel if it fails. -/
def write (c : Nat) (written : Bool) (r : Reactor) : Reactor :=
  if written then r else r.unregister (.channel c)

def acceptLoop : Nat -> Reactor -> Option Reactor
  | 0, r => some r
  | n + 1, r =>
      (r.perform .accept [.channel r.daemon.next]).bind (acceptLoop n)

def socketCallHandles (d : Daemon) (type : Int32) : List Handle :=
  .notify d.next ::
    if type &&& RpcDispatch.sockStream != 0 then [.estab (d.next + 1)] else []

/-- The channel that a callback of a socket has been bound to, if it lives. -/
def boundChannel (d : Daemon) (socket : Option Nat) : Option Nat :=
  match socket with
  | none => none
  | some e =>
      match (d.endpoint e).rrChannel with
      | none => none
      | some c => if c ∈ d.rrChannels then some c else none

def currentSession (d : Daemon) (c : Nat) : Option Nat :=
  match (d.channel c).socket with
  | none => none
  | some e => (d.endpoint e).pcb

/-- The callback `onConnEstabCB`: the handle of the current session of the
channel is unregistered; only a TCP session has one. -/
def established (r : Reactor) (s : Nat) (written : Bool) : Option Reactor :=
  match boundChannel r.daemon (r.daemon.session s).socket with
  | none => some r
  | some c =>
      match currentSession r.daemon c with
      | none => none
      | some s' =>
          if (r.daemon.session s').pcb.isTcp then
            some ((r.unregister (.estab s')).write c written)
          else none

def handle (r : Reactor) : Handle -> Handling -> Option Reactor
  | _, .nothing => some r
  | .listener, .accept n => acceptLoop n r
  | .channel c, .close => r.perform (.removeRRChannel c) []
  | .channel c, .socketCall laddr uninit type written =>
      (r.perform (.socketCall c laddr uninit type)
        (socketCallHandles r.daemon type)).map (write c written)
  | .channel c, .request sock written =>
      (r.perform (.request c sock) []).map (write c written)
  | .channel c, .reply written => some (r.write c written)
  | .notify e, .answer written =>
      match boundChannel r.daemon (some e) with
      | none => some r
      | some c => (r.perform (.answer c) []).map (write c written)
  | .estab s, .established written => r.established s written
  | _, _ => none

def announces (pcb : Pcb) (peerAddr : SockaddrIn) (skbuf : Skbuf) : Bool :=
  pcb.onConnEstabCB &&
    decide (Effect.runOnConnEstabCB ∈ (pcb.recv peerAddr skbuf).2)

def recv (r : Reactor) (written : Bool) : Option Reactor :=
  match r.daemon.delivery with
  | .found s peerAddr skbuf =>
      if announces (r.daemon.session s).pcb peerAddr skbuf then
        (r.established s written).bind fun r' => r'.perform .recv []
      else r.perform .recv []
  | _ => none

/-- One poll, one call of the loop, or one action of the IP thread.  A poll
returns registered handles, each once.  `handleEventsReceived` writes to its
handle after the callbacks, so the daemon ends where a callback has destroyed
it; nothing is said about a call on a handle that was destroyed before. -/
def step (r : Reactor) : ReactorAct -> Option Reactor
  | .poll actives =>
      if r.actives = [] ∧ actives.Nodup ∧
          forall h, h ∈ actives -> h ∈ r.channels then
        some { r with actives := actives }
      else none
  | .dispatch o =>
      match r.actives with
      | [] => none
      | h :: rest =>
          if h.Alive r.daemon then
            (handle { r with actives := rest } h o).filter fun r' =>
              h.Alive r'.daemon
          else some { r with actives := rest }
  | .find tcp uninit skbuf => r.perform (.find tcp uninit skbuf) []
  | .recv written => r.recv written
  | .putToRecvQ => r.perform .putToRecvQ []

/-!
## What a step unregisters
-/

def socketHandles (d : Daemon) (c : Nat) : List Handle :=
  match (d.channel c).socket with
  | none => []
  | some e =>
      .notify e ::
        match (d.endpoint e).pcb with
        | none => []
        | some s => [.estab s]

def Held (d : Daemon) : Handle -> Prop
  | .notify e => d.delivery.endpoint = some e
  | .estab s => d.delivery.session = some s
  | _ => False

instance (d : Daemon) (h : Handle) : Decidable (Held d h) := by
  cases h <;> unfold Held <;> infer_instance

def hasChannel (d : Daemon) (e : Nat) : Bool :=
  d.rrChannels.any fun c => decide ((d.channel c).socket = some e)

/-- The handles of the objects whose last owner is the IP thread. -/
def heldOnly (d : Daemon) : List Handle :=
  match d.delivery with
  | .idle => []
  | .found s _ _ =>
      if (d.session s).socket.any (hasChannel d) then [] else [.estab s]
  | .locked s e _ _ =>
      if hasChannel d e then [] else [.notify e, .estab s]

def endedHandles (d : Daemon) : DaemonAct -> List Handle
  | .removeRRChannel c =>
      .channel c :: (socketHandles d c).filter fun h => ¬ Held d h
  | .socketCall c _ _ _ => (socketHandles d c).filter fun h => ¬ Held d h
  | .recv =>
      match d.delivery with
      | .found s peerAddr skbuf =>
          if Daemon.queues (d.session s).pcb peerAddr skbuf then []
          else heldOnly d
      | _ => []
  | .putToRecvQ => heldOnly d
  | _ => []

def unlessWritten (c : Nat) (written : Bool) : List Handle :=
  if written then [] else [.channel c]

def establishedHandles (d : Daemon) (s : Nat) (written : Bool) :
    List Handle :=
  match boundChannel d (d.session s).socket with
  | none => []
  | some c =>
      match currentSession d c with
      | none => []
      | some s' => .estab s' :: unlessWritten c written

def unregisters (d : Daemon) : Handle -> Handling -> List Handle
  | .channel c, .close => endedHandles d (.removeRRChannel c)
  | .channel c, .socketCall laddr uninit type written =>
      endedHandles d (.socketCall c laddr uninit type) ++
        unlessWritten c written
  | .channel c, .request _ written => unlessWritten c written
  | .channel c, .reply written => unlessWritten c written
  | .notify e, .answer written =>
      match boundChannel d (some e) with
      | none => []
      | some c => unlessWritten c written
  | .estab s, .established written => establishedHandles d s written
  | _, _ => []

def recvUnregisters (d : Daemon) (written : Bool) : List Handle :=
  match d.delivery with
  | .found s peerAddr skbuf =>
      (if announces (d.session s).pcb peerAddr skbuf then
        establishedHandles d s written
      else []) ++ endedHandles d .recv
  | _ => []

def Removes (r : Reactor) (a : ReactorAct) (h : Handle) : Prop :=
  match a with
  | .poll _ => False
  | .find _ _ _ => False
  | .recv written => h ∈ recvUnregisters r.daemon written
  | .putToRecvQ => h ∈ endedHandles r.daemon .putToRecvQ
  | .dispatch o =>
      match r.actives with
      | [] => False
      | active :: _ =>
          active.Alive r.daemon ∧ h ∈ unregisters r.daemon active o

end Reactor

end Velox
