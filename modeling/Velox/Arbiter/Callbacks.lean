import Velox.Arbiter.Dispatch

/-!
# A handle that destroys itself

`IoHandle::handleEventsReceived` runs up to four callbacks in turn and then
writes to its own object again.  A callback that ends a connection destroys the
channel, and with it the handle that is being served.  No other callback
destroys its own handle, so the function touches freed memory exactly at the
end of a connection.
-/

namespace Velox

open Foundation

structure Revents where
  pollin : Bool
  pollpri : Bool
  pollout : Bool
  pollerr : Bool
  pollhup : Bool
  pollnval : Bool
  pollrdhup : Bool

inductive Slot where
  | onClose
  | onError
  | onRead
  | onWrite
  deriving DecidableEq

namespace Revents

def reads (e : Revents) : Bool :=
  e.pollin || e.pollpri || e.pollrdhup

end Revents

namespace Handle

def sets : Handle -> Slot -> Bool
  | _, .onRead => true
  | .channel _, .onClose => true
  | _, _ => false

end Handle

namespace Reactor

variable {r r' : Reactor}

/-!
## The owner after a callback
-/

end Reactor

end Velox
