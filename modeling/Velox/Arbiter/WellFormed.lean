import Velox.Arbiter.RpcDispatch

/-!
# Well-formed responses

A response can be written if its required return code is set, and the
interceptor accepts it if it is a `WAIT_NEXT` or carries the result of the
call that was made.  The handlers fill responses by hand; this module says for
which requests, in which states, they fill them as the two ends assume.
-/

namespace Velox

open Foundation

/-- The numbers of `calling_case` and `returning_case`, which agree. -/
inductive CallCase where
  | notSet
  | socketCall
  | connectCall
  | closeCall
  | recvfromCall
  | sendtoCall
  | pollCall
  | selectCall
  | getpeernameCall
  | getsocknameCall
  | getsockoptCall
  | setsockoptCall
  | fcntlCall
  | atstartAction
  deriving DecidableEq

def Calling.callingCase : Calling -> CallCase
  | .socketCall .. => .socketCall
  | .connectCall _ => .connectCall
  | .closeCall => .closeCall
  | .recvfromCall .. => .recvfromCall
  | .sendtoCall .. => .sendtoCall
  | .pollCall => .pollCall
  | .selectCall => .selectCall
  | .getpeernameCall => .getpeernameCall
  | .getsocknameCall => .getsocknameCall
  | .getsockoptCall => .getsockoptCall
  | .setsockoptCall => .setsockoptCall
  | .fcntlCall => .fcntlCall
  | .atstartAction _ => .atstartAction
  | .notSet => .notSet

def Returning.returningCase : Returning -> CallCase
  | .socketCall _ => .socketCall
  | .connectCall _ => .connectCall
  | .closeCall _ => .closeCall
  | .recvfromCall .. => .recvfromCall
  | .sendtoCall _ => .sendtoCall
  | .pollCall _ => .pollCall
  | .selectCall _ => .selectCall
  | .getpeernameCall .. => .getpeernameCall
  | .getsocknameCall .. => .getsocknameCall
  | .getsockoptCall _ => .getsockoptCall
  | .setsockoptCall _ => .setsockoptCall
  | .fcntlCall _ => .fcntlCall
  | .atstartAction .. => .atstartAction
  | .notSet => .notSet

namespace Response

/-- What `AgentChannel::write` asserts of a response: the return code is the
only required field that a handler can leave unset. -/
def IsInitialized (resp : Response) : Prop :=
  resp.retCode ≠ none

structure Accepted (resp : Response) (callCase : CallCase) : Prop where
  initialized : resp.IsInitialized
  ofCase : resp.Final -> resp.returning.returningCase = callCase

theorem accepted_waitNext (callCase : CallCase) :
    RpcDispatch.waitNextResponse.Accepted callCase where
  initialized := nofun
  ofCase := fun hfinal => absurd rfl hfinal

theorem accepted_okResponse (returning : Returning) :
    (RpcDispatch.okResponse returning).Accepted returning.returningCase where
  initialized := nofun
  ofCase := fun _ => rfl

theorem accepted_emptyResponse_iff (callCase : CallCase) :
    RpcDispatch.emptyResponse.Accepted callCase <-> False := by
  constructor
  · intro h
    exact h.initialized rfl
  · exact False.elim

end Response

namespace RpcDispatch

variable (laddr uninit : UInt32) (port : UInt16)

def Answered (socket : Option Sock) (calling : Calling) : Prop :=
  exists socket' resp,
    handleRequest laddr uninit port socket calling = some (socket', resp) ∧
      resp.Accepted calling.callingCase

/-- The requests that the handlers serve in a state of the channel: calls on
a socket need one, and `connectCall` serves blocking TCP sockets only. -/
def Serves (socket : Option Sock) : Calling -> Prop
  | .socketCall _ type _ =>
      type &&& sockStream ≠ 0 ∨ type &&& sockDgram ≠ 0
  | .connectCall _ =>
      exists sock, socket = some sock ∧ sock.pcb.isTcp = true ∧
        sock.so.nonblocking = false
  | .recvfromCall .. | .sendtoCall .. | .getpeernameCall |
    .getsocknameCall => socket ≠ none
  | .closeCall | .getsockoptCall | .fcntlCall | .atstartAction _ => True
  | .pollCall | .selectCall | .setsockoptCall | .notSet => False

/-!
## The handlers one by one
-/

theorem socketCall_response {type : Int32} {made : Sock × Response}
    (h : socketCall laddr uninit type = some made) :
    made.2 = okResponse (.socketCall (ret 0)) := by
  unfold socketCall at h
  dsimp only at h
  split at h
  · cases h
    rfl
  · split at h
    · cases h
      rfl
    · cases h

theorem socketCall_isSome_iff (type : Int32) :
    (exists made, socketCall laddr uninit type = some made) <->
      (type &&& sockStream ≠ 0 ∨ type &&& sockDgram ≠ 0) := by
  unfold socketCall
  dsimp only
  by_cases hstream : type &&& sockStream = 0
  · by_cases hdgram : type &&& sockDgram = 0
    · simp [hstream, hdgram]
    · simp [hstream, hdgram]
  · simp [hstream]

theorem accepted_connectCall_iff (sock : Sock) (addr : Bytes) :
    (connectCall sock port addr).2.Accepted .connectCall <->
      (sock.pcb.isTcp = true ∧ sock.so.nonblocking = false) := by
  unfold connectCall
  cases hpcb : sock.pcb with
  | udp s =>
      constructor
      · intro h
        exact absurd rfl h.initialized
      · intro h
        cases h.left
  | tcp s =>
      cases hmode : sock.so.nonblocking with
      | true =>
          constructor
          · intro h
            cases h.ofCase nofun
          · intro h
            cases h.right
      | false =>
          constructor
          · intro _
            exact ⟨rfl, rfl⟩
          · intro _
            exact Response.accepted_waitNext _

theorem accepted_recvfromCall (sock : Sock) (requireAddr : Bool) :
    (recvfromCall sock requireAddr).2.Accepted .recvfromCall := by
  unfold recvfromCall
  cases sock.so.tryTakeFromRecvQ with
  | some taken => exact Response.accepted_okResponse _
  | none =>
      cases sock.so.nonblocking with
      | true => exact Response.accepted_okResponse _
      | false => exact Response.accepted_waitNext _

/-!
## Whole requests
-/

variable {laddr uninit port}

theorem answered_of_eq {socket socket' : Option Sock} {calling : Calling}
    {resp : Response}
    (h : handleRequest laddr uninit port socket calling =
      some (socket', resp)) :
    Answered laddr uninit port socket calling <->
      resp.Accepted calling.callingCase := by
  constructor
  · rintro ⟨_, _, heq, haccepted⟩
    rw [h] at heq
    cases heq
    exact haccepted
  · intro haccepted
    exact ⟨socket', resp, h, haccepted⟩

theorem not_answered_of_none {socket : Option Sock} {calling : Calling}
    (h : handleRequest laddr uninit port socket calling = none) :
    ¬ Answered laddr uninit port socket calling := by
  rintro ⟨_, _, heq, _⟩
  rw [h] at heq
  cases heq

theorem answered_socketCall_iff (socket : Option Sock)
    (domain type protocol : Int32) :
    Answered laddr uninit port socket (.socketCall domain type protocol) <->
      (type &&& sockStream ≠ 0 ∨ type &&& sockDgram ≠ 0) := by
  rw [← socketCall_isSome_iff laddr uninit type]
  constructor
  · rintro ⟨_, _, heq, _⟩
    unfold handleRequest at heq
    rcases Option.map_eq_some_iff.1 heq with ⟨made, hmade, _⟩
    exact ⟨made, hmade⟩
  · rintro ⟨made, hmade⟩
    have heq : handleRequest laddr uninit port socket
        (.socketCall domain type protocol) = some (some made.1, made.2) := by
      show Option.map _ (socketCall laddr uninit type) = _
      rw [hmade]
      rfl
    refine (answered_of_eq heq).2 ?_
    rw [socketCall_response laddr uninit hmade]
    exact Response.accepted_okResponse _

theorem answered_connectCall_iff (socket : Option Sock) (addr : Bytes) :
    Answered laddr uninit port socket (.connectCall addr) <->
      exists sock, socket = some sock ∧ sock.pcb.isTcp = true ∧
        sock.so.nonblocking = false := by
  cases socket with
  | none =>
      constructor
      · intro h
        exact absurd h (not_answered_of_none rfl)
      · rintro ⟨_, heq, _⟩
        cases heq
  | some sock =>
      refine (answered_of_eq rfl).trans
        ((accepted_connectCall_iff port sock addr).trans ?_)
      constructor
      · intro h
        exact ⟨sock, rfl, h⟩
      · rintro ⟨_, heq, h⟩
        cases heq
        exact h

theorem answered_iff_socket {socket : Option Sock} {calling : Calling}
    (hnone : handleRequest laddr uninit port none calling = none)
    (hsome : forall sock,
      Answered laddr uninit port (some sock) calling) :
    Answered laddr uninit port socket calling <-> socket ≠ none := by
  cases socket with
  | none =>
      constructor
      · intro h
        exact absurd h (not_answered_of_none hnone)
      · intro h
        exact absurd rfl h
  | some sock =>
      constructor
      · intro _
        exact Option.some_ne_none sock
      · intro _
        exact hsome sock

theorem answered_ok {socket socket' : Option Sock} {calling : Calling}
    {returning : Returning}
    (h : handleRequest laddr uninit port socket calling =
      some (socket', okResponse returning))
    (hcase : returning.returningCase = calling.callingCase) :
    Answered laddr uninit port socket calling :=
  ⟨socket', _, h, hcase ▸ Response.accepted_okResponse returning⟩

theorem answered_empty_iff {socket socket' : Option Sock} {calling : Calling}
    (h : handleRequest laddr uninit port socket calling =
      some (socket', emptyResponse)) :
    Answered laddr uninit port socket calling <-> False :=
  (answered_of_eq h).trans (Response.accepted_emptyResponse_iff _)

/-- A request is answered with an initialised response of its own case, or
with `WAIT_NEXT`, exactly if the handlers serve it in this state. -/
theorem answered_iff_serves (laddr uninit : UInt32) (port : UInt16)
    (socket : Option Sock) (calling : Calling) :
    Answered laddr uninit port socket calling <-> Serves socket calling := by
  cases calling with
  | socketCall domain type protocol =>
      exact answered_socketCall_iff socket domain type protocol
  | connectCall addr => exact answered_connectCall_iff socket addr
  | recvfromCall len flags requireAddr =>
      refine answered_iff_socket rfl ?_
      intro sock
      exact (answered_of_eq rfl).2 (accepted_recvfromCall sock requireAddr)
  | sendtoCall buf flags addr =>
      exact answered_iff_socket rfl (fun sock => answered_ok rfl rfl)
  | getpeernameCall =>
      exact answered_iff_socket rfl (fun sock => answered_ok rfl rfl)
  | getsocknameCall =>
      exact answered_iff_socket rfl (fun sock => answered_ok rfl rfl)
  | closeCall => exact iff_of_true (answered_ok rfl rfl) trivial
  | getsockoptCall => exact iff_of_true (answered_ok rfl rfl) trivial
  | fcntlCall => exact iff_of_true (answered_ok rfl rfl) trivial
  | atstartAction progname => exact iff_of_true (answered_ok rfl rfl) trivial
  | pollCall => exact answered_empty_iff rfl
  | selectCall => exact answered_empty_iff rfl
  | setsockoptCall => exact answered_empty_iff rfl
  | notSet => exact answered_empty_iff rfl

/-- `connect` on a UDP socket, as a client does that wants a default
destination: the response has no return code. -/
theorem connected_udp_response_uninitialized :
    (handleRequest 0 0 1024
      (some ⟨Endpoint.create false, .udp (Session.create 0x0200a8c0)⟩)
      (.connectCall (SockaddrIn.inet 0x0100a8c0 0x3500).toBytes)).map
        (fun answer => answer.2.retCode) = some none ∧
    ¬ Answered 0 0 1024
      (some ⟨Endpoint.create false, .udp (Session.create 0x0200a8c0)⟩)
      (.connectCall (SockaddrIn.inet 0x0100a8c0 0x3500).toBytes) := by
  constructor
  · rfl
  · intro h
    rcases (answered_connectCall_iff _ _).1 h with ⟨_, heq, htcp, _⟩
    cases heq
    cases htcp

end RpcDispatch

end Velox
