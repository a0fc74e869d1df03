import Velox.Arbiter.ChannelSteps

/-!
# Requests handled without interference

If no other thread takes a step, the steps of the event loop for one request
amount to `handleRequest` and the writing of its response, which has to fit
into the buffer of `AgentChannel::write`.
-/

namespace Velox
namespace Channel

variable {ι : Type} [DecidableEq ι]

theorem run_handling {s mid : Channel ι} {k : Nat} {calling : Calling}
    {port : UInt16} (hloop : s.loop = .handling k calling)
    (hstep : s.stepHandling port k calling = some mid)
    (rest : List (Action ι)) :
    Foundation.run step s (.loopStep port :: rest) =
      Foundation.run step mid rest := by
  refine Foundation.run_of_step ?_ rest
  show s.stepLoop port = some mid
  rw [stepLoop, hloop]
  exact hstep

theorem run_writing (port : UInt16) {s : Channel ι} {r : Reply}
    (hloop : s.loop = .writing r)
    (hfits : r.resp.byteSize <= rpcMessageMaxSize) :
    Foundation.run step s [.loopStep port] =
      some { s.post r with loop := .idle } := by
  refine Foundation.run_of_step ?_ []
  show s.stepLoop port = _
  rw [stepLoop, hloop]
  show (s.write r).map _ = _
  rw [write_of_fits hfits]
  rfl

def AnswerFits (laddr uninit : UInt32) (port : UInt16) (s : Channel ι)
    (calling : Calling) : Prop :=
  forall sock resp, RpcDispatch.handleRequest laddr uninit port
      (some ⟨s.so, s.pcb⟩) calling = some (sock, resp) ->
    resp.byteSize <= rpcMessageMaxSize

structure Handled (laddr uninit : UInt32) (port : UInt16) (s : Channel ι)
    (k : Nat) (calling : Calling) (s' : Channel ι) : Prop where
  loop : s'.loop = .idle
  written : exists r, r.answers = k ∧ s'.toClient = s.toClient ++ [r] ∧
    RpcDispatch.handleRequest laddr uninit port (some ⟨s.so, s.pcb⟩) calling =
      some (some ⟨s'.so, s'.pcb⟩, r.resp)

theorem handled_finish {laddr uninit : UInt32} {port : UInt16}
    {s : Channel ι} {k : Nat} {calling : Calling} (pcb : Pcb)
    (resp : Response) (hloop : s.loop = .handling k calling)
    (hfits : AnswerFits laddr uninit port s calling)
    (hstep : s.stepHandling port k calling = some (s.finish k pcb resp))
    (hcall : RpcDispatch.handleRequest laddr uninit port
      (some ⟨s.so, s.pcb⟩) calling = some (some ⟨s.so, pcb⟩, resp)) :
    exists n s', Foundation.run step s (List.replicate n (.loopStep port)) =
      some s' ∧ Handled laddr uninit port s k calling s' := by
  refine ⟨2, { (s.finish k pcb resp).post ⟨k, resp, none⟩ with loop := .idle },
    ?_, ?_⟩
  · exact (run_handling hloop hstep _).trans
      (run_writing port rfl (hfits _ _ hcall))
  · exact ⟨rfl, ⟨k, resp, none⟩, rfl, rfl, hcall⟩

theorem handled_recvfrom (laddr uninit : UInt32) (port : UInt16)
    {s : Channel ι} {k : Nat} {len flags : Int32} {requireAddr : Bool}
    (hloop : s.loop = .handling k (.recvfromCall len flags requireAddr))
    (hfits : AnswerFits laddr uninit port s
      (.recvfromCall len flags requireAddr)) :
    exists n s', Foundation.run step s (List.replicate n (.loopStep port)) =
      some s' ∧ Handled laddr uninit port s k
        (.recvfromCall len flags requireAddr) s' := by
  have hcall : RpcDispatch.handleRequest laddr uninit port
      (some ⟨s.so, s.pcb⟩) (.recvfromCall len flags requireAddr) =
        some (some (RpcDispatch.recvfromCall ⟨s.so, s.pcb⟩ requireAddr).1,
          (RpcDispatch.recvfromCall ⟨s.so, s.pcb⟩ requireAddr).2) := rfl
  have hstep : s.stepHandling port k (.recvfromCall len flags requireAddr) =
      some (s.stepRecvfrom k requireAddr) := rfl
  unfold RpcDispatch.recvfromCall Endpoint.tryTakeFromRecvQ at hcall
  unfold stepRecvfrom Endpoint.tryTakeFromRecvQ at hstep
  cases hq : s.so.recvQ with
  | cons packet rest =>
      simp only [hq] at hcall hstep
      let r : Reply :=
        ⟨k, RpcDispatch.recvfromPacket requireAddr packet, some packet⟩
      refine ⟨2, { s.post r with
        so := { s.so with recvQ := rest }, loop := .idle }, ?_, ?_⟩
      · exact (run_handling hloop hstep _).trans
          (run_writing port rfl (hfits _ _ hcall))
      · exact ⟨rfl, r, rfl, rfl, hcall⟩
  | nil =>
      cases hblock : s.so.nonblocking with
      | true =>
          simp only [hq, hblock, if_true] at hcall hstep
          exact handled_finish _ _ hloop hfits hstep hcall
      | false =>
          simp only [hq, hblock] at hcall hstep
          let r : Reply := ⟨k, RpcDispatch.waitNextResponse, none⟩
          refine ⟨4, { s.post r with
            so := (s.so.setOnAsyncNewPacketCB (RpcDispatch.asyncCallback s.pcb
              requireAddr)).setWaiting true
            recvArmed := k
            loop := .idle }, ?_, ?_⟩
          · exact (run_handling hloop hstep _).trans
              ((Foundation.run_of_step rfl _).trans
                ((Foundation.run_of_step rfl _).trans
                  (run_writing port rfl (hfits _ _ hcall))))
          · exact ⟨rfl, r, rfl, rfl, hcall⟩

theorem handled_connect (laddr uninit : UInt32) (port : UInt16)
    {s : Channel ι} {k : Nat} {addr : Foundation.Bytes}
    (hloop : s.loop = .handling k (.connectCall addr))
    (hfits : AnswerFits laddr uninit port s (.connectCall addr)) :
    exists n s', Foundation.run step s (List.replicate n (.loopStep port)) =
      some s' ∧ Handled laddr uninit port s k (.connectCall addr) s' := by
  have hcall : RpcDispatch.handleRequest laddr uninit port
      (some ⟨s.so, s.pcb⟩) (.connectCall addr) =
        some (some (RpcDispatch.connectCall ⟨s.so, s.pcb⟩ port addr).1,
          (RpcDispatch.connectCall ⟨s.so, s.pcb⟩ port addr).2) := rfl
  have hstep : s.stepHandling port k (.connectCall addr) =
      some (s.stepConnect port k addr) := rfl
  unfold RpcDispatch.connectCall at hcall
  unfold stepConnect at hstep
  cases hpcb : s.pcb with
  | udp session =>
      simp only [hpcb] at hcall hstep
      rw [← hpcb] at hcall hstep
      exact handled_finish _ _ hloop hfits hstep hcall
  | tcp session =>
      cases hblock : s.so.nonblocking with
      | true =>
          simp only [hpcb, hblock, if_true] at hcall hstep
          rw [← hpcb] at hcall hstep
          exact handled_finish _ _ hloop hfits hstep hcall
      | false =>
          simp only [hpcb, hblock] at hcall hstep
          rw [← hpcb] at hcall hstep
          let r : Reply := ⟨k, RpcDispatch.waitNextResponse, none⟩
          refine ⟨3, { s.post r with
            pcb := s.pcb.setOnConnEstabCB.connect port
              (SockaddrIn.ofBytes addr)
            connArmed := k
            loop := .idle }, ?_, ?_⟩
          · exact (run_handling hloop hstep _).trans
              ((Foundation.run_of_step rfl _).trans
                (run_writing port rfl (hfits _ _ hcall)))
          · exact ⟨rfl, r, rfl, rfl, hcall⟩

/-- Left alone, the event loop answers a request as `handleRequest` does,
unless the response is too long. -/
theorem handled_alone (laddr uninit : UInt32) (port : UInt16)
    {s : Channel ι} {k : Nat} {calling : Calling}
    (hloop : s.loop = .handling k calling)
    (hcall : forall domain type protocol,
      calling ≠ .socketCall domain type protocol)
    (hfits : AnswerFits laddr uninit port s calling) :
    exists n s', Foundation.run step s (List.replicate n (.loopStep port)) =
      some s' ∧ Handled laddr uninit port s k calling s' := by
  cases calling with
  | socketCall domain type protocol =>
      exact absurd rfl (hcall domain type protocol)
  | recvfromCall len flags requireAddr =>
      exact handled_recvfrom laddr uninit port hloop hfits
  | connectCall addr => exact handled_connect laddr uninit port hloop hfits
  | sendtoCall | closeCall | pollCall | selectCall | getpeernameCall |
    getsocknameCall | getsockoptCall | setsockoptCall | fcntlCall |
    atstartAction | notSet => exact handled_finish _ _ hloop hfits rfl rfl

/-!
## Notifications
-/

theorem run_draining (port : UInt16) (pipe : Nat) {s : Channel ι}
    (hloop : s.loop = .draining) (hpipe : s.so.pipe = pipe) :
    exists n, Foundation.run step s (List.replicate n (.loopStep port)) =
      some { s with so := { s.so with pipe := 0 }, loop := .drained } := by
  induction pipe using Nat.strongRecOn generalizing s with
  | ind pipe ih =>
      have hstep : step s (.loopStep port) = if s.so.pipe = 0 then
          some { s with loop := .drained }
        else some
          { s with
            so := { s.so with pipe := s.so.pipe - 8 }
            loop := .draining } := by
        show s.stepLoop port = _
        rw [stepLoop, hloop]
      by_cases hzero : s.so.pipe = 0
      · rw [if_pos hzero] at hstep
        refine ⟨1, (Foundation.run_of_step hstep []).trans ?_⟩
        rw [← hzero]
        rfl
      · rw [if_neg hzero] at hstep
        rcases ih (pipe - 8) (by lia)
          (s := { s with
            so := { s.so with pipe := s.so.pipe - 8 }
            loop := .draining }) rfl (by rw [← hpipe]) with ⟨n, hrun⟩
        exact ⟨n + 1, (Foundation.run_of_step hstep _).trans hrun⟩

structure NotificationHandled (s s' : Channel ι) : Prop where
  loop : s'.loop = .idle
  pcb : s'.pcb = s.pcb
  written : exists r : Option Reply, s'.toClient = s.toClient ++ r.toList ∧
    RpcDispatch.sChannelReadCb s.so = some (s'.so, r.map Reply.resp)

theorem run_taken (port : UInt16) {s : Channel ι} {r : Reply}
    (hloop : s.loop = .taken r)
    (hfits : r.resp.byteSize <= rpcMessageMaxSize) :
    Foundation.run step s [.loopStep port, .loopStep port] =
      some { s.post r with so := s.so.setWaiting false, loop := .idle } := by
  have hstep : step s (.loopStep port) =
      some { s.post r with loop := .called } := by
    show s.stepLoop port = _
    rw [stepLoop, hloop]
    show (s.write r).map _ = _
    rw [write_of_fits hfits]
    rfl
  exact (Foundation.run_of_step hstep _).trans rfl

theorem drained_alone (port : UInt16) {s : Channel ι}
    (hloop : s.loop = .drained) (hpipe : s.so.pipe = 0) {so : Endpoint}
    {resp : Option Response}
    (hready : RpcDispatch.sChannelReadCb s.so = some (so, resp))
    (hfits : forall x, resp = some x -> x.byteSize <= rpcMessageMaxSize) :
    exists n s', Foundation.run step s (List.replicate n (.loopStep port)) =
      some s' ∧ NotificationHandled s s' := by
  rcases s with ⟨outstanding, sent, returned, toDaemon, toClient, written,
    ⟨nonblocking, pipe, waiting, cb, recvQ⟩, pcb, loop, ip, recvArmed,
    connArmed, accepted⟩
  cases hloop
  cases hpipe
  cases waiting with
  | false =>
      exact ⟨1, _, rfl, rfl, rfl, none, (List.append_nil toClient).symm, rfl⟩
  | true =>
      cases cb with
      | none =>
          exact ⟨3, _, rfl, rfl, rfl, none, (List.append_nil toClient).symm,
            rfl⟩
      | some cb =>
          cases recvQ with
          | nil => cases hready
          | cons packet rest =>
              cases hready
              let r : Reply := ⟨recvArmed,
                RpcDispatch.asyncResponse cb packet, some packet⟩
              let mid : Channel ι :=
                ⟨outstanding, sent, returned, toDaemon, toClient, written,
                  ⟨nonblocking, 0, true, some cb, rest⟩, pcb, .taken r, ip,
                  recvArmed, connArmed, accepted⟩
              have htaken : Foundation.run step mid
                  [.loopStep port, .loopStep port] = _ :=
                run_taken port rfl (hfits _ rfl)
              exact ⟨4, _, htaken, rfl, rfl, some r, rfl, rfl⟩

theorem sChannelReadCb_pipe (so : Endpoint) :
    RpcDispatch.sChannelReadCb { so with pipe := 0 } =
      RpcDispatch.sChannelReadCb so := by
  rcases so with ⟨nonblocking, pipe, waiting, cb, recvQ⟩
  cases waiting with
  | false => rfl
  | true =>
      cases cb with
      | none => rfl
      | some cb =>
          cases recvQ with
          | nil => rfl
          | cons packet rest => rfl

/-- Left alone, the event loop handles a notification as `sChannelReadCb`
does, unless it blocks or the response is too long. -/
theorem notification_alone (port : UInt16) {s : Channel ι}
    (hloop : s.loop = .draining) {so : Endpoint} {resp : Option Response}
    (hready : RpcDispatch.sChannelReadCb s.so = some (so, resp))
    (hfits : forall x, resp = some x -> x.byteSize <= rpcMessageMaxSize) :
    exists n s', Foundation.run step s (List.replicate n (.loopStep port)) =
      some s' ∧ NotificationHandled s s' := by
  rcases run_draining port s.so.pipe hloop rfl with ⟨n, hdrain⟩
  rw [← sChannelReadCb_pipe] at hready
  rcases drained_alone port
    (s := { s with so := { s.so with pipe := 0 }, loop := .drained })
    rfl rfl hready hfits with ⟨m, s', hrun, hhandled⟩
  refine ⟨n + m, s', ?_, hhandled.loop, hhandled.pcb, ?_⟩
  · rw [List.replicate_add, Foundation.run_append hdrain]
    exact hrun
  · rw [← sChannelReadCb_pipe]
    exact hhandled.written

end Channel
end Velox
