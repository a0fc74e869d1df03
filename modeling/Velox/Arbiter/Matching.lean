import Velox.Arbiter.Debts
import Velox.Arbiter.Replies

/-!
# Requests and their answers

Clients that share a channel read whatever message comes next.  Each gets the
answers to its own requests as long as their exchanges do not overlap, which
a single client cannot do wrong.
-/

namespace Velox
namespace Channel

variable {ι : Type} [DecidableEq ι]

/-!
## One exchange at a time
-/

/-- A client sends only while no client waits for an answer. -/
def OneAtATime (s : Channel ι) : Action ι -> Prop
  | .chanSend _ _ => forall c, s.outstanding c = none
  | _ => True

structure Serial (outstanding : ι -> Option Nat) (sent : List (ι × Calling))
    (returned : List (ι × Reply)) : Prop where
  inOrder : returned.map (fun x => x.2.answers) = List.range returned.length
  settled : (forall c, outstanding c = none) -> sent.length = returned.length
  waits : forall c k, outstanding c = some k ->
    sent.length = returned.length + 1 ∧
      (exists calling, sent[returned.length]? = some (c, calling)) ∧
      forall c', c' ≠ c -> outstanding c' = none
  own : forall x, x ∈ returned ->
    exists calling, sent[x.2.answers]? = some (x.1, calling)
  final : forall x, x ∈ returned -> x.2.resp.Final

section

variable {outstanding : ι -> Option Nat} {sent : List (ι × Calling)}
variable {returned : List (ι × Reply)}

theorem Serial.send (h : Serial outstanding sent returned) (c : ι)
    (calling : Calling) (hnone : forall c, outstanding c = none) :
    Serial (Function.update outstanding c (some sent.length))
      (sent ++ [(c, calling)]) returned where
  inOrder := h.inOrder
  settled := by
    intro hall
    have hc := hall c
    rw [Function.update_self] at hc
    cases hc
  waits := by
    intro c' k hout
    by_cases heq : c' = c
    · subst heq
      rw [← h.settled hnone]
      refine ⟨List.length_append, ⟨calling, List.getElem?_concat_length⟩, ?_⟩
      intro c'' hne
      rw [Function.update_of_ne hne]
      exact hnone c''
    · rw [Function.update_of_ne heq, hnone c'] at hout
      cases hout
  own := by
    intro x hx
    rcases h.own x hx with ⟨call, hget⟩
    refine ⟨call, ?_⟩
    rw [List.getElem?_append_left (List.getElem?_eq_some_iff.1 hget).1]
    exact hget
  final := h.final

theorem Serial.receive (h : Serial outstanding sent returned) {c : ι}
    {k : Nat} {r : Reply} (hout : outstanding c = some k)
    (hr : r.answers = returned.length) (hfinal : r.resp.Final) :
    Serial (Function.update outstanding c none) sent
      (returned ++ [(c, r)]) := by
  rcases h.waits c k hout with ⟨hlen, hsent, hothers⟩
  have hnone : forall c', Function.update outstanding c none c' = none := by
    intro c'
    by_cases heq : c' = c
    · rw [heq, Function.update_self]
    · rw [Function.update_of_ne heq]
      exact hothers c' heq
  constructor
  case inOrder =>
    rw [List.map_append, List.length_append, List.length_singleton,
      List.range_succ, h.inOrder, ← hr]
    rfl
  case settled =>
    intro _
    rw [hlen, List.length_append]
    rfl
  case waits =>
    intro c' k' hout'
    rw [hnone c'] at hout'
    cases hout'
  case own =>
    intro x hx
    rcases List.mem_append.1 hx with hold | hnew
    · exact h.own x hold
    · rw [List.mem_singleton.1 hnew, hr]
      exact hsent
  case final =>
    intro x hx
    rcases List.mem_append.1 hx with hold | hnew
    · exact h.final x hold
    · rw [List.mem_singleton.1 hnew]
      exact hfinal

end

omit [DecidableEq ι] in
theorem serial_of_opened {s : Channel ι} (h : Opened s) :
    Serial s.outstanding s.sent s.returned := by
  rcases h.eq_opened with
    ⟨c, domain, type, protocol, nonblocking, pcb, _, rfl⟩
  refine ⟨rfl, fun _ => rfl, nofun, ?_, ?_⟩
  · intro x hx
    rw [List.mem_singleton.1 hx]
    exact ⟨_, rfl⟩
  · intro x hx
    rw [List.mem_singleton.1 hx]
    nofun

omit [DecidableEq ι] in
/-- If only the last request is open, the next answer is its answer. -/
theorem answers_of_owedOnce {s : Channel ι} (h : OwedOnce s) {n : Nat}
    {r : Reply} {rest : List Reply} (hmsg : s.toClient = r :: rest)
    (hfinal : r.resp.Final) (hanswered : s.answered = List.range n)
    (hsent : s.sent.length = n + 1) : r.answers = n := by
  have hx := h r.answers
  rw [hanswered, hsent, List.range_succ, List.count_append] at hx
  have howed : 1 <= s.owed r.answers := by
    unfold owed
    rw [hmsg, List.flatMap_cons, Reply.owes_of_final hfinal,
      List.count_append, List.count_singleton_self]
    omega
  have hpos : 0 < [n].count r.answers := by omega
  exact List.mem_singleton.1 (List.count_pos_iff.1 hpos)

theorem serial_step {s s' : Channel ι} {a : Action ι} (hinv : OwedOnce s)
    (h : Serial s.outstanding s.sent s.returned) (hguard : OneAtATime s a)
    (hstep : Step s a s') :
    Serial s'.outstanding s'.sent s'.returned := by
  cases hstep with
  | send c calling hout => exact h.send c calling hguard
  | receive c k r rest hout hmsg hfinal =>
      have hr := answers_of_owedOnce hinv hmsg hfinal h.inOrder
        (h.waits c k hout).1
      exact h.receive hout hr hfinal
  | skip | read | pipe | finish | take | empty | bindRecv | wait | bindConn |
    connect | writeLoop | drainMore | drainDone | notWaiting | call |
    noCallback | takeAsync | writeAsync | finishAsync | deliver | ipDrop |
    ipPut | ipRun | ipEnqueue | ipMark | ipWrite => exact h

structure Orderly (s : Channel ι) : Prop extends Accounted s where
  serial : Serial s.outstanding s.sent s.returned

omit [DecidableEq ι] in
theorem orderly_of_opened {s : Channel ι} (h : Opened s) : Orderly s where
  toAccounted := accounted_of_opened h
  serial := serial_of_opened h

theorem orderly_step {s s' : Channel ι} {a : Action ι} (h : Orderly s)
    (hguard : OneAtATime s a) (hstep : Step s a s') : Orderly s' where
  toAccounted := accounted_step h.toAccounted hstep
  serial := serial_step h.once h.serial hguard hstep

/-- If a client sends only while no client waits, each gets the answers to its
own requests. -/
theorem own_answers {s : Channel ι} (h : ReachableBy OneAtATime s) {c : ι}
    {r : Reply} (hr : (c, r) ∈ s.returned) :
    exists calling, s.sent[r.answers]? = some (c, calling) ∧
      RpcDispatch.Answers s.pcb.isTcp calling r.packet r.resp := by
  have horderly : Orderly s :=
    reachableBy_invariant (fun _ => orderly_of_opened)
      (fun _ _ _ hinv hguard hstep => orderly_step hinv hguard hstep) h
  have hvalid := (linked_of_reachable h.reachable).returned (c, r) hr
  rcases horderly.serial.own (c, r) hr with ⟨calling, hsent⟩
  rcases hvalid.final (horderly.serial.final (c, r) hr) with
    ⟨calling', ⟨c', hsent'⟩, hans⟩
  cases hsent.symm.trans hsent'
  exact ⟨calling, hsent, hans⟩

def sharedUdp : Channel Bool :=
  opened true 2 2 0 ⟨Endpoint.create false, .udp (Session.create 0x0100a8c0)⟩
    (RpcDispatch.okResponse (.socketCall (RpcDispatch.ret 0)))

theorem opened_sharedUdp : Opened sharedUdp :=
  ⟨true, 0x0100a8c0, 0, 0, 2, 2, 0, _, _, rfl, rfl⟩

/-- One client waits in `recvfrom` while the other asks for the name of the
socket. -/
def overlappingCalls : List (Action Bool) :=
  [.chanSend true (.recvfromCall 64 0 true), .readReady, .loopStep 0,
    .loopStep 0, .loopStep 0, .loopStep 0, .chanSend false .getsocknameCall,
    .readReady, .loopStep 0, .loopStep 0, .chanRecv true, .chanRecv true]

def afterOverlap : Channel Bool :=
  (Foundation.run step sharedUdp overlappingCalls).getD sharedUdp

theorem overlapping_calls_exchange_answers :
    Reachable afterOverlap ∧
      exists r name, (true, r) ∈ afterOverlap.returned ∧
        afterOverlap.sent[r.answers]? = some (false, .getsocknameCall) ∧
        r.resp.returning = .getsocknameCall (RpcDispatch.ret 0) name :=
  ⟨⟨sharedUdp, overlappingCalls, opened_sharedUdp, rfl⟩, _, _,
    List.mem_cons_of_mem _ List.mem_cons_self, rfl, rfl⟩

def successiveCalls : List (Action Bool) :=
  [.chanSend true .getsockoptCall, .readReady, .loopStep 0, .loopStep 0,
    .chanRecv true, .chanSend false .getsocknameCall, .readReady,
    .loopStep 0, .loopStep 0, .chanRecv false]

def afterSuccession : Channel Bool :=
  (Foundation.run step sharedUdp successiveCalls).getD sharedUdp

theorem own_answers_successive_calls :
    ReachableBy OneAtATime afterSuccession ∧
      exists r, (false, r) ∈ afterSuccession.returned ∧
        exists calling,
          afterSuccession.sent[r.answers]? = some (false, calling) ∧
          RpcDispatch.Answers afterSuccession.pcb.isTcp calling r.packet
            r.resp := by
  have hreach : ReachableBy OneAtATime afterSuccession := by
    refine ⟨sharedUdp, successiveCalls, opened_sharedUdp, ?_, rfl⟩
    refine ⟨fun _ => rfl, trivial, trivial, trivial, trivial, ?_, trivial,
      trivial, trivial, trivial, trivial⟩
    intro c
    cases c <;> rfl
  have hmem : (false, ⟨2, _, none⟩) ∈ afterSuccession.returned :=
    List.mem_cons_of_mem _ (List.mem_cons_of_mem _ List.mem_cons_self)
  exact ⟨hreach, _, hmem, own_answers hreach hmem⟩

/-!
## A single client
-/

theorem oneAtATime_of_step {s s' : Channel Unit} {a : Action Unit}
    (hstep : Step s a s') : OneAtATime s a := by
  cases hstep with
  | send c calling hout =>
      intro _
      exact hout
  | skip | receive | read | pipe | finish | take | empty | bindRecv | wait |
    bindConn | connect | writeLoop | drainMore | drainDone | notWaiting |
    call | noCallback | takeAsync | writeAsync | finishAsync | deliver |
    ipDrop | ipPut | ipRun | ipEnqueue | ipMark | ipWrite => trivial

theorem orderly_of_reachable {s : Channel Unit} (h : Reachable s) :
    Orderly s :=
  reachable_invariant (fun _ => orderly_of_opened)
    (fun _ _ _ hinv hstep =>
      orderly_step hinv (oneAtATime_of_step hstep) hstep) h

omit [DecidableEq ι] in
theorem Serial.answers_of_get {outstanding : ι -> Option Nat}
    {sent : List (ι × Calling)} {returned : List (ι × Reply)}
    (h : Serial outstanding sent returned) {k : Nat} {c : ι} {r : Reply}
    (hget : returned[k]? = some (c, r)) : r.answers = k := by
  have hmap : (returned.map fun x => x.2.answers)[k]? = some r.answers := by
    rw [List.getElem?_map, hget]
    rfl
  rw [h.inOrder] at hmap
  have hlt : k < returned.length := (List.getElem?_eq_some_iff.1 hget).1
  rw [List.getElem?_range hlt] at hmap
  exact (Option.some.inj hmap).symm

/-- The `k`-th answer that a single client reads is final and settles its
`k`-th request, whatever `WAIT_NEXT` comes between; no request is settled
twice. -/
theorem answers_match_requests {s : Channel Unit} (h : Reachable s) :
    (forall (k : Nat) (c : Unit) (r : Reply), s.returned[k]? = some (c, r) ->
      r.answers = k ∧ r.resp.Final ∧
        exists calling, s.sent[k]? = some (c, calling) ∧
          RpcDispatch.Answers s.pcb.isTcp calling r.packet r.resp) ∧
      forall k, (s.written.filter fun r =>
        r.answers = k ∧ r.resp.Final).length <= 1 := by
  have horderly := orderly_of_reachable h
  refine ⟨?_, horderly.toAccounted.settled_once⟩
  intro k c r hget
  have hmem : (c, r) ∈ s.returned := List.mem_of_getElem? hget
  have hk := horderly.serial.answers_of_get hget
  have hfinal := horderly.serial.final (c, r) hmem
  have hvalid := (linked_of_reachable h).returned (c, r) hmem
  rcases hvalid.final hfinal with ⟨calling, ⟨c', hsent⟩, hans⟩
  rw [hk] at hsent
  exact ⟨hk, hfinal, calling, hsent, hans⟩

def tcpOpened : Channel Unit :=
  opened () 2 1 0 ⟨Endpoint.create false,
      .tcp (TcpSession.fresh (Session.create 0x0100a8c0) 0 0 0 0)⟩
    (RpcDispatch.okResponse (.socketCall (RpcDispatch.ret 0)))

theorem opened_tcpOpened : Opened tcpOpened :=
  ⟨(), 0x0100a8c0, 0, 0, 2, 1, 0, _, _, rfl, rfl⟩

def synAck : Skbuf :=
  ⟨{ TunIface.rx (List.replicate 32 0 ++ [0x50, 0x12] ++ List.replicate 6 0)
      with transportHdr := some 20 }, []⟩

def server : SockaddrIn :=
  SockaddrIn.inet 0x0200a8c0 0x5000

/-- The packet thread answers `connect` before the event loop has written its
`WAIT_NEXT`, which is read during the next call. -/
def lateWaitNext : List (Action Unit) :=
  [.chanSend () (.connectCall server.toBytes), .readReady, .loopStep 1,
    .loopStep 1, .ipDeliver server synAck, .ipStep, .ipStep, .ipStep, .ipStep,
    .chanRecv (), .chanSend () .getsocknameCall, .loopStep 1, .chanRecv (),
    .readReady, .loopStep 1, .loopStep 1, .chanRecv ()]

def afterLateWaitNext : Channel Unit :=
  (Foundation.run step tcpOpened lateWaitNext).getD tcpOpened

theorem answers_match_requests_late_waitNext :
    afterLateWaitNext.returned.map (fun x => x.2.answers) = [0, 1, 2] ∧
      afterLateWaitNext.written.map (fun r => r.resp.retCode) =
        [some .ok, some .ok, some .waitNext, some .ok] ∧
      forall k, (afterLateWaitNext.written.filter fun r =>
        r.answers = k ∧ r.resp.Final).length <= 1 :=
  ⟨rfl, rfl, (answers_match_requests
    ⟨tcpOpened, lateWaitNext, opened_tcpOpened, rfl⟩).2⟩

end Channel
end Velox
