import Mathlib.Data.List.Count
import Mathlib.Data.List.Nodup
import Velox.Arbiter.ChannelSteps

/-!
# Answers that are owed

Every request is owed one answer.  The debt wanders from the request on its
way to the daemon through the event loop, a callback that waits for a packet
or for the end of the handshake, and the packet thread to a message on its way
to the clients.  A `WAIT_NEXT` carries no debt, so it does not matter when it
is read.
-/

namespace Velox

def Reply.owes (r : Reply) : List Nat :=
  if r.resp.Final then [r.answers] else []

theorem Reply.owes_of_final {r : Reply} (h : r.resp.Final) :
    r.owes = [r.answers] :=
  if_pos h

theorem Reply.owes_of_not_final {r : Reply} (h : ¬ r.resp.Final) :
    r.owes = [] :=
  if_neg h

theorem RpcDispatch.asyncResponse_final (cb : AsyncNewPacket)
    (packet : Packet) : (asyncResponse cb packet).Final := by
  cases cb with
  | udp requireAddr => nofun
  | tcp => nofun

def IpOp.owes : IpOp -> List Nat
  | .write r => r.owes
  | _ => []

namespace Channel

variable {ι : Type}

/-!
## Debts
-/

def loopOwes : LoopPc -> List Nat
  | .handling k _ => [k]
  | .recvfromEmpty k _ => [k]
  | .writing r => r.owes
  | .taken r => r.owes
  | _ => []

def recvOwes (armed : Nat) (waiting : Bool) : LoopPc -> List Nat
  | .recvfromBound _ => [armed]
  | .calling => [armed]
  | .taken _ => []
  | .called => []
  | _ => bif waiting then [armed] else []

/-- How often the end of the handshake will still be announced. -/
def estabRuns (pcb : Pcb) (ip : List IpOp) : Nat :=
  pcb.handshaking.toNat + ip.count (.effect .runOnConnEstabCB)

def connOwes (armed : Nat) (pcb : Pcb) (ip : List IpOp) : List Nat :=
  if pcb.onConnEstabCB then List.replicate (estabRuns pcb ip) armed else []

/-- How many answers to request `x` are still to be read. -/
def owed (s : Channel ι) (x : Nat) : Nat :=
  (s.toDaemon.map Prod.fst).count x + (loopOwes s.loop).count x +
    (recvOwes s.recvArmed s.so.waiting s.loop).count x +
    (connOwes s.connArmed s.pcb s.ip).count x +
    (s.ip.flatMap IpOp.owes).count x +
    (s.toClient.flatMap Reply.owes).count x

def answered (s : Channel ι) : List Nat :=
  s.returned.map fun x => x.2.answers

theorem estabRuns_keeps {pcb pcb' : Pcb} (h : pcb.Keeps pcb')
    (ip : List IpOp) : estabRuns pcb' ip = estabRuns pcb ip := by
  rw [estabRuns, estabRuns, h.handshake]

theorem estabRuns_tail_le (pcb : Pcb) (op : IpOp) (rest : List IpOp) :
    estabRuns pcb rest <= estabRuns pcb (op :: rest) :=
  Nat.add_le_add_left List.count_le_count_cons _

theorem estabRuns_cons_of_ne (pcb : Pcb) (op : IpOp) (rest : List IpOp)
    (h : op ≠ .effect .runOnConnEstabCB) :
    estabRuns pcb (op :: rest) = estabRuns pcb rest := by
  rw [estabRuns, estabRuns, List.count_cons_of_ne h]

theorem estabRuns_deliver (pcb : Pcb) (peerAddr : SockaddrIn)
    (skbuf : Skbuf) :
    estabRuns (pcb.recv peerAddr skbuf).1
        ((pcb.recv peerAddr skbuf).2.map .effect) = estabRuns pcb [] := by
  have hcount : List.count (IpOp.effect .runOnConnEstabCB)
      ((pcb.recv peerAddr skbuf).2.map .effect) =
        List.count .runOnConnEstabCB (pcb.recv peerAddr skbuf).2 :=
    List.count_map_of_injective _ _ (fun _ _ heq => IpOp.effect.inj heq) _
  rw [estabRuns, hcount, Nat.add_comm, pcb.recv_handshaking]
  rfl

theorem connOwes_keeps {pcb pcb' : Pcb} (h : pcb.Keeps pcb') (armed : Nat)
    (ip : List IpOp) : connOwes armed pcb' ip = connOwes armed pcb ip := by
  rw [connOwes, connOwes, h.callback, estabRuns_keeps h]

theorem connOwes_cons_of_ne (armed : Nat) (pcb : Pcb) (op : IpOp)
    (rest : List IpOp) (h : op ≠ .effect .runOnConnEstabCB) :
    connOwes armed pcb (op :: rest) = connOwes armed pcb rest := by
  rw [connOwes, connOwes, estabRuns_cons_of_ne pcb op rest h]

theorem connOwes_run {pcb : Pcb} (h : pcb.onConnEstabCB = true) (armed : Nat)
    (rest : List IpOp) :
    connOwes armed pcb (.effect .runOnConnEstabCB :: rest) =
      [armed] ++ connOwes armed pcb rest := by
  rw [connOwes, connOwes, if_pos h, if_pos h, estabRuns, estabRuns,
    List.count_cons_self, ← Nat.add_assoc, List.replicate_succ,
    List.singleton_append]

theorem connOwes_deliver (armed : Nat) (pcb : Pcb) (peerAddr : SockaddrIn)
    (skbuf : Skbuf) :
    connOwes armed (pcb.recv peerAddr skbuf).1
        ((pcb.recv peerAddr skbuf).2.map .effect) =
      connOwes armed pcb [] := by
  rw [connOwes, connOwes, pcb.recv_callback, estabRuns_deliver]

theorem count_connOwes_le (armed : Nat) (pcb : Pcb) (op : IpOp)
    (rest : List IpOp) (x : Nat) :
    (connOwes armed pcb rest).count x <=
      (connOwes armed pcb (op :: rest)).count x := by
  unfold connOwes
  split
  · exact List.Sublist.count_le x
      ((List.replicate_sublist_replicate armed).2
        (estabRuns_tail_le pcb op rest))
  · exact Nat.le_refl _

theorem count_connOwes_le_one {pcb : Pcb} {ip : List IpOp}
    (h : estabRuns pcb ip <= 1) (armed x : Nat) :
    (connOwes armed pcb ip).count x <= [armed].count x := by
  unfold connOwes
  split
  · exact List.Sublist.count_le x
      ((List.replicate_sublist_replicate (n := 1) armed).2 h)
  · exact Nat.zero_le _

theorem flatMap_owes_map_effect (effects : List Effect) :
    (effects.map IpOp.effect).flatMap IpOp.owes = [] := by
  induction effects with
  | nil => rfl
  | cons e rest ih => exact ih

/-!
## One answer for each request
-/

/-- Of each request that was sent, one answer at most is read or owed. -/
def OwedOnce (s : Channel ι) : Prop :=
  forall x, s.owed x + s.answered.count x <=
    (List.range s.sent.length).count x

/-- The answers that were written are those read and those on their way. -/
def WrittenInOrder (s : Channel ι) : Prop :=
  s.written.flatMap Reply.owes = s.answered ++ s.toClient.flatMap Reply.owes

variable [DecidableEq ι]

theorem estabRuns_step {s s' : Channel ι} {a : Action ι}
    (hstep : Step s a s') :
    estabRuns s'.pcb s'.ip <= estabRuns s.pcb s.ip := by
  cases hstep with
  | send | skip | receive | read | pipe | take | empty | bindRecv | wait |
    writeLoop | drainMore | drainDone | notWaiting | call | noCallback |
    takeAsync | writeAsync | finishAsync => exact Nat.le_refl _
  | finish port k calling pcb resp hloop hpcb hans =>
      exact Nat.le_of_eq (estabRuns_keeps hpcb s.ip)
  | bindConn port k addr session hloop hpcb =>
      rw [hpcb]
      exact Nat.le_refl _
  | connect port k addr hloop =>
      exact Nat.le_of_eq (estabRuns_keeps (s.pcb.keeps_connect port addr) s.ip)
  | deliver peerAddr skbuf hip =>
      rw [hip]
      exact Nat.le_of_eq (estabRuns_deliver s.pcb peerAddr skbuf)
  | ipDrop _ rest hip | ipMark rest hip | ipWrite _ rest hip =>
      rw [hip]
      exact estabRuns_tail_le s.pcb _ rest
  | ipPut _ _ rest hip | ipRun rest hip | ipEnqueue _ rest hip =>
      rw [hip]
      refine Nat.le_trans (Nat.le_of_eq ?_) (estabRuns_tail_le s.pcb _ rest)
      exact estabRuns_cons_of_ne s.pcb _ rest nofun

theorem owed_loopStep {s s' : Channel ι} {port : UInt16}
    (hruns : estabRuns s.pcb s.ip <= 1) (hstep : Step s (.loopStep port) s')
    (x : Nat) : s'.owed x <= s.owed x := by
  cases hstep with
  | finish _ k calling pcb resp hloop hpcb hans =>
      simp only [owed, finish, hloop, loopOwes, connOwes_keeps hpcb,
        Reply.owes_of_final (r := ⟨k, resp, none⟩) hans.final]
      exact Nat.le_refl _
  | take _ _ _ _ _ _ _ hloop | empty _ _ _ _ _ hloop | wait _ _ hloop
  | drainDone _ hloop | notWaiting _ hloop | finishAsync _ hloop =>
      rw [owed, owed, hloop]
      exact Nat.le_refl _
  | bindRecv _ k requireAddr hloop =>
      simp only [owed, hloop, loopOwes, recvOwes, List.count_nil]
      omega
  | bindConn _ k addr session hloop hpcb =>
      rw [hpcb] at hruns
      have hbound : estabRuns (.tcp { session with onConnEstabCB := true })
          s.ip <= 1 := hruns
      have hconn := count_connOwes_le_one hbound k x
      simp only [owed, hloop, loopOwes, recvOwes, List.count_nil]
      omega
  | connect _ k addr hloop =>
      rw [owed, owed, hloop, connOwes_keeps (s.pcb.keeps_connect port addr)]
      exact Nat.le_refl _
  | writeLoop _ r hloop | writeAsync _ r hloop =>
      simp only [owed, hloop, post, loopOwes, recvOwes, List.count_nil,
        List.flatMap_append, List.count_append, List.flatMap_singleton]
      omega
  | drainMore _ hloop hpipe => rw [owed, owed, hloop]
  | call _ hloop hwaiting =>
      rw [owed, owed, hloop, hwaiting]
      exact Nat.le_refl _
  | noCallback _ hloop hcb =>
      simp only [owed, hloop, loopOwes, recvOwes, List.count_nil]
      omega
  | takeAsync _ cb packet rest hloop hcb hq =>
      have howes : Reply.owes ⟨s.recvArmed,
          RpcDispatch.asyncResponse cb packet, some packet⟩ = [s.recvArmed] :=
        Reply.owes_of_final (RpcDispatch.asyncResponse_final cb packet)
      simp only [owed, hloop, loopOwes, recvOwes, howes, List.count_nil]
      omega

theorem owed_ipStep {s s' : Channel ι} (hstep : Step s .ipStep s')
    (x : Nat) : s'.owed x <= s.owed x := by
  cases hstep with
  | ipDrop e rest hip hcb =>
      have hconn := count_connOwes_le s.connArmed s.pcb (.effect e) rest x
      simp only [owed, hip, List.flatMap_cons, IpOp.owes, List.nil_append]
      omega
  | ipPut peerAddr skbuf rest hip =>
      have hconn := count_connOwes_le s.connArmed s.pcb
        (.effect (.putToRecvQ peerAddr skbuf)) rest x
      have hcons := connOwes_cons_of_ne s.connArmed s.pcb
        (.enqueue ⟨peerAddr, skbuf⟩) rest nofun
      simp only [owed, hip, List.flatMap_cons, IpOp.owes, hcons,
        List.nil_append]
      omega
  | ipRun rest hip hcb =>
      have hcons := connOwes_cons_of_ne s.connArmed s.pcb
        (.write ⟨s.connArmed, RpcDispatch.connEstabResponse, none⟩) rest nofun
      have howes : Reply.owes
          ⟨s.connArmed, RpcDispatch.connEstabResponse, none⟩ =
            [s.connArmed] := rfl
      simp only [owed, hip, connOwes_run hcb, List.flatMap_cons, IpOp.owes,
        hcons, howes, List.nil_append, List.count_append]
      omega
  | ipEnqueue packet rest hip =>
      have hconn := count_connOwes_le s.connArmed s.pcb (.enqueue packet)
        rest x
      have hcons := connOwes_cons_of_ne s.connArmed s.pcb
        .markSChannelAsReadable rest nofun
      simp only [owed, hip, List.flatMap_cons, IpOp.owes, hcons,
        List.nil_append, Endpoint.enqueue]
      omega
  | ipMark rest hip =>
      have hconn := count_connOwes_le s.connArmed s.pcb
        .markSChannelAsReadable rest x
      simp only [owed, hip, List.flatMap_cons, IpOp.owes, List.nil_append,
        Endpoint.markSChannelAsReadable]
      omega
  | ipWrite r rest hip =>
      have hconn := count_connOwes_le s.connArmed s.pcb (.write r) rest x
      simp only [owed, hip, post, List.flatMap_cons, IpOp.owes,
        List.flatMap_append, List.count_append, List.flatMap_nil,
        List.append_nil]
      omega

/-- A debt is made by sending a request, and by nothing else. -/
theorem owed_step {s s' : Channel ι} {a : Action ι}
    (hruns : estabRuns s.pcb s.ip <= 1) (hstep : Step s a s') (x : Nat) :
    s'.owed x + s'.answered.count x + (List.range s.sent.length).count x <=
      s.owed x + s.answered.count x + (List.range s'.sent.length).count x := by
  cases a with
  | loopStep port =>
      have howed := owed_loopStep hruns hstep x
      rw [(loopStep_frame hstep).1, answered, (loopStep_frame hstep).2,
        answered]
      omega
  | ipStep =>
      have howed := owed_ipStep hstep x
      rw [(ipStep_frame hstep).1, answered, (ipStep_frame hstep).2, answered]
      omega
  | chanSend c calling =>
      cases hstep with
      | send _ _ hout =>
          simp only [owed, answered, List.map_append, List.map_cons,
            List.map_nil, List.count_append, List.length_append,
            List.length_cons, List.length_nil, List.range_succ]
          omega
  | chanRecv =>
      cases hstep with
      | skip _ k r rest hout hmsg hwait =>
          simp only [owed, answered, hmsg, List.flatMap_cons,
            Reply.owes_of_not_final hwait, List.nil_append]
          exact Nat.le_refl _
      | receive _ k r rest hout hmsg hfinal =>
          simp only [owed, answered, hmsg, List.flatMap_cons,
            Reply.owes_of_final hfinal, List.map_append, List.map_cons,
            List.map_nil, List.count_append]
          omega
  | readReady =>
      cases hstep with
      | read k calling rest hloop hmsg =>
          rw [owed, owed, hloop, hmsg, List.map_cons,
            ← List.singleton_append (x := k)]
          simp only [answered, loopOwes, recvOwes, List.count_append,
            List.count_nil]
          omega
  | pipeReady =>
      cases hstep with
      | pipe hloop hpipe =>
          rw [owed, owed, hloop]
          exact Nat.le_refl _
  | ipDeliver peerAddr skbuf =>
      cases hstep with
      | deliver _ _ hip =>
          rw [owed, owed, hip, connOwes_deliver, flatMap_owes_map_effect]
          exact Nat.le_refl _

theorem owedOnce_step {s s' : Channel ι} {a : Action ι}
    (hruns : estabRuns s.pcb s.ip <= 1) (h : OwedOnce s)
    (hstep : Step s a s') : OwedOnce s' := by
  intro x
  have howed := owed_step hruns hstep x
  have hx := h x
  omega

omit [DecidableEq ι] in
theorem writtenInOrder_post {s : Channel ι} (h : WrittenInOrder s)
    (r : Reply) :
    (s.written ++ [r]).flatMap Reply.owes =
      s.answered ++ (s.toClient ++ [r]).flatMap Reply.owes := by
  unfold WrittenInOrder at h
  rw [List.flatMap_append, List.flatMap_append, h, List.append_assoc]

theorem writtenInOrder_step {s s' : Channel ι} {a : Action ι}
    (h : WrittenInOrder s) (hstep : Step s a s') : WrittenInOrder s' := by
  cases hstep with
  | send | read | pipe | finish | take | empty | bindRecv | wait | bindConn |
    connect | drainMore | drainDone | notWaiting | call | noCallback |
    takeAsync | finishAsync | deliver | ipDrop | ipPut | ipRun | ipEnqueue |
    ipMark => exact h
  | skip c k r rest hout hmsg hwait =>
      unfold WrittenInOrder at h
      rw [hmsg, List.flatMap_cons, Reply.owes_of_not_final hwait] at h
      exact h
  | receive c k r rest hout hmsg hfinal =>
      unfold WrittenInOrder at h
      rw [hmsg, List.flatMap_cons, Reply.owes_of_final hfinal] at h
      refine h.trans ?_
      show s.answered ++ ([r.answers] ++ _) =
        (s.returned ++ [(c, r)]).map _ ++ _
      rw [List.map_append, List.append_assoc]
      rfl
  | writeLoop port r hloop => exact writtenInOrder_post h r
  | writeAsync port r hloop => exact writtenInOrder_post h r
  | ipWrite r rest hip => exact writtenInOrder_post h r

structure Accounted (s : Channel ι) : Prop where
  runs : estabRuns s.pcb s.ip <= 1
  once : OwedOnce s
  order : WrittenInOrder s

omit [DecidableEq ι] in
theorem accounted_of_opened {s : Channel ι} (h : Opened s) :
    Accounted s := by
  rcases h.eq_opened with
    ⟨c, domain, type, protocol, nonblocking, pcb, hcb, rfl⟩
  refine ⟨?_, ?_, rfl⟩
  · exact Nat.add_le_add (Bool.toNat_le _) (Nat.le_refl 0)
  · intro x
    have hconn : connOwes 0 pcb [] = [] := by
      rw [connOwes, hcb]
      rfl
    show 0 + 0 + 0 + (connOwes 0 pcb []).count x + 0 + 0 + [0].count x <=
      [0].count x
    rw [hconn]
    exact Nat.le_of_eq (Nat.zero_add _)

theorem accounted_step {s s' : Channel ι} {a : Action ι} (h : Accounted s)
    (hstep : Step s a s') : Accounted s' where
  runs := Nat.le_trans (estabRuns_step hstep) h.runs
  once := owedOnce_step h.runs h.once hstep
  order := writtenInOrder_step h.order hstep

theorem length_settling_eq_count (written : List Reply) (k : Nat) :
    (written.filter fun r => r.answers = k ∧ r.resp.Final).length =
      (written.flatMap Reply.owes).count k := by
  induction written with
  | nil => rfl
  | cons r rest ih =>
      rw [List.flatMap_cons, List.count_append, ← ih, List.filter_cons]
      by_cases hfinal : r.resp.Final
      · rw [Reply.owes_of_final hfinal, List.count_singleton]
        by_cases hk : r.answers = k
        · simp [hk, hfinal, Nat.add_comm]
        · simp [hk]
      · rw [Reply.owes_of_not_final hfinal]
        simp [hfinal]

omit [DecidableEq ι] in
theorem Accounted.settled_once {s : Channel ι} (h : Accounted s) (k : Nat) :
    (s.written.filter fun r => r.answers = k ∧ r.resp.Final).length <= 1 := by
  have honce := h.once k
  have horder := h.order
  unfold WrittenInOrder at horder
  unfold owed at honce
  have hrange : (List.range s.sent.length).count k <= 1 :=
    List.nodup_iff_count_le_one.1 List.nodup_range k
  rw [length_settling_eq_count, horder, List.count_append]
  omega

end Channel
end Velox
