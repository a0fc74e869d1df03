import Velox.Arbiter.Debts
import Velox.Arbiter.Matching

/-!
# The completion of a deferred answer

`WAIT_NEXT` promises a later message.  For `recvfrom` the callback of the
endpoint sends it, for `connect` the callback that the end of the handshake
runs.  The answer is chosen from the mode of the socket alone, so a `connect`
on a session that is established already waits for a handshake that is over.
-/

namespace Velox

namespace TcpSession

theorem send_ne_closed (s : TcpSession) (port : UInt16)
    (buf : Foundation.Bytes) :
    (s.send port buf).session.connState ≠ .closed := by
  have hcase := s.send_cases port buf
  generalize s.send port buf = result at hcase ⊢
  cases hcase with
  | syn _ => nofun
  | data hestab =>
      show s.connState ≠ .closed
      rw [hestab]
      nofun
  | other hopen _ => exact hopen

theorem recv_ne_closed {s : TcpSession} (h : s.connState ≠ .closed)
    (peerAddr : SockaddrIn) (skbuf : Skbuf) :
    (s.recv peerAddr skbuf).1.connState ≠ .closed := by
  rcases s.readAck_eq skbuf.head with ⟨una, hread⟩
  have hcase := s.recv_cases peerAddr skbuf
  generalize s.recv peerAddr skbuf = result at hcase ⊢
  cases hcase with
  | syn _ => nofun
  | data _ _ =>
      show (s.readAck skbuf.head).connState ≠ .closed
      rw [hread]
      exact h
  | empty _ _ =>
      show (s.readAck skbuf.head).connState ≠ .closed
      rw [hread]
      exact h
  | other _ _ => exact h

end TcpSession

def Pcb.Dialed (pcb : Pcb) : Prop :=
  exists session, pcb = .tcp session ∧ session.connState ≠ .closed

theorem Pcb.Dialed.recv {pcb : Pcb} (h : pcb.Dialed) (peerAddr : SockaddrIn)
    (skbuf : Skbuf) : (pcb.recv peerAddr skbuf).1.Dialed := by
  rcases h with ⟨session, rfl, hopen⟩
  exact ⟨_, rfl, TcpSession.recv_ne_closed hopen peerAddr skbuf⟩

namespace Channel

variable {ι : Type}

def Settled (s : Channel ι) (k : Nat) : Prop :=
  exists r, r ∈ s.written ∧ r.answers = k ∧ r.resp.Final

/-- A later packet will produce the final answer: the endpoint waits with its
callback, or the session waits for the SYN of the peer with its own, each set
by this request. -/
def Armed (s : Channel ι) (k : Nat) : Calling -> Prop
  | .recvfromCall _ _ _ =>
      s.so.waiting = true ∧ s.so.onAsyncNewPacket ≠ none ∧ s.recvArmed = k
  | .connectCall _ =>
      exists session, s.pcb = .tcp session ∧ session.connState = .synSent ∧
        session.onConnEstabCB = true ∧ s.connArmed = k
  | _ => False

def Announces (s : Channel ι) : Calling -> Prop
  | .connectCall _ =>
      s.pcb.handshaking = true ∨ .effect .runOnConnEstabCB ∈ s.ip
  | _ => True

/-- The packet thread has established the connection and is about to write the
answer. -/
def Completing (s : Channel ι) (k : Nat) : Calling -> Prop
  | .connectCall _ =>
      .effect .runOnConnEstabCB ∈ s.ip ∨
        exists r, .write r ∈ s.ip ∧ r.answers = k ∧ r.resp.Final
  | _ => False

theorem mem_owes_iff {r : Reply} {k : Nat} :
    k ∈ r.owes <-> r.answers = k ∧ r.resp.Final := by
  by_cases hfinal : r.resp.Final
  · rw [Reply.owes_of_final hfinal, List.mem_singleton]
    exact ⟨fun h => ⟨h.symm, hfinal⟩, fun h => h.left.symm⟩
  · rw [Reply.owes_of_not_final hfinal]
    exact ⟨nofun, fun h => absurd h.right hfinal⟩

theorem settled_iff {s : Channel ι} {k : Nat} :
    s.Settled k <-> 0 < (s.written.flatMap Reply.owes).count k := by
  rw [List.count_pos_iff, List.mem_flatMap]
  exact exists_congr fun r => and_congr_right fun _ => mem_owes_iff.symm

theorem count_ip_owes_pos_iff {ip : List IpOp} {k : Nat} :
    0 < (ip.flatMap IpOp.owes).count k <->
      exists r, .write r ∈ ip ∧ r.answers = k ∧ r.resp.Final := by
  rw [List.count_pos_iff, List.mem_flatMap]
  constructor
  · rintro ⟨op, hop, hk⟩
    cases op with
    | write r => exact ⟨r, hop, mem_owes_iff.1 hk⟩
    | effect | enqueue | markSChannelAsReadable => cases hk
  · rintro ⟨r, hr, hk⟩
    exact ⟨.write r, hr, mem_owes_iff.2 hk⟩

theorem estabRuns_pos_iff {pcb : Pcb} {ip : List IpOp} :
    0 < estabRuns pcb ip <->
      pcb.handshaking = true ∨ .effect .runOnConnEstabCB ∈ ip := by
  rw [estabRuns, Nat.add_pos_iff_pos_or_pos, List.count_pos_iff]
  cases pcb.handshaking with
  | true => simp
  | false => simp

/-!
## From the first step of the handling to its answer
-/

/-- The answers to request `k` that are due, if the callback is set for it:
those of announcements to come, and those that the packet thread has at
hand. -/
def due (pcb : Pcb) (k : Nat) (ip : List IpOp) : Nat :=
  estabRuns pcb ip + (ip.flatMap IpOp.owes).count k

theorem due_quiet (pcb : Pcb) (k : Nat) (op : IpOp) (rest : List IpOp)
    (hne : op ≠ .effect .runOnConnEstabCB) (howes : op.owes = []) :
    due pcb k (op :: rest) = due pcb k rest := by
  rw [due, due, estabRuns_cons_of_ne pcb op rest hne, List.flatMap_cons, howes,
    List.nil_append]

theorem due_run (pcb : Pcb) (k : Nat) (rest : List IpOp) :
    due pcb k (.effect .runOnConnEstabCB :: rest) = due pcb k rest + 1 := by
  have hcount : estabRuns pcb (.effect .runOnConnEstabCB :: rest) =
      estabRuns pcb rest + 1 := by
    rw [estabRuns, estabRuns, List.count_cons_self, Nat.add_assoc]
  rw [due, due, hcount, Nat.add_right_comm]
  rfl

theorem due_write (pcb : Pcb) (k : Nat) (r : Reply) (rest : List IpOp) :
    due pcb k (.write r :: rest) = due pcb k rest + r.owes.count k := by
  rw [due, due, estabRuns_cons_of_ne pcb (.write r) rest nofun,
    List.flatMap_cons, List.count_append, Nat.add_comm (List.count k _),
    Nat.add_assoc]
  rfl

/-- The callback is set for `k`, and the answers that are due and those that
have been written are `n` together. -/
structure ConnBound (n k : Nat) (s : Channel ι) : Prop where
  callback : s.pcb.onConnEstabCB = true
  armed : s.connArmed = k
  tally : due s.pcb k s.ip + (s.written.flatMap Reply.owes).count k = n

def AtRest : LoopPc -> Prop
  | .idle | .draining | .drained | .calling | .taken _ | .called => True
  | _ => False

/-- The stages of the handling of request `k` after its first step, for calls
that may be deferred; `n` announcements were due at that step. -/
inductive Serving (n k : Nat) (s : Channel ι) : Calling -> Prop where
  | settles (calling : Calling) (r : Reply) (hloop : s.loop = .writing r)
      (hfinal : r.resp.Final) : Serving n k s calling
  | rest (calling : Calling) (hloop : AtRest s.loop) : Serving n k s calling
  | recvEmpty (len flags : Int32) (requireAddr : Bool)
      (hloop : s.loop = .recvfromEmpty k requireAddr) :
      Serving n k s (.recvfromCall len flags requireAddr)
  | recvBound (len flags : Int32) (requireAddr : Bool)
      (hloop : s.loop = .recvfromBound k)
      (hcb : s.so.onAsyncNewPacket ≠ none) (harmed : s.recvArmed = k) :
      Serving n k s (.recvfromCall len flags requireAddr)
  | recvWaits (len flags : Int32) (requireAddr : Bool)
      (hloop : s.loop = .writing ⟨k, RpcDispatch.waitNextResponse, none⟩)
      (harmed : s.Armed k (.recvfromCall len flags requireAddr)) :
      Serving n k s (.recvfromCall len flags requireAddr)
  | connBound (addr : Foundation.Bytes) (dest : SockaddrIn)
      (hloop : s.loop = .connectBound k dest) (hbound : ConnBound n k s) :
      Serving n k s (.connectCall addr)
  | connWaits (addr : Foundation.Bytes)
      (hloop : s.loop = .writing ⟨k, RpcDispatch.waitNextResponse, none⟩)
      (hbound : ConnBound n k s)
      (hdialed : s.pcb.Dialed) :
      Serving n k s (.connectCall addr)

theorem ConnBound.settled_or_armed_iff {n k : Nat} {s : Channel ι}
    (h : ConnBound n k s) (hn : n <= 1) (hdialed : s.pcb.Dialed)
    (addr : Foundation.Bytes) :
    s.Settled k ∨ s.Armed k (.connectCall addr) <->
      0 < n ∧ ¬ s.Completing k (.connectCall addr) := by
  have harmed : s.Armed k (.connectCall addr) <->
      0 < s.pcb.handshaking.toNat := by
    have hcallback := h.callback
    rcases hdialed with ⟨session, hpcb, hopen⟩
    rw [hpcb] at hcallback
    have hstate : 0 < s.pcb.handshaking.toNat <->
        session.connState = .synSent := by
      rw [hpcb]
      simp [Pcb.handshaking, hopen, Nat.pos_iff_ne_zero]
    rw [hstate]
    constructor
    · rintro ⟨session', hpcb', hsyn, _, _⟩
      rw [hpcb] at hpcb'
      cases hpcb'
      exact hsyn
    · intro hsyn
      exact ⟨session, hpcb, hsyn, hcallback, h.armed⟩
  have hcompleting : s.Completing k (.connectCall addr) <->
      0 < s.ip.count (.effect .runOnConnEstabCB) ∨
        0 < (s.ip.flatMap IpOp.owes).count k := by
    rw [List.count_pos_iff, count_ip_owes_pos_iff]
    exact Iff.rfl
  have htally := h.tally
  rw [due, estabRuns] at htally
  rw [settled_iff, harmed, hcompleting]
  omega

theorem ConnBound.connect {n k : Nat} {s : Channel ι} (h : ConnBound n k s)
    (port : UInt16) (dest : SockaddrIn) (loop : LoopPc) :
    ConnBound n k { s with pcb := s.pcb.connect port dest, loop := loop } := by
  have hkeeps := s.pcb.keeps_connect port dest
  refine ⟨hkeeps.callback.trans h.callback, h.armed, ?_⟩
  have htally := h.tally
  rw [due, ← estabRuns_keeps hkeeps] at htally
  exact htally

theorem ConnBound.dialed_connect {n k : Nat} {s : Channel ι}
    (h : ConnBound n k s) (port : UInt16) (dest : SockaddrIn) :
    (s.pcb.connect port dest).Dialed := by
  have hcallback := h.callback
  cases hpcb : s.pcb with
  | udp session =>
      rw [hpcb] at hcallback
      cases hcallback
  | tcp session => exact ⟨_, rfl, TcpSession.send_ne_closed _ _ []⟩

theorem Serving.armed_iff {n k : Nat} {s : Channel ι} {calling : Calling}
    (h : Serving n k s calling) (hn : n <= 1)
    (hwaits : exists r, s.loop = .writing r ∧ ¬ r.resp.Final) :
    s.Settled k ∨ s.Armed k calling <->
      (forall addr, calling = .connectCall addr -> 0 < n) ∧
        ¬ s.Completing k calling := by
  rcases hwaits with ⟨r, hr, hwait⟩
  cases h with
  | settles _ r' hloop hfinal =>
      rw [hr] at hloop
      cases hloop
      exact absurd hfinal hwait
  | rest _ hloop =>
      rw [hr] at hloop
      exact hloop.elim
  | recvEmpty len flags requireAddr hloop =>
      rw [hr] at hloop
      cases hloop
  | recvBound len flags requireAddr hloop hcb harmed =>
      rw [hr] at hloop
      cases hloop
  | recvWaits len flags requireAddr hloop harmed =>
      exact ⟨fun _ => ⟨nofun, id⟩, fun _ => .inr harmed⟩
  | connBound addr dest hloop hbound =>
      rw [hr] at hloop
      cases hloop
  | connWaits addr hloop hbound hdialed =>
      rw [hbound.settled_or_armed_iff hn hdialed addr]
      refine and_congr_left fun _ => ⟨fun hpos _ _ => hpos, fun hpos => ?_⟩
      exact hpos addr rfl

theorem announces_iff {s : Channel ι} {calling : Calling} :
    s.Announces calling <->
      forall addr, calling = .connectCall addr ->
        0 < estabRuns s.pcb s.ip := by
  cases calling with
  | connectCall addr =>
      refine Iff.trans estabRuns_pos_iff.symm ?_
      exact ⟨fun hpos _ _ => hpos, fun hpos => hpos addr rfl⟩
  | socketCall | closeCall | recvfromCall | sendtoCall | pollCall |
    selectCall | getpeernameCall | getsocknameCall | getsockoptCall |
    setsockoptCall | fcntlCall | atstartAction | notSet =>
      exact ⟨fun _ => nofun, fun _ => trivial⟩

theorem Accounted.only_loop {s : Channel ι} (h : Accounted s) {k : Nat}
    {calling : Calling} (hloop : s.loop = .handling k calling) :
    (s.toDaemon.map Prod.fst).count k = 0 ∧
      (recvOwes s.recvArmed s.so.waiting s.loop).count k = 0 ∧
      (s.ip.flatMap IpOp.owes).count k = 0 ∧
      (s.toClient.flatMap Reply.owes).count k = 0 ∧
      s.answered.count k = 0 := by
  have honce := h.once k
  have hrange : (List.range s.sent.length).count k <= 1 :=
    List.nodup_iff_count_le_one.1 List.nodup_range k
  have hself : (loopOwes s.loop).count k = 1 := by
    rw [hloop]
    exact List.count_singleton_self
  rw [owed, hself] at honce
  omega

theorem Accounted.count_written {s : Channel ι} (h : Accounted s) (k : Nat) :
    (s.written.flatMap Reply.owes).count k =
      s.answered.count k + (s.toClient.flatMap Reply.owes).count k := by
  have horder := h.order
  unfold WrittenInOrder at horder
  rw [horder, List.count_append]

variable [DecidableEq ι]

def Foreign : Action ι -> Prop
  | .chanSend _ _ | .chanRecv _ | .ipDeliver _ _ | .ipStep => True
  | _ => False

structure SameLoop (s s' : Channel ι) : Prop where
  loop : s'.loop = s.loop
  recvArmed : s'.recvArmed = s.recvArmed
  connArmed : s'.connArmed = s.connArmed
  waiting : s'.so.waiting = s.so.waiting
  onAsyncNewPacket : s'.so.onAsyncNewPacket = s.so.onAsyncNewPacket

theorem sameLoop_of_foreign {s s' : Channel ι} {a : Action ι}
    (hstep : Step s a s') (ha : Foreign a) : SameLoop s s' := by
  cases hstep with
  | send | skip | receive | deliver | ipDrop | ipPut | ipRun | ipEnqueue |
    ipMark | ipWrite => exact ⟨rfl, rfl, rfl, rfl, rfl⟩
  | read | pipe | finish | take | empty | bindRecv | wait | bindConn |
    connect | writeLoop | drainMore | drainDone | notWaiting | call |
    noCallback | takeAsync | writeAsync | finishAsync => cases ha

theorem ConnBound.foreign {n k : Nat} {s s' : Channel ι} {a : Action ι}
    (h : ConnBound n k s) (hstep : Step s a s') (ha : Foreign a) :
    ConnBound n k s' := by
  have htally := h.tally
  cases hstep with
  | send | skip | receive => exact ⟨h.callback, h.armed, htally⟩
  | deliver peerAddr skbuf hip =>
      refine ⟨?_, h.armed, ?_⟩
      · exact (s.pcb.recv_callback peerAddr skbuf).trans h.callback
      · rw [due, estabRuns_deliver, flatMap_owes_map_effect]
        rw [hip] at htally
        exact htally
  | ipDrop e rest hip hcb =>
      refine ⟨h.callback, h.armed, ?_⟩
      have hne : IpOp.effect e ≠ .effect .runOnConnEstabCB := by
        intro heq
        have hunset := hcb (IpOp.effect.inj heq)
        rw [h.callback] at hunset
        cases hunset
      rw [hip, due_quiet s.pcb k _ rest hne rfl] at htally
      exact htally
  | ipPut peerAddr skbuf rest hip =>
      refine ⟨h.callback, h.armed, ?_⟩
      rw [hip, due_quiet s.pcb k (.effect (.putToRecvQ peerAddr skbuf)) rest
        nofun rfl] at htally
      show due s.pcb k (.enqueue ⟨peerAddr, skbuf⟩ :: rest) + _ = n
      rw [due_quiet s.pcb k (.enqueue ⟨peerAddr, skbuf⟩) rest nofun rfl]
      exact htally
  | ipRun rest hip hcb =>
      refine ⟨h.callback, h.armed, ?_⟩
      rw [hip, due_run] at htally
      show due s.pcb k (.write _ :: rest) + _ = n
      have howes : Reply.owes ⟨k, RpcDispatch.connEstabResponse, none⟩ =
          [k] := rfl
      rw [due_write, h.armed, howes, List.count_singleton_self]
      exact htally
  | ipEnqueue packet rest hip =>
      refine ⟨h.callback, h.armed, ?_⟩
      rw [hip, due_quiet s.pcb k (.enqueue packet) rest nofun rfl] at htally
      show due s.pcb k (.markSChannelAsReadable :: rest) + _ = n
      rw [due_quiet s.pcb k .markSChannelAsReadable rest nofun rfl]
      exact htally
  | ipMark rest hip =>
      refine ⟨h.callback, h.armed, ?_⟩
      rw [hip, due_quiet s.pcb k .markSChannelAsReadable rest nofun rfl]
        at htally
      exact htally
  | ipWrite r rest hip =>
      refine ⟨h.callback, h.armed, ?_⟩
      rw [hip, due_write] at htally
      show due s.pcb k rest + ((s.written ++ [r]).flatMap Reply.owes).count k =
        n
      rw [List.flatMap_append, List.flatMap_singleton, List.count_append]
      omega
  | read | pipe | finish | take | empty | bindRecv | wait | bindConn |
    connect | writeLoop | drainMore | drainDone | notWaiting | call |
    noCallback | takeAsync | writeAsync | finishAsync => cases ha

theorem dialed_of_foreign {s s' : Channel ι} {a : Action ι}
    (h : s.pcb.Dialed) (hstep : Step s a s') (ha : Foreign a) :
    s'.pcb.Dialed := by
  cases hstep with
  | send | skip | receive | ipDrop | ipPut | ipRun | ipEnqueue | ipMark |
    ipWrite => exact h
  | deliver peerAddr skbuf hip => exact h.recv peerAddr skbuf
  | read | pipe | finish | take | empty | bindRecv | wait | bindConn |
    connect | writeLoop | drainMore | drainDone | notWaiting | call |
    noCallback | takeAsync | writeAsync | finishAsync => cases ha

theorem Serving.foreign {n k : Nat} {s s' : Channel ι} {calling : Calling}
    {a : Action ι} (h : Serving n k s calling) (hstep : Step s a s')
    (ha : Foreign a) : Serving n k s' calling := by
  have hsame := sameLoop_of_foreign hstep ha
  cases h with
  | settles _ r hloop hfinal =>
      exact .settles _ r (hsame.loop.trans hloop) hfinal
  | rest _ hloop => exact .rest _ (hsame.loop ▸ hloop)
  | recvEmpty len flags requireAddr hloop =>
      exact .recvEmpty len flags requireAddr (hsame.loop.trans hloop)
  | recvBound len flags requireAddr hloop hcb harmed =>
      exact .recvBound len flags requireAddr (hsame.loop.trans hloop)
        (hsame.onAsyncNewPacket ▸ hcb) (hsame.recvArmed.trans harmed)
  | recvWaits len flags requireAddr hloop harmed =>
      refine .recvWaits len flags requireAddr (hsame.loop.trans hloop) ?_
      rcases harmed with ⟨hwaiting, hcb, hk⟩
      exact ⟨hsame.waiting.trans hwaiting, hsame.onAsyncNewPacket ▸ hcb,
        hsame.recvArmed.trans hk⟩
  | connBound addr dest hloop hbound =>
      exact .connBound addr dest (hsame.loop.trans hloop)
        (hbound.foreign hstep ha)
  | connWaits addr hloop hbound hdialed =>
      exact .connWaits addr (hsame.loop.trans hloop) (hbound.foreign hstep ha)
        (dialed_of_foreign hdialed hstep ha)

theorem atRest_loopStep {s s' : Channel ι} {port : UInt16}
    (hrest : AtRest s.loop) (hstep : Step s (.loopStep port) s') :
    AtRest s'.loop := by
  cases hstep with
  | finish _ k calling pcb resp hloop
  | take _ k len flags requireAddr packet rest hloop
  | empty _ k len flags requireAddr hloop
  | bindRecv _ k requireAddr hloop
  | wait _ k hloop
  | bindConn _ k addr session hloop
  | connect _ k addr hloop
  | writeLoop _ r hloop =>
      rw [hloop] at hrest
      exact hrest.elim
  | drainMore | drainDone | notWaiting | call | noCallback | takeAsync |
    writeAsync | finishAsync => trivial

theorem Serving.loopStep {n k : Nat} {s s' : Channel ι} {calling : Calling}
    {port : UInt16} (h : Serving n k s calling)
    (hstep : s.stepLoop port = some s') : Serving n k s' calling := by
  cases h with
  | settles _ r hloop hfinal =>
      rw [stepLoop, hloop] at hstep
      rcases write_map_eq_some hstep with ⟨_, rfl⟩
      exact .rest _ trivial
  | rest _ hloop =>
      exact .rest _ (atRest_loopStep hloop (step_of_stepLoop hstep))
  | recvEmpty len flags requireAddr hloop =>
      rw [stepLoop, hloop] at hstep
      cases hstep
      exact .recvBound len flags requireAddr rfl nofun rfl
  | recvBound len flags requireAddr hloop hcb harmed =>
      rw [stepLoop, hloop] at hstep
      cases hstep
      exact .recvWaits len flags requireAddr rfl ⟨rfl, hcb, harmed⟩
  | recvWaits len flags requireAddr hloop harmed =>
      rw [stepLoop, hloop] at hstep
      rcases write_map_eq_some hstep with ⟨_, rfl⟩
      exact .rest _ trivial
  | connBound addr dest hloop hbound =>
      rw [stepLoop, hloop] at hstep
      cases hstep
      exact .connWaits addr rfl (hbound.connect port dest _)
        (hbound.dialed_connect port dest)
  | connWaits addr hloop hbound hdialed =>
      rw [stepLoop, hloop] at hstep
      rcases write_map_eq_some hstep with ⟨_, rfl⟩
      exact .rest _ trivial

theorem Serving.step {n k : Nat} {s s' : Channel ι} {calling : Calling}
    {a : Action ι} (h : Serving n k s calling) (ha : a ≠ .readReady)
    (hstep : s.step a = some s') : Serving n k s' calling := by
  cases a with
  | loopStep port => exact h.loopStep hstep
  | readReady => exact absurd rfl ha
  | pipeReady =>
      cases step_cases hstep with
      | pipe hloop hpipe => exact .rest _ trivial
  | chanSend c calling => exact h.foreign (step_cases hstep) trivial
  | chanRecv c => exact h.foreign (step_cases hstep) trivial
  | ipDeliver peerAddr skbuf => exact h.foreign (step_cases hstep) trivial
  | ipStep => exact h.foreign (step_cases hstep) trivial

theorem Serving.run {n k : Nat} {s s' : Channel ι} {calling : Calling}
    {actions : List (Action ι)} (h : Serving n k s calling)
    (hactions : .readReady ∉ actions)
    (hrun : Foundation.run Channel.step s actions = some s') :
    Serving n k s' calling := by
  induction actions generalizing s with
  | nil =>
      cases hrun
      exact h
  | cons a rest ih =>
      rcases Foundation.run_cons hrun with ⟨mid, hstep, hrest⟩
      rw [List.mem_cons, not_or] at hactions
      exact ih (h.step (fun heq => hactions.left heq.symm) hstep)
        hactions.right hrest

/-!
## The first step
-/

inductive HandlingStep (s : Channel ι) (k : Nat) :
    Calling -> Channel ι -> Prop where
  | finish (calling : Calling) (pcb : Pcb) (resp : Response)
      (hfinal : resp.Final) :
      HandlingStep s k calling (s.finish k pcb resp)
  | take (len flags : Int32) (requireAddr : Bool) (packet : Packet)
      (rest : List Packet) :
      HandlingStep s k (.recvfromCall len flags requireAddr)
        { s with
          so := { s.so with recvQ := rest }
          loop := .writing
            ⟨k, RpcDispatch.recvfromPacket requireAddr packet, some packet⟩ }
  | empty (len flags : Int32) (requireAddr : Bool) :
      HandlingStep s k (.recvfromCall len flags requireAddr)
        { s with loop := .recvfromEmpty k requireAddr }
  | bindConn (addr : Foundation.Bytes) (session : TcpSession)
      (hpcb : s.pcb = .tcp session) :
      HandlingStep s k (.connectCall addr)
        { s with
          pcb := .tcp { session with onConnEstabCB := true }
          connArmed := k
          loop := .connectBound k (SockaddrIn.ofBytes addr) }

theorem handling_cases {s mid : Channel ι} {k : Nat} {calling : Calling}
    {port : UInt16} (hloop : s.loop = .handling k calling)
    (hstep : s.step (.loopStep port) = some mid) :
    HandlingStep s k calling mid := by
  cases step_cases hstep with
  | finish _ k' calling' pcb resp hloop' hpcb hans =>
      rw [hloop] at hloop'
      cases hloop'
      exact .finish calling pcb resp hans.final
  | take _ k' len flags requireAddr packet rest hloop' hq =>
      rw [hloop] at hloop'
      cases hloop'
      exact .take len flags requireAddr packet rest
  | empty _ k' len flags requireAddr hloop' hq hblock =>
      rw [hloop] at hloop'
      cases hloop'
      exact .empty len flags requireAddr
  | bindConn _ k' addr session hloop' hpcb =>
      rw [hloop] at hloop'
      cases hloop'
      exact .bindConn addr session hpcb
  | bindRecv _ _ _ hloop' | wait _ _ hloop' | connect _ _ _ hloop'
  | writeLoop _ _ hloop' | drainMore _ hloop' | drainDone _ hloop'
  | notWaiting _ hloop' | call _ hloop' | noCallback _ hloop'
  | takeAsync _ _ _ _ hloop' | writeAsync _ _ hloop'
  | finishAsync _ hloop' =>
      rw [hloop] at hloop'
      cases hloop'

theorem serving_of_handling {s mid : Channel ι} {k : Nat} {calling : Calling}
    {port : UInt16} (h : Accounted s) (hloop : s.loop = .handling k calling)
    (hstep : s.step (.loopStep port) = some mid) :
    Serving (estabRuns s.pcb s.ip) k mid calling := by
  have hrest := h.only_loop hloop
  cases handling_cases hloop hstep with
  | finish _ pcb resp hfinal => exact .settles _ _ rfl hfinal
  | take len flags requireAddr packet rest => exact .settles _ _ rfl nofun
  | empty len flags requireAddr => exact .recvEmpty len flags requireAddr rfl
  | bindConn addr session hpcb =>
      refine .connBound addr _ rfl ⟨rfl, rfl, ?_⟩
      have hwritten := h.count_written k
      show due (.tcp { session with onConnEstabCB := true }) k s.ip +
        (s.written.flatMap Reply.owes).count k = _
      rw [hpcb, due, hwritten]
      show estabRuns (.tcp session) s.ip + _ + _ = estabRuns (.tcp session) s.ip
      omega

/-- The event loop starts to handle a request in the state `s`; whatever the
other threads do meanwhile, the handling has returned `WAIT_NEXT` in the
state `s'`. -/
structure ReturnsWaitNext (s : Channel ι) (k : Nat) (calling : Calling)
    (s' : Channel ι) : Prop where
  handling : s.loop = .handling k calling
  handled : exists port mid between, s.step (.loopStep port) = some mid ∧
    .readReady ∉ between ∧ Foundation.run step mid between = some s'
  waits : exists r, s'.loop = .writing r ∧ ¬ r.resp.Final

theorem accounted_of_reachable {s : Channel ι} (h : Reachable s) :
    Accounted s :=
  reachable_invariant (fun _ => accounted_of_opened)
    (fun _ _ _ => accounted_step) h

/-!
## Requests that are stranded
-/

theorem length_sent_le {s s' : Channel ι} {a : Action ι}
    (hstep : Step s a s') : s.sent.length <= s'.sent.length := by
  cases hstep with
  | send c calling hout =>
      show s.sent.length <= (s.sent ++ [(c, calling)]).length
      rw [List.length_append]
      exact Nat.le_add_right _ _
  | skip | receive | read | pipe | finish | take | empty | bindRecv | wait |
    bindConn | connect | writeLoop | drainMore | drainDone | notWaiting |
    call | noCallback | takeAsync | writeAsync | finishAsync | deliver |
    ipDrop | ipPut | ipRun | ipEnqueue | ipMark | ipWrite =>
      exact Nat.le_refl _

structure Stranded (k : Nat) (s : Channel ι) : Prop extends Accounted s where
  sent : k < s.sent.length
  nothing : s.owed k + s.answered.count k = 0

theorem Stranded.step {k : Nat} {s s' : Channel ι} {a : Action ι}
    (h : Stranded k s) (hstep : Step s a s') : Stranded k s' := by
  have hsent := Nat.lt_of_lt_of_le h.sent (length_sent_le hstep)
  have howed := owed_step h.runs hstep k
  have hone : forall n, k < n -> (List.range n).count k = 1 :=
    fun n hk => List.count_eq_one_of_mem List.nodup_range (List.mem_range.2 hk)
  rw [hone _ h.sent, hone _ hsent, h.nothing] at howed
  exact ⟨accounted_step h.toAccounted hstep, hsent, by omega⟩

omit [DecidableEq ι] in
theorem Stranded.not_settled {k : Nat} {s : Channel ι} (h : Stranded k s) :
    ¬ s.Settled k := by
  have hnothing := h.nothing
  rw [owed] at hnothing
  rw [settled_iff, h.count_written]
  omega

theorem stranded_of_bindConn {s : Channel ι} (h : Accounted s) {k : Nat}
    {addr : Foundation.Bytes} (hloop : s.loop = .handling k (.connectCall addr))
    {session : TcpSession} (hpcb : s.pcb = .tcp session)
    (hruns : estabRuns s.pcb s.ip = 0) {mid : Channel ι} {port : UInt16}
    (hstep : Step s (.loopStep port) mid)
    (hmid : mid = { s with
      pcb := .tcp { session with onConnEstabCB := true }
      connArmed := k
      loop := .connectBound k (SockaddrIn.ofBytes addr) }) :
    Stranded k mid := by
  have hrest := h.only_loop hloop
  have honce := h.once k
  have hsent : k < s.sent.length := by
    have hself : (loopOwes s.loop).count k = 1 := by
      rw [hloop]
      exact List.count_singleton_self
    rw [owed, hself] at honce
    exact List.mem_range.1 (List.count_pos_iff.1 (by omega))
  have hconn : connOwes k (.tcp { session with onConnEstabCB := true }) s.ip =
      [] := by
    rw [hpcb] at hruns
    show List.replicate (estabRuns (.tcp session) s.ip) k = []
    rw [hruns]
    rfl
  refine ⟨accounted_step h hstep, ?_, ?_⟩
  · rw [hmid]
    exact hsent
  · rw [hloop] at hrest
    rw [hmid, owed]
    show (s.toDaemon.map Prod.fst).count k + 0 +
      (recvOwes s.recvArmed s.so.waiting (.handling k (.connectCall
        addr))).count k + (connOwes k _ s.ip).count k +
      (s.ip.flatMap IpOp.owes).count k +
      (s.toClient.flatMap Reply.owes).count k + s.answered.count k = 0
    rw [hconn, List.count_nil]
    omega

/-!
## Answers that are deferred
-/

/-- After an answer that is final the event loop does not come to write one
that is not, unless it reads another request. -/
theorem not_waits_of_settles {s s' : Channel ι} {r : Reply}
    (hloop : s.loop = .writing r) (hfinal : r.resp.Final)
    {actions : List (Action ι)} (hactions : .readReady ∉ actions)
    (hrun : Foundation.run step s actions = some s') :
    ¬ exists r, s'.loop = .writing r ∧ ¬ r.resp.Final := by
  rintro ⟨r', hr', hwait⟩
  have hserving := Serving.settles (n := 0) (k := 0) .closeCall r hloop hfinal
  cases hserving.run hactions hrun with
  | settles _ r'' hloop' hfinal' =>
      rw [hr'] at hloop'
      cases hloop'
      exact hwait hfinal'
  | rest _ hloop' =>
      rw [hr'] at hloop'
      exact hloop'

theorem ReturnsWaitNext.stranded {s s' : Channel ι} {k : Nat}
    {calling : Calling} (hwait : ReturnsWaitNext s k calling s')
    (h : Accounted s) (hnot : ¬ s.Announces calling) : Stranded k s' := by
  rcases hwait.handled with ⟨port, mid, between, hstep, hbetween, hrun⟩
  have hloop := hwait.handling
  rw [announces_iff, not_forall] at hnot
  rcases hnot with ⟨addr, hnot⟩
  rw [Classical.not_imp, Nat.pos_iff_ne_zero, not_not] at hnot
  rcases hnot with ⟨rfl, hruns⟩
  have hstranded : Stranded k mid := by
    cases handling_cases hloop hstep with
    | finish _ pcb resp hfinal =>
        exact absurd hwait.waits
          (not_waits_of_settles rfl hfinal hbetween hrun)
    | bindConn addr session hpcb =>
        exact stranded_of_bindConn h hloop hpcb hruns (step_cases hstep) rfl
  exact Foundation.run_invariant
    (fun _ _ _ hinv hs => hinv.step (step_cases hs)) hstranded hrun

/-- If the handling of a request returns `WAIT_NEXT`, the final answer has been
written or its callback is armed exactly if, for a `connect`, the end of the
handshake had still to be announced when the callback was set, and the packet
thread is not just about to write the answer.  A request whose announcement
was over is never answered. -/
theorem waitNext_armed_iff {s s' : Channel ι} (h : Reachable s) {k : Nat}
    {calling : Calling} (hwait : ReturnsWaitNext s k calling s') :
    (s'.Settled k ∨ s'.Armed k calling <->
      s.Announces calling ∧ ¬ s'.Completing k calling) ∧
    (¬ s.Announces calling -> forall later s'',
      Foundation.run step s' later = some s'' -> ¬ s''.Settled k) := by
  have haccounted := accounted_of_reachable h
  constructor
  · rcases hwait.handled with ⟨port, mid, between, hstep, hbetween, hrun⟩
    have hserving := serving_of_handling haccounted hwait.handling hstep
    rw [announces_iff]
    exact (hserving.run hbetween hrun).armed_iff haccounted.runs hwait.waits
  · intro hnot later s'' hrun
    have hstranded := Foundation.run_invariant
      (fun _ _ _ hinv hs => hinv.step (step_cases hs))
      (hwait.stranded haccounted hnot) hrun
    exact hstranded.not_settled

/-!
A `connect` on a new socket, and a second one after the first has been
answered.
-/

def firstConnect : List (Action Unit) :=
  [.chanSend () (.connectCall server.toBytes), .readReady]

def handlingFirst : Channel Unit :=
  (Foundation.run step tcpOpened firstConnect).getD tcpOpened

def waitingFirst : Channel Unit :=
  (Foundation.run step handlingFirst [.loopStep 1, .loopStep 1]).getD tcpOpened

theorem reachable_handlingFirst : Reachable handlingFirst :=
  ⟨tcpOpened, firstConnect, opened_tcpOpened, rfl⟩

theorem first_connect_armed :
    handlingFirst.Announces (.connectCall server.toBytes) ∧
      (waitingFirst.Settled 1 ∨
        waitingFirst.Armed 1 (.connectCall server.toBytes)) := by
  have hannounces : handlingFirst.Announces (.connectCall server.toBytes) :=
    .inl (by decide)
  have hquiet : ¬ waitingFirst.Completing 1 (.connectCall server.toBytes) := by
    rintro (hrun | ⟨r, hr, _⟩)
    · cases hrun
    · cases hr
  have hwait : ReturnsWaitNext handlingFirst 1 (.connectCall server.toBytes)
      waitingFirst :=
    ⟨rfl, ⟨1, _, [.loopStep 1], rfl, by simp, rfl⟩, ⟨_, rfl, by decide⟩⟩
  exact ⟨hannounces,
    (waitNext_armed_iff reachable_handlingFirst hwait).left.2
      ⟨hannounces, hquiet⟩⟩

def secondConnect : List (Action Unit) :=
  firstConnect ++ [.loopStep 1, .loopStep 1, .loopStep 1, .chanRecv (),
    .ipDeliver server synAck, .ipStep, .ipStep, .ipStep, .ipStep, .chanRecv (),
    .chanSend () (.connectCall server.toBytes), .readReady]

def handlingSecond : Channel Unit :=
  (Foundation.run step tcpOpened secondConnect).getD tcpOpened

def waitingSecond : Channel Unit :=
  (Foundation.run step handlingSecond [.loopStep 1, .loopStep 1]).getD
    tcpOpened

/-- The second `connect` is answered with `WAIT_NEXT` although the session is
established, and its client waits forever. -/
theorem second_connect_stranded :
    Reachable handlingSecond ∧
      ReturnsWaitNext handlingSecond 2 (.connectCall server.toBytes)
        waitingSecond ∧
      ¬ (waitingSecond.Settled 2 ∨
        waitingSecond.Armed 2 (.connectCall server.toBytes)) ∧
      waitingSecond.outstanding () = some 2 := by
  have hwait : ReturnsWaitNext handlingSecond 2 (.connectCall server.toBytes)
      waitingSecond :=
    ⟨rfl, ⟨1, _, [.loopStep 1], rfl, by simp, rfl⟩, ⟨_, rfl, by decide⟩⟩
  refine ⟨⟨tcpOpened, secondConnect, opened_tcpOpened, rfl⟩, hwait, ?_, rfl⟩
  rintro (hsettled | ⟨session, hpcb, hsyn, _⟩)
  · rw [settled_iff] at hsettled
    exact absurd hsettled (by decide)
  · cases hpcb
    exact absurd hsyn (by decide)

end Channel

end Velox
