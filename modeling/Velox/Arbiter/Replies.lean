import Velox.Arbiter.ChannelSteps

/-!
# What the messages to the clients are

Every message is a `WAIT_NEXT` or a response that can settle the request it
answers, although requests wait in the channel, callbacks outlive the request
that set them and two threads write.
-/

namespace Velox
namespace Channel

variable {ι : Type}

def SentAs (sent : List (ι × Calling)) (k : Nat) (calling : Calling) : Prop :=
  exists c, sent[k]? = some (c, calling)

theorem SentAs.append {sent : List (ι × Calling)} {k : Nat}
    {calling : Calling} (h : SentAs sent k calling)
    (more : List (ι × Calling)) : SentAs (sent ++ more) k calling := by
  rcases h with ⟨c, hget⟩
  refine ⟨c, ?_⟩
  rw [List.getElem?_append_left (List.getElem?_eq_some_iff.1 hget).1]
  exact hget

theorem sentAs_new (sent : List (ι × Calling)) (c : ι) (calling : Calling) :
    SentAs (sent ++ [(c, calling)]) sent.length calling :=
  ⟨c, List.getElem?_concat_length⟩

/-- A message is a `WAIT_NEXT` or settles the request it answers. -/
inductive ValidReply (sent : List (ι × Calling)) (tcp : Bool) :
    Reply -> Prop where
  | waitNext (k : Nat) :
      ValidReply sent tcp ⟨k, RpcDispatch.waitNextResponse, none⟩
  | settles (r : Reply) (calling : Calling)
      (hsent : SentAs sent r.answers calling)
      (hans : RpcDispatch.Answers tcp calling r.packet r.resp) :
      ValidReply sent tcp r

theorem ValidReply.append {sent : List (ι × Calling)} {tcp : Bool} {r : Reply}
    (h : ValidReply sent tcp r) (more : List (ι × Calling)) :
    ValidReply (sent ++ more) tcp r := by
  cases h with
  | waitNext k => exact .waitNext k
  | settles _ calling hsent hans =>
      exact .settles r calling (hsent.append more) hans

theorem ValidReply.final {sent : List (ι × Calling)} {tcp : Bool} {r : Reply}
    (h : ValidReply sent tcp r) (hfinal : r.resp.Final) :
    exists calling, SentAs sent r.answers calling ∧
      RpcDispatch.Answers tcp calling r.packet r.resp := by
  cases h with
  | waitNext k => exact absurd rfl hfinal
  | settles _ calling hsent hans => exact ⟨calling, hsent, hans⟩

theorem ValidReply.packet_of_not_final {sent : List (ι × Calling)}
    {tcp : Bool} {r : Reply} (h : ValidReply sent tcp r)
    (hwait : ¬ r.resp.Final) : r.packet = none := by
  cases h with
  | waitNext k => rfl
  | settles _ calling hsent hans => exact absurd hans.final hwait

def ValidLoop (sent : List (ι × Calling)) (tcp : Bool) : LoopPc -> Prop
  | .handling k calling => SentAs sent k calling
  | .recvfromEmpty k requireAddr =>
      exists len flags, SentAs sent k (.recvfromCall len flags requireAddr)
  | .writing r => ValidReply sent tcp r
  | .taken r => ValidReply sent tcp r
  | _ => True

theorem ValidLoop.append {sent : List (ι × Calling)} {tcp : Bool}
    {loop : LoopPc} (h : ValidLoop sent tcp loop)
    (more : List (ι × Calling)) : ValidLoop (sent ++ more) tcp loop := by
  cases loop with
  | handling k calling => exact SentAs.append h more
  | recvfromEmpty k requireAddr =>
      rcases h with ⟨len, flags, hsent⟩
      exact ⟨len, flags, hsent.append more⟩
  | writing r => exact ValidReply.append h more
  | taken r => exact ValidReply.append h more
  | idle | recvfromBound | connectBound | draining | drained | calling |
    called => trivial

/-- The invariant for a socket of the given kind: everything that a thread
keeps to make an answer from belongs to the request it will answer. -/
structure Linked (tcp : Bool) (s : Channel ι) : Prop where
  kind : s.pcb.isTcp = tcp
  requests : forall m, m ∈ s.toDaemon -> SentAs s.sent m.1 m.2
  loop : ValidLoop s.sent tcp s.loop
  recvfrom : forall cb, s.so.onAsyncNewPacket = some cb ->
    exists len flags requireAddr,
      SentAs s.sent s.recvArmed (.recvfromCall len flags requireAddr) ∧
        cb = bif tcp then .tcp else .udp requireAddr
  connect : s.pcb.onConnEstabCB = true ->
    exists addr, SentAs s.sent s.connArmed (.connectCall addr)
  ip : forall r, IpOp.write r ∈ s.ip -> r.packet = none ∧
    ValidReply s.sent tcp r
  toClient : forall r, r ∈ s.toClient -> ValidReply s.sent tcp r
  returned : forall x, x ∈ s.returned -> ValidReply s.sent tcp x.2

theorem linked_of_opened {s : Channel ι} (h : Opened s) :
    exists tcp, Linked tcp s := by
  rcases h.eq_opened with
    ⟨c, domain, type, protocol, nonblocking, pcb, hcb, rfl⟩
  refine ⟨pcb.isTcp, rfl, ?_, trivial, ?_, ?_, ?_, ?_, ?_⟩
  · intro m hm
    cases hm
  · intro cb hset
    cases hset
  · intro hset
    exact absurd (hcb.symm.trans hset) nofun
  · intro r hr
    cases hr
  · intro r hr
    cases hr
  · intro x hx
    rw [List.mem_singleton.1 hx]
    exact .settles _ _ ⟨c, rfl⟩ (.socket domain type protocol)

theorem linked_post {tcp : Bool} {s : Channel ι} (h : Linked tcp s)
    {r : Reply} (hr : ValidReply s.sent tcp r) : Linked tcp (s.post r) where
  kind := h.kind
  requests := h.requests
  loop := h.loop
  recvfrom := h.recvfrom
  connect := h.connect
  ip := h.ip
  toClient := by
    intro r' hr'
    rcases List.mem_append.1 hr' with hold | hnew
    · exact h.toClient r' hold
    · rw [List.mem_singleton.1 hnew]
      exact hr
  returned := h.returned

theorem Linked.ip_tail {tcp : Bool} {s : Channel ι} (h : Linked tcp s)
    {op : IpOp} {rest : List IpOp} (hip : s.ip = op :: rest) :
    forall r, .write r ∈ rest -> r.packet = none ∧
      ValidReply s.sent tcp r := by
  intro r hr
  exact h.ip r (hip ▸ List.mem_cons_of_mem op hr)

theorem Linked.ip_cons {tcp : Bool} {s : Channel ι} (h : Linked tcp s)
    {op op' : IpOp} {rest : List IpOp} (hip : s.ip = op :: rest)
    (hop : forall r, op' = .write r -> r.packet = none ∧
      ValidReply s.sent tcp r) :
    forall r, .write r ∈ op' :: rest -> r.packet = none ∧
      ValidReply s.sent tcp r := by
  intro r hr
  rcases List.mem_cons.1 hr with heq | htail
  · exact hop r heq.symm
  · exact h.ip_tail hip r htail

variable [DecidableEq ι]

theorem linked_send {tcp : Bool} {s : Channel ι} (h : Linked tcp s)
    (c : ι) (calling : Calling) :
    Linked tcp
      { s with
        outstanding := Function.update s.outstanding c (some s.sent.length)
        toDaemon := s.toDaemon ++ [(s.sent.length, calling)]
        sent := s.sent ++ [(c, calling)] } where
  kind := h.kind
  requests := by
    intro m hm
    rcases List.mem_append.1 hm with hold | hnew
    · exact (h.requests m hold).append _
    · rw [List.mem_singleton.1 hnew]
      exact sentAs_new s.sent c calling
  loop := h.loop.append _
  recvfrom := by
    intro cb hcb
    rcases h.recvfrom cb hcb with ⟨len, flags, requireAddr, hsent, heq⟩
    exact ⟨len, flags, requireAddr, hsent.append _, heq⟩
  connect := by
    intro hset
    rcases h.connect hset with ⟨addr, hsent⟩
    exact ⟨addr, hsent.append _⟩
  ip := by
    intro r hr
    exact ⟨(h.ip r hr).1, (h.ip r hr).2.append _⟩
  toClient := fun r hr => (h.toClient r hr).append _
  returned := fun x hx => (h.returned x hx).append _

theorem linked_step {tcp : Bool} {s s' : Channel ι} {a : Action ι}
    (h : Linked tcp s) (hstep : Step s a s') : Linked tcp s' := by
  have hvalid := h.loop
  cases hstep with
  | send c calling hout => exact linked_send h c calling
  | skip c k r rest hout hmsg hwait =>
      refine { h with toClient := ?_ }
      intro r' hr'
      exact h.toClient r' (hmsg ▸ List.mem_cons_of_mem r hr')
  | receive c k r rest hout hmsg hfinal =>
      refine { h with toClient := ?_, returned := ?_ }
      · intro r' hr'
        exact h.toClient r' (hmsg ▸ List.mem_cons_of_mem r hr')
      · intro x hx
        rcases List.mem_append.1 hx with hold | hnew
        · exact h.returned x hold
        · rw [List.mem_singleton.1 hnew]
          exact h.toClient r (hmsg ▸ List.mem_cons_self)
  | read k calling rest hloop hmsg =>
      refine { h with requests := ?_, loop := ?_ }
      · intro m hm
        exact h.requests m (hmsg ▸ List.mem_cons_of_mem _ hm)
      · exact h.requests (k, calling) (hmsg ▸ List.mem_cons_self)
  | finish port k calling pcb resp hloop hpcb hans =>
      rw [hloop] at hvalid
      rw [h.kind] at hans
      exact { h with
        kind := hpcb.kind.trans h.kind
        loop := .settles _ calling hvalid hans
        connect := fun hset => h.connect (hpcb.callback.symm.trans hset) }
  | take port k len flags requireAddr packet rest hloop hq =>
      rw [hloop] at hvalid
      exact { h with
        loop := .settles _ _ hvalid
          (.packet len flags requireAddr requireAddr packet fun _ => rfl) }
  | empty port k len flags requireAddr hloop hq hblock =>
      rw [hloop] at hvalid
      exact { h with loop := ⟨len, flags, hvalid⟩ }
  | bindRecv port k requireAddr hloop =>
      rw [hloop] at hvalid
      rcases hvalid with ⟨len, flags, hsent⟩
      refine { h with loop := trivial, recvfrom := ?_ }
      intro cb hcb
      refine ⟨len, flags, requireAddr, hsent, ?_⟩
      rw [← h.kind, ← RpcDispatch.asyncCallback_eq]
      exact (Option.some.inj hcb).symm
  | wait port k hloop => exact { h with loop := .waitNext k }
  | bindConn port k addr session hloop hpcb =>
      rw [hloop] at hvalid
      have hkind := h.kind
      rw [hpcb] at hkind
      exact { h with
        kind := hkind, loop := trivial, connect := fun _ => ⟨addr, hvalid⟩ }
  | connect port k addr hloop =>
      have hkeeps := s.pcb.keeps_connect port addr
      exact { h with
        kind := hkeeps.kind.trans h.kind
        loop := .waitNext k
        connect := fun hset => h.connect (hkeeps.callback.symm.trans hset) }
  | writeLoop _ r hloop | writeAsync _ r hloop =>
      rw [hloop] at hvalid
      exact { linked_post h hvalid with loop := trivial }
  | takeAsync port cb packet rest hloop hcb hq =>
      rcases h.recvfrom cb hcb with ⟨len, flags, requireAddr, hsent, rfl⟩
      exact { h with
        loop := .settles _ _ hsent
          (RpcDispatch.answers_async tcp len flags requireAddr packet) }
  | pipe | drainMore | drainDone | notWaiting | call | noCallback |
    finishAsync => exact { h with loop := trivial }
  | deliver peerAddr skbuf hip =>
      refine { h with kind := ?_, connect := ?_, ip := ?_ }
      · exact (s.pcb.recv_isTcp peerAddr skbuf).trans h.kind
      · intro hset
        exact h.connect ((s.pcb.recv_callback peerAddr skbuf).symm.trans hset)
      · intro r hr
        rcases List.mem_map.1 hr with ⟨e, _, heq⟩
        cases heq
  | ipDrop _ rest hip | ipMark rest hip =>
      exact { h with ip := h.ip_tail hip }
  | ipPut _ _ rest hip | ipEnqueue _ rest hip =>
      refine { h with ip := h.ip_cons hip ?_ }
      intro r heq
      cases heq
  | ipRun rest hip hcb =>
      rcases h.connect hcb with ⟨addr, hsent⟩
      refine { h with ip := h.ip_cons hip ?_ }
      intro r heq
      cases heq
      exact ⟨rfl, .settles _ _ hsent (.estab addr)⟩
  | ipWrite r rest hip =>
      have hwrite := linked_post h (h.ip r (hip ▸ List.mem_cons_self)).2
      exact { hwrite with ip := h.ip_tail hip }

theorem linked_of_reachable {s : Channel ι} (h : Reachable s) :
    Linked s.pcb.isTcp s := by
  have hlinked : exists tcp, Linked tcp s := by
    refine reachable_invariant (fun _ => linked_of_opened) ?_ h
    intro s a s' hinv hstep
    rcases hinv with ⟨tcp, hlinked⟩
    exact ⟨tcp, linked_step hlinked hstep⟩
  rcases hlinked with ⟨tcp, hlinked⟩
  rw [hlinked.kind]
  exact hlinked

end Channel
end Velox
