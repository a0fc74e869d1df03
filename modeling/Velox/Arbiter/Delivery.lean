import Velox.Arbiter.Handling
import Velox.Arbiter.Matching
import Velox.Arbiter.Wakeup
import Velox.Ip.Round

/-!
# Delivery of packets

The packets that were queued are, in order, those in the answers that were
read, in the messages on their way, in the hands of the event loop and in the
queue.  A client that makes one call at a time therefore reads the packets in
the order in which they were queued, each in the answer to one `recvfrom`, as
long as the answers fit into the buffer of `AgentChannel::write`.
-/

namespace Velox

def Reply.packets (r : Reply) : List Packet :=
  r.packet.toList

namespace Channel

variable {ι : Type}

def loopPackets : LoopPc -> List Packet
  | .writing r => r.packets
  | .taken r => r.packets
  | _ => []

/-- The packets that left the queue or wait in it, the oldest first. -/
def inTransit (s : Channel ι) : List Packet :=
  s.returned.flatMap (fun x => x.2.packets) ++
    (s.toClient.flatMap Reply.packets ++ (loopPackets s.loop ++ s.so.recvQ))

variable [DecidableEq ι]

theorem inTransit_step {tcp : Bool} {s s' : Channel ι} {a : Action ι}
    (hlinked : Linked tcp s) (h : s.inTransit = s.accepted)
    (hstep : Step s a s') : s'.inTransit = s'.accepted := by
  unfold inTransit at h
  cases hstep with
  | send | deliver | ipDrop | ipPut | ipRun | ipMark => exact h
  | skip c k r rest hout hmsg hwait =>
      have hvalid := hlinked.toClient r (hmsg ▸ List.mem_cons_self)
      have hnone : r.packets = [] := by
        rw [Reply.packets, hvalid.packet_of_not_final hwait]
        rfl
      rw [hmsg, List.flatMap_cons, hnone] at h
      exact h
  | receive c k r rest hout hmsg hfinal =>
      rw [hmsg, List.flatMap_cons] at h
      show (s.returned ++ [(c, r)]).flatMap _ ++ _ = _
      rw [List.flatMap_append, List.flatMap_singleton, List.append_assoc,
        ← List.append_assoc r.packets]
      exact h
  -- the event loop has no packet in hand, before the step and after it
  | read _ _ _ hloop | pipe hloop | finish _ _ _ _ _ hloop
  | empty _ _ _ _ _ hloop | bindRecv _ _ _ hloop | wait _ _ hloop
  | bindConn _ _ _ _ hloop | connect _ _ _ hloop | drainMore _ hloop
  | drainDone _ hloop | notWaiting _ hloop | call _ hloop
  | noCallback _ hloop | finishAsync _ hloop =>
      rw [hloop] at h
      exact h
  | take _ _ _ _ _ packet rest hloop hq
  | takeAsync _ _ packet rest hloop _ hq =>
      rw [hloop, hq] at h
      exact h
  | writeLoop _ r hloop | writeAsync _ r hloop =>
      rw [hloop] at h
      show _ ++ ((s.toClient ++ [r]).flatMap _ ++ _) = _
      rw [List.flatMap_append, List.flatMap_singleton, List.append_assoc]
      exact h
  | ipEnqueue packet rest hip =>
      show _ ++ (_ ++ (_ ++ (s.so.recvQ ++ [packet]))) = s.accepted ++ [packet]
      rw [← h]
      simp only [List.append_assoc]
  | ipWrite r rest hip =>
      have hnone : r.packets = [] := by
        rw [Reply.packets, (hlinked.ip r (hip ▸ List.mem_cons_self)).1]
        rfl
      show _ ++ ((s.toClient ++ [r]).flatMap _ ++ _) = _
      rw [List.flatMap_append, List.flatMap_singleton, hnone, List.append_nil]
      exact h

structure Delivering (s : Channel ι) : Prop where
  linked : exists tcp, Linked tcp s
  order : s.inTransit = s.accepted

omit [DecidableEq ι] in
theorem delivering_of_opened {s : Channel ι} (h : Opened s) :
    Delivering s := by
  refine ⟨linked_of_opened h, ?_⟩
  rcases h.eq_opened with
    ⟨c, domain, type, protocol, nonblocking, pcb, _, rfl⟩
  rfl

theorem delivering_step {s s' : Channel ι} {a : Action ι}
    (h : Delivering s) (hstep : Step s a s') : Delivering s' := by
  rcases h.linked with ⟨tcp, hlinked⟩
  exact ⟨⟨tcp, linked_step hlinked hstep⟩,
    inTransit_step hlinked h.order hstep⟩

theorem delivering_of_reachable {s : Channel ι} (h : Reachable s) :
    Delivering s :=
  reachable_invariant (fun _ => delivering_of_opened)
    (fun _ _ _ hinv hstep => delivering_step hinv hstep) h

theorem returned_packets_prefix {s : Channel ι} (h : Reachable s) :
    s.returned.flatMap (fun x => x.2.packets) <+: s.accepted := by
  rw [← (delivering_of_reachable h).order]
  exact List.prefix_append _ _

/-!
## The order of the answers
-/

omit [DecidableEq ι] in
theorem isSome_packetData {sent : List (ι × Calling)} {tcp : Bool} {r : Reply}
    (h : ValidReply sent tcp r) :
    r.resp.packetData.isSome = r.packet.isSome := by
  cases h with
  | waitNext k => rfl
  | settles _ calling hsent hans => rw [hans.packetData, Option.isSome_map]

omit [DecidableEq ι] in
theorem get_packets_of_filter {returned : List (ι × Reply)}
    (hsome : forall x, x ∈ returned ->
      x.2.resp.packetData.isSome = x.2.packet.isSome) {i : Nat} {x : ι × Reply}
    (hget : (returned.filter fun x => x.2.resp.packetData.isSome)[i]? =
      some x) :
    exists packet, x.2.packet = some packet ∧
      (returned.flatMap fun x => x.2.packets)[i]? = some packet := by
  induction returned generalizing i with
  | nil => cases hget
  | cons y rest ih =>
      have hy := hsome y List.mem_cons_self
      have hrest := fun x hx => hsome x (List.mem_cons_of_mem y hx)
      rw [List.filter_cons, hy] at hget
      rw [List.flatMap_cons, Reply.packets]
      cases hpacket : y.2.packet with
      | none =>
          rw [hpacket, if_neg nofun] at hget
          exact ih hrest hget
      | some packet =>
          rw [hpacket, Option.isSome_some, if_pos rfl] at hget
          cases i with
          | zero =>
              cases hget
              exact ⟨packet, hpacket, rfl⟩
          | succ i => exact ih hrest hget

/-- The `i`-th answer with a packet has the `i`-th packet that was queued. -/
def AnsweredInOrder (s : Channel Unit) : Prop :=
  forall (i : Nat) (c : Unit) (r : Reply),
    (s.returned.filter fun x => x.2.resp.packetData.isSome)[i]? =
        some (c, r) ->
      exists packet len flags requireAddr addr,
        s.accepted[i]? = some packet ∧
          s.sent[r.answers]? = some (c, .recvfromCall len flags requireAddr) ∧
          s.returned[r.answers]? = some (c, r) ∧
          r.resp.returning = .recvfromCall
            (RpcDispatch.ret
              (Int32.ofNat (drainSkbufChain packet.skbuf.frames).length))
            (some (drainSkbufChain packet.skbuf.frames)) addr ∧
          (s.pcb.isTcp = false ->
            addr = if requireAddr then some packet.peerAddr.toBytes
              else none)

theorem answeredInOrder_of_reachable {s : Channel Unit} (h : Reachable s) :
    AnsweredInOrder s := by
  intro i c r hget
  have hlinked := linked_of_reachable h
  have hserial := (orderly_of_reachable h).serial
  have hmem : (c, r) ∈ s.returned :=
    (List.mem_filter.1 (List.mem_of_getElem? hget)).1
  rcases get_packets_of_filter
    (fun x hx => isSome_packetData (hlinked.returned x hx)) hget with
    ⟨packet, hpacket, hnth⟩
  rcases (hlinked.returned (c, r) hmem).final (hserial.final (c, r) hmem) with
    ⟨calling, ⟨c', hsent⟩, hans⟩
  rcases List.mem_iff_getElem?.1 hmem with ⟨k, hk⟩
  have hanswers := hserial.answers_of_get hk
  have haccepted : s.accepted[i]? = some packet := by
    rcases returned_packets_prefix h with ⟨later, heq⟩
    rw [← heq, List.getElem?_append_left
      (List.getElem?_eq_some_iff.1 hnth).1]
    exact hnth
  rw [hpacket] at hans
  generalize hresp : r.resp = resp at hans
  cases hans with
  | packet len flags requireAddr gives _ hudp =>
      refine ⟨packet, len, flags, requireAddr, _, haccepted, hsent, ?_, rfl, ?_⟩
      · rw [hanswers]
        exact hk
      · intro hkind
        rw [hudp hkind]

/-!
## Answers that are too long
-/

theorem step_chanRecv_ok {s : Channel Unit} {k : Nat} {r : Reply}
    {rest : List Reply} (hout : s.outstanding () = some k)
    (hmsg : s.toClient = r :: rest) (hcode : r.resp.retCode = some .ok) :
    step s (.chanRecv ()) =
      some
        { s with
          toClient := rest
          outstanding := Function.update s.outstanding () none
          returned := s.returned ++ [((), r)] } := by
  show s.stepRecv () = _
  simp only [stepRecv, hout, hmsg, hcode]

theorem step_chanRecv_waitNext {s : Channel Unit} {k : Nat} {r : Reply}
    {rest : List Reply} (hout : s.outstanding () = some k)
    (hmsg : s.toClient = r :: rest)
    (hcode : r.resp.retCode = some .waitNext) :
    step s (.chanRecv ()) = some { s with toClient := rest } := by
  show s.stepRecv () = _
  simp only [stepRecv, hout, hmsg, hcode]


/-- The event loop has taken a packet and is about to write the answer. -/
def InHand (s : Channel ι) (r : Reply) : Prop :=
  (s.loop = .writing r ∨ s.loop = .taken r) ∧ r.packet ≠ none

/-- The answer can be the next one that the client reads. -/
def Returns (s : Channel Unit) (r : Reply) : Prop :=
  exists actions s', Foundation.run step s actions = some s' ∧
    s'.returned = s.returned ++ [((), r)]

/-- The packets reach the client in the order in which they were queued, none
of them is lost or doubled, and one that was taken out of the queue can still
be read. -/
structure Fifo (s : Channel Unit) : Prop where
  inOrder : AnsweredInOrder s
  once : s.inTransit = s.accepted
  returns : forall r, InHand s r -> Returns s r

omit [DecidableEq ι] in
theorem ValidReply.ok_of_packet {sent : List (ι × Calling)} {tcp : Bool}
    {r : Reply} (h : ValidReply sent tcp r) (hpacket : r.packet ≠ none) :
    r.resp.retCode = some .ok := by
  cases h with
  | waitNext k => exact absurd rfl hpacket
  | settles _ calling hsent hans =>
      rcases r with ⟨k, resp, packet⟩
      cases hans with
      | packet => rfl
      | socket | again | estab | inProgress | connectUdp | sendto | close |
        poll | select | getpeername | getsockname | getsockopt |
        setsockopt | fcntl | atstart | notSet => exact absurd rfl hpacket

omit [DecidableEq ι] in
theorem InHand.ok {tcp : Bool} {s : Channel ι} {r : Reply} (h : InHand s r)
    (hlinked : Linked tcp s) : r.resp.retCode = some .ok := by
  have hloop := hlinked.loop
  rcases h.1 with hwriting | htaken
  · rw [hwriting] at hloop
    exact hloop.ok_of_packet h.2
  · rw [htaken] at hloop
    exact hloop.ok_of_packet h.2

omit [DecidableEq ι] in
theorem InHand.final {tcp : Bool} {s : Channel ι} {r : Reply}
    (h : InHand s r) (hlinked : Linked tcp s) : r.resp.Final := by
  rw [Response.Final, h.ok hlinked]
  intro hwait
  cases hwait

omit [DecidableEq ι] in
theorem InHand.count_loopOwes {s : Channel ι} {r : Reply} (h : InHand s r)
    (hfinal : r.resp.Final) : (loopOwes s.loop).count r.answers = 1 := by
  have howes : loopOwes s.loop = [r.answers] := by
    rw [← Reply.owes_of_final hfinal]
    rcases h.1 with hloop | hloop
    · rw [hloop]
      rfl
    · rw [hloop]
      rfl
  rw [howes, List.count_singleton_self]

theorem Orderly.of_owed {s : Channel Unit} (h : Orderly s) {x : Nat}
    (hx : 0 < s.owed x) :
    (exists k, s.outstanding () = some k) ∧ x = s.returned.length ∧
      s.owed x <= 1 := by
  have honce := h.once x
  have hanswered : s.answered = List.range s.returned.length :=
    h.serial.inOrder
  have hrange : (List.range s.sent.length).count x <= 1 :=
    List.nodup_iff_count_le_one.1 List.nodup_range x
  have hsent : x < s.sent.length :=
    List.mem_range.1 (List.count_pos_iff.1 (by omega))
  have hnew : s.returned.length <= x := by
    have hcount : s.answered.count x = 0 := by omega
    rw [hanswered] at hcount
    exact Nat.le_of_not_lt fun hlt =>
      List.count_eq_zero.1 hcount (List.mem_range.2 hlt)
  cases hout : s.outstanding () with
  | none =>
      have hsettled := h.serial.settled fun _ => hout
      omega
  | some k =>
      have hwaits := (h.serial.waits () k hout).1
      exact ⟨⟨k, rfl⟩, by omega, by omega⟩

/-- Only `WAIT_NEXT` stands before an answer that is still to be written. -/
theorem waitNext_of_inHand {s : Channel Unit} (h : Orderly s) {r : Reply}
    (hhand : InHand s r) (hfinal : r.resp.Final) {m : Reply}
    (hm : m ∈ s.toClient) : m.resp.retCode = some .waitNext := by
  by_contra hcode
  have hloop := hhand.count_loopOwes hfinal
  have hclient : 0 < (s.toClient.flatMap Reply.owes).count m.answers := by
    refine List.count_pos_iff.2 (List.mem_flatMap.2 ⟨m, hm, ?_⟩)
    rw [Reply.owes_of_final hcode]
    exact List.mem_singleton_self _
  have hr := h.of_owed (x := r.answers) (by unfold owed; omega)
  have hmr := h.of_owed (x := m.answers) (by unfold owed; omega)
  have hsame : m.answers = r.answers := hmr.2.1.trans hr.2.1.symm
  have hone := hr.2.2
  rw [hsame] at hclient
  unfold owed at hone
  omega

theorem run_read {s : Channel Unit} {k : Nat} {waits : List Reply} {r : Reply}
    (hout : s.outstanding () = some k) (hmsg : s.toClient = waits ++ [r])
    (hwaits : forall m, m ∈ waits -> m.resp.retCode = some .waitNext)
    (hok : r.resp.retCode = some .ok) : Returns s r := by
  induction waits generalizing s with
  | nil =>
      exact ⟨[.chanRecv ()], _,
        Foundation.run_of_step (step_chanRecv_ok hout hmsg hok) [], rfl⟩
  | cons m rest ih =>
      have hstep := step_chanRecv_waitNext hout hmsg
        (hwaits m List.mem_cons_self)
      rcases ih (s := { s with toClient := rest ++ [r] }) hout rfl
        fun m' hm' => hwaits m' (List.mem_cons_of_mem m hm') with
        ⟨actions, s', hrun, hreturned⟩
      exact ⟨.chanRecv () :: actions, s',
        (Foundation.run_of_step hstep actions).trans hrun, hreturned⟩

theorem run_post {s : Channel ι} {r : Reply} (hhand : InHand s r)
    (hfits : r.resp.byteSize <= rpcMessageMaxSize) :
    exists actions s', Foundation.run step s actions = some s' ∧
      s'.outstanding = s.outstanding ∧ s'.toClient = s.toClient ++ [r] ∧
        s'.returned = s.returned := by
  rcases hhand.1 with hwriting | htaken
  · exact ⟨_, _, run_writing 0 hwriting hfits, rfl, rfl, rfl⟩
  · exact ⟨_, _, run_taken 0 htaken hfits, rfl, rfl, rfl⟩

theorem returns_of_fits {s : Channel Unit} (h : Reachable s) {r : Reply}
    (hhand : InHand s r) (hfits : r.resp.byteSize <= rpcMessageMaxSize) :
    Returns s r := by
  have horderly := orderly_of_reachable h
  have hlinked := linked_of_reachable h
  have hfinal := hhand.final hlinked
  have hloop := hhand.count_loopOwes hfinal
  rcases (horderly.of_owed (x := r.answers) (by unfold owed; omega)).1 with
    ⟨k, hout⟩
  -- the answer is written behind messages that make the client wait
  rcases run_post hhand hfits with
    ⟨first, mid, hfirst, hout', hmsg, hreturned⟩
  rcases run_read (hout' ▸ hout) hmsg
    (fun _ hm => waitNext_of_inHand horderly hhand hfinal hm)
    (hhand.ok hlinked) with
    ⟨actions, s', hrun, hnext⟩
  exact ⟨first ++ actions, s', (Foundation.run_append hfirst _).trans hrun,
    hreturned ▸ hnext⟩

/-- The event loop does not get past an answer that is too long. -/
theorem loop_of_long {s s' : Channel ι} {a : Action ι} {r : Reply}
    (hhand : s.loop = .writing r ∨ s.loop = .taken r)
    (hlong : ¬ r.resp.byteSize <= rpcMessageMaxSize) (hstep : Step s a s') :
    s'.loop = s.loop := by
  cases hstep with
  | send | skip | receive | deliver | ipDrop | ipPut | ipRun | ipEnqueue |
    ipMark | ipWrite => rfl
  | read _ _ _ hloop | pipe hloop | finish _ _ _ _ _ hloop
  | take _ _ _ _ _ _ _ hloop | empty _ _ _ _ _ hloop | bindRecv _ _ _ hloop
  | wait _ _ hloop | bindConn _ _ _ _ hloop | connect _ _ _ hloop
  | drainMore _ hloop | drainDone _ hloop | notWaiting _ hloop
  | call _ hloop | noCallback _ hloop | takeAsync _ _ _ _ hloop
  | finishAsync _ hloop =>
      rw [hloop] at hhand
      rcases hhand with h | h
      · cases h
      · cases h
  | writeLoop _ r' hloop hfits =>
      rw [hloop] at hhand
      rcases hhand with h | h
      · cases h
        exact absurd hfits hlong
      · cases h
  | writeAsync _ r' hloop hfits =>
      rw [hloop] at hhand
      rcases hhand with h | h
      · cases h
      · cases h
        exact absurd hfits hlong

theorem not_returns_of_long {s : Channel Unit} (h : Reachable s) {r : Reply}
    (hhand : InHand s r)
    (hlong : ¬ r.resp.byteSize <= rpcMessageMaxSize) : ¬ Returns s r := by
  rintro ⟨actions, s', hrun, hreturned⟩
  have hloop : s'.loop = s.loop := by
    have hpres : forall (t : Channel Unit) a t', t.loop = s.loop ->
        step t a = some t' -> t'.loop = s.loop := by
      intro t a t' ht hstep
      exact (loop_of_long (ht.symm ▸ hhand.1) hlong
        (step_cases hstep)).trans ht
    exact Foundation.run_invariant hpres rfl hrun
  have hhand' : InHand s' r := ⟨hloop.symm ▸ hhand.1, hhand.2⟩
  have hreach := h.run hrun
  have horderly := orderly_of_reachable hreach
  have howes := hhand'.count_loopOwes
    (hhand.final (linked_of_reachable h))
  have howed := (horderly.of_owed (x := r.answers)
    (by unfold owed; omega)).2.1
  have hlast : s'.returned[s.returned.length]? = some ((), r) := by
    rw [hreturned, List.getElem?_concat_length]
  have hanswers := horderly.serial.answers_of_get hlast
  rw [hreturned, List.length_append, List.length_singleton] at howed
  omega

/-- Every packet is delivered in its turn exactly if the answers that the
event loop has in hand fit into the buffer of `AgentChannel::write`. -/
theorem fifo_iff {s : Channel Unit} (h : Reachable s) :
    Fifo s <->
      forall r, InHand s r -> r.resp.byteSize <= rpcMessageMaxSize := by
  constructor
  · intro hfifo r hhand
    by_contra hlong
    exact not_returns_of_long h hhand hlong (hfifo.returns r hhand)
  · intro hfits
    exact ⟨answeredInOrder_of_reachable h, (delivering_of_reachable h).order,
      fun r hhand => returns_of_fits h hhand (hfits r hhand)⟩

def secondDatagram : Skbuf :=
  ⟨{ TunIface.rx (List.replicate 28 0 ++ [5, 7]) with
      transportHdr := some 20 }, []⟩

def bothPaths : List (Action Unit) :=
  datagramQueued ++
    [.ipStep, .chanSend () (.recvfromCall 64 0 true), .readReady, .loopStep 0,
      .loopStep 0, .chanRecv (), .pipeReady, .loopStep 0, .loopStep 0,
      .loopStep 0] ++
    recvfromWaits ++
    [.ipDeliver peer secondDatagram, .ipStep, .ipStep, .ipStep, .pipeReady,
      .loopStep 0, .loopStep 0, .loopStep 0, .loopStep 0, .loopStep 0,
      .loopStep 0, .chanRecv (), .chanRecv ()]

def afterBothPaths : Channel Unit :=
  (Foundation.run step udpOpened bothPaths).getD udpOpened

def secondInHand : Channel Unit :=
  (Foundation.run step udpOpened (bothPaths.take 28)).getD udpOpened

theorem fifo_second_in_hand :
    exists r, InHand secondInHand r ∧ r.resp.packetData = some [5, 7] ∧
      secondInHand.accepted.length = 2 ∧ Fifo secondInHand := by
  have hreach : Reachable secondInHand :=
    ⟨udpOpened, bothPaths.take 28, opened_udpOpened, rfl⟩
  refine ⟨_, ⟨Or.inr rfl, nofun⟩, rfl, rfl, (fifo_iff hreach).2 ?_⟩
  rintro r ⟨hloop | hloop, _⟩
  · cases hloop
  · cases hloop
    decide

section Fragments

open Foundation

def smallHeader : Bytes :=
  [0x45, 0, 0, 76, 0, 1, 0, 0, 64, 17, 0, 0, 192, 168, 0, 2, 192, 168, 0, 1]

def smallOffset (i : Nat) : UInt16 :=
  UInt16.ofNat (if i < 1154 then 0x2000 + 7 * i else 7 * i)

/-- A datagram of 64680 bytes in fragments of 56 bytes. -/
def smallFragment (i : Nat) : Bytes :=
  store16 (smallHeader ++ List.replicate 56 0) 6 (ntohs (smallOffset i))

def smallFrame (i : Nat) : FrameBuf :=
  TunIface.rx (smallFragment i)

theorem pointee_smallFrame (i : Nat) :
    (smallFrame i).pointee (smallFrame i).networkHdr = smallFragment i := by
  show ((smallFragment i).take maxRawBytesSize).drop 0 = _
  rw [List.drop_zero, List.take_of_length_le]
  show (store16 _ _ _).length <= _
  rw [length_store16]
  decide

theorem fragOffset_smallFrame {i : Nat} (h : i < 1155) :
    fragOffset (smallFrame i) = 7 * i := by
  rw [fragOffset, IpHdr.fragOff, pointee_smallFrame, smallFragment,
    load16_store16 _ _ _ (by decide), ntohs, ntohs, bswap16_bswap16,
    UInt16.toNat_and, smallOffset, UInt16.toNat_ofNat']
  refine (Nat.and_two_pow_sub_one_eq_mod _ 13).trans ?_
  split
  · lia
  · lia

theorem fragKey_smallFrame (i : Nat) :
    fragKey (smallFrame i) = ⟨256, 17, 0x0200a8c0, 0x0100a8c0⟩ := by
  rw [fragKey, IpHdr.id, IpHdr.protocol, IpHdr.saddr, IpHdr.daddr,
    pointee_smallFrame, smallFragment,
    load16_store16_of_disjoint _ _ (by decide),
    byteAt_store16_of_disjoint _ _ (by decide),
    load32_store16_of_disjoint _ _ (by decide),
    load32_store16_of_disjoint _ _ (by decide)]
  rfl

theorem ihl_smallFrame (i : Nat) : IpHdr.ihl (smallFrame i) = 5 := by
  rw [IpHdr.ihl, pointee_smallFrame, smallFragment,
    byteAt_store16_of_disjoint _ _ (by decide)]
  rfl

theorem fragPayloadLen_smallFrame (i : Nat) :
    fragPayloadLen (smallFrame i) = 56 := by
  rw [fragPayloadLen, ihl_smallFrame, IpHdr.totLen, pointee_smallFrame,
    smallFragment, load16_store16_of_disjoint _ _ (by decide)]
  rfl

theorem behindHeader_smallFrame (i : Nat) :
    (smallFrame i).behindHeader = 56 := by
  rw [FrameBuf.behindHeader, ihl_smallFrame]
  show ((smallFragment i).take maxRawBytesSize).length - 5 * 4 = 56
  rw [List.length_take, smallFragment, length_store16]
  rfl

theorem fragmentFrame_smallFrame (i : Nat) : FragmentFrame (smallFrame i) where
  networkHdr := rfl
  payloadEnd := rfl
  ihl_ge := Nat.le_of_eq (ihl_smallFrame i).symm
  header_le := by
    have hbehind := behindHeader_smallFrame i
    rw [FrameBuf.behindHeader] at hbehind
    lia

def smallRest : List FrameBuf :=
  (List.range' 1 1154).map smallFrame

theorem contiguous_smallFrames {j n : Nat} (h : j + n <= 1155) :
    FragGroup.contiguous (56 * j) ((List.range' j n).map smallFrame) =
      true := by
  induction n generalizing j with
  | zero => rfl
  | succ n ih =>
      have hoff := fragOffset_smallFrame (i := j) (by lia)
      have hnext : (7 * j : Nat) * 8 + 56 = (56 * (j + 1 : Nat) : Int) := by
        lia
      rw [List.range'_succ, List.map_cons, FragGroup.contiguous, hoff,
        fragPayloadLen_smallFrame, hnext, ih (by lia),
        decide_eq_true (by lia), Bool.and_self]

theorem complete_smallFrames :
    FragGroup.complete (smallFrame 0 :: smallRest) = true := by
  have hlast : (smallFrame 0 :: smallRest).getLast? =
      some (smallFrame 1154) := by
    show ((List.range' 0 1155).map smallFrame).getLast? = _
    rw [List.getLast?_map, List.getLast?_range']
    rfl
  have hcontiguous := contiguous_smallFrames (j := 0) (n := 1155) (by decide)
  rw [FragGroup.complete, hlast, Bool.and_eq_true]
  exact ⟨hcontiguous, by decide⟩

/-- What the reassembler makes of the fragments, on its way to `Udp::rx`. -/
def longDatagram : Skbuf :=
  Ip.withTransportHdr (smallFrame 0)
    (FragGroup.assemble (smallFrame 0) smallRest)

theorem handed_longDatagram :
    exists groups results,
      Reassembler.defragAll [] smallRest.reverse = some (groups, results) ∧
        Ip.handed groups (smallFragment 0) = some ([], some longDatagram) := by
  have hoff : forall f, f ∈ smallRest -> exists i, 0 < i ∧ i < 1155 ∧
      f = smallFrame i := by
    intro f hf
    rcases List.mem_map.1 hf with ⟨i, hi, rfl⟩
    have hrange := List.mem_range'_1.1 hi
    exact ⟨i, by lia, by lia, rfl⟩
  have hkey : forall f, f ∈ smallRest ->
      fragKey f = ⟨256, 17, 0x0200a8c0, 0x0100a8c0⟩ := by
    intro f hf
    rcases hoff f hf with ⟨i, _, _, rfl⟩
    exact fragKey_smallFrame i
  have hpos : forall f, f ∈ smallRest -> 0 < fragOffset f := by
    intro f hf
    rcases hoff f hf with ⟨i, hi, hlt, rfl⟩
    rw [fragOffset_smallFrame hlt]
    lia
  have hsorted : smallRest.Pairwise fun f g =>
      fragOffset f < fragOffset g := by
    refine List.pairwise_map.2 ((List.pairwise_lt_range' ..).imp_of_mem ?_)
    intro i j hi hj hlt
    have hi' := List.mem_range'_1.1 hi
    have hj' := List.mem_range'_1.1 hj
    rw [fragOffset_smallFrame (by lia), fragOffset_smallFrame (by lia)]
    lia
  rcases Reassembler.defragAll_lastToFirst hkey hsorted hpos with
    ⟨results, hrun⟩
  refine ⟨_, results, hrun, ?_⟩
  have hbefore : forall f, f ∈ smallRest ->
      fragOffset (smallFrame 0) < fragOffset f := by
    intro f hf
    rw [fragOffset_smallFrame (by decide)]
    exact hpos f hf
  have hfirst := Reassembler.defrag_before (fragKey_smallFrame 0) hbefore
  rw [complete_smallFrames, if_pos rfl] at hfirst
  have hfrag : Ip.reassemble _ (smallFrame 0) = _ :=
    (if_pos (by decide)).trans hfirst
  unfold Ip.handed
  dsimp only
  rw [if_neg (by decide), if_neg (by decide)]
  show (Ip.reassemble _ (smallFrame 0)).map _ = _
  rw [hfrag]
  rfl

/-- Of every fragment behind the first, 15 bytes of its header are drained
before its payload. -/
theorem length_drain_longDatagram (head : FrameBuf) :
    rpcMessageMaxSize <
      (drainSkbufChain (head :: longDatagram.next)).length := by
  have hrest : (drainSkbufChain longDatagram.next).length = 81934 := by
    show (drainSkbufChain (smallRest.map FragGroup.adjustNext)).length = _
    rw [FragGroup.length_drain_adjustNext]
    · simp only [smallRest, List.map_map, Function.comp_def,
        behindHeader_smallFrame, ihl_smallFrame, List.map_const',
        List.length_range', List.sum_replicate_nat]
    · intro f hf
      rcases List.mem_map.1 hf with ⟨i, _, rfl⟩
      exact fragmentFrame_smallFrame i
  rw [drainSkbufChain, List.length_append, hrest, rpcMessageMaxSize]
  lia

end Fragments

def longPacket : Packet :=
  ⟨peer, { longDatagram with
    head := { longDatagram.head with userPayloadBegin := some 28 } }⟩

/-- The datagram is queued and a `recvfrom` takes it. -/
def longTaken : List (Action Unit) :=
  [.ipDeliver peer longDatagram, .ipStep, .ipStep, .ipStep,
    .chanSend () (.recvfromCall 65536 0 true), .readReady, .loopStep 0]

def afterLongTaken : Channel Unit :=
  (Foundation.run step udpOpened longTaken).getD udpOpened

/-- The fragments of one datagram arrive from the last to the first, and the
packet that they give is taken from the queue but never reaches the client. -/
theorem long_packet_not_returned :
    (exists groups results,
      Reassembler.defragAll [] smallRest.reverse = some (groups, results) ∧
        Ip.handed groups (smallFragment 0) = some ([], some longDatagram)) ∧
      Reachable afterLongTaken ∧ afterLongTaken.accepted = [longPacket] ∧
        afterLongTaken.so.recvQ = [] ∧ ¬ Fifo afterLongTaken := by
  have hreach : Reachable afterLongTaken :=
    ⟨udpOpened, longTaken, opened_udpOpened, rfl⟩
  let r : Reply :=
    ⟨1, RpcDispatch.recvfromPacket true longPacket, some longPacket⟩
  have hhand : InHand afterLongTaken r := ⟨Or.inl rfl, nofun⟩
  have hlong : rpcMessageMaxSize < r.resp.byteSize :=
    Nat.lt_of_lt_of_le (length_drain_longDatagram _)
      (Response.length_le_byteSize rfl)
  refine ⟨handed_longDatagram, hreach, rfl, rfl, ?_⟩
  intro hfifo
  exact not_returns_of_long hreach hhand (Nat.not_le_of_lt hlong)
    (hfifo.returns r hhand)

end Channel
end Velox
