import Mathlib.Algebra.Order.BigOperators.Group.List
import Velox.Interceptor.Recvfrom

/-!
# The buffers of the callers

A program makes calls of `recvfrom` on one channel, while the threads of the
daemon interleave.  `args` gives, for each request, the arguments of the call
that made it.  The length of a buffer is sent with the request, but neither
the daemon nor the interceptor compares it with the length of the data.
-/

namespace Velox

open Foundation

namespace Channel

def Issued (args : Nat -> RecvfromArgs) (s : Channel Unit) : Prop :=
  forall k c len flags requireAddr,
    s.sent[k]? = some (c, .recvfromCall len flags requireAddr) ->
      (args k).request = some (.recvfromCall len flags requireAddr)

def receivedBy (args : Nat -> RecvfromArgs) (sent : List (Unit × Calling))
    (r : Reply) : Option (RecvfromArgs × Reply) :=
  match sent[r.answers]? with
  | some (_, .recvfromCall _ _ _) => some (args r.answers, r)
  | _ => none

def received (args : Nat -> RecvfromArgs) (s : Channel Unit) :
    List (RecvfromArgs × Reply) :=
  s.returned.filterMap fun x => receivedBy args s.sent x.2

def obtained (x : RecvfromArgs × Reply) : Bytes :=
  match x.1.receive x.2.resp with
  | none => []
  | some result => x.1.obtained result

def pending (s : Channel Unit) : List Packet :=
  s.toClient.flatMap Reply.packets ++ (loopPackets s.loop ++ s.so.recvQ)

/-- No call writes or returns more than the length of its buffer, and the
calls on a TCP socket obtain the queued bytes one after the other. -/
structure RespectsBuffer (args : Nat -> RecvfromArgs) (s : Channel Unit) :
    Prop where
  within : forall x, x ∈ received args s ->
    exists result, x.1.receive x.2.resp = some result ∧
      result.written.length <= x.1.len ∧ result.ret.toInt <= x.1.len
  stream : s.pcb.isTcp = true ->
    (received args s).flatMap obtained ++ s.pending.flatMap Packet.payload =
      s.accepted.flatMap Packet.payload

/-- The packet of the answer fits into the buffer of the caller and its
message into that of the channel; an answer without a packet counts as eleven
bytes. -/
def Fits (x : RecvfromArgs × Reply) : Prop :=
  match x.2.packet with
  | some packet =>
      packet.payload.length <= x.1.len ∧
        x.2.resp.byteSize <= rpcMessageMaxSize
  | none => 11 <= x.1.len

variable {args : Nat -> RecvfromArgs} {s : Channel Unit}

/-- The two final answers to a `recvfrom`: a packet, or the number of the
error. -/
inductive RecvfromAnswer (r : Reply) : Prop where
  | packet (packet : Packet) (gives : Bool) (hpacket : r.packet = some packet)
      (hresp : r.resp = RpcDispatch.recvfromPacket gives packet)
  | again (hpacket : r.packet = none)
      (hresp : r.resp = RpcDispatch.recvfromAgain)

theorem receivedBy_answers (args : Nat -> RecvfromArgs)
    {sent : List (Unit × Calling)} {tcp : Bool} {r : Reply}
    (hvalid : ValidReply sent tcp r) (hfinal : r.resp.Final) :
    (exists c len flags requireAddr,
      sent[r.answers]? = some (c, .recvfromCall len flags requireAddr) ∧
        receivedBy args sent r = some (args r.answers, r) ∧
        RecvfromAnswer r) ∨
      (receivedBy args sent r = none ∧ r.packet = none) := by
  rcases hvalid.final hfinal with ⟨calling, ⟨c, hsent⟩, hans⟩
  rw [receivedBy, hsent]
  generalize hp : r.packet = taken at hans
  generalize hr : r.resp = resp at hans
  cases hans with
  | packet len flags requireAddr gives packet hudp =>
      exact Or.inl ⟨c, len, flags, requireAddr, rfl, rfl,
        .packet packet gives hp hr⟩
  | again len flags requireAddr =>
      exact Or.inl ⟨c, len, flags, requireAddr, rfl, rfl, .again hp hr⟩
  | socket | estab | inProgress | connectUdp | sendto | close | poll |
    select | getpeername | getsockname | getsockopt | setsockopt | fcntl |
    atstart | notSet => exact Or.inr ⟨rfl, rfl⟩

theorem valid_returned (h : Reachable s) {x : Unit × Reply}
    (hx : x ∈ s.returned) :
    ValidReply s.sent s.pcb.isTcp x.2 ∧ x.2.resp.Final :=
  ⟨(linked_of_reachable h).returned x hx,
    (orderly_of_reachable h).serial.final x hx⟩

theorem received_answers (h : Reachable s) (hissued : Issued args s)
    {x : RecvfromArgs × Reply} (hx : x ∈ received args s) :
    (x.1.buf.getD []).length = x.1.len ∧ RecvfromAnswer x.2 := by
  rcases List.mem_filterMap.1 hx with ⟨⟨c, r⟩, hmem, hby⟩
  rcases valid_returned h hmem with ⟨hvalid, hfinal⟩
  rcases receivedBy_answers args hvalid hfinal with
    ⟨c', len, flags, requireAddr, hsent, hcall, hanswer⟩ | ⟨hnone, _⟩
  · cases hcall.symm.trans hby
    have hrequest := hissued r.answers c' len flags requireAddr hsent
    exact ⟨(RecvfromArgs.request_eq_some hrequest).1, hanswer⟩
  · cases hnone.symm.trans hby

theorem received_packets (args : Nat -> RecvfromArgs) (h : Reachable s) :
    (received args s).flatMap (fun x => x.2.packets) =
      s.returned.flatMap fun x => x.2.packets := by
  have hall := fun x hx => valid_returned (x := x) h hx
  unfold received
  revert hall
  generalize s.returned = l
  intro hall
  induction l with
  | nil => rfl
  | cons x rest ih =>
      have hrest := ih fun y hy => hall y (List.mem_cons_of_mem x hy)
      rcases hall x List.mem_cons_self with ⟨hvalid, hfinal⟩
      rw [List.filterMap_cons, List.flatMap_cons]
      rcases receivedBy_answers args hvalid hfinal with
        ⟨_, _, _, _, _, hcall, _⟩ | ⟨hnone, hpacket⟩
      · rw [hcall, List.flatMap_cons, hrest]
      · rw [hnone, hrest, Reply.packets, hpacket]
        rfl

/-- The packets in the answers and those to come are the ones queued. -/
theorem received_append_pending (args : Nat -> RecvfromArgs)
    (h : Reachable s) :
    (received args s).flatMap (fun x => x.2.packets.flatMap Packet.payload) ++
      s.pending.flatMap Packet.payload =
        s.accepted.flatMap Packet.payload := by
  rw [← (delivering_of_reachable h).order, inTransit,
    ← received_packets args h, List.flatMap_append, List.flatMap_assoc]
  rfl

/-!
## One call
-/

theorem obtained_of_fits {x : RecvfromArgs × Reply} {packet : Packet}
    {gives : Bool} (hpacket : x.2.packet = some packet)
    (hresp : x.2.resp = RpcDispatch.recvfromPacket gives packet)
    (hfits : Fits x) : obtained x = x.2.packets.flatMap Packet.payload := by
  simp only [Fits, hpacket, hresp] at hfits
  rcases x.1.receive_packet hfits.2 with ⟨result, hreceive, hret, hwritten⟩
  rw [obtained, hresp, hreceive, Reply.packets, hpacket]
  show x.1.obtained result = packet.payload ++ []
  rw [RecvfromArgs.obtained_of_written (by rw [hret, hwritten]), hwritten,
    List.append_nil]

/-- What a call obtains where no packet was taken: eleven bytes that were in
its buffer before. -/
theorem length_obtained_again {x : RecvfromArgs × Reply}
    (hsize : (x.1.buf.getD []).length = x.1.len)
    (hpacket : x.2.packet = none)
    (hresp : x.2.resp = RpcDispatch.recvfromAgain) (hfits : Fits x) :
    (obtained x).length = 11 := by
  simp only [Fits, hpacket] at hfits
  rw [obtained, hresp, x.1.receive_again]
  show ((x.1.buf.getD []).take 11).length = 11
  rw [List.length_take, hsize, Nat.min_eq_left hfits]

theorem obtained_cases (h : Reachable s) (hissued : Issued args s)
    {x : RecvfromArgs × Reply} (hx : x ∈ received args s) (hfits : Fits x) :
    (x.2.packet ≠ none ∧ obtained x = x.2.packets.flatMap Packet.payload) ∨
      (x.2.packet = none ∧ x.2.packets.flatMap Packet.payload = [] ∧
        (obtained x).length = 11) := by
  rcases received_answers h hissued hx with ⟨hsize, hanswer⟩
  cases hanswer with
  | packet packet gives hpacket hresp =>
      refine Or.inl ⟨?_, obtained_of_fits hpacket hresp hfits⟩
      rw [hpacket]
      exact Option.some_ne_none packet
  | again hpacket hresp =>
      refine Or.inr ⟨hpacket, ?_, ?_⟩
      · rw [Reply.packets, hpacket]
        rfl
      · exact length_obtained_again hsize hpacket hresp hfits

/-- A call keeps to its buffer exactly if the packet fits, or the number of
the error does. -/
theorem within_iff {x : RecvfromArgs × Reply} (hanswer : RecvfromAnswer x.2) :
    (exists result, x.1.receive x.2.resp = some result ∧
      result.written.length <= x.1.len ∧ result.ret.toInt <= x.1.len) <->
        Fits x := by
  cases hanswer with
  | packet packet gives hpacket hresp =>
      simp only [Fits, hpacket, hresp]
      constructor
      · rintro ⟨result, hreceive, hlen, _⟩
        have hfits : (RpcDispatch.recvfromPacket gives packet).byteSize <=
            rpcMessageMaxSize := by
          by_contra hlarge
          rw [RecvfromArgs.receive, if_neg hlarge] at hreceive
          cases hreceive
        rcases x.1.receive_packet hfits with ⟨result', hreceive', _, hwritten⟩
        cases hreceive.symm.trans hreceive'
        rw [hwritten] at hlen
        exact ⟨hlen, hfits⟩
      · rintro ⟨hlen, hfits⟩
        rcases x.1.receive_packet hfits with
          ⟨result, hreceive, hret, hwritten⟩
        refine ⟨result, hreceive, hwritten ▸ hlen, ?_⟩
        rw [hret]
        exact Int.ofNat_le.2 hlen
  | again hpacket hresp =>
      simp only [Fits, hpacket, hresp, x.1.receive_again]
      constructor
      · rintro ⟨result, hreceive, _, hret⟩
        cases hreceive
        exact Int.ofNat_le.1 hret
      · intro hlen
        exact ⟨_, rfl, Nat.zero_le _, Int.ofNat_le.2 hlen⟩

/-- `recvfrom` respects the buffers of its callers exactly if every packet is
at most as long as the buffer it is read into and its message not too long,
and no call finds an empty queue, unless the socket is one for datagrams and
the buffer has room for eleven bytes. -/
theorem respectsBuffer_iff (h : Reachable s) (hissued : Issued args s) :
    RespectsBuffer args s <->
      forall x, x ∈ received args s ->
        Fits x ∧ (s.pcb.isTcp = true -> x.2.packet ≠ none) := by
  have hqueued := received_append_pending args h
  constructor
  · intro hrespects x hx
    have hfits : forall y, y ∈ received args s -> Fits y := fun y hy =>
      (within_iff (received_answers h hissued hy).2).1 (hrespects.within y hy)
    refine ⟨hfits x hx, ?_⟩
    intro hkind hnone
    have hstream := (hrespects.stream hkind).trans hqueued.symm
    have hlength := congrArg List.length (List.append_cancel_right hstream)
    rw [List.length_flatMap, List.length_flatMap] at hlength
    refine absurd hlength.symm (Nat.ne_of_lt (List.sum_lt_sum _ _ ?_ ?_))
    · intro y hy
      rcases obtained_cases h hissued hy (hfits y hy) with
        ⟨_, heq⟩ | ⟨_, hnil, _⟩
      · exact Nat.le_of_eq (congrArg List.length heq.symm)
      · rw [hnil]
        exact Nat.zero_le _
    · rcases obtained_cases h hissued hx (hfits x hx) with
        ⟨hsome, _⟩ | ⟨_, hnil, heleven⟩
      · exact absurd hnone hsome
      · refine ⟨x, hx, ?_⟩
        rw [hnil, heleven]
        decide
  · intro hall
    refine ⟨?_, ?_⟩
    · intro x hx
      exact (within_iff (received_answers h hissued hx).2).2 (hall x hx).1
    · intro hkind
      rw [← hqueued]
      congr 1
      refine List.flatMap_congr ?_
      intro x hx
      rcases obtained_cases h hissued hx (hall x hx).1 with
        ⟨_, heq⟩ | ⟨hnone, _⟩
      · exact heq
      · exact absurd hnone ((hall x hx).2 hkind)

def wideCall : RecvfromArgs :=
  ⟨some (List.replicate 64 0), 64, 0, true, by
    rintro _ ⟨⟩
    rfl⟩

theorem issued_afterBothPaths : Issued (fun _ => wideCall) afterBothPaths := by
  intro k c len flags requireAddr hsent
  rcases k with _ | _ | _ | k
  · cases hsent
  · cases hsent
    rfl
  · cases hsent
    rfl
  · cases hsent

theorem respectsBuffer_afterBothPaths :
    RespectsBuffer (fun _ => wideCall) afterBothPaths ∧
      (received (fun _ => wideCall) afterBothPaths).map obtained =
        [[0, 0], [5, 7]] := by
  have hreach : Reachable afterBothPaths :=
    ⟨udpOpened, bothPaths, opened_udpOpened, rfl⟩
  refine ⟨(respectsBuffer_iff hreach issued_afterBothPaths).2 ?_, rfl⟩
  have hreceived : received (fun _ => wideCall) afterBothPaths =
      [(wideCall, _), (wideCall, _)] := rfl
  intro x hx
  rw [hreceived] at hx
  rcases List.mem_cons.1 hx with rfl | hx
  · exact ⟨⟨by decide, by decide⟩, nofun⟩
  · rcases List.mem_cons.1 hx with rfl | hx
    · exact ⟨⟨by decide, by decide⟩, nofun⟩
    · cases hx

def readOne : RecvfromArgs :=
  .read (some [0]) 1 (by
    rintro _ ⟨⟩
    rfl)

def queuedThenRead : List (Action Unit) :=
  datagramQueued ++
    [.ipStep, .chanSend () (.recvfromCall 1 0 false), .readReady, .loopStep 0,
      .loopStep 0, .chanRecv ()]

def datagramRead : Channel Unit :=
  (Foundation.run step udpOpened queuedThenRead).getD udpOpened

/-- Two bytes are written to a buffer of one byte. -/
theorem read_overflows_buffer :
    Reachable datagramRead ∧ Issued (fun _ => readOne) datagramRead ∧
      (exists r result,
        received (fun _ => readOne) datagramRead = [(readOne, r)] ∧
          readOne.receive r.resp = some result ∧ readOne.len = 1 ∧
          result.written = [0, 0] ∧ result.ret = 2) ∧
      ¬ RespectsBuffer (fun _ => readOne) datagramRead := by
  obtain ⟨r, hreceived, hresult⟩ : exists r,
      received (fun _ => readOne) datagramRead = [(readOne, r)] ∧
        readOne.receive r.resp = some ⟨2, none, [0, 0], none⟩ :=
    ⟨_, rfl, rfl⟩
  refine ⟨⟨udpOpened, queuedThenRead, opened_udpOpened, rfl⟩, ?_,
    ⟨r, _, hreceived, hresult, rfl, rfl, rfl⟩, ?_⟩
  · intro k c len flags requireAddr hsent
    rcases k with _ | _ | k
    · cases hsent
    · cases hsent
      rfl
    · cases hsent
  · intro hrespects
    rcases hrespects.within _ (hreceived ▸ List.mem_cons_self) with
      ⟨result, hreceive, hlen, _⟩
    cases hresult.symm.trans hreceive
    exact absurd hlen (show ¬ 2 <= 1 by decide)

end Channel
end Velox
