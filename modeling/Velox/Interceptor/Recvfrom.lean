import Velox.Arbiter.Delivery
import Velox.Arbiter.Handling

/-!
# Receiving through the interceptor

The interposed `recvfrom` asks the daemon for a packet and copies the data of
the response to the buffer of its caller; `recv` and `read` are forwarded to
it.  The daemon gives the number of an error in the field of the length, which
the interceptor returns like any other.
-/

namespace Velox

open Foundation

def Packet.payload (packet : Packet) : Bytes :=
  drainSkbufChain packet.skbuf.frames

/-- The arguments of `recvfrom` behind the descriptor: what the buffer of the
caller holds, if there is one, its length, and whether `src_addr` is given. -/
structure RecvfromArgs where
  buf : Option Bytes
  len : Nat
  flags : Int32
  srcAddr : Bool
  size_eq : forall bytes, buf = some bytes -> bytes.length = len

/-- What a caller sees of `recvfrom`: the value returned, `errno` if it is
set, the bytes written to the buffer and the address. -/
structure RecvfromResult where
  ret : Int32
  errno : Option Int32
  written : Bytes
  srcAddr : Option Bytes
  deriving DecidableEq

namespace RecvfromArgs

def recv (buf : Option Bytes) (len : Nat) (flags : Int32)
    (h : forall bytes, buf = some bytes -> bytes.length = len) :
    RecvfromArgs :=
  ⟨buf, len, flags, false, h⟩

def read (buf : Option Bytes) (count : Nat)
    (h : forall bytes, buf = some bytes -> bytes.length = count) :
    RecvfromArgs :=
  ⟨buf, count, 0, false, h⟩

def request (args : RecvfromArgs) : Option Calling :=
  if args.buf = none ∨ args.len = 0 then none
  else
    some (.recvfromCall (Int32.ofNat args.len) args.flags args.srcAddr)

/-- The end of `recvfrom`, from the response of `chan_recv` on.  A response to
another call would be taken for one to `recvfrom`. -/
def unpack (args : RecvfromArgs) (resp : Response) : Option RecvfromResult :=
  match resp.returning with
  | .recvfromCall r buf addr =>
      some
        { ret := r.ret
          errno := if r.ret = -1 then some (r.errno.getD 0) else none
          written := if 0 < r.ret then buf.getD [] else []
          srcAddr := if args.srcAddr ∧ 0 < r.ret then addr else none }
  | _ => none

/-- A response on its way from `AgentChannel::write` to the caller.  One that
exceeds the buffer is not serialised, and the bytes behind the buffer are
sent. -/
def receive (args : RecvfromArgs) (resp : Response) : Option RecvfromResult :=
  if resp.byteSize <= rpcMessageMaxSize then args.unpack resp else none

/-- The bytes that the caller takes for received: as many as the call
returned, from the start of its buffer. -/
def obtained (args : RecvfromArgs) (result : RecvfromResult) : Bytes :=
  (result.written ++ (args.buf.getD []).drop result.written.length).take
    result.ret.toInt.toNat

theorem request_eq_some {args : RecvfromArgs} {calling : Calling}
    (h : args.request = some calling) :
    (args.buf.getD []).length = args.len ∧
      calling = .recvfromCall (Int32.ofNat args.len) args.flags
        args.srcAddr := by
  unfold request at h
  by_cases hnone : args.buf = none ∨ args.len = 0
  · rw [if_pos hnone] at h
    cases h
  · rw [if_neg hnone] at h
    rcases Option.ne_none_iff_exists'.1 (not_or.1 hnone).1 with ⟨bytes, hbuf⟩
    refine ⟨?_, (Option.some.inj h).symm⟩
    rw [hbuf]
    exact args.size_eq bytes hbuf

/-!
## The two answers
-/

theorem toInt_ofNat_length {bytes : Bytes}
    (h : bytes.length <= rpcMessageMaxSize) :
    (Int32.ofNat bytes.length).toInt = bytes.length := by
  unfold rpcMessageMaxSize at h
  exact Int32.toInt_ofNat_of_lt (by lia)

theorem pos_iff_toInt_pos (n : Int32) : 0 < n <-> 0 < n.toInt :=
  Int32.lt_iff_toInt_lt

theorem receive_packet (args : RecvfromArgs) {gives : Bool} {packet : Packet}
    (hfits : (RpcDispatch.recvfromPacket gives packet).byteSize <=
      rpcMessageMaxSize) :
    exists result,
      args.receive (RpcDispatch.recvfromPacket gives packet) = some result ∧
        result.ret.toInt = packet.payload.length ∧
        result.written = packet.payload := by
  have hlen : packet.payload.length <= rpcMessageMaxSize :=
    Nat.le_trans (Response.length_le_byteSize rfl) hfits
  have hret := toInt_ofNat_length hlen
  rw [receive, if_pos hfits]
  refine ⟨_, rfl, hret, ?_⟩
  show (if 0 < Int32.ofNat packet.payload.length then packet.payload else []) =
    packet.payload
  by_cases hpos : 0 < Int32.ofNat packet.payload.length
  · rw [if_pos hpos]
  · rw [pos_iff_toInt_pos, hret] at hpos
    rw [if_neg (by rwa [pos_iff_toInt_pos, hret])]
    exact (List.eq_nil_of_length_eq_zero (by lia)).symm

theorem receive_eq_some {args : RecvfromArgs} {resp : Response}
    {result : RecvfromResult} (h : args.receive resp = some result) :
    resp.byteSize <= rpcMessageMaxSize ∧ args.unpack resp = some result := by
  unfold receive at h
  by_cases hfits : resp.byteSize <= rpcMessageMaxSize
  · rw [if_pos hfits] at h
    exact ⟨hfits, h⟩
  · rw [if_neg hfits] at h
    cases h

theorem receive_again (args : RecvfromArgs) :
    args.receive RpcDispatch.recvfromAgain =
      some ⟨RpcDispatch.eAgain, none, [], none⟩ := by
  rw [receive, if_pos (by decide)]
  show some (RecvfromResult.mk _ _ _ _) = _
  rw [ite_self]
  rfl

theorem obtained_of_written {args : RecvfromArgs} {result : RecvfromResult}
    (h : result.ret.toInt = result.written.length) :
    args.obtained result = result.written := by
  rw [obtained, h, Int.toNat_natCast, List.take_left']
  rfl

/-!
## One call
-/

/-- `recvfrom` on a socket without interference of other threads; `arrival` is
the packet that is queued next if the daemon makes the caller wait. -/
def recvfrom (args : RecvfromArgs) (sock : Sock) (arrival : Packet) :
    Option (Sock × RecvfromResult) :=
  match args.request with
  | none => some (sock, ⟨0, none, [], none⟩)
  | some _ =>
      let called := RpcDispatch.recvfromCall sock args.srcAddr
      if called.2.Final then
        (args.receive called.2).map fun result => (called.1, result)
      else
        match RpcDispatch.sChannelReadCb (called.1.so.putToRecvQ arrival) with
        | some (so, some resp) =>
            (args.receive resp).map fun result =>
              ({ called.1 with so := so }, result)
        | _ => none

/-- The queue from which a call takes its packet; a call that makes no
request does not wait. -/
def found (args : RecvfromArgs) (sock : Sock) (arrival : Packet) :
    List Packet :=
  if args.request ≠ none ∧ sock.so.recvQ = [] ∧
      sock.so.nonblocking = false then [arrival]
  else sock.so.recvQ

/-- The answer to a TCP caller that waited gives no address. -/
def givesAddr (args : RecvfromArgs) (sock : Sock) : Bool :=
  args.srcAddr && !(sock.pcb.isTcp && sock.so.recvQ.isEmpty)

variable {args : RecvfromArgs} {sock : Sock} {arrival : Packet}

theorem found_of_queued (h : sock.so.recvQ ≠ []) :
    args.found sock arrival = sock.so.recvQ := by
  rw [found, if_neg fun hwaits => h hwaits.2.1]

theorem found_of_nonblocking (h : sock.so.nonblocking = true) :
    args.found sock arrival = sock.so.recvQ := by
  rw [found, if_neg]
  intro hwaits
  cases h.symm.trans hwaits.2.2

theorem found_of_waits (hrequest : args.request ≠ none)
    (hq : sock.so.recvQ = []) (hblock : sock.so.nonblocking = false) :
    args.found sock arrival = [arrival] := by
  rw [found, if_pos ⟨hrequest, hq, hblock⟩]

theorem recvfrom_of_waits (hrequest : args.request ≠ none)
    (hq : sock.so.recvQ = []) (hblock : sock.so.nonblocking = false) :
    exists so, so.recvQ = [] ∧
      args.recvfrom sock arrival =
        (args.receive (RpcDispatch.recvfromPacket (args.givesAddr sock)
          arrival)).map fun result => (⟨so, sock.pcb⟩, result) := by
  rcases Option.ne_none_iff_exists'.1 hrequest with ⟨calling, hcalling⟩
  rcases sock with ⟨⟨nonblocking, pipe, waiting, cb, recvQ⟩, pcb⟩
  cases hq
  cases hblock
  rw [recvfrom, hcalling]
  cases pcb with
  | udp s =>
      rw [givesAddr, Pcb.isTcp, Bool.false_and, Bool.not_false, Bool.and_true]
      exact ⟨_, rfl, rfl⟩
  | tcp s =>
      rw [givesAddr, Pcb.isTcp, List.isEmpty_nil, Bool.and_self,
        Bool.not_true, Bool.and_false]
      exact ⟨_, rfl, rfl⟩

theorem recvfrom_of_found {packet : Packet} {rest : List Packet}
    (hrequest : args.request ≠ none)
    (hfound : args.found sock arrival = packet :: rest) :
    exists so : Endpoint, so.recvQ = rest ∧
      args.recvfrom sock arrival =
        (args.receive (RpcDispatch.recvfromPacket (args.givesAddr sock)
          packet)).map fun result => (⟨so, sock.pcb⟩, result) := by
  cases hq : sock.so.recvQ with
  | cons first others =>
      rw [found_of_queued (by rw [hq]; nofun), hq] at hfound
      cases hfound
      refine ⟨{ sock.so with recvQ := rest }, rfl, ?_⟩
      rcases Option.ne_none_iff_exists'.1 hrequest with ⟨calling, hcalling⟩
      simp only [recvfrom, hcalling, RpcDispatch.recvfromCall,
        Endpoint.tryTakeFromRecvQ, hq, givesAddr, List.isEmpty_cons,
        Bool.and_false, Bool.not_false, Bool.and_true]
      rw [if_pos (by nofun)]
  | nil =>
      cases hblock : sock.so.nonblocking with
      | true =>
          rw [found_of_nonblocking hblock, hq] at hfound
          cases hfound
      | false =>
          rw [found_of_waits hrequest hq hblock] at hfound
          cases hfound
          exact recvfrom_of_waits hrequest hq hblock

theorem recvfrom_of_empty (hrequest : args.request ≠ none)
    (hfound : args.found sock arrival = []) :
    args.recvfrom sock arrival =
      some (sock, ⟨RpcDispatch.eAgain, none, [], none⟩) := by
  have hq : sock.so.recvQ = [] := by
    by_contra hq
    exact hq ((found_of_queued hq).symm.trans hfound)
  have hblock : sock.so.nonblocking = true := by
    by_contra hblock
    rw [found_of_waits hrequest hq (Bool.not_eq_true _ ▸ hblock)] at hfound
    cases hfound
  rcases Option.ne_none_iff_exists'.1 hrequest with ⟨calling, hcalling⟩
  simp only [recvfrom, hcalling, RpcDispatch.recvfromCall,
    Endpoint.tryTakeFromRecvQ, hq, hblock, if_true]
  rw [if_pos (by nofun), receive_again]
  rfl

/-- A length is returned only if a packet was taken and its payload copied;
a socket that does not block and has no packet gives `EAGAIN`. -/
def Truthful (args : RecvfromArgs) (sock : Sock) (arrival : Packet) : Prop :=
  exists sock' result, args.recvfrom sock arrival = some (sock', result) ∧
    (0 <= result.ret.toInt ->
      exists packet, args.found sock arrival = packet :: sock'.so.recvQ ∧
        result.ret.toInt = packet.payload.length ∧
        result.written = packet.payload) ∧
    (sock.so.nonblocking = true -> sock.so.recvQ = [] ->
      result.ret = -1 ∧ result.errno = some RpcDispatch.eAgain ∧
        result.written = [])

/-- The result of `recvfrom` is true exactly if there is a buffer, the socket
has a packet or waits for one, and the message with the packet is not too
long. -/
theorem truthful_iff (args : RecvfromArgs) (sock : Sock) (arrival : Packet) :
    args.Truthful sock arrival <->
      args.request ≠ none ∧ exists packet rest,
        args.found sock arrival = packet :: rest ∧
          (RpcDispatch.recvfromPacket (args.givesAddr sock) packet).byteSize <=
            rpcMessageMaxSize := by
  constructor
  · rintro ⟨sock', result, hcall, hlength, hagain⟩
    have hrequest : args.request ≠ none := by
      intro hnone
      rw [recvfrom, hnone] at hcall
      cases hcall
      rcases hlength (by decide) with ⟨packet, hfound, _⟩
      rw [found, if_neg fun hwaits => hwaits.1 hnone] at hfound
      exact absurd hfound.symm (List.cons_ne_self packet sock.so.recvQ)
    refine ⟨hrequest, ?_⟩
    cases hfound : args.found sock arrival with
    | nil =>
        rw [recvfrom_of_empty hrequest hfound] at hcall
        cases hcall
        rcases hlength (by decide) with ⟨packet, hpacket, _⟩
        cases hfound.symm.trans hpacket
    | cons packet rest =>
        refine ⟨packet, rest, rfl, ?_⟩
        rcases recvfrom_of_found hrequest hfound with ⟨so, _, heq⟩
        by_contra hlarge
        rw [heq, receive, if_neg hlarge] at hcall
        cases hcall
  · rintro ⟨hrequest, packet, rest, hfound, hfits⟩
    rcases recvfrom_of_found hrequest hfound with ⟨so, hrest, heq⟩
    rcases args.receive_packet hfits with ⟨result, hreceive, hret, hwritten⟩
    rw [hreceive] at heq
    refine ⟨_, result, heq, ?_, ?_⟩
    · intro _
      exact ⟨packet, hfound.trans (by rw [hrest]), hret, hwritten⟩
    · intro hblock hq
      rw [found_of_nonblocking hblock, hq] at hfound
      cases hfound

def recvSixteen : RecvfromArgs :=
  .recv (some (List.replicate 16 0)) 16 0 (by
    rintro _ ⟨⟩
    rfl)

def nonblockingSock : Sock :=
  ⟨Endpoint.create true, .udp (Session.create 0x0100a8c0)⟩

/-- Eleven bytes are announced, none is written and `errno` is not set. -/
theorem nonblocking_recv_returns_eleven :
    recvSixteen.recvfrom nonblockingSock ⟨Channel.peer, Channel.datagram⟩ =
        some (nonblockingSock, ⟨11, none, [], none⟩) ∧
      ¬ recvSixteen.Truthful nonblockingSock
        ⟨Channel.peer, Channel.datagram⟩ := by
  have hcall : recvSixteen.recvfrom nonblockingSock
      ⟨Channel.peer, Channel.datagram⟩ =
        some (nonblockingSock, ⟨11, none, [], none⟩) := rfl
  refine ⟨hcall, ?_⟩
  rintro ⟨sock', result, heq, _, hagain⟩
  cases hcall.symm.trans heq
  exact absurd (hagain rfl rfl).1 (by decide)

end RecvfromArgs

/-!
## The channel below one call
-/

namespace Channel

variable {ι : Type} [DecidableEq ι]

structure SameClients (s s' : Channel ι) : Prop where
  outstanding : s'.outstanding = s.outstanding
  returned : s'.returned = s.returned
  ip : s'.ip = s.ip

theorem sameClients_step {s s' : Channel ι} {port : UInt16}
    (hstep : Step s (.loopStep port) s') : SameClients s s' := by
  cases hstep <;> exact ⟨rfl, rfl, rfl⟩

theorem sameClients_run {port : UInt16} {n : Nat} {s s' : Channel ι}
    (h : Foundation.run step s (List.replicate n (.loopStep port)) =
      some s') : SameClients s s' := by
  induction n generalizing s with
  | zero =>
      cases h
      exact ⟨rfl, rfl, rfl⟩
  | succ n ih =>
      rcases Foundation.run_cons h with ⟨mid, hstep, hrest⟩
      have hfirst := sameClients_step (step_cases hstep)
      have hothers := ih hrest
      exact ⟨hothers.outstanding.trans hfirst.outstanding,
        hothers.returned.trans hfirst.returned, hothers.ip.trans hfirst.ip⟩

theorem recvQOverLimit_of_empty {so : Endpoint} (hq : so.recvQ = []) :
    so.recvQOverLimit = false := by
  rw [Endpoint.recvQOverLimit, hq]
  rfl

theorem run_putToRecvQ {s : Channel ι} {packet : Packet}
    (hip : s.ip = [.effect (.putToRecvQ packet.peerAddr packet.skbuf)])
    (hq : s.so.recvQ = []) :
    Foundation.run step s [.ipStep, .ipStep, .ipStep] =
      some
        { s with
          so := s.so.putToRecvQ packet
          accepted := s.accepted ++ [packet]
          ip := [] } := by
  have hroom := recvQOverLimit_of_empty hq
  have hfirst : step s .ipStep =
      some { s with ip := [.enqueue packet] } := by
    show s.stepIp = _
    rw [stepIp, hip]
    show (if s.so.recvQOverLimit then _ else _) = _
    rw [hroom]
    rfl
  rw [Foundation.run_of_step hfirst, Endpoint.putToRecvQ, hroom]
  rfl

/-- `recvfromCall` answers at once, or leaves the socket so that the next
packet is the answer. -/
theorem recvfromCall_cases (sock : Sock) (requireAddr : Bool)
    (arrival : Packet) :
    (RpcDispatch.recvfromCall sock requireAddr).2.retCode = some .ok ∨
      ((RpcDispatch.recvfromCall sock requireAddr).2.retCode =
          some .waitNext ∧
        (RpcDispatch.recvfromCall sock requireAddr).1.so.recvQ = [] ∧
        exists so resp, resp.retCode = some .ok ∧
          RpcDispatch.sChannelReadCb ((RpcDispatch.recvfromCall sock
            requireAddr).1.so.putToRecvQ arrival) = some (so, some resp)) := by
  rcases sock with ⟨⟨nonblocking, pipe, waiting, cb, recvQ⟩, pcb⟩
  cases recvQ with
  | cons packet rest => exact Or.inl rfl
  | nil =>
      cases nonblocking with
      | true => exact Or.inl rfl
      | false =>
          refine Or.inr ⟨rfl, rfl, ?_⟩
          cases pcb with
          | udp session => exact ⟨_, _, rfl, rfl⟩
          | tcp session => exact ⟨_, _, rfl, rfl⟩

theorem recvfromCall_fits_of_waitNext {sock : Sock} {requireAddr : Bool}
    (h : (RpcDispatch.recvfromCall sock requireAddr).2.retCode =
      some .waitNext) :
    (RpcDispatch.recvfromCall sock requireAddr).2.byteSize <=
      rpcMessageMaxSize := by
  rcases sock with ⟨⟨nonblocking, pipe, waiting, cb, recvQ⟩, pcb⟩
  cases recvQ with
  | cons packet rest => cases h
  | nil =>
      cases nonblocking with
      | true => cases h
      | false =>
          show RpcDispatch.waitNextResponse.byteSize <= rpcMessageMaxSize
          decide

theorem putToRecvQ_pipe_pos {so : Endpoint} (packet : Packet)
    (hq : so.recvQ = []) : 0 < (so.putToRecvQ packet).pipe := by
  rw [Endpoint.putToRecvQ, recvQOverLimit_of_empty hq]
  exact pipe_pos_of_mark (so.enqueue packet)

theorem run_recvfromCall {s : Channel Unit} (len flags : Int32)
    (requireAddr : Bool) (hout : s.outstanding () = none)
    (hloop : s.loop = .idle) (hin : s.toDaemon = [])
    (hback : s.toClient = [])
    (hfits : (RpcDispatch.recvfromCall ⟨s.so, s.pcb⟩ requireAddr).2.byteSize <=
      rpcMessageMaxSize) :
    exists actions s' r, Foundation.run step s actions = some s' ∧
      s'.outstanding () = some s.sent.length ∧ s'.returned = s.returned ∧
      s'.ip = s.ip ∧ s'.loop = .idle ∧ s'.toClient = [r] ∧
        RpcDispatch.recvfromCall ⟨s.so, s.pcb⟩ requireAddr =
          (⟨s'.so, s'.pcb⟩, r.resp) := by
  let calling := Calling.recvfromCall len flags requireAddr
  let handled : Channel Unit :=
    { s with
      outstanding := Function.update s.outstanding () (some s.sent.length)
      toDaemon := []
      sent := s.sent ++ [((), calling)]
      loop := .handling s.sent.length calling }
  have hread : Foundation.run step s [.chanSend () calling, .readReady] =
      some handled := by
    simp only [Foundation.run, step, stepSend, hout, hin, hloop,
      List.nil_append, handled, calling]
  have hanswer : AnswerFits 0 0 0 handled calling := by
    rintro sock resp ⟨⟩
    exact hfits
  rcases handled_recvfrom 0 0 0 (s := handled) rfl hanswer with
    ⟨n, s', hrun, hhandled⟩
  rcases hhandled.written with ⟨r, _, hwritten, hcall⟩
  have hclients := sameClients_run hrun
  refine ⟨_, s', r, (Foundation.run_append hread _).trans hrun, ?_,
    hclients.returned, hclients.ip, hhandled.loop, ?_, ?_⟩
  · rw [hclients.outstanding]
    exact Function.update_self () (some s.sent.length) s.outstanding
  · rw [hwritten]
    show s.toClient ++ [r] = [r]
    rw [hback, List.nil_append]
  · injection hcall with hcall
    injection hcall with hsock hresp
    injection hsock with hsock
    exact Prod.ext hsock hresp

theorem run_waitNext {s : Channel Unit} {k : Nat} {r : Reply}
    {arrival : Packet} {so : Endpoint} {resp : Response}
    (hout : s.outstanding () = some k) (hloop : s.loop = .idle)
    (hback : s.toClient = [r]) (hcode : r.resp.retCode = some .waitNext)
    (hip : s.ip = [.effect (.putToRecvQ arrival.peerAddr arrival.skbuf)])
    (hq : s.so.recvQ = []) (hok : resp.retCode = some .ok)
    (hfits : resp.byteSize <= rpcMessageMaxSize)
    (hcall : RpcDispatch.sChannelReadCb (s.so.putToRecvQ arrival) =
      some (so, some resp)) :
    exists actions s' r', Foundation.run step s actions = some s' ∧
      s'.returned = s.returned ++ [((), r')] ∧ r'.resp = resp ∧
        s'.so = so ∧ s'.pcb = s.pcb := by
  let queued : Channel Unit :=
    { s with
      toClient := []
      so := s.so.putToRecvQ arrival
      accepted := s.accepted ++ [arrival]
      ip := []
      loop := .draining }
  have hqueued : Foundation.run step s
      [.chanRecv (), .ipStep, .ipStep, .ipStep, .pipeReady] = some queued := by
    have hput := run_putToRecvQ (s := { s with toClient := [] }) hip hq
    refine (Foundation.run_of_step (step_chanRecv_waitNext hout hback hcode)
      _).trans ((Foundation.run_append hput [.pipeReady]).trans ?_)
    simp only [Foundation.run, step, hloop, putToRecvQ_pipe_pos arrival hq,
      and_self, if_true, queued]
  have hanswer : forall x, some resp = some x ->
      x.byteSize <= rpcMessageMaxSize := by
    rintro x ⟨⟩
    exact hfits
  rcases notification_alone 0 (s := queued) rfl hcall hanswer with
    ⟨n, s', hrun, hhandled⟩
  rcases hhandled.written with ⟨answer, hwritten, hresult⟩
  have hsent : some (so, some resp) = some (s'.so, answer.map Reply.resp) :=
    hcall.symm.trans hresult
  injection hsent with hsent
  injection hsent with hso hresp
  rcases Option.map_eq_some_iff.1 hresp.symm with ⟨r', rfl, hr'⟩
  have hclients := sameClients_run hrun
  have hrecv := step_chanRecv_ok (hclients.outstanding ▸ hout) hwritten
    (hr' ▸ hok)
  refine ⟨_, _, r', (Foundation.run_append hqueued _).trans
    ((Foundation.run_append hrun [.chanRecv ()]).trans
      (Foundation.run_of_step hrecv [])), ?_, hr', hso.symm, hhandled.pcb⟩
  rw [hclients.returned]

/-- A client that is alone on its channel gets the result of `recvfrom`, with
the packet at hand for the one that arrives. -/
theorem recvfrom_run {args : RecvfromArgs} (hrequest : args.request ≠ none)
    {s : Channel Unit} (hout : s.outstanding () = none)
    (hloop : s.loop = .idle) (hin : s.toDaemon = [])
    (hback : s.toClient = []) {arrival : Packet}
    (hip : s.ip = [.effect (.putToRecvQ arrival.peerAddr arrival.skbuf)])
    {sock : Sock} {result : RecvfromResult}
    (hcall : args.recvfrom ⟨s.so, s.pcb⟩ arrival = some (sock, result)) :
    exists actions s' r, Foundation.run step s actions = some s' ∧
      s'.returned = s.returned ++ [((), r)] ∧
        args.unpack r.resp = some result ∧ sock = ⟨s'.so, s'.pcb⟩ := by
  rcases Option.ne_none_iff_exists'.1 hrequest with ⟨calling, hcalling⟩
  rw [RecvfromArgs.recvfrom, hcalling] at hcall
  rcases recvfromCall_cases ⟨s.so, s.pcb⟩ args.srcAddr arrival with
    hok | ⟨hcode, hq, so, resp, hok, hcb⟩
  · simp only at hcall
    rw [if_pos (by rw [Response.Final, hok]; simp)] at hcall
    rcases Option.map_eq_some_iff.1 hcall with ⟨_, hreceive, heq⟩
    cases heq
    rcases RecvfromArgs.receive_eq_some hreceive with ⟨hfits, hunpack⟩
    rcases run_recvfromCall (Int32.ofNat args.len) args.flags args.srcAddr
      hout hloop hin hback hfits with
      ⟨first, s₁, r, hfirst, hout₁, hreturned₁, _, _, hback₁, hresult⟩
    rw [hresult] at hok hunpack
    refine ⟨_, _, r, (Foundation.run_append hfirst [.chanRecv ()]).trans
      (Foundation.run_of_step (step_chanRecv_ok hout₁ hback₁ hok) []), ?_,
      hunpack, ?_⟩
    · rw [hreturned₁]
    · rw [hresult]
  · simp only at hcall
    rw [if_neg (by rw [Response.Final, hcode]; simp), hcb] at hcall
    rcases Option.map_eq_some_iff.1 hcall with ⟨_, hreceive, heq⟩
    cases heq
    rcases RecvfromArgs.receive_eq_some hreceive with ⟨hfits, hunpack⟩
    rcases run_recvfromCall (Int32.ofNat args.len) args.flags args.srcAddr
      hout hloop hin hback (recvfromCall_fits_of_waitNext hcode) with
      ⟨first, s₁, r, hfirst, hout₁, hreturned₁, hip₁, hloop₁, hback₁, hresult⟩
    rw [hresult] at hcode hq hcb
    rcases run_waitNext hout₁ hloop₁ hback₁ hcode (hip₁.trans hip) hq hok
      hfits hcb with ⟨actions, s', r', hrun', hreturned, rfl, rfl, hpcb⟩
    refine ⟨_, s', r', (Foundation.run_append hfirst actions).trans hrun', ?_,
      hunpack, ?_⟩
    · rw [hreturned, hreturned₁]
    · rw [hresult, hpcb]

end Channel
end Velox
