import Velox.Arbiter.Endpoint
import Velox.Foundation.Runs
import Velox.Tcp.Layout
import Velox.Tcp.Stream

/-!
# Acknowledgements and the receive queue

`TcpSession::recv` acknowledges a segment whether or not the endpoint has room
for it.  The model runs a session together with its endpoint and records which
pieces of the stream the endpoint accepts and which numbers are acknowledged.
-/

namespace Velox

open Foundation

namespace TcpSession

theorem ackSegment_ackSeq (s : TcpSession) (value : UInt32) :
    ntohl (TcpHdr.ackSeq (s.prepareBeforeIpTx (s.ackFrame value) [])) =
      value := by
  have hprep := s.prepareBeforeIpTx_laidOut [] (s.ack_laidOut value)
    (s.ackHeader_ready value).doff
  have hlen := s.templ_laidOut.tcpLength
  rw [hprep.ackSeq, load32_store16_of_disjoint _ _ (by decide), ackHeader,
    load32_store32_of_disjoint _ _ (by decide),
    load32_store32 _ _ _ (by simp [hlen])]
  exact bswap32_bswap32 value

end TcpSession

/-- A session, its endpoint, and what has happened so far: the pieces that
went into the queue and the numbers that were acknowledged. -/
structure Receiver where
  session : TcpSession
  so : Endpoint
  accepted : List Piece
  acks : List UInt32

namespace Receiver

variable {irs : UInt32} {stream : Bytes}

/-- What happens at the receiver: a segment of the peer, or a `recvfrom` of
the application, which takes a packet if there is one. -/
inductive Event (irs : UInt32) (stream : Bytes) where
  | segment (seg : Segment irs stream)
  | recvfrom

def absorb (piece : Piece) (r : Receiver) : Effect -> Receiver
  | .putToRecvQ peerAddr skbuf =>
      if r.so.recvQOverLimit then r
      else
        { r with
          so := r.so.putToRecvQ ⟨peerAddr, skbuf⟩
          accepted := r.accepted ++ [piece] }
  | .tx f _ => { r with acks := r.acks ++ [ntohl (TcpHdr.ackSeq f)] }
  | _ => r

def step (r : Receiver) : Event irs stream -> Option Receiver
  | .segment seg =>
      some ((r.session.recv seg.peerAddr seg.skbuf).2.foldl (absorb seg.piece)
        { r with session := (r.session.recv seg.peerAddr seg.skbuf).1 })
  | .recvfrom =>
      match r.so.tryTakeFromRecvQ with
      | none => some r
      | some (_, so) => some { r with so := so }

def arrivals (events : List (Event irs stream)) : List Piece :=
  events.filterMap fun event =>
    match event with
    | .segment seg => some seg.piece
    | .recvfrom => none

/-- The bytes below every acknowledged number went into the queue. -/
def AcksCovered (irs : UInt32) (r : Receiver) : Prop :=
  forall a, a ∈ r.acks -> forall i, i < (a - (irs + 1)).toNat ->
    i ∈ positions r.accepted

/-- The queue is not over its limit when a segment with payload arrives. -/
def HasRoom (r : Receiver) : Event irs stream -> Prop
  | .segment seg => seg.hasPayload = true -> r.so.recvQOverLimit = false
  | .recvfrom => True

/-!
## One segment
-/

theorem userPayloadLen_eq (seg : Segment irs stream)
    (hnext : seg.skbuf.next = []) :
    (TcpSession.stripTcpHdr seg.skbuf.head).userPayloadLen =
      seg.piece.len := by
  have hpayload : drainSkbufChain
      (TcpSession.stripTcpHdr seg.skbuf.head :: seg.skbuf.next) =
        slice stream seg.piece := seg.payload_eq
  rw [drainSkbufChain_cons seg.pointers, hnext] at hpayload
  have hlen := congrArg List.length hpayload
  rw [List.length_append, seg.length_slice] at hlen
  rw [← seg.pointers.length_eq, ← hlen]
  rfl

theorem ofInt_natCast {n : Nat} (hlt : n < 2 ^ 32) :
    UInt32.ofInt n = UInt32.ofNat n := by
  rw [UInt32.ofInt]
  congr 1
  lia

theorem ack_sub (irs : UInt32) {off len : Nat} (hlt : off + len < 2 ^ 32) :
    (irs + 1 + UInt32.ofNat off + UInt32.ofInt len - (irs + 1)).toNat =
      off + len := by
  rw [ofInt_natCast (Nat.lt_of_le_of_lt (Nat.le_add_left _ _) hlt),
    UInt32.add_assoc, ← UInt32.ofNat_add, UInt32.add_comm,
    UInt32.add_sub_cancel, UInt32.toNat_ofNat', Nat.mod_eq_of_lt hlt]

theorem absorb_ack2peer (piece : Piece) (r : Receiver) (s : TcpSession)
    (value : UInt32) :
    absorb piece r (s.ack2peer value) =
      { r with acks := r.acks ++ [value] } := by
  rw [TcpSession.ack2peer, absorb, s.ackSegment_ackSeq]

/-- The receiver after a segment with payload: the segment is acknowledged
whether or not it is accepted. -/
def afterData (r : Receiver) (seg : Segment irs stream) : Receiver :=
  { absorb seg.piece r
      (.putToRecvQ seg.peerAddr (TcpSession.stripHead seg.skbuf)) with
    session := r.session.dataReceived seg.skbuf.head
    acks := r.acks ++ [irs + 1 + UInt32.ofNat seg.piece.off +
      UInt32.ofInt seg.piece.len] }

theorem step_data {r : Receiver} (hestab : r.session.connState = .established)
    (seg : Segment irs stream) (hnext : seg.skbuf.next = [])
    (hpayload : seg.hasPayload = true) :
    step r (.segment seg) = some (r.afterData seg) := by
  have hvalue : (r.session.dataReceived seg.skbuf.head).recvNext =
      irs + 1 + UInt32.ofNat seg.piece.off + UInt32.ofInt seg.piece.len := by
    rw [TcpSession.dataReceived, userPayloadLen_eq seg hnext, seg.seq_eq]
  show some ((r.session.recv seg.peerAddr seg.skbuf).2.foldl
    (absorb seg.piece)
    { r with session := (r.session.recv seg.peerAddr seg.skbuf).1 }) = _
  rw [TcpSession.recv_data hestab seg.peerAddr (seg.hasPayload_iff.1 hpayload)]
  simp only [List.foldl, absorb_ack2peer, hvalue, afterData]
  cases hlimit : r.so.recvQOverLimit with
  | true => simp only [absorb, hlimit, if_true]
  | false => simp only [absorb, hlimit, Bool.false_eq_true, if_false]

theorem step_empty {r : Receiver}
    (hestab : r.session.connState = .established)
    (seg : Segment irs stream) (hpayload : ¬ seg.hasPayload = true) :
    step r (.segment seg) =
      some { r with session := r.session.readAck seg.skbuf.head } := by
  have hlen : (TcpSession.stripTcpHdr seg.skbuf.head).userPayloadLen = 0 := by
    by_contra hsome
    exact hpayload (seg.hasPayload_iff.2 hsome)
  show some ((r.session.recv seg.peerAddr seg.skbuf).2.foldl
    (absorb seg.piece)
    { r with session := (r.session.recv seg.peerAddr seg.skbuf).1 }) = _
  rw [TcpSession.recv_empty hestab seg.peerAddr hlen]
  rfl

/-!
## Runs
-/

/-- The invariant while no segment has been refused: the first `e` bytes of
the stream are in, and no acknowledgement goes beyond them. -/
structure Tracking (irs : UInt32) (e : Nat) (r : Receiver) : Prop where
  estab : r.session.connState = .established
  accepted : positions r.accepted = List.range e
  acks : forall a, a ∈ r.acks -> (a - (irs + 1)).toNat <= e

theorem Tracking.acksCovered {e : Nat} {r : Receiver}
    (h : Tracking irs e r) : AcksCovered irs r := by
  intro a ha i hi
  rw [h.accepted, List.mem_range]
  exact Nat.lt_of_lt_of_le hi (h.acks a ha)

theorem positions_append (xs ys : List Piece) :
    positions (xs ++ ys) = positions xs ++ positions ys := by
  rw [positions, positions, positions, List.flatMap_append]

theorem readAck_established {s : TcpSession} (f : FrameBuf)
    (hestab : s.connState = .established) :
    (s.readAck f).connState = .established := by
  rcases s.readAck_eq f with ⟨una, hread⟩
  rw [hread]
  exact hestab

theorem Tracking.afterData {r : Receiver} {seg : Segment irs stream}
    (h : Tracking irs seg.piece.off r)
    (hroom : r.so.recvQOverLimit = false)
    (hlt : seg.piece.off + seg.piece.len < 2 ^ 32) :
    Tracking irs (seg.piece.off + seg.piece.len) (r.afterData seg) where
  estab := readAck_established seg.skbuf.head h.estab
  accepted := by
    have hgrown : (r.afterData seg).accepted = r.accepted ++ [seg.piece] := by
      simp only [Receiver.afterData, absorb, hroom, Bool.false_eq_true,
        if_false]
    have htiles : Tiles seg.piece.off [seg.piece] := ⟨rfl, trivial⟩
    rw [hgrown, positions_append, h.accepted, htiles.positions_eq]
    rfl
  acks := by
    intro a ha
    rcases List.mem_append.1 ha with hold | hnew
    · exact Nat.le_trans (h.acks a hold) (Nat.le_add_right _ _)
    · rw [List.mem_singleton.1 hnew, ack_sub irs hlt]

/-- A segment that is refused leaves an acknowledgement uncovered. -/
theorem Tracking.refused {r : Receiver} {seg : Segment irs stream}
    (h : Tracking irs seg.piece.off r) (hfull : r.so.recvQOverLimit = true)
    (hpayload : seg.hasPayload = true)
    (hlt : seg.piece.off + seg.piece.len < 2 ^ 32) :
    ¬ AcksCovered irs (r.afterData seg) := by
  intro hcovered
  have hlen := seg.len_pos hpayload
  have hsame : (r.afterData seg).accepted = r.accepted := by
    simp only [Receiver.afterData, absorb, hfull, if_true]
  have hmem := hcovered _ (List.mem_append_right _ (List.mem_singleton.2 rfl))
    seg.piece.off (by rw [ack_sub irs hlt]; lia)
  rw [hsame, h.accepted, List.mem_range] at hmem
  exact Nat.lt_irrefl _ hmem

def arrivedEnd (e : Nat) : Event irs stream -> Nat
  | .segment seg => e + seg.piece.len
  | .recvfrom => e

theorem tiles_arrivals_cons {e : Nat} {event : Event irs stream}
    {rest : List (Event irs stream)}
    (h : Tiles e (arrivals (event :: rest))) :
    Tiles (arrivedEnd e event) (arrivals rest) := by
  cases event with
  | segment seg => exact h.2
  | recvfrom => exact h

/-- The event is a segment in sequence in one frame, or a `recvfrom`. -/
def InPlace (e : Nat) : Event irs stream -> Prop
  | .segment seg => seg.skbuf.next = [] ∧ seg.piece.off = e
  | .recvfrom => True

theorem inPlace_of_arrivals {e : Nat} {event : Event irs stream}
    {rest : List (Event irs stream)}
    (hunfrag : forall seg, Event.segment seg ∈ event :: rest ->
      seg.skbuf.next = [])
    (hseq : Tiles e (arrivals (event :: rest))) : InPlace e event := by
  cases event with
  | segment seg => exact ⟨hunfrag seg List.mem_cons_self, hseq.1⟩
  | recvfrom => trivial

theorem Tracking.step {e : Nat} {r : Receiver} {event : Event irs stream}
    (h : Tracking irs e r) (hstream : stream.length < 2 ^ 32)
    (hplace : InPlace e event) (hroom : HasRoom r event) :
    exists r', step r event = some r' ∧
      Tracking irs (arrivedEnd e event) r' := by
  cases event with
  | segment seg =>
      rcases hplace with ⟨hnext, rfl⟩
      by_cases hpayload : seg.hasPayload = true
      · refine ⟨_, step_data h.estab seg hnext hpayload, ?_⟩
        exact h.afterData (hroom hpayload)
          (Nat.lt_of_le_of_lt seg.inside hstream)
      · refine ⟨_, step_empty h.estab seg hpayload, ?_⟩
        have hzero : seg.piece.len = 0 := by
          have hlen := userPayloadLen_eq seg hnext
          have hnone := mt seg.hasPayload_iff.2 hpayload
          lia
        show Tracking irs (seg.piece.off + seg.piece.len) _
        rw [hzero]
        exact ⟨readAck_established _ h.estab, h.accepted, h.acks⟩
  | recvfrom =>
      show exists r', (match r.so.tryTakeFromRecvQ with
        | none => some r
        | some (_, so) => some { r with so := so }) = some r' ∧ _
      cases htake : r.so.tryTakeFromRecvQ with
      | none => exact ⟨r, rfl, h⟩
      | some taken => exact ⟨_, rfl, h.estab, h.accepted, h.acks⟩

/-- A segment that meets a queue over its limit breaks the property. -/
theorem Tracking.hasRoom {e : Nat} {r : Receiver} {event : Event irs stream}
    (h : Tracking irs e r) (hstream : stream.length < 2 ^ 32)
    (hplace : InPlace e event)
    (hcovered : forall r', Receiver.step r event = some r' ->
      AcksCovered irs r') :
    HasRoom r event := by
  cases event with
  | segment seg =>
      rcases hplace with ⟨hnext, rfl⟩
      intro hpayload
      cases hlimit : r.so.recvQOverLimit with
      | false => rfl
      | true =>
          have hrefused := h.refused hlimit hpayload
            (Nat.lt_of_le_of_lt seg.inside hstream)
          exact absurd (hcovered _ (step_data h.estab seg hnext hpayload))
            hrefused
  | recvfrom => trivial

theorem Tracking.acksCovered_iff {e : Nat} {r : Receiver}
    (h : Tracking irs e r) (hstream : stream.length < 2 ^ 32)
    (events : List (Event irs stream))
    (hunfrag : forall seg, Event.segment seg ∈ events -> seg.skbuf.next = [])
    (hseq : Tiles e (arrivals events)) :
    (forall n r', run Receiver.step r (events.take n) = some r' ->
        AcksCovered irs r') <->
      StepsMeet Receiver.step HasRoom r events := by
  induction events generalizing r e with
  | nil =>
      constructor
      · intro _
        trivial
      · intro _ n r' hrun
        rw [List.take_nil] at hrun
        cases hrun
        exact h.acksCovered
  | cons event rest ih =>
      have hplace := inPlace_of_arrivals hunfrag hseq
      have hrest := fun seg hseg => hunfrag seg (List.mem_cons_of_mem _ hseg)
      have hseqRest := tiles_arrivals_cons hseq
      constructor
      · intro hall
        have hroom : HasRoom r event := by
          apply h.hasRoom hstream hplace
          intro r' hstep
          apply hall 1 r'
          rw [List.take_succ_cons, List.take_zero, run, hstep]
          rfl
        rcases h.step hstream hplace hroom with ⟨mid, hstep, hmid⟩
        rw [StepsMeet, hstep]
        refine ⟨hroom, (ih hmid hrest hseqRest).1 ?_⟩
        intro n r' hrun
        apply hall (n + 1) r'
        rw [List.take_succ_cons, run, hstep]
        exact hrun
      · intro hmeet n r' hrun
        rcases h.step hstream hplace hmeet.1 with ⟨mid, hstep, hmid⟩
        rw [StepsMeet, hstep] at hmeet
        cases n with
        | zero =>
            cases hrun
            exact h.acksCovered
        | succ n =>
            rw [List.take_succ_cons, run, hstep] at hrun
            exact (ih hmid hrest hseqRest).2 hmeet.2 n r' hrun

def start (s : TcpSession) (so : Endpoint) : Receiver where
  session := s
  so := so
  accepted := []
  acks := []

/-- While the segments of the peer arrive in sequence, the acknowledged bytes
are all in the queue exactly as long as no segment with payload meets a queue
over its limit. -/
theorem acksCovered_iff_hasRoom {s : TcpSession}
    (hestab : s.connState = .established) (so : Endpoint) {stream : Bytes}
    (hstream : stream.length < 2 ^ 32)
    (events : List (Event s.irs stream))
    (hunfrag : forall seg, Event.segment seg ∈ events -> seg.skbuf.next = [])
    (hseq : Tiles 0 (arrivals events)) :
    (forall n r, run step (start s so) (events.take n) = some r ->
        AcksCovered s.irs r) <->
      StepsMeet step HasRoom (start s so) events := by
  have htracking : Tracking s.irs 0 (start s so) :=
    ⟨hestab, rfl, fun a ha => absurd ha List.not_mem_nil⟩
  exact htracking.acksCovered_iff hstream events hunfrag hseq

def readEvents : List (Event TcpSession.establishedSession.irs [104, 105]) :=
  [.segment TcpSession.firstByte, .recvfrom, .segment TcpSession.secondByte]

theorem acksCovered_of_read_segments :
    StepsMeet step HasRoom
        (start TcpSession.establishedSession (Endpoint.create false))
        readEvents ∧
      forall n r, run step (start TcpSession.establishedSession
        (Endpoint.create false)) (readEvents.take n) = some r ->
          AcksCovered TcpSession.establishedSession.irs r := by
  have hmeet : StepsMeet step HasRoom (start TcpSession.establishedSession
      (Endpoint.create false)) readEvents :=
    ⟨fun _ => rfl, trivial, fun _ => rfl, trivial⟩
  refine ⟨hmeet, (acksCovered_iff_hasRoom rfl _ (by decide) readEvents ?_
    (by decide)).2 hmeet⟩
  intro seg hmem
  rcases List.mem_cons.1 hmem with hfirst | hmem
  · cases hfirst
    rfl
  · rcases List.mem_cons.1 hmem with hread | hmem
    · cases hread
    · cases List.mem_singleton.1 hmem
      rfl

theorem length_le_of_hasRoom {r : Receiver}
    (hestab : r.session.connState = .established)
    {segs : List (Segment irs stream)} (hne : segs ≠ [])
    (hsegs : forall seg, seg ∈ segs ->
      seg.skbuf.next = [] ∧ seg.hasPayload = true)
    (hmeet : StepsMeet step HasRoom r (segs.map Event.segment)) :
    r.so.recvQ.length + segs.length <= Endpoint.recvQlimit + 1 := by
  induction segs generalizing r with
  | nil => exact absurd rfl hne
  | cons seg rest ih =>
      rcases hsegs seg List.mem_cons_self with ⟨hnext, hpayload⟩
      rw [List.map_cons, StepsMeet, step_data hestab seg hnext hpayload]
        at hmeet
      have hroom : r.so.recvQOverLimit = false := hmeet.1 hpayload
      have hle : r.so.recvQ.length <= Endpoint.recvQlimit :=
        Nat.le_of_not_lt (of_decide_eq_false hroom)
      cases rest with
      | nil => exact Nat.succ_le_succ hle
      | cons next more =>
          have hbound := ih (readAck_established seg.skbuf.head hestab)
            (List.cons_ne_nil next more)
            (fun seg' hmem => hsegs seg' (List.mem_cons_of_mem _ hmem))
            hmeet.2
          have hlen : (r.afterData seg).so.recvQ.length =
              r.so.recvQ.length + 1 := by
            simp only [afterData, absorb, hroom, Bool.false_eq_true, if_false,
              Endpoint.putToRecvQ]
            exact List.length_append
          rw [hlen] at hbound
          rw [List.length_cons]
          lia

theorem arrivals_segments (segs : List (Segment irs stream)) :
    arrivals (segs.map Event.segment) = segs.map Segment.piece := by
  induction segs with
  | nil => rfl
  | cons seg rest ih =>
      rw [List.map_cons, List.map_cons, ← ih]
      rfl

def byteSegment (i : Fin 130) :
    Segment TcpSession.establishedSession.irs (List.replicate 130 0) :=
  Segment.ofPiece _ _ ⟨i, 1⟩ (by rw [List.length_replicate]; exact i.isLt)
    (Nat.le_trans (List.length_take_le _ _) (show 1 <= 1460 by decide))

/-- An application that does not read while 130 bytes arrive one by one. -/
def unreadEvents :
    List (Event TcpSession.establishedSession.irs (List.replicate 130 0)) :=
  (List.ofFn byteSegment).map Event.segment

theorem unread_segments_acknowledged_and_lost :
    TcpSession.establishedSession.connState = .established ∧
      Tiles 0 (arrivals unreadEvents) ∧
      ¬ (forall n r,
        run step (start TcpSession.establishedSession
          (Endpoint.create false)) (unreadEvents.take n) = some r ->
            AcksCovered TcpSession.establishedSession.irs r) := by
  have hseq : Tiles 0 (arrivals unreadEvents) := by
    have htiles := tiles_singles 0 130
    simp only [Nat.zero_add] at htiles
    rw [unreadEvents, arrivals_segments, List.map_ofFn]
    exact htiles
  have hsegs : forall seg, seg ∈ List.ofFn byteSegment ->
      seg.skbuf.next = [] ∧ seg.hasPayload = true := by
    intro seg hmem
    rcases List.mem_ofFn.1 hmem with ⟨i, rfl⟩
    exact ⟨rfl, Segment.hasPayload_ofPiece _ _ _ Nat.one_pos⟩
  have htracking : Tracking TcpSession.establishedSession.irs 0
      (start TcpSession.establishedSession (Endpoint.create false)) :=
    ⟨rfl, rfl, fun a ha => absurd ha List.not_mem_nil⟩
  refine ⟨rfl, hseq, ?_⟩
  intro hall
  have hmeet := (htracking.acksCovered_iff
    (by rw [List.length_replicate]; decide) unreadEvents
    (fun seg hmem => by
      rcases List.mem_map.1 hmem with ⟨seg', hmem', heq⟩
      cases heq
      exact (hsegs seg hmem').1) hseq).1 hall
  have hlen : (List.ofFn byteSegment).length = 130 := List.length_ofFn
  have hne : List.ofFn byteSegment ≠ [] :=
    List.ne_nil_of_length_eq_add_one hlen
  have hbound := length_le_of_hasRoom rfl hne hsegs hmeet
  rw [hlen] at hbound
  exact absurd hbound (by decide)

end Receiver

end Velox
