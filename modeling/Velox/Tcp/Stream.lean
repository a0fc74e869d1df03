import Velox.Foundation.Pieces
import Velox.Tcp.TcpSession

/-!
# The received byte stream

What `TcpSession::recv` hands to the endpoint, compared with the stream that
the peer sends.  A segment is well formed when its number and its payload are
those of a piece of the stream; the pieces may come in any order, and any of
them may be repeated or missing.
-/

namespace Velox

open Foundation

/-!
## Segments of a stream
-/

/-- A segment that the peer cuts from its stream, as the IP layer passes it
to the session. -/
structure Segment (irs : UInt32) (stream : Bytes) where
  peerAddr : SockaddrIn
  skbuf : Skbuf
  piece : Piece
  seq_eq : ntohl (TcpHdr.seq skbuf.head) = irs + 1 + UInt32.ofNat piece.off
  inside : piece.off + piece.len <= stream.length
  pointers : (TcpSession.stripTcpHdr skbuf.head).PayloadInside
  payload_eq : drainSkbufChain (TcpSession.stripHead skbuf).frames =
    slice stream piece

namespace Segment

variable {irs : UInt32} {stream : Bytes}

def op (seg : Segment irs stream) : TcpSession.Op :=
  .recv seg.peerAddr seg.skbuf

def hasPayload (seg : Segment irs stream) : Bool :=
  decide ((TcpSession.stripTcpHdr seg.skbuf.head).userPayloadLen ≠ 0)

theorem hasPayload_iff (seg : Segment irs stream) :
    seg.hasPayload = true <->
      (TcpSession.stripTcpHdr seg.skbuf.head).userPayloadLen ≠ 0 :=
  decide_eq_true_iff

theorem length_slice (seg : Segment irs stream) :
    (slice stream seg.piece).length = seg.piece.len := by
  have hinside := seg.inside
  rw [slice, List.length_take, List.length_drop]
  lia

theorem len_pos (seg : Segment irs stream) (h : seg.hasPayload = true) :
    0 < seg.piece.len := by
  have hlen := seg.pointers.length_eq
  have hne := seg.hasPayload_iff.1 h
  have hpos : 0 < (TcpSession.stripTcpHdr seg.skbuf.head).userPayloadLen := by
    lia
  have hhead :
      0 < (TcpSession.stripTcpHdr seg.skbuf.head).userPayload.length := by
    lia
  have hdrain : (drainSkbufChain
      (TcpSession.stripTcpHdr seg.skbuf.head :: seg.skbuf.next)).length =
        (slice stream seg.piece).length :=
    congrArg List.length seg.payload_eq
  rw [length_slice, drainSkbufChain_cons seg.pointers,
    List.length_append] at hdrain
  rw [← hdrain]
  exact Nat.add_pos_left hhead _

/-!
Every piece that fits into a frame can be sent: a segment with a plain header
is well formed.
-/

def peerHeader (seq : UInt32) : Bytes :=
  store32 (store8 (List.replicate 20 0) 12 0x50) 4 (ntohl seq)

theorem length_peerHeader (seq : UInt32) : (peerHeader seq).length = 20 := by
  rw [peerHeader, length_store32, length_store8, List.length_replicate]

def peerFrame (seq : UInt32) (payload : Bytes)
    (hsize : payload.length <= 1460) : FrameBuf where
  rawBytes := List.replicate 20 0 ++ (peerHeader seq ++ payload)
  transportHdr := some 20
  networkHdr := some 0
  hdrsBegin := some 0
  hdrsEnd := none
  userPayloadBegin := none
  userPayloadEnd := some (40 + payload.length)
  size_le := by
    rw [List.length_append, List.length_append, List.length_replicate,
      length_peerHeader, maxRawBytesSize]
    lia

theorem pointee_peerFrame (seq : UInt32) (payload : Bytes)
    (hsize : payload.length <= 1460) :
    (peerFrame seq payload hsize).pointee
      (peerFrame seq payload hsize).transportHdr = peerHeader seq ++ payload :=
  List.drop_left' (by rw [List.length_replicate])

theorem seq_peerFrame (seq : UInt32) (payload : Bytes)
    (hsize : payload.length <= 1460) :
    TcpHdr.seq (peerFrame seq payload hsize) = ntohl seq := by
  rw [TcpHdr.seq, pointee_peerFrame]
  have hread : load32 (peerHeader seq ++ payload) 4 =
      load32 (peerHeader seq) 4 := by
    apply load32_congr
    intro k hk
    exact byteAt_append_left _ (by rw [length_peerHeader]; lia)
  rw [hread]
  exact load32_store32 _ _ _ (by simp)

theorem doff_peerFrame (seq : UInt32) (payload : Bytes)
    (hsize : payload.length <= 1460) :
    TcpHdr.doff (peerFrame seq payload hsize) = 5 := by
  rw [TcpHdr.doff, pointee_peerFrame,
    byteAt_append_left _ (by rw [length_peerHeader]; decide), peerHeader,
    byteAt_store32_of_disjoint _ _ (by decide)]
  rfl

theorem strip_peerFrame (seq : UInt32) (payload : Bytes)
    (hsize : payload.length <= 1460) :
    (TcpSession.stripTcpHdr (peerFrame seq payload hsize)).userPayloadBegin =
      some 40 := by
  rw [TcpSession.stripTcpHdr, doff_peerFrame]
  rfl

theorem pointers_peerFrame (seq : UInt32) (payload : Bytes)
    (hsize : payload.length <= 1460) :
    (TcpSession.stripTcpHdr (peerFrame seq payload hsize)).PayloadInside := by
  refine ⟨40, 40 + payload.length, strip_peerFrame _ _ hsize, rfl,
    Nat.le_add_right _ _, ?_⟩
  show _ <= (List.replicate 20 0 ++ (peerHeader seq ++ payload)).length
  rw [List.length_append, List.length_append, List.length_replicate,
    length_peerHeader]
  lia

theorem payload_peerFrame (seq : UInt32) (payload : Bytes)
    (hsize : payload.length <= 1460) :
    (TcpSession.stripTcpHdr (peerFrame seq payload hsize)).userPayload =
      payload := by
  have hdrop : (List.replicate 20 0 ++ (peerHeader seq ++ payload)).drop 40 =
      payload := by
    rw [← List.append_assoc]
    exact List.drop_left' (by
      rw [List.length_append, List.length_replicate, length_peerHeader])
  rw [FrameBuf.userPayload, strip_peerFrame]
  show ((List.replicate 20 0 ++ (peerHeader seq ++ payload)).drop 40).take
    (40 + payload.length - 40) = payload
  rw [hdrop, Nat.add_sub_cancel_left, List.take_length]

def ofPiece (irs : UInt32) (stream : Bytes) (piece : Piece)
    (hinside : piece.off + piece.len <= stream.length)
    (hsize : (slice stream piece).length <= 1460) : Segment irs stream where
  peerAddr := SockaddrIn.inet 0 0
  skbuf :=
    ⟨peerFrame (irs + 1 + UInt32.ofNat piece.off) (slice stream piece) hsize,
      []⟩
  piece := piece
  seq_eq := by
    rw [seq_peerFrame]
    exact bswap32_bswap32 _
  inside := hinside
  pointers := pointers_peerFrame _ _ hsize
  payload_eq := by
    show drainSkbufChain [TcpSession.stripTcpHdr (peerFrame _ _ hsize)] = _
    rw [drainSkbufChain_cons (pointers_peerFrame _ _ hsize),
      payload_peerFrame]
    exact List.append_nil _

theorem hasPayload_ofPiece (irs : UInt32) {stream : Bytes} {piece : Piece}
    (hinside : piece.off + piece.len <= stream.length)
    (hsize : (slice stream piece).length <= 1460) (hlen : 0 < piece.len) :
    (ofPiece irs stream piece hinside hsize).hasPayload = true := by
  have hpayload : ((TcpSession.stripTcpHdr
      (peerFrame (irs + 1 + UInt32.ofNat piece.off) (slice stream piece)
        hsize)).userPayload.length : Int) = _ :=
    (pointers_peerFrame _ _ hsize).length_eq
  rw [payload_peerFrame] at hpayload
  have hslice := (ofPiece irs stream piece hinside hsize).length_slice
  apply (hasPayload_iff _).2
  show (TcpSession.stripTcpHdr (peerFrame _ _ hsize)).userPayloadLen ≠ 0
  rw [← hpayload]
  exact fun hzero => Nat.ne_of_gt hlen (hslice.symm.trans (Int.ofNat.inj hzero))

end Segment

/-!
## What a session hands on
-/

namespace TcpSession

variable {irs : UInt32} {stream : Bytes}

def handed (effects : List Effect) : List Skbuf :=
  effects.filterMap fun e =>
    match e with
    | .putToRecvQ _ skbuf => some skbuf
    | _ => none

def handedBytes (effects : List Effect) : Bytes :=
  (handed effects).flatMap fun skbuf => drainSkbufChain skbuf.frames

def handedPieces (s : TcpSession) : List (Segment irs stream) -> List Piece
  | [] => []
  | seg :: rest =>
      (handed (s.apply seg.op).2).map (fun _ => seg.piece) ++
        (s.apply seg.op).1.handedPieces rest

/-- The bytes handed on are those at the first positions of the stream, each
position once and in order. -/
def HandsOnPrefix (s : TcpSession) (segs : List (Segment irs stream)) : Prop :=
  exists m, positions (s.handedPieces segs) = List.range m ∧
    handedBytes (s.perform (segs.map Segment.op)).2 = stream.take m

theorem handed_append (xs ys : List Effect) :
    handed (xs ++ ys) = handed xs ++ handed ys := by
  simp [handed]

/-- An established session hands on every segment with payload, whatever its
number, and stays established. -/
theorem recv_established {s : TcpSession}
    (hestab : s.connState = .established) (seg : Segment irs stream) :
    handed (s.apply seg.op).2 =
        (if seg.hasPayload then [stripHead seg.skbuf] else []) ∧
      (s.apply seg.op).1.connState = .established := by
  rcases s.readAck_eq seg.skbuf.head with ⟨una, hread⟩
  have hkeep : (s.readAck seg.skbuf.head).connState = .established := by
    rw [hread]
    exact hestab
  show handed (s.recv seg.peerAddr seg.skbuf).2 = _ ∧
    (s.recv seg.peerAddr seg.skbuf).1.connState = _
  by_cases hlen : (stripTcpHdr seg.skbuf.head).userPayloadLen = 0
  · rw [recv_empty hestab seg.peerAddr hlen,
      if_neg (fun h => seg.hasPayload_iff.1 h hlen)]
    exact ⟨rfl, hkeep⟩
  · rw [recv_data hestab seg.peerAddr hlen,
      if_pos (seg.hasPayload_iff.2 hlen)]
    exact ⟨rfl, hkeep⟩

theorem handedPieces_eq {s : TcpSession} (hestab : s.connState = .established)
    (segs : List (Segment irs stream)) :
    s.handedPieces segs = (segs.filter Segment.hasPayload).map Segment.piece := by
  induction segs generalizing s with
  | nil => rfl
  | cons seg rest ih =>
      have hrecv := recv_established hestab seg
      rw [handedPieces, hrecv.1, ih hrecv.2]
      cases hpayload : seg.hasPayload with
      | false =>
          rw [List.filter_cons_of_neg (by rw [hpayload]; nofun)]
          rfl
      | true =>
          rw [List.filter_cons_of_pos hpayload]
          rfl

theorem handedBytes_perform {s : TcpSession}
    (hestab : s.connState = .established) (segs : List (Segment irs stream)) :
    handedBytes (s.perform (segs.map Segment.op)).2 =
      (s.handedPieces segs).flatMap (slice stream) := by
  induction segs generalizing s with
  | nil => rfl
  | cons seg rest ih =>
      have hrecv := recv_established hestab seg
      have hrest := ih hrecv.2
      rw [handedBytes] at hrest
      rw [handedPieces, List.map_cons, perform, handedBytes, handed_append,
        List.flatMap_append, List.flatMap_append, hrest, hrecv.1]
      cases hpayload : seg.hasPayload with
      | false => rfl
      | true =>
          congr 1
          simpa using seg.payload_eq

/-- The segments with payload arrive one after the other: the first starts at
the beginning of the stream, every other where the one before it ends. -/
def InSequence (segs : List (Segment irs stream)) : Prop :=
  Tiles 0 ((segs.filter Segment.hasPayload).map Segment.piece)

theorem InSequence.take {segs : List (Segment irs stream)}
    (h : InSequence segs) (n : Nat) : InSequence (segs.take n) := by
  have hsplit : (segs.filter Segment.hasPayload).map Segment.piece =
      ((segs.take n).filter Segment.hasPayload).map Segment.piece ++
        ((segs.drop n).filter Segment.hasPayload).map Segment.piece := by
    rw [← List.map_append, ← List.filter_append, List.take_append_drop]
  have hprefix := Tiles.take h
    (((segs.take n).filter Segment.hasPayload).map Segment.piece).length
  rw [hsplit, List.take_left] at hprefix
  exact hprefix

/-- The bytes handed on are at all times a prefix of the stream exactly when
the segments with payload arrive in sequence. -/
theorem handsOnPrefix_iff_inSequence {s : TcpSession}
    (hestab : s.connState = .established)
    (segs : List (Segment s.irs stream)) :
    (forall n, s.HandsOnPrefix (segs.take n)) <-> InSequence segs := by
  constructor
  · intro h
    rcases h segs.length with ⟨m, hpositions, _⟩
    rw [List.take_length, handedPieces_eq hestab] at hpositions
    apply tiles_of_positions (m := m)
    · intro p hp
      rcases List.mem_map.1 hp with ⟨seg, hseg, rfl⟩
      exact seg.len_pos (List.mem_filter.1 hseg).2
    · exact hpositions
  · intro h n
    have hprefix := h.take n
    rw [InSequence, ← handedPieces_eq hestab] at hprefix
    refine ⟨totalLen (s.handedPieces (segs.take n)), ?_, ?_⟩
    · have hpositions := hprefix.positions_eq
      rw [Nat.zero_add] at hpositions
      exact hpositions
    · have hslices := hprefix.slices_eq stream
      rw [Nat.zero_add, List.take_zero, List.nil_append] at hslices
      rw [handedBytes_perform hestab]
      exact hslices

def establishedSession : TcpSession where
  faddr := 0x0200a8c0
  fport := 0x5000
  laddr := 0x0100a8c0
  lport := 0x0104
  connState := .established
  onConnEstabCB := true
  sendUnack := 2
  sendNext := 2
  irs := 7
  recvNext := 8

def firstByte : Segment establishedSession.irs [104, 105] :=
  Segment.ofPiece _ _ ⟨0, 1⟩ (by decide) (by decide)

def secondByte : Segment establishedSession.irs [104, 105] :=
  Segment.ofPiece _ _ ⟨1, 1⟩ (by decide) (by decide)

/-- Two segments in exchanged order: their bytes are handed on exchanged. -/
theorem exchanged_segments_not_prefix :
    establishedSession.connState = .established ∧
      handedBytes (establishedSession.perform
        ([secondByte, firstByte].map Segment.op)).2 = [105, 104] ∧
      ¬ [105, 104] <+: ([104, 105] : Bytes) ∧
      ¬ establishedSession.HandsOnPrefix [secondByte, firstByte] := by
  refine ⟨rfl, by decide, by decide, ?_⟩
  rintro ⟨m, hpositions, hbytes⟩
  have hhanded : handedBytes (establishedSession.perform
      ([secondByte, firstByte].map Segment.op)).2 = [105, 104] := by decide
  rw [hhanded] at hbytes
  have hprefix : ([105, 104] : Bytes) <+: [104, 105] := by
    rw [hbytes]
    exact List.take_prefix _ _
  exact absurd hprefix (by decide)

theorem handsOnPrefix_in_order :
    establishedSession.connState = .established ∧
      InSequence [firstByte, secondByte] ∧
      forall n, establishedSession.HandsOnPrefix
        ([firstByte, secondByte].take n) := by
  have hsequence : InSequence [firstByte, secondByte] := by
    show Tiles 0 _
    decide
  exact ⟨rfl, hsequence,
    (handsOnPrefix_iff_inSequence rfl [firstByte, secondByte]).2 hsequence⟩

end TcpSession

end Velox
