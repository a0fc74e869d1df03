import Velox.Arbiter.RpcDispatch
import Velox.Interceptor.FdPool

/-!
# Requests of the interceptor

The interposed functions decide from their arguments whether a call is handed
on to glibc, returns at once, or becomes a request to the daemon.  `socket`
looks at the domain and the type of the socket; `write` and `send` come down
to `sendto`, which packs the whole buffer into one request.
-/

namespace Velox

open Foundation

inductive Interposed (α : Type) where
  /-- The function of glibc is called with the arguments. -/
  | glibc (args : α)
  | ret (value : Int)
  /-- `chan_send`. -/
  | request (calling : Calling)
  deriving DecidableEq

namespace Interposed

variable {α : Type}

/-- The packed request is written to the buffer of `chan_send`, whose size
only an assertion looks at. -/
def FitsBuffer (out : Interposed α) (pid : UInt64) : Prop :=
  forall calling, out = .request calling ->
    calling.requestSize pid <= rpcMessageMaxSize

theorem fitsBuffer_ret (value : Int) (pid : UInt64) :
    (ret value : Interposed α).FitsBuffer pid := by
  intro calling h
  cases h

theorem fitsBuffer_request_iff (calling : Calling) (pid : UInt64) :
    (request calling : Interposed α).FitsBuffer pid <->
      calling.requestSize pid <= rpcMessageMaxSize := by
  constructor
  case mp => exact fun h => h calling rfl
  case mpr =>
    intro hsize calling' h
    cases h
    exact hsize

end Interposed

/-!
## Sending
-/

/-- The calls that send, with what they are given beside the descriptor; a
null pointer is `none`. -/
inductive SendCall where
  | write (buf : Option Bytes)
  | send (buf : Option Bytes) (flags : Int32)
  | sendto (buf : Option Bytes) (flags : Int32) (destAddr : Option Bytes)
  deriving DecidableEq

namespace SendCall

def buf : SendCall -> Option Bytes
  | .write buf => buf
  | .send buf _ => buf
  | .sendto buf _ _ => buf

def flags : SendCall -> Int32
  | .write _ => 0
  | .send _ flags => flags
  | .sendto _ flags _ => flags

def destAddr : SendCall -> Option Bytes
  | .sendto _ _ destAddr => destAddr
  | _ => none

end SendCall

namespace Interceptor

/-- `sendto`; the length of a null buffer does not matter. -/
def sendto (r : FdRange) (sockfd : Nat) (buf : Option Bytes) (flags : Int32)
    (destAddr : Option Bytes) : Interposed SendCall :=
  if !r.isAssignedByVelox sockfd then .glibc (.sendto buf flags destAddr)
  else
    match buf with
    | none => .ret 0
    | some bytes =>
        if bytes.length = 0 then .ret 0
        else .request (.sendtoCall bytes flags destAddr)

def send (r : FdRange) (sockfd : Nat) (buf : Option Bytes) (flags : Int32) :
    Interposed SendCall :=
  if !r.isAssignedByVelox sockfd then .glibc (.send buf flags)
  else sendto r sockfd buf flags none

def write (r : FdRange) (fd : Nat) (buf : Option Bytes) :
    Interposed SendCall :=
  if !r.isAssignedByVelox fd then .glibc (.write buf)
  else sendto r fd buf 0 none

end Interceptor

namespace SendCall

def run (r : FdRange) (fd : Nat) : SendCall -> Interposed SendCall
  | .write buf => Interceptor.write r fd buf
  | .send buf flags => Interceptor.send r fd buf flags
  | .sendto buf flags destAddr => Interceptor.sendto r fd buf flags destAddr

/-- All three functions come down to `sendto`. -/
theorem run_eq_sendto {r : FdRange} {fd : Nat}
    (hfd : r.isAssignedByVelox fd = true) (call : SendCall) :
    call.run r fd =
      Interceptor.sendto r fd call.buf call.flags call.destAddr := by
  cases call with
  | write bytes => simp [run, Interceptor.write, hfd, buf, flags, destAddr]
  | send buf flags =>
      simp [run, Interceptor.send, hfd, SendCall.buf, SendCall.flags,
        destAddr]
  | sendto buf flags destAddr => rfl

/-- The whole buffer goes into the request, so it fits exactly when buffer,
address and the fields before them do. -/
theorem fitsBuffer_iff {r : FdRange} {fd : Nat}
    (hfd : r.isAssignedByVelox fd = true) (call : SendCall) (pid : UInt64) :
    (call.run r fd).FitsBuffer pid <->
      forall bytes, call.buf = some bytes ->
        bytes.length = 0 ∨
          bytes.length + varintSize bytes.length +
            int32FieldSize (some call.flags) + bytesFieldSize call.destAddr +
            varintSize pid.toNat + 6 <= rpcMessageMaxSize := by
  rw [run_eq_sendto hfd]
  unfold Interceptor.sendto
  rw [hfd]
  cases hbuf : call.buf with
  | none =>
      refine iff_of_true (Interposed.fitsBuffer_ret 0 pid) ?_
      intro bytes h
      cases h
  | some bytes =>
      simp only [Option.some.injEq, forall_eq', Bool.not_true,
        Bool.false_eq_true, if_false]
      by_cases hlen : bytes.length = 0
      · rw [if_pos hlen]
        exact iff_of_true (Interposed.fitsBuffer_ret 0 pid) (Or.inl hlen)
      · rw [if_neg hlen, Interposed.fitsBuffer_request_iff,
          Calling.requestSize_sendtoCall_le_iff, or_iff_right hlen]

theorem fitsBuffer_segment :
    (run ⟨4096, 1, by decide, by decide⟩ 4096
      (.write (some (List.replicate 1460 0)))).FitsBuffer 1 := by
  refine (fitsBuffer_iff (by decide) _ 1).2 ?_
  intro bytes h
  cases h
  rw [List.length_replicate]
  decide

/-- A write of as many bytes as the buffer has. -/
theorem bufferful_overflows :
    exists calling,
      run ⟨4096, 1, by decide, by decide⟩ 4096
          (.write (some (List.replicate 81920 0))) = .request calling ∧
        calling.requestSize 1 = 81932 ∧ rpcMessageMaxSize = 81920 := by
  have hlen : (List.replicate 81920 (0 : UInt8)).length = 81920 :=
    List.length_replicate
  refine ⟨.sendtoCall (List.replicate 81920 0) 0 none, ?_, ?_, rfl⟩
  · rw [run_eq_sendto (by decide)]
    unfold Interceptor.sendto buf
    simp only [hlen]
    rfl
  · rw [Calling.requestSize_sendtoCall, hlen]
    decide

end SendCall

/-!
## Sockets
-/

structure SocketArgs where
  domain : Int32
  type : Int32
  protocol : Int32
  deriving DecidableEq

namespace Interceptor

def afInet : Int32 := 2

def socket (args : SocketArgs) : Interposed SocketArgs :=
  if args.domain ≠ afInet then .glibc args
  else if args.type &&& RpcDispatch.sockStream = 0 ∧
      args.type &&& RpcDispatch.sockDgram = 0 then
    .glibc args
  else .request (.socketCall args.domain args.type args.protocol)

end Interceptor

namespace SocketArgs

/-- The type without the flags that may be combined with it. -/
def baseType (args : SocketArgs) : Int32 :=
  args.type &&& 0xf

def Creates (laddr uninit : UInt32) (calling : Calling) (tcp : Bool) :
    Prop :=
  exists domain type protocol sock resp,
    calling = .socketCall domain type protocol ∧
      RpcDispatch.socketCall laddr uninit type = some (sock, resp) ∧
      sock.pcb.isTcp = tcp

/-- A call is treated by its real type: only those for a stream or a datagram
socket of the Internet domain become a request, for which the daemon creates
the endpoint meant, and all others go to glibc with their arguments. -/
structure Classified (laddr uninit : UInt32) (args : SocketArgs) : Prop where
  taken : (exists calling, Interceptor.socket args = .request calling) <->
    args.domain = Interceptor.afInet ∧
      (args.baseType = RpcDispatch.sockStream ∨
        args.baseType = RpcDispatch.sockDgram)
  tcp : forall calling, Interceptor.socket args = .request calling ->
    (Creates laddr uninit calling true <->
      args.baseType = RpcDispatch.sockStream)
  udp : forall calling, Interceptor.socket args = .request calling ->
    (Creates laddr uninit calling false <->
      args.baseType = RpcDispatch.sockDgram)
  passed : (forall calling, Interceptor.socket args ≠ .request calling) ->
    Interceptor.socket args = .glibc args

theorem socket_eq_request_iff {args : SocketArgs} {calling : Calling} :
    Interceptor.socket args = .request calling <->
      args.domain = Interceptor.afInet ∧
        ¬ (args.type &&& RpcDispatch.sockStream = 0 ∧
          args.type &&& RpcDispatch.sockDgram = 0) ∧
        calling = .socketCall args.domain args.type args.protocol := by
  unfold Interceptor.socket
  by_cases hdomain : args.domain = Interceptor.afInet
  · rw [if_neg (fun h => h hdomain), and_iff_right hdomain]
    by_cases htype : args.type &&& RpcDispatch.sockStream = 0 ∧
        args.type &&& RpcDispatch.sockDgram = 0
    · simp [htype]
    · rw [if_neg htype, and_iff_right htype, Interposed.request.injEq]
      exact eq_comm
  · simp [hdomain]

theorem socket_eq_glibc {args : SocketArgs}
    (h : forall calling, Interceptor.socket args ≠ .request calling) :
    Interceptor.socket args = .glibc args := by
  unfold Interceptor.socket at h ⊢
  split
  · rfl
  · split
    · rfl
    · rename_i hdomain htype
      rw [if_neg hdomain, if_neg htype] at h
      exact absurd rfl (h _)

theorem creates_iff (laddr uninit : UInt32) (domain type protocol : Int32)
    (tcp : Bool) :
    Creates laddr uninit (.socketCall domain type protocol) tcp <->
      if tcp then type &&& RpcDispatch.sockStream ≠ 0
      else type &&& RpcDispatch.sockStream = 0 ∧
        type &&& RpcDispatch.sockDgram ≠ 0 := by
  have hcall : Creates laddr uninit (.socketCall domain type protocol) tcp <->
      exists made, RpcDispatch.socketCall laddr uninit type = some made ∧
        made.1.pcb.isTcp = tcp := by
    constructor
    · rintro ⟨domain', type', protocol', sock, resp, heq, hmade, hkind⟩
      cases heq
      exact ⟨(sock, resp), hmade, hkind⟩
    · rintro ⟨made, hmade, hkind⟩
      exact ⟨domain, type, protocol, made.1, made.2, rfl, hmade, hkind⟩
  rw [hcall]
  unfold RpcDispatch.socketCall
  by_cases hstream : type &&& RpcDispatch.sockStream = 0
  · by_cases hdgram : type &&& RpcDispatch.sockDgram = 0
    · cases tcp <;> simp [hstream, hdgram]
    · cases tcp <;> simp [hstream, hdgram, Pcb.isTcp]
  · cases tcp <;> simp [hstream, Pcb.isTcp]

theorem baseType_and (args : SocketArgs) {mask : Int32}
    (hmask : 0xf &&& mask = mask) :
    args.baseType &&& mask = args.type &&& mask := by
  rw [baseType, Int32.and_assoc, hmask]

theorem exists_baseType (args : SocketArgs) :
    exists n : Fin 16, args.baseType = Int32.ofNat n := by
  have hlt : args.type.toBitVec.toNat % 16 < 16 := Nat.mod_lt _ (by decide)
  refine ⟨⟨_, hlt⟩, ?_⟩
  refine Int32.toBitVec_inj.1 (BitVec.eq_of_toNat_eq ?_)
  show (args.type.toBitVec &&& 15#32).toNat =
    (BitVec.ofNat 32 (args.type.toBitVec.toNat % 16)).toNat
  rw [BitVec.toNat_and, BitVec.toNat_ofNat, BitVec.toNat_ofNat]
  have hmod := Nat.and_two_pow_sub_one_eq_mod args.type.toBitVec.toNat 4
  norm_num at hmod ⊢
  rw [hmod]
  lia

/-- The masks of both sides pick out the two types among the sixteen, if the
type is one of them or has neither bit. -/
theorem masks_iff (n : Fin 16) :
    (¬ (Int32.ofNat n &&& RpcDispatch.sockStream = 0 ∧
        Int32.ofNat n &&& RpcDispatch.sockDgram = 0) <->
      Int32.ofNat n = RpcDispatch.sockStream ∨
        Int32.ofNat n = RpcDispatch.sockDgram) <->
      (Int32.ofNat n = RpcDispatch.sockStream ∨
        Int32.ofNat n = RpcDispatch.sockDgram ∨ Int32.ofNat n &&& 3 = 0) := by
  revert n
  decide

def TypeClear (args : SocketArgs) : Prop :=
  args.baseType = RpcDispatch.sockStream ∨
    args.baseType = RpcDispatch.sockDgram ∨ args.baseType &&& 3 = 0

theorem typeClear_iff (args : SocketArgs) :
    (¬ (args.type &&& RpcDispatch.sockStream = 0 ∧
        args.type &&& RpcDispatch.sockDgram = 0) <->
      args.baseType = RpcDispatch.sockStream ∨
        args.baseType = RpcDispatch.sockDgram) <-> args.TypeClear := by
  rcases args.exists_baseType with ⟨n, hn⟩
  rw [TypeClear, ← args.baseType_and (rfl : 0xf &&& RpcDispatch.sockStream = _),
    ← args.baseType_and (rfl : 0xf &&& RpcDispatch.sockDgram = _), hn]
  exact masks_iff n

theorem taken_iff (args : SocketArgs) :
    (exists calling, Interceptor.socket args = .request calling) <->
      args.domain = Interceptor.afInet ∧
        ¬ (args.type &&& RpcDispatch.sockStream = 0 ∧
          args.type &&& RpcDispatch.sockDgram = 0) := by
  constructor
  case mp =>
    rintro ⟨calling, h⟩
    have hrequest := socket_eq_request_iff.1 h
    exact ⟨hrequest.left, hrequest.right.left⟩
  case mpr =>
    rintro ⟨hdomain, htype⟩
    exact ⟨_, socket_eq_request_iff.2 ⟨hdomain, htype, rfl⟩⟩

theorem creates_of_base (laddr uninit : UInt32) {args : SocketArgs}
    (hbase : args.baseType = RpcDispatch.sockStream ∨
      args.baseType = RpcDispatch.sockDgram) (domain protocol : Int32) :
    (Creates laddr uninit (.socketCall domain args.type protocol) true <->
        args.baseType = RpcDispatch.sockStream) ∧
      (Creates laddr uninit (.socketCall domain args.type protocol) false <->
        args.baseType = RpcDispatch.sockDgram) := by
  rw [creates_iff, creates_iff,
    ← args.baseType_and (rfl : 0xf &&& RpcDispatch.sockStream = _),
    ← args.baseType_and (rfl : 0xf &&& RpcDispatch.sockDgram = _)]
  cases hbase with
  | inl h =>
      rw [h]
      decide
  | inr h =>
      rw [h]
      decide

/-- Calls are treated by their real type on both sides exactly if the domain
is another one, or the base type is one of the two or has neither of their
bits. -/
theorem classified_iff (laddr uninit : UInt32) (args : SocketArgs) :
    args.Classified laddr uninit <->
      args.domain ≠ Interceptor.afInet ∨ args.TypeClear := by
  constructor
  case mp =>
    intro h
    by_cases hdomain : args.domain = Interceptor.afInet
    · refine Or.inr (args.typeClear_iff.1 ?_)
      have htaken := h.taken
      rw [taken_iff, and_iff_right hdomain, and_iff_right hdomain] at htaken
      exact htaken
    · exact Or.inl hdomain
  case mpr =>
    intro h
    have hmasks : args.domain = Interceptor.afInet ->
        (¬ (args.type &&& RpcDispatch.sockStream = 0 ∧
            args.type &&& RpcDispatch.sockDgram = 0) <->
          args.baseType = RpcDispatch.sockStream ∨
            args.baseType = RpcDispatch.sockDgram) := by
      intro hdomain
      exact args.typeClear_iff.2 (h.resolve_left fun hne => hne hdomain)
    have hcreates : forall calling,
        Interceptor.socket args = .request calling ->
          (Creates laddr uninit calling true <->
            args.baseType = RpcDispatch.sockStream) ∧
          (Creates laddr uninit calling false <->
            args.baseType = RpcDispatch.sockDgram) := by
      intro calling hcall
      rcases socket_eq_request_iff.1 hcall with ⟨hdomain, htype, rfl⟩
      exact creates_of_base laddr uninit ((hmasks hdomain).1 htype) _ _
    constructor
    case taken =>
      rw [taken_iff]
      exact and_congr_right hmasks
    case tcp => exact fun calling hcall => (hcreates calling hcall).left
    case udp => exact fun calling hcall => (hcreates calling hcall).right
    case passed => exact socket_eq_glibc

/-- A raw socket is taken over, and the daemon creates a TCP endpoint. -/
theorem raw_socket_taken_over :
    let args : SocketArgs := ⟨2, 3, 1⟩
    args.baseType = 3 ∧
      Interceptor.socket args = .request (.socketCall 2 3 1) ∧
      Creates 0x0100a8c0 0 (.socketCall 2 3 1) true ∧
      ¬ args.Classified 0x0100a8c0 0 := by
  refine ⟨by decide, by decide, ?_, ?_⟩
  · rw [creates_iff]
    decide
  · intro h
    have htaken := h.taken.1 ⟨.socketCall 2 3 1, by decide⟩
    exact absurd htaken.right (by decide)

end SocketArgs

end Velox
