import Velox.Foundation.Bytes

/-!
# Messages between interceptor and daemon

The protocol buffers of `request.proto` and `response.proto`.  A `oneof` is an
inductive type with a constructor for the unset case; an optional field, and a
required field that the sender may leave unset, is an `Option`.
-/

namespace Velox

open Foundation

/-- The `oneof calling` of a request; the process id beside it is left out. -/
inductive Calling where
  | socketCall (domain type protocol : Int32)
  | connectCall (addr : Bytes)
  | closeCall
  | recvfromCall (len flags : Int32) (requireAddr : Bool)
  | sendtoCall (buf : Bytes) (flags : Int32) (addr : Option Bytes)
  | pollCall
  | selectCall
  | getpeernameCall
  | getsocknameCall
  | getsockoptCall
  | setsockoptCall
  | fcntlCall
  | atstartAction (progname : Bytes)
  | notSet
  deriving DecidableEq

structure CallRet where
  ret : Int32
  errno : Option Int32
  deriving DecidableEq

inductive Returning where
  | socketCall (r : CallRet)
  | connectCall (r : CallRet)
  | closeCall (r : CallRet)
  | recvfromCall (r : CallRet) (buf addr : Option Bytes)
  | sendtoCall (r : CallRet)
  | pollCall (r : CallRet)
  | selectCall (r : CallRet)
  | getpeernameCall (r : CallRet) (peername : Option Bytes)
  | getsocknameCall (r : CallRet) (sockanme : Option Bytes)
  | getsockoptCall (r : CallRet)
  | setsockoptCall (r : CallRet)
  | fcntlCall (r : CallRet)
  | atstartAction (startfd : Int32) (count : Option Int32)
  | notSet
  deriving DecidableEq

inductive RetCode where
  | ok
  | error
  | waitNext
  deriving DecidableEq

structure Response where
  returning : Returning
  retCode : Option RetCode
  deriving DecidableEq

namespace Response

/-- A message that `chan_recv` returns to its caller. -/
def Final (resp : Response) : Prop :=
  resp.retCode ≠ some .waitNext

instance (resp : Response) : Decidable resp.Final :=
  inferInstanceAs (Decidable (resp.retCode ≠ some .waitNext))

def packetData (resp : Response) : Option Bytes :=
  match resp.returning with
  | .recvfromCall _ buf _ => buf
  | _ => none

end Response

/-!
## Sizes of messages
-/

/-- `RPC_MESSAGE_MAX_SIZE`, the size of the buffers at both ends. -/
def rpcMessageMaxSize : Nat := 81920

def varintSizeFuel : Nat -> Nat -> Nat
  | 0, _ => 1
  | fuel + 1, n => if n < 128 then 1 else 1 + varintSizeFuel fuel (n / 128)

/-- A number of 64 bits takes at most ten bytes. -/
def varintSize (n : Nat) : Nat :=
  varintSizeFuel 9 n

theorem varintSizeFuel_pos (fuel n : Nat) : 1 <= varintSizeFuel fuel n := by
  cases fuel with
  | zero => exact Nat.le_refl 1
  | succ fuel =>
      unfold varintSizeFuel
      split
      · exact Nat.le_refl 1
      · exact Nat.le_add_right 1 _

theorem varintSizeFuel_le (fuel n : Nat) :
    varintSizeFuel fuel n <= fuel + 1 := by
  induction fuel generalizing n with
  | zero => exact Nat.le_refl 1
  | succ fuel ih =>
      unfold varintSizeFuel
      split
      · exact Nat.le_add_left 1 _
      · have hrest := ih (n / 128)
        lia

theorem varintSize_le_ten (n : Nat) : varintSize n <= 10 :=
  varintSizeFuel_le 9 n

theorem varintSize_cases (n : Nat) :
    (n < 16384 ∧ varintSize n <= 2) ∨
      (16384 <= n ∧ n < 2097152 ∧ varintSize n = 3) ∨ 2097152 <= n := by
  unfold varintSize
  rw [varintSizeFuel, varintSizeFuel, varintSizeFuel]
  have hrest := varintSizeFuel_pos 6 (n / 128 / 128 / 128)
  split
  · exact Or.inl ⟨by lia, by lia⟩
  · split
    · exact Or.inl ⟨by lia, by lia⟩
    · split
      · exact Or.inr (Or.inl ⟨by lia, by lia, rfl⟩)
      · exact Or.inr (Or.inr (by lia))

/-- A negative number is written with the sign extended to 64 bits. -/
def int32Size (n : Int32) : Nat :=
  if n < 0 then 10 else varintSize n.toInt.toNat

def int32FieldSize (n : Option Int32) : Nat :=
  match n with
  | none => 0
  | some n => 1 + int32Size n

def delimitedSize (tag length : Nat) : Nat :=
  tag + varintSize length + length

def bytesFieldSize (bytes : Option Bytes) : Nat :=
  match bytes with
  | none => 0
  | some bytes => delimitedSize 1 bytes.length

def CallRet.byteSize (r : CallRet) : Nat :=
  int32FieldSize (some r.ret) + int32FieldSize r.errno

/-- The nested message; the tag of a field from 16 on has two bytes. -/
def Returning.byteSize : Returning -> Nat
  | .recvfromCall r buf addr =>
      delimitedSize 1
        (r.byteSize + bytesFieldSize buf + bytesFieldSize addr)
  | .getpeernameCall r name =>
      delimitedSize 1 (r.byteSize + bytesFieldSize name)
  | .getsocknameCall r name =>
      delimitedSize 1 (r.byteSize + bytesFieldSize name)
  | .atstartAction startfd count =>
      delimitedSize 2 (int32FieldSize (some startfd) + int32FieldSize count)
  | .notSet => 0
  | .socketCall r => delimitedSize 1 r.byteSize
  | .connectCall r => delimitedSize 1 r.byteSize
  | .closeCall r => delimitedSize 1 r.byteSize
  | .sendtoCall r => delimitedSize 1 r.byteSize
  | .pollCall r => delimitedSize 1 r.byteSize
  | .selectCall r => delimitedSize 1 r.byteSize
  | .getsockoptCall r => delimitedSize 1 r.byteSize
  | .setsockoptCall r => delimitedSize 1 r.byteSize
  | .fcntlCall r => delimitedSize 1 r.byteSize

/-- `ByteSize` of a response; the code takes one byte behind its tag. -/
def Response.byteSize (resp : Response) : Nat :=
  resp.returning.byteSize +
    match resp.retCode with
    | none => 0
    | some _ => 2

def Calling.byteSize : Calling -> Nat
  | .socketCall domain socketType protocol =>
      delimitedSize 1
        (int32FieldSize (some domain) + int32FieldSize (some socketType) +
          int32FieldSize (some protocol))
  | .connectCall addr => delimitedSize 1 (bytesFieldSize (some addr))
  | .recvfromCall len flags _ =>
      delimitedSize 1
        (int32FieldSize (some len) + int32FieldSize (some flags) + 2)
  | .sendtoCall buf flags addr =>
      delimitedSize 1
        (bytesFieldSize (some buf) + int32FieldSize (some flags) +
          bytesFieldSize addr)
  | .closeCall | .pollCall | .selectCall | .getpeernameCall |
    .getsocknameCall | .getsockoptCall | .setsockoptCall | .fcntlCall =>
      delimitedSize 1 0
  | .atstartAction progname => delimitedSize 2 (bytesFieldSize (some progname))
  | .notSet => 0

/-- The packed size of a request; the process id is a 64-bit field behind a
tag of one byte. -/
def Calling.requestSize (calling : Calling) (pid : UInt64) : Nat :=
  calling.byteSize + (1 + varintSize pid.toNat)

theorem Calling.requestSize_sendtoCall (buf : Bytes) (flags : Int32)
    (addr : Option Bytes) (pid : UInt64) :
    (Calling.sendtoCall buf flags addr).requestSize pid =
      delimitedSize 1
        (delimitedSize 1 buf.length + int32FieldSize (some flags) +
          bytesFieldSize addr) + (1 + varintSize pid.toNat) :=
  rfl

/-- Whether a `sendto` fits the buffer: close to the limit the nested message
has a length of three bytes. -/
theorem Calling.requestSize_sendtoCall_le_iff (buf : Bytes) (flags : Int32)
    (addr : Option Bytes) (pid : UInt64) :
    (Calling.sendtoCall buf flags addr).requestSize pid <=
        rpcMessageMaxSize <->
      buf.length + varintSize buf.length + int32FieldSize (some flags) +
        bytesFieldSize addr + varintSize pid.toNat + 6 <=
          rpcMessageMaxSize := by
  rw [requestSize_sendtoCall]
  unfold delimitedSize rpcMessageMaxSize
  have hpid := varintSize_le_ten pid.toNat
  generalize varintSize pid.toNat = pidSize at hpid ⊢
  generalize hinner : 1 + varintSize buf.length + buf.length +
    int32FieldSize (some flags) + bytesFieldSize addr = inner
  rcases varintSize_cases inner with ⟨hlt, hsize⟩ | ⟨hge, hlt, hsize⟩ | hge
  · lia
  · lia
  · lia

theorem Response.length_le_byteSize {r : CallRet} {buf : Bytes}
    {addr : Option Bytes} {resp : Response}
    (h : resp.returning = .recvfromCall r (some buf) addr) :
    buf.length <= resp.byteSize := by
  rw [Response.byteSize, h, Returning.byteSize, bytesFieldSize]
  unfold delimitedSize
  lia

end Velox
