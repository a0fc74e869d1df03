import Velox.Foundation.Fields
import Velox.Rpc
import Mathlib.Algebra.GroupWithZero.Nat
import Mathlib.Algebra.Order.BigOperators.Group.List
import Mathlib.Algebra.Order.Group.Nat

/-!
# The run-time libraries of protocol buffers

The generated code calls libraries that are not part of the repository,
`libprotobuf` in the daemon and `libprotobuf-c` in the interceptor.  Their
functions are parameters: `Runtime` holds those that are called, and
`Runtime.Lawful` says what is assumed of them.  A field that was written is read
as it was written, and not at all if it breaks off; and the functions of the
interceptor's library go by the tables of `request.pb-c.c` and
`response.pb-c.c`, whose entries say where a field is kept in a structure.
-/

namespace Velox
namespace Rpc

open Foundation

/-!
## Fields
-/

inductive FieldType where
  | int32
  | uint64
  | bool
  | enum
  | bytes
  | message
  deriving DecidableEq

/-- A nested message is given by its bytes, and a string by its characters. -/
inductive FieldValue where
  | int32 (n : Int32)
  | uint64 (n : UInt64)
  | bool (b : Bool)
  | enum (n : Int32)
  | bytes (content : Bytes)
  | message (content : Bytes)
  deriving DecidableEq

/-- The kind of a value on the wire: a number, or bytes behind their length. -/
def FieldType.kind : FieldType -> Nat
  | .bytes => 2
  | .message => 2
  | _ => 0

theorem FieldType.kind_le_two (t : FieldType) : t.kind <= 2 := by
  cases t <;> decide

namespace FieldValue

def type : FieldValue -> FieldType
  | .int32 _ => .int32
  | .uint64 _ => .uint64
  | .bool _ => .bool
  | .enum _ => .enum
  | .bytes _ => .bytes
  | .message _ => .message

def length : FieldValue -> Nat
  | .bytes content => content.length
  | .message content => content.length
  | _ => 0

def size : FieldValue -> Nat
  | .int32 n => int32Size n
  | .uint64 n => varintSize n.toNat
  | .bool _ => 1
  | .enum n => int32Size n
  | .bytes content => varintSize content.length + content.length
  | .message content => varintSize content.length + content.length

end FieldValue

structure Field where
  number : Nat
  value : FieldValue

namespace Field

def tag (f : Field) : Nat :=
  f.number * 8 + f.value.type.kind

def size (f : Field) : Nat :=
  varintSize f.tag + f.value.size

/-- The numbers that a schema can give to fields, and the lengths of values
that the channels have room for. -/
structure Valid (f : Field) : Prop where
  number_pos : 0 < f.number
  number_lt : f.number < 2 ^ 29
  length_le : f.value.length <= rpcMessageMaxSize

theorem valid {number : Nat} (hpos : 0 < number) (hlt : number < 2 ^ 29)
    {value : FieldValue} (hlen : value.length <= rpcMessageMaxSize) :
    Valid ⟨number, value⟩ :=
  ⟨hpos, hlt, hlen⟩

/-- The tag of a field before 16 has one byte. -/
theorem varintSize_tag {f : Field} (h : f.number < 16) :
    varintSize f.tag = 1 := by
  have hkind := f.value.type.kind_le_two
  rw [varintSize, varintSizeFuel, if_pos]
  unfold tag
  lia

theorem size_int32 {number : Nat} (h : number < 16) (n : Int32) :
    size ⟨number, .int32 n⟩ = int32FieldSize (some n) :=
  congrArg (· + int32Size n) (varintSize_tag h)

theorem size_uint64 {number : Nat} (h : number < 16) (n : UInt64) :
    size ⟨number, .uint64 n⟩ = 1 + varintSize n.toNat :=
  congrArg (· + varintSize n.toNat) (varintSize_tag h)

theorem size_bytes {number : Nat} (h : number < 16) (content : Bytes) :
    size ⟨number, .bytes content⟩ = bytesFieldSize (some content) := by
  rw [size, varintSize_tag h]
  exact (Nat.add_assoc _ _ _).symm

theorem size_message (number : Nat) (content : Bytes) :
    size ⟨number, .message content⟩ =
      delimitedSize (varintSize (number * 8 + 2)) content.length :=
  (Nat.add_assoc _ _ _).symm

theorem length_le_size (f : Field) : f.value.length <= f.size := by
  rcases f with ⟨number, value⟩
  cases value with
  | bytes content => exact Nat.le_add_left_of_le (Nat.le_add_left _ _)
  | message content => exact Nat.le_add_left_of_le (Nat.le_add_left _ _)
  | _ => exact Nat.zero_le _

theorem length_le_sum {fs : List Field} {f : Field} (h : f ∈ fs) :
    f.value.length <= (fs.map size).sum :=
  Nat.le_trans f.length_le_size (List.le_sum_of_mem (List.mem_map_of_mem h))

/-- Fields of a message that is not too long. -/
theorem valid_of_sum {fs : List Field} {n : Nat} (hn : n < 2 ^ 29)
    (hnumber : forall f, f ∈ fs -> 0 < f.number ∧ f.number <= n)
    (hsum : (fs.map size).sum <= rpcMessageMaxSize) :
    forall f, f ∈ fs -> f.Valid := by
  intro f hf
  have hnum := hnumber f hf
  exact ⟨hnum.1, Nat.lt_of_le_of_lt hnum.2 hn,
    Nat.le_trans (length_le_sum hf) hsum⟩

end Field

/-!
## Tables
-/

/-- A field of a structure that is packed, if it is there: a required field
always is, an optional one if its flag is set, and one of a `oneof` if it is
the case. -/
structure PackEntry (σ : Type) where
  number : Nat
  get : σ -> Option FieldValue

/-- The fields of a structure, in the order of the table. -/
def packed {σ : Type} (entries : List (PackEntry σ)) (m : σ) : List Field :=
  entries.filterMap fun e => (e.get m).map (Field.mk e.number)

/-- A field of a structure that is unpacked into. -/
structure UnpackEntry (σ : Type) where
  number : Nat
  required : Bool
  type : FieldType
  put : σ -> FieldValue -> Option σ

structure UnpackTable (σ : Type) where
  init : σ
  entries : List (UnpackEntry σ)

namespace UnpackTable

variable {σ : Type} (t : UnpackTable σ)

/-- The field is stored by the entry with its number. -/
def store (s : σ) (f : Field) : Option σ :=
  (t.entries.find? fun e => e.number == f.number).bind fun e =>
    if e.type = f.value.type then e.put s f.value else none

def stores (s : σ) (fs : List Field) : Option σ :=
  fs.foldlM t.store s

theorem stores_cons (s : σ) (f : Field) (fs : List Field) :
    t.stores s (f :: fs) = (t.store s f).bind fun s => t.stores s fs :=
  List.foldlM_cons

theorem stores_append (s : σ) (fs gs : List Field) :
    t.stores s (fs ++ gs) =
      (t.stores s fs).bind fun s => t.stores s gs :=
  List.foldlM_append

/-- No required field is missing. -/
def complete (numbers : List Nat) : Bool :=
  t.entries.all fun e => !e.required || numbers.contains e.number

end UnpackTable

/-!
## Cases
-/

/-- The cases of `oneof calling` and of `oneof returning`, which have the same
numbers. -/
inductive Call where
  | socketCall
  | connectCall
  | closeCall
  | recvfromCall
  | sendtoCall
  | pollCall
  | selectCall
  | getpeernameCall
  | getsocknameCall
  | getsockoptCall
  | setsockoptCall
  | fcntlCall
  | atstartAction
  deriving DecidableEq

namespace Call

def number : Call -> Nat
  | .socketCall => 1
  | .connectCall => 2
  | .closeCall => 3
  | .recvfromCall => 4
  | .sendtoCall => 5
  | .pollCall => 6
  | .selectCall => 7
  | .getpeernameCall => 8
  | .getsocknameCall => 9
  | .getsockoptCall => 10
  | .setsockoptCall => 11
  | .fcntlCall => 12
  | .atstartAction => 16

/-- The cases before the field 15, which requests and responses both have. -/
def front : List Call :=
  [.socketCall, .connectCall, .closeCall, .recvfromCall, .sendtoCall,
    .pollCall, .selectCall, .getpeernameCall, .getsocknameCall,
    .getsockoptCall, .setsockoptCall, .fcntlCall]

theorem number_pos (k : Call) : 0 < k.number := by
  cases k <;> decide

theorem number_le (k : Call) : k.number <= 16 := by
  cases k <;> decide

end Call

/-!
## The libraries
-/

/-- `write` stands for `WriteInt32ToArray`, `WriteUInt64ToArray`,
`WriteBoolToArray`, `WriteEnumToArray`, `WriteBytesMaybeAliased`,
`WriteStringMaybeAliased` and `InternalWriteMessage`, and `readString` for
`InlineGreedyStringParser`.  `parseMessage` is given the parser of the nested
message, `unknownFieldParse` returns what is left of the bytes behind a tag. -/
structure Runtime where
  write : Field -> Bytes
  readTag : Bytes -> Option (Nat × Bytes)
  readVarint32 : Bytes -> Option (UInt32 × Bytes)
  readVarint64 : Bytes -> Option (UInt64 × Bytes)
  readString : Bytes -> Option (Bytes × Bytes)
  parseMessage : {σ : Type} -> (Bytes -> Option σ) -> Bytes ->
    Option (σ × Bytes)
  unknownFieldParse : Nat -> Bytes -> Option Bytes
  messagePack : {σ : Type} -> List (PackEntry σ) -> σ -> Bytes
  messageUnpack : {σ : Type} -> UnpackTable σ -> Bytes -> Option σ

namespace Runtime

variable (rt : Runtime)

def writeAll (fs : List Field) : Bytes :=
  (fs.map rt.write).flatten

/-- The functions that the generated parsers call for a type read the value
from these bytes. -/
def ReadsValue (bytes : Bytes) : FieldValue -> Prop
  | .int32 n => Reads rt.readVarint32 bytes n.toUInt32
  | .uint64 n => Reads rt.readVarint64 bytes n
  | .bool b => Reads rt.readVarint64 bytes b.toUInt64
  | .enum n => Reads rt.readVarint64 bytes (UInt64.ofInt n.toInt)
  | .bytes content => Reads rt.readString bytes content
  | .message content => forall (σ : Type) (parse : Bytes -> Option σ) (m : σ),
      parse content = some m -> Reads (rt.parseMessage parse) bytes m

/-- What is assumed of the libraries. -/
structure Lawful : Prop where
  length_write : forall f : Field, f.Valid -> (rt.write f).length = f.size
  reads : forall f : Field, f.Valid -> exists head value,
    rt.write f = head ++ value ∧ head ≠ [] ∧ Reads rt.readTag head f.tag ∧
      rt.ReadsValue value f.value
  pack : forall {σ : Type} (entries : List (PackEntry σ)) (m : σ),
    rt.messagePack entries m = rt.writeAll (packed entries m)
  unpack : forall {σ : Type} (t : UnpackTable σ) (fs : List Field) (m : σ),
    (forall f, f ∈ fs -> f.Valid) -> (fs.map Field.number).Nodup ->
      t.stores t.init fs = some m ->
      rt.messageUnpack t (rt.writeAll fs) =
        if t.complete (fs.map Field.number) then some m else none

variable {rt}

theorem writeAll_cons (f : Field) (fs : List Field) :
    rt.writeAll (f :: fs) = rt.write f ++ rt.writeAll fs :=
  rfl

/-- A field is taken in by a handler that reads its value. -/
theorem Lawful.handles {σ : Type} (h : rt.Lawful) {f : Field} (hf : f.Valid)
    {handler : σ -> Nat -> Bytes -> Option (σ × Bytes)} {update : σ -> σ}
    (hvalue : forall bytes, rt.ReadsValue bytes f.value ->
      forall s, Reads (handler s f.tag) bytes (update s)) :
    Handles rt.readTag handler (rt.write f) update := by
  rcases h.reads f hf with ⟨head, value, hwrite, hne, htag, hreads⟩
  exact ⟨f.tag, head, value, hwrite, hne, htag, hvalue value hreads⟩

/-- The bytes are as many as the sizes of the fields say. -/
theorem Lawful.length_writeAll (h : rt.Lawful) {fs : List Field}
    (hfs : forall f, f ∈ fs -> f.Valid) :
    (rt.writeAll fs).length = (fs.map Field.size).sum := by
  induction fs with
  | nil => rfl
  | cons f fs ih =>
      rw [List.forall_mem_cons] at hfs
      rw [writeAll_cons, List.length_append, h.length_write f hfs.1, ih hfs.2,
        List.map_cons, List.sum_cons]

theorem Lawful.size_message (h : rt.Lawful) (number : Nat) {fs : List Field}
    (hfs : forall f, f ∈ fs -> f.Valid) :
    Field.size ⟨number, .message (rt.writeAll fs)⟩ =
      delimitedSize (varintSize (number * 8 + 2)) (fs.map Field.size).sum := by
  rw [Field.size_message, h.length_writeAll hfs]

theorem Lawful.message_valid (h : rt.Lawful) (k : Call) {fs : List Field}
    (hfs : forall f, f ∈ fs -> f.Valid)
    (hfits : delimitedSize (varintSize (k.number * 8 + 2))
      (fs.map Field.size).sum <= rpcMessageMaxSize) :
    Field.Valid ⟨k.number, .message (rt.writeAll fs)⟩ := by
  have hlen := Field.length_le_size ⟨k.number, .message (rt.writeAll fs)⟩
  rw [h.size_message k.number hfs] at hlen
  exact Field.valid k.number_pos (Nat.lt_of_le_of_lt k.number_le (by decide))
    (Nat.le_trans hlen hfits)

end Runtime

end Rpc
end Velox
