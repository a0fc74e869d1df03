import Velox.Rpc.WireFormat

/-!
# Requests from the interceptor to the daemon

The interceptor packs a request by the tables of `request.pb-c.c`, and the
daemon parses the bytes with the code of `request.pb.cc`.  For all run-time
libraries that meet the assumptions, `Request.parse_pack` says that the daemon
gets the call that the interceptor makes, and `Request.calling_of_cut` what
becomes of a request that breaks off.
-/

namespace Velox
namespace Rpc

open Foundation

namespace Request

/-!
## The tables of the interceptor
-/

def callingCase : Calling -> Option Call
  | .socketCall _ _ _ => some .socketCall
  | .connectCall _ => some .connectCall
  | .closeCall => some .closeCall
  | .recvfromCall _ _ _ => some .recvfromCall
  | .sendtoCall _ _ _ => some .sendtoCall
  | .pollCall => some .pollCall
  | .selectCall => some .selectCall
  | .getpeernameCall => some .getpeernameCall
  | .getsocknameCall => some .getsocknameCall
  | .getsockoptCall => some .getsockoptCall
  | .setsockoptCall => some .setsockoptCall
  | .fcntlCall => some .fcntlCall
  | .atstartAction _ => some .atstartAction
  | .notSet => none

/-- The tables of the nested messages.  The structure of a call is its
constructor in `Calling`; only the address of `sendto` is optional. -/
def nestedEntries : Call -> List (PackEntry Calling)
  | .socketCall =>
      [⟨1, fun
          | .socketCall domain _ _ => some (.int32 domain)
          | _ => none⟩,
        ⟨2, fun
          | .socketCall _ type _ => some (.int32 type)
          | _ => none⟩,
        ⟨3, fun
          | .socketCall _ _ protocol => some (.int32 protocol)
          | _ => none⟩]
  | .connectCall =>
      [⟨1, fun
          | .connectCall addr => some (.bytes addr)
          | _ => none⟩]
  | .recvfromCall =>
      [⟨1, fun
          | .recvfromCall len _ _ => some (.int32 len)
          | _ => none⟩,
        ⟨2, fun
          | .recvfromCall _ flags _ => some (.int32 flags)
          | _ => none⟩,
        ⟨3, fun
          | .recvfromCall _ _ requireAddr => some (.bool requireAddr)
          | _ => none⟩]
  | .sendtoCall =>
      [⟨1, fun
          | .sendtoCall buf _ _ => some (.bytes buf)
          | _ => none⟩,
        ⟨2, fun
          | .sendtoCall _ flags _ => some (.int32 flags)
          | _ => none⟩,
        ⟨3, fun
          | .sendtoCall _ _ addr => addr.map FieldValue.bytes
          | _ => none⟩]
  | .atstartAction =>
      [⟨1, fun
          | .atstartAction progname => some (.bytes progname)
          | _ => none⟩]
  | .closeCall | .pollCall | .selectCall | .getpeernameCall |
    .getsocknameCall | .getsockoptCall | .setsockoptCall | .fcntlCall => []

section Pack

variable (rt : Runtime)

def nestedEntry (k : Call) : PackEntry (Calling × UInt64) where
  number := k.number
  get req :=
    if callingCase req.1 = some k then
      some (.message (rt.messagePack (nestedEntries k) req.1))
    else none

/-- `request__field_descriptors`. -/
def entries : List (PackEntry (Calling × UInt64)) :=
  Call.front.map (nestedEntry rt) ++
    [⟨15, fun req => some (.uint64 req.2)⟩, nestedEntry rt .atstartAction]

/-- `request__pack`. -/
def pack (calling : Calling) (pid : UInt64) : Bytes :=
  rt.messagePack (entries rt) (calling, pid)

end Pack

/-!
## The parser of the daemon
-/

/-- The messages of the daemon; a field that is not set is `none`. -/
structure Socket where
  domain : Option Int32
  type : Option Int32
  protocol : Option Int32
  deriving DecidableEq

structure Connect where
  addr : Option Bytes
  deriving DecidableEq

structure Recvfrom where
  len : Option Int32
  flags : Option Int32
  requireAddr : Option Bool
  deriving DecidableEq

structure Sendto where
  buf : Option Bytes
  flags : Option Int32
  addr : Option Bytes
  deriving DecidableEq

structure Atstart where
  progname : Option Bytes
  deriving DecidableEq

def Msg : Call -> Type
  | .socketCall => Socket
  | .connectCall => Connect
  | .recvfromCall => Recvfrom
  | .sendtoCall => Sendto
  | .atstartAction => Atstart
  | .closeCall | .pollCall | .selectCall | .getpeernameCall |
    .getsocknameCall | .getsockoptCall | .setsockoptCall | .fcntlCall => Unit

/-- The generated code of a nested message: the empty message, one turn of
`_InternalParse`, and `IsInitialized`. -/
structure Parser (σ : Type) where
  clear : σ
  parseField : σ -> Nat -> Bytes -> Option (σ × Bytes)
  isInitialized : σ -> Bool

/-- The value of a field goes into the message. -/
def setField {σ α : Type} (put : α -> σ) (read : Option (α × Bytes)) :
    Option (σ × Bytes) :=
  read.map fun r => (put r.1, r.2)

section Parse

variable (rt : Runtime)

/-- The label `handle_unusual`: a zero tag and the end of a group leave the
parser before the end of the message, which its caller takes as a failure. -/
def handleUnusual {σ : Type} (m : σ) (tag : Nat) (bs : Bytes) :
    Option (σ × Bytes) :=
  if tag = 0 ∨ tag % 8 = 4 then none
  else (rt.unknownFieldParse tag bs).map fun rest => (m, rest)

def Socket.parser : Parser Socket where
  clear := ⟨none, none, none⟩
  parseField m tag bs :=
    match tag with
    | 8 => setField (fun n => { m with domain := some n.toInt32 })
        (rt.readVarint32 bs)
    | 16 => setField (fun n => { m with type := some n.toInt32 })
        (rt.readVarint32 bs)
    | 24 => setField (fun n => { m with protocol := some n.toInt32 })
        (rt.readVarint32 bs)
    | tag => handleUnusual rt m tag bs
  isInitialized m := m.domain.isSome && m.type.isSome && m.protocol.isSome

def Connect.parser : Parser Connect where
  clear := ⟨none⟩
  parseField m tag bs :=
    match tag with
    | 10 => setField (fun s => { m with addr := some s }) (rt.readString bs)
    | tag => handleUnusual rt m tag bs
  isInitialized m := m.addr.isSome

def Recvfrom.parser : Parser Recvfrom where
  clear := ⟨none, none, none⟩
  parseField m tag bs :=
    match tag with
    | 8 => setField (fun n => { m with len := some n.toInt32 })
        (rt.readVarint32 bs)
    | 16 => setField (fun n => { m with flags := some n.toInt32 })
        (rt.readVarint32 bs)
    | 24 => setField (fun n : UInt64 => { m with requireAddr := some (n != 0) })
        (rt.readVarint64 bs)
    | tag => handleUnusual rt m tag bs
  isInitialized m := m.len.isSome && m.flags.isSome && m.requireAddr.isSome

def Sendto.parser : Parser Sendto where
  clear := ⟨none, none, none⟩
  parseField m tag bs :=
    match tag with
    | 10 => setField (fun s => { m with buf := some s }) (rt.readString bs)
    | 16 => setField (fun n => { m with flags := some n.toInt32 })
        (rt.readVarint32 bs)
    | 26 => setField (fun s => { m with addr := some s }) (rt.readString bs)
    | tag => handleUnusual rt m tag bs
  isInitialized m := m.buf.isSome && m.flags.isSome

def Atstart.parser : Parser Atstart where
  clear := ⟨none⟩
  parseField m tag bs :=
    match tag with
    | 10 => setField (fun s => { m with progname := some s }) (rt.readString bs)
    | tag => handleUnusual rt m tag bs
  isInitialized m := m.progname.isSome

def noFields : Parser Unit where
  clear := ()
  parseField m tag bs := handleUnusual rt m tag bs
  isInitialized _ := true

def parser : (k : Call) -> Parser (Msg k)
  | .socketCall => Socket.parser rt
  | .connectCall => Connect.parser rt
  | .recvfromCall => Recvfrom.parser rt
  | .sendtoCall => Sendto.parser rt
  | .atstartAction => Atstart.parser rt
  | .closeCall | .pollCall | .selectCall | .getpeernameCall |
    .getsocknameCall | .getsockoptCall | .setsockoptCall | .fcntlCall =>
      noFields rt

end Parse

end Request

structure Request where
  body : Option (Sigma Request.Msg)
  pid : Option UInt64

namespace Request

/-- The tags of the nested messages in the `switch` of the parser. -/
def callOfTag : Nat -> Option Call
  | 10 => some .socketCall
  | 18 => some .connectCall
  | 26 => some .closeCall
  | 34 => some .recvfromCall
  | 42 => some .sendtoCall
  | 50 => some .pollCall
  | 58 => some .selectCall
  | 66 => some .getpeernameCall
  | 74 => some .getsocknameCall
  | 82 => some .getsockoptCall
  | 90 => some .setsockoptCall
  | 98 => some .fcntlCall
  | 130 => some .atstartAction
  | _ => none

def empty : Request :=
  ⟨none, none⟩

section Parse

variable (rt : Runtime)

/-- The `_internal_mutable_` functions: another case of the `oneof` is
dropped, the same one is added to. -/
def mutableNested (k : Call) : Option (Sigma Msg) -> Msg k
  | none => (parser rt k).clear
  | some ⟨d, m⟩ => if h : d = k then h ▸ m else (parser rt k).clear

/-- One turn of `Request::_InternalParse`. -/
def parseField (req : Request) (tag : Nat) (bs : Bytes) :
    Option (Request × Bytes) :=
  if tag = 120 then
    setField (fun pid => { req with pid := some pid }) (rt.readVarint64 bs)
  else
    match callOfTag tag with
    | some k =>
        setField (fun m => { req with body := some ⟨k, m⟩ })
          (rt.parseMessage
            (parseMessage rt.readTag (parser rt k).parseField
              (mutableNested rt k req.body)) bs)
    | none => handleUnusual rt req tag bs

/-- `ParseFromArray` up to the check that all required fields are set. -/
def parse (bs : Bytes) : Option Request :=
  parseMessage rt.readTag (parseField rt) empty bs

/-- `Request::IsInitialized`. -/
def isInitialized (req : Request) : Bool :=
  req.pid.isSome && req.body.all fun b => (parser rt b.1).isInitialized b.2

end Parse

/-- What the accessors of the daemon's message return; a scalar or a string
that is not set reads as its default. -/
def callingOf : Option (Sigma Msg) -> Calling
  | none => .notSet
  | some ⟨.socketCall, (m : Socket)⟩ =>
      .socketCall (m.domain.getD 0) (m.type.getD 0) (m.protocol.getD 0)
  | some ⟨.connectCall, (m : Connect)⟩ => .connectCall (m.addr.getD [])
  | some ⟨.closeCall, _⟩ => .closeCall
  | some ⟨.recvfromCall, (m : Recvfrom)⟩ =>
      .recvfromCall (m.len.getD 0) (m.flags.getD 0) (m.requireAddr.getD false)
  | some ⟨.sendtoCall, (m : Sendto)⟩ =>
      .sendtoCall (m.buf.getD []) (m.flags.getD 0) m.addr
  | some ⟨.pollCall, _⟩ => .pollCall
  | some ⟨.selectCall, _⟩ => .selectCall
  | some ⟨.getpeernameCall, _⟩ => .getpeernameCall
  | some ⟨.getsocknameCall, _⟩ => .getsocknameCall
  | some ⟨.getsockoptCall, _⟩ => .getsockoptCall
  | some ⟨.setsockoptCall, _⟩ => .setsockoptCall
  | some ⟨.fcntlCall, _⟩ => .fcntlCall
  | some ⟨.atstartAction, (m : Atstart)⟩ =>
      .atstartAction (m.progname.getD [])

def calling (req : Request) : Calling :=
  callingOf req.body

/-!
## The message for a call
-/

/-- The daemon's message with the fields that the interceptor sets. -/
def bodyOf : Calling -> Option (Sigma Msg)
  | .socketCall domain type protocol =>
      some ⟨.socketCall, (⟨some domain, some type, some protocol⟩ : Socket)⟩
  | .connectCall addr => some ⟨.connectCall, (⟨some addr⟩ : Connect)⟩
  | .closeCall => some ⟨.closeCall, ()⟩
  | .recvfromCall len flags requireAddr =>
      some ⟨.recvfromCall,
        (⟨some len, some flags, some requireAddr⟩ : Recvfrom)⟩
  | .sendtoCall buf flags addr =>
      some ⟨.sendtoCall, (⟨some buf, some flags, addr⟩ : Sendto)⟩
  | .pollCall => some ⟨.pollCall, ()⟩
  | .selectCall => some ⟨.selectCall, ()⟩
  | .getpeernameCall => some ⟨.getpeernameCall, ()⟩
  | .getsocknameCall => some ⟨.getsocknameCall, ()⟩
  | .getsockoptCall => some ⟨.getsockoptCall, ()⟩
  | .setsockoptCall => some ⟨.setsockoptCall, ()⟩
  | .fcntlCall => some ⟨.fcntlCall, ()⟩
  | .atstartAction progname =>
      some ⟨.atstartAction, (⟨some progname⟩ : Atstart)⟩
  | .notSet => none

def ofCalling (c : Calling) (pid : UInt64) : Request :=
  ⟨bodyOf c, some pid⟩

theorem callingOf_bodyOf (c : Calling) : callingOf (bodyOf c) = c := by
  cases c <;> rfl

theorem isInitialized_ofCalling (rt : Runtime) (c : Calling) (pid : UInt64) :
    isInitialized rt (ofCalling c pid) = true := by
  cases c <;> rfl

theorem callingCase_of_bodyOf {c : Calling} {k : Call} {m : Msg k}
    (h : bodyOf c = some ⟨k, m⟩) : callingCase c = some k := by
  cases c with
  | notSet => cases h
  | _ =>
      cases h
      rfl

/-!
## Sizes
-/

theorem packed_number {k : Call} {c : Calling} {f : Field}
    (h : f ∈ packed (nestedEntries k) c) : 0 < f.number ∧ f.number <= 3 := by
  rcases List.mem_filterMap.1 h with ⟨e, he, hget⟩
  rcases Option.map_eq_some_iff.1 hget with ⟨value, _, rfl⟩
  have hentries : forall e, e ∈ nestedEntries k ->
      0 < e.number ∧ e.number <= 3 := by
    cases k <;> simp [nestedEntries]
  exact hentries e he

/-- The sizes of the fields add up to that of the nested message. -/
theorem byteSize_eq_sum {c : Calling} {k : Call} (h : callingCase c = some k) :
    c.byteSize = delimitedSize (varintSize (k.number * 8 + 2))
      ((packed (nestedEntries k) c).map Field.size).sum := by
  cases c with
  | socketCall domain type protocol =>
      cases h
      exact congrArg (delimitedSize 1) (Nat.add_assoc _ _ _)
  | connectCall addr =>
      cases h
      exact congrArg (delimitedSize 1)
        (Field.size_bytes (by decide : 1 < 16) addr).symm
  | recvfromCall len flags requireAddr =>
      cases h
      exact congrArg (delimitedSize 1) (Nat.add_assoc _ _ _)
  | sendtoCall buf flags addr =>
      cases h
      refine congrArg (delimitedSize 1) ?_
      cases addr <;> simp [packed, nestedEntries, Field.size_bytes,
        Field.size_int32, Nat.add_assoc, bytesFieldSize]
  | atstartAction progname =>
      cases h
      exact congrArg (delimitedSize 2)
        (Field.size_bytes (by decide : 1 < 16) progname).symm
  | notSet => cases h
  | _ =>
      cases h
      rfl

/-!
## Nested messages
-/

section Nested

variable {rt : Runtime}

section Fields

variable {σ : Type} (handler : σ -> Nat -> Bytes -> Option (σ × Bytes))

/-- A handler that puts the value of a field into the message. -/
theorem handles_field {α : Type} (h : rt.Lawful) {f : Field} (hf : f.Valid)
    {read : Bytes -> Option (α × Bytes)} {a : α}
    (hread : forall bytes, rt.ReadsValue bytes f.value -> Reads read bytes a)
    (put : σ -> α -> σ)
    (hstep : forall s bs, handler s f.tag bs = setField (put s) (read bs)) :
    Handles rt.readTag handler (rt.write f) (fun s => put s a) := by
  apply h.handles hf
  intro bytes hvalue s
  have hset : handler s f.tag = fun bs => setField (put s) (read bs) :=
    funext (hstep s)
  rw [hset]
  exact (hread bytes hvalue).map (put s)

theorem handles_int32 (h : rt.Lawful) {number : Nat} {n : Int32}
    (hf : Field.Valid ⟨number, .int32 n⟩) (put : σ -> Int32 -> σ)
    (hstep : forall s bs, handler s (number * 8) bs =
      setField (fun v => put s v.toInt32) (rt.readVarint32 bs)) :
    Handles rt.readTag handler (rt.write ⟨number, .int32 n⟩)
      (fun s => put s n) :=
  handles_field handler h hf (fun _ hread => hread)
    (fun s v => put s v.toInt32) hstep

theorem handles_bool (h : rt.Lawful) {number : Nat} {b : Bool}
    (hf : Field.Valid ⟨number, .bool b⟩) (put : σ -> Bool -> σ)
    (hstep : forall s bs, handler s (number * 8) bs =
      setField (fun v : UInt64 => put s (v != 0)) (rt.readVarint64 bs)) :
    Handles rt.readTag handler (rt.write ⟨number, .bool b⟩)
      (fun s => put s b) := by
  have hhandles := handles_field handler h hf (fun _ hread => hread)
    (fun s v => put s (v != 0)) hstep
  cases b with
  | false => exact hhandles
  | true => exact hhandles

theorem handles_string (h : rt.Lawful) {number : Nat} {content : Bytes}
    (hf : Field.Valid ⟨number, .bytes content⟩) (put : σ -> Bytes -> σ)
    (hstep : forall s bs, handler s (number * 8 + 2) bs =
      setField (put s) (rt.readString bs)) :
    Handles rt.readTag handler (rt.write ⟨number, .bytes content⟩)
      (fun s => put s content) :=
  handles_field handler h hf (fun _ hread => hread) put hstep

end Fields

/-- The daemon's parser takes in the fields of the interceptor's structure. -/
theorem takes_nested (h : rt.Lawful) {c : Calling} {k : Call} {m : Msg k}
    (hbody : bodyOf c = some ⟨k, m⟩)
    (hvalid : forall f, f ∈ packed (nestedEntries k) c -> f.Valid) :
    exists update, Takes rt.readTag (parser rt k).parseField
        ((packed (nestedEntries k) c).map rt.write) update ∧
      update (parser rt k).clear = m := by
  cases c with
  | socketCall domain type protocol =>
      cases hbody
      have hfields := List.forall_mem_cons.1 hvalid
      have hrest := List.forall_mem_cons.1 hfields.2
      have hdomain := handles_int32 (Socket.parser rt).parseField h hfields.1
        (fun m n => { m with domain := some n }) fun _ _ => rfl
      have htype := handles_int32 (Socket.parser rt).parseField h hrest.1
        (fun m n => { m with type := some n }) fun _ _ => rfl
      have hprotocol := handles_int32 (Socket.parser rt).parseField h
        (List.forall_mem_singleton.1 hrest.2)
        (fun m n => { m with protocol := some n }) fun _ _ => rfl
      exact ⟨_, Takes.cons hdomain (Takes.cons htype
        (Takes.cons hprotocol Takes.nil)), rfl⟩
  | connectCall addr =>
      cases hbody
      have haddr := handles_string (Connect.parser rt).parseField h
        (List.forall_mem_singleton.1 hvalid)
        (fun m s => { m with addr := some s }) fun _ _ => rfl
      exact ⟨_, Takes.cons haddr Takes.nil, rfl⟩
  | recvfromCall len flags requireAddr =>
      cases hbody
      have hfields := List.forall_mem_cons.1 hvalid
      have hrest := List.forall_mem_cons.1 hfields.2
      have hlen := handles_int32 (Recvfrom.parser rt).parseField h hfields.1
        (fun m n => { m with len := some n }) fun _ _ => rfl
      have hflags := handles_int32 (Recvfrom.parser rt).parseField h hrest.1
        (fun m n => { m with flags := some n }) fun _ _ => rfl
      have hrequire := handles_bool (Recvfrom.parser rt).parseField h
        (List.forall_mem_singleton.1 hrest.2)
        (fun m b => { m with requireAddr := some b }) fun _ _ => rfl
      exact ⟨_, Takes.cons hlen (Takes.cons hflags
        (Takes.cons hrequire Takes.nil)), rfl⟩
  | sendtoCall buf flags addr =>
      cases hbody
      have hfields := List.forall_mem_cons.1 hvalid
      have hrest := List.forall_mem_cons.1 hfields.2
      have hbuf := handles_string (Sendto.parser rt).parseField h hfields.1
        (fun m s => { m with buf := some s }) fun _ _ => rfl
      have hflags := handles_int32 (Sendto.parser rt).parseField h hrest.1
        (fun m n => { m with flags := some n }) fun _ _ => rfl
      cases addr with
      | none => exact ⟨_, Takes.cons hbuf (Takes.cons hflags Takes.nil), rfl⟩
      | some addr =>
          have haddr := handles_string (Sendto.parser rt).parseField h
            (List.forall_mem_singleton.1 hrest.2)
            (fun m s => { m with addr := some s }) fun _ _ => rfl
          exact ⟨_, Takes.cons hbuf (Takes.cons hflags
            (Takes.cons haddr Takes.nil)), rfl⟩
  | atstartAction progname =>
      cases hbody
      have hname := handles_string (Atstart.parser rt).parseField h
        (List.forall_mem_singleton.1 hvalid)
        (fun m s => { m with progname := some s }) fun _ _ => rfl
      exact ⟨_, Takes.cons hname Takes.nil, rfl⟩
  | notSet => cases hbody
  | _ =>
      cases hbody
      exact ⟨id, Takes.nil, rfl⟩

/-!
## The fields of a request
-/

def nestedField (rt : Runtime) (k : Call) (c : Calling) : Field :=
  ⟨k.number, .message (rt.messagePack (nestedEntries k) c)⟩

def pidField (pid : UInt64) : Field :=
  ⟨15, .uint64 pid⟩

theorem pidField_valid (pid : UInt64) : (pidField pid).Valid :=
  Field.valid (by decide) (by decide) (Nat.zero_le _)

theorem packed_valid {c : Calling} {k : Call} (hcase : callingCase c = some k)
    (hfits : c.byteSize <= rpcMessageMaxSize) :
    forall f, f ∈ packed (nestedEntries k) c -> f.Valid := by
  apply Field.valid_of_sum (by decide : 3 < 2 ^ 29) fun _ hf => packed_number hf
  rw [byteSize_eq_sum hcase] at hfits
  exact Nat.le_trans (Nat.le_add_left _ _) hfits

theorem nestedField_size (h : rt.Lawful) {c : Calling} {k : Call}
    (hcase : callingCase c = some k)
    (hfits : c.byteSize <= rpcMessageMaxSize) :
    (nestedField rt k c).size = c.byteSize := by
  rw [nestedField, h.pack, h.size_message k.number (packed_valid hcase hfits),
    byteSize_eq_sum hcase]

theorem nestedField_valid (h : rt.Lawful) {c : Calling} {k : Call}
    (hcase : callingCase c = some k)
    (hfits : c.byteSize <= rpcMessageMaxSize) :
    (nestedField rt k c).Valid := by
  have hfields := packed_valid hcase hfits
  rw [byteSize_eq_sum hcase] at hfits
  rw [nestedField, h.pack]
  exact h.message_valid k hfields hfits

/-- The parser of the daemon takes in the nested message. -/
theorem handles_nested (h : rt.Lawful) {c : Calling} {k : Call} {m : Msg k}
    (hbody : bodyOf c = some ⟨k, m⟩)
    (hfits : c.byteSize <= rpcMessageMaxSize) :
    exists update, Handles rt.readTag (parseField rt)
        (rt.write (nestedField rt k c)) update ∧
      forall pid, update ⟨none, pid⟩ = ⟨some ⟨k, m⟩, pid⟩ := by
  have hcase := callingCase_of_bodyOf hbody
  rcases takes_nested h hbody (packed_valid hcase hfits) with
    ⟨update, htakes, hclear⟩
  refine ⟨fun req =>
    { req with body := some ⟨k, update (mutableNested rt k req.body)⟩ },
    ?_, ?_⟩
  · apply h.handles (nestedField_valid h hcase hfits)
    intro bytes hvalue req
    have hparse := htakes.parseMessage (mutableNested rt k req.body)
    have hcontent : (rt.messagePack (nestedEntries k) c) =
        ((packed (nestedEntries k) c).map rt.write).flatten := h.pack _ _
    rw [← hcontent] at hparse
    have hreads := (hvalue _ _ _ hparse).map fun m =>
      { req with body := some ⟨k, m⟩ }
    have htag : parseField rt req (nestedField rt k c).tag = fun bs =>
        setField (fun m => { req with body := some ⟨k, m⟩ })
          (rt.parseMessage
            (parseMessage rt.readTag (parser rt k).parseField
              (mutableNested rt k req.body)) bs) := by
      cases k <;> rfl
    rw [htag]
    exact hreads
  · intro pid
    rw [← hclear]
    rfl

theorem handles_pid (h : rt.Lawful) (pid : UInt64) :
    Handles rt.readTag (parseField rt) (rt.write (pidField pid))
      fun req => { req with pid := some pid } :=
  handles_field (parseField rt) h (pidField_valid pid) (fun _ hread => hread)
    (fun req pid => { req with pid := some pid }) fun _ _ => rfl

/-- The fields on the wire with the updates they make, and what is left of
the request if it breaks off between them. -/
theorem exists_updates (h : rt.Lawful) (c : Calling) (pid : UInt64)
    (hfits : c.byteSize <= rpcMessageMaxSize) :
    exists us, us.map Prod.fst = (packed (entries rt) (c, pid)).map rt.write ∧
      (forall u, u ∈ us -> Handles rt.readTag (parseField rt) u.1 u.2) ∧
      updates us empty = ofCalling c pid ∧
      forall vs, vs <+: us -> vs = us ∨ (updates vs empty).pid = none ∨
        (exists progname, c = .atstartAction progname) ∧
          updates vs empty = ⟨none, some pid⟩ := by
  have hpid := handles_pid h pid
  cases c with
  | notSet =>
      refine ⟨[(_, _)], rfl, List.forall_mem_singleton.2 hpid, rfl, ?_⟩
      intro vs hvs
      rcases isPrefix_singleton hvs with rfl | rfl
      · exact Or.inr (Or.inl rfl)
      · exact Or.inl rfl
  | atstartAction progname =>
      rcases handles_nested h (rfl : bodyOf _ = some ⟨_, _⟩) hfits with
        ⟨update, hnested, hupdate⟩
      refine ⟨[(_, _), (_, _)], rfl, List.forall_mem_cons.2 ⟨hpid,
        List.forall_mem_singleton.2 hnested⟩, hupdate (some pid), ?_⟩
      intro vs hvs
      rcases isPrefix_pair hvs with rfl | rfl | rfl
      · exact Or.inr (Or.inl rfl)
      · exact Or.inr (Or.inr ⟨⟨progname, rfl⟩, rfl⟩)
      · exact Or.inl rfl
  | _ =>
      rcases handles_nested h (rfl : bodyOf _ = some ⟨_, _⟩) hfits with
        ⟨update, hnested, hupdate⟩
      refine ⟨[(_, _), (_, _)], rfl, List.forall_mem_cons.2 ⟨hnested,
        List.forall_mem_singleton.2 hpid⟩,
        congrArg (fun req : Request => { req with pid := some pid })
          (hupdate none), ?_⟩
      intro vs hvs
      rcases isPrefix_pair hvs with rfl | rfl | rfl
      · exact Or.inr (Or.inl rfl)
      · exact Or.inr (Or.inl (congrArg Request.pid (hupdate none)))
      · exact Or.inl rfl

end Nested

/-!
## Requests
-/

section Runs

variable {rt : Runtime} {c : Calling} {pid : UInt64}

theorem byteSize_le_of_requestSize
    (hfits : c.requestSize pid <= rpcMessageMaxSize) :
    c.byteSize <= rpcMessageMaxSize :=
  Nat.le_trans (Nat.le_add_right _ _) hfits

/-- `chan_send` writes as many bytes as `request__get_packed_size` says. -/
theorem length_pack (h : rt.Lawful)
    (hfits : c.requestSize pid <= rpcMessageMaxSize) :
    (pack rt c pid).length = c.requestSize pid := by
  have hsize := byteSize_le_of_requestSize hfits
  have hpid := pidField_valid pid
  have hpidSize : (pidField pid).size = 1 + varintSize pid.toNat :=
    Field.size_uint64 (by decide) pid
  rw [pack, h.pack]
  cases c with
  | notSet =>
      exact (h.length_writeAll (List.forall_mem_singleton.2 hpid)).trans
        (Nat.add_comm _ _)
  | atstartAction progname =>
      have hnested := nestedField_valid h rfl hsize
      refine (h.length_writeAll (List.forall_mem_cons.2
        ⟨hpid, List.forall_mem_singleton.2 hnested⟩)).trans ?_
      rw [Calling.requestSize, ← nestedField_size h rfl hsize, ← hpidSize]
      exact Nat.add_comm _ _
  | _ =>
      have hnested := nestedField_valid h rfl hsize
      refine (h.length_writeAll (List.forall_mem_cons.2
        ⟨hnested, List.forall_mem_singleton.2 hpid⟩)).trans ?_
      rw [Calling.requestSize, ← nestedField_size h rfl hsize, ← hpidSize]
      rfl

theorem parse_pack_eq (h : rt.Lawful)
    (hfits : c.requestSize pid <= rpcMessageMaxSize) :
    parse rt (pack rt c pid) = some (ofCalling c pid) := by
  have hsize := byteSize_le_of_requestSize hfits
  rcases exists_updates h c pid hsize with ⟨us, hfields, hus, hall, _⟩
  have hparse := parseFields_flatten us hus empty (Nat.le_refl _)
  rw [hfields, hall] at hparse
  rw [pack, h.pack]
  exact hparse

end Runs

/-- The daemon reads the call and the process id that the interceptor packed,
and `chan_send` writes all bytes of the message. -/
theorem parse_pack (rt : Runtime) (h : rt.Lawful) (c : Calling) (pid : UInt64)
    (hfits : c.requestSize pid <= rpcMessageMaxSize) :
    (pack rt c pid).length = c.requestSize pid ∧
      exists req, parse rt (pack rt c pid) = some req ∧
        isInitialized rt req = true ∧ req.calling = c ∧
        req.pid = some pid :=
  ⟨length_pack h hfits, ofCalling c pid, parse_pack_eq h hfits,
    isInitialized_ofCalling rt c pid, callingOf_bodyOf c, rfl⟩

theorem parse_pack_sendto :
    (pack wireFormat (.sendtoCall [7, 8] (-1) none) 300).length = 20 ∧
      exists req, parse wireFormat
          (pack wireFormat (.sendtoCall [7, 8] (-1) none) 300) = some req ∧
        isInitialized wireFormat req = true ∧
        req.calling = .sendtoCall [7, 8] (-1) none ∧ req.pid = some 300 :=
  parse_pack wireFormat wireFormat_lawful (.sendtoCall [7, 8] (-1) none) 300
    (by decide)

end Request

end Rpc
end Velox
