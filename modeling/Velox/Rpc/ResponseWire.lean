import Velox.Interceptor.ChanRecv
import Velox.Rpc.WireFormat

/-!
# Responses from the daemon to the interceptor

The daemon serialises a response with the code of `response.pb.cc`, and the
interceptor unpacks the bytes by the tables of `response.pb-c.c`.  For all
run-time libraries that meet the assumptions, `Response.unpack_serialize` says
that the interceptor gets the response that the daemon made, if its code is
set, and none otherwise.
-/

namespace Velox
namespace Rpc

open Foundation

namespace Response

/-!
## The serialiser of the daemon
-/

def returningCase : Returning -> Option Call
  | .socketCall _ => some .socketCall
  | .connectCall _ => some .connectCall
  | .closeCall _ => some .closeCall
  | .recvfromCall _ _ _ => some .recvfromCall
  | .sendtoCall _ => some .sendtoCall
  | .pollCall _ => some .pollCall
  | .selectCall _ => some .selectCall
  | .getpeernameCall _ _ => some .getpeernameCall
  | .getsocknameCall _ _ => some .getsocknameCall
  | .getsockoptCall _ => some .getsockoptCall
  | .setsockoptCall _ => some .setsockoptCall
  | .fcntlCall _ => some .fcntlCall
  | .atstartAction _ _ => some .atstartAction
  | .notSet => none

/-- A field that is written if its bit is set. -/
def optionalField {α : Type} (number : Nat) (value : α -> FieldValue)
    (a : Option α) : List Field :=
  (a.map fun a => ⟨number, value a⟩).toList

def resultFields (r : CallRet) : List Field :=
  ⟨1, .int32 r.ret⟩ :: optionalField 2 .int32 r.errno

/-- The `_InternalSerialize` functions of the nested messages. -/
def nestedFields : Returning -> List Field
  | .recvfromCall r buf addr =>
      resultFields r ++ optionalField 3 .bytes buf ++
        optionalField 4 .bytes addr
  | .getpeernameCall r peername =>
      resultFields r ++ optionalField 3 .bytes peername
  | .getsocknameCall r sockanme =>
      resultFields r ++ optionalField 3 .bytes sockanme
  | .atstartAction startfd count =>
      ⟨1, .int32 startfd⟩ :: optionalField 2 .int32 count
  | .notSet => []
  | .socketCall r | .connectCall r | .closeCall r | .sendtoCall r |
    .pollCall r | .selectCall r | .getsockoptCall r | .setsockoptCall r |
    .fcntlCall r => resultFields r

def retCodeNumber : RetCode -> Int32
  | .ok => 0
  | .error => 1
  | .waitNext => 2

section Serialize

variable (rt : Runtime)

def nestedField (r : Returning) (k : Call) : Field :=
  ⟨k.number, .message (rt.writeAll (nestedFields r))⟩

/-- The `switch` at the start of the serialiser, which does not have the case
of `atstartAction`. -/
def frontFields (r : Returning) : List Field :=
  match returningCase r with
  | none => []
  | some .atstartAction => []
  | some k => [nestedField rt r k]

def atstartFields (r : Returning) : List Field :=
  if returningCase r = some .atstartAction then
    [nestedField rt r .atstartAction]
  else []

def retCodeFields (code : Option RetCode) : List Field :=
  optionalField 15 (fun code => .enum (retCodeNumber code)) code

def fields (resp : Velox.Response) : List Field :=
  frontFields rt resp.returning ++ retCodeFields resp.retCode ++
    atstartFields rt resp.returning

/-- `Response::_InternalSerialize`. -/
def serialize (resp : Velox.Response) : Bytes :=
  rt.writeAll (fields rt resp)

end Serialize

/-!
## The tables of the interceptor
-/

def int32Entry {σ : Type} (number : Nat) (required : Bool)
    (put : σ -> Int32 -> σ) : UnpackEntry σ where
  number := number
  required := required
  type := .int32
  put s value :=
    match value with
    | .int32 n => some (put s n)
    | _ => none

def bytesEntry {σ : Type} (number : Nat) (required : Bool)
    (put : σ -> Bytes -> σ) : UnpackEntry σ where
  number := number
  required := required
  type := .bytes
  put s value :=
    match value with
    | .bytes content => some (put s content)
    | _ => none

/-- The result in the structure of a call. -/
def mapResult (f : CallRet -> CallRet) : Returning -> Returning
  | .socketCall r => .socketCall (f r)
  | .connectCall r => .connectCall (f r)
  | .closeCall r => .closeCall (f r)
  | .recvfromCall r buf addr => .recvfromCall (f r) buf addr
  | .sendtoCall r => .sendtoCall (f r)
  | .pollCall r => .pollCall (f r)
  | .selectCall r => .selectCall (f r)
  | .getpeernameCall r peername => .getpeernameCall (f r) peername
  | .getsocknameCall r sockanme => .getsocknameCall (f r) sockanme
  | .getsockoptCall r => .getsockoptCall (f r)
  | .setsockoptCall r => .setsockoptCall (f r)
  | .fcntlCall r => .fcntlCall (f r)
  | r => r

def resultEntries : List (UnpackEntry Returning) :=
  [int32Entry 1 true fun s n => mapResult (fun r => { r with ret := n }) s,
    int32Entry 2 false fun s n =>
      mapResult (fun r => { r with errno := some n }) s]

def recvfromEntries : List (UnpackEntry Returning) :=
  resultEntries ++
    [bytesEntry 3 false fun
        | .recvfromCall r _ addr, buf => .recvfromCall r (some buf) addr
        | s, _ => s,
      bytesEntry 4 false fun
        | .recvfromCall r buf _, addr => .recvfromCall r buf (some addr)
        | s, _ => s]

def getpeernameEntries : List (UnpackEntry Returning) :=
  resultEntries ++
    [bytesEntry 3 false fun
        | .getpeernameCall r _, peername => .getpeernameCall r (some peername)
        | s, _ => s]

def getsocknameEntries : List (UnpackEntry Returning) :=
  resultEntries ++
    [bytesEntry 3 false fun
        | .getsocknameCall r _, sockanme => .getsocknameCall r (some sockanme)
        | s, _ => s]

def atstartEntries : List (UnpackEntry Returning) :=
  [int32Entry 1 true fun
      | .atstartAction _ count, startfd => .atstartAction startfd count
      | s, _ => s,
    int32Entry 2 false fun
      | .atstartAction startfd _, count => .atstartAction startfd (some count)
      | s, _ => s]

/-- The tables of the nested messages.  The structure of a call is its
constructor in `Returning`. -/
def nestedTable : Call -> UnpackTable Returning
  | .socketCall => ⟨.socketCall ⟨0, none⟩, resultEntries⟩
  | .connectCall => ⟨.connectCall ⟨0, none⟩, resultEntries⟩
  | .closeCall => ⟨.closeCall ⟨0, none⟩, resultEntries⟩
  | .recvfromCall => ⟨.recvfromCall ⟨0, none⟩ none none, recvfromEntries⟩
  | .sendtoCall => ⟨.sendtoCall ⟨0, none⟩, resultEntries⟩
  | .pollCall => ⟨.pollCall ⟨0, none⟩, resultEntries⟩
  | .selectCall => ⟨.selectCall ⟨0, none⟩, resultEntries⟩
  | .getpeernameCall => ⟨.getpeernameCall ⟨0, none⟩ none, getpeernameEntries⟩
  | .getsocknameCall => ⟨.getsocknameCall ⟨0, none⟩ none, getsocknameEntries⟩
  | .getsockoptCall => ⟨.getsockoptCall ⟨0, none⟩, resultEntries⟩
  | .setsockoptCall => ⟨.setsockoptCall ⟨0, none⟩, resultEntries⟩
  | .fcntlCall => ⟨.fcntlCall ⟨0, none⟩, resultEntries⟩
  | .atstartAction => ⟨.atstartAction 0 none, atstartEntries⟩

end Response

/-- The structure of the interceptor; its code is a plain number. -/
structure Response where
  returning : Returning
  retcode : Int32

namespace Response

section Unpack

variable (rt : Runtime)

def nestedEntry (k : Call) : UnpackEntry Response where
  number := k.number
  required := false
  type := .message
  put s value :=
    match value with
    | .message content =>
        (rt.messageUnpack (nestedTable k) content).map fun r =>
          { s with returning := r }
    | _ => none

def retCodeEntry : UnpackEntry Response where
  number := 15
  required := true
  type := .enum
  put s value :=
    match value with
    | .enum n => some { s with retcode := n }
    | _ => none

/-- `response__field_descriptors` and `RESPONSE__INIT`. -/
def table : UnpackTable Response where
  init := ⟨.notSet, 0⟩
  entries :=
    Call.front.map (nestedEntry rt) ++
      [retCodeEntry, nestedEntry rt .atstartAction]

def retCodeOf (n : Int32) : Option RetCode :=
  if n = 0 then some .ok
  else if n = 1 then some .error
  else if n = 2 then some .waitNext
  else none

def toResponse (m : Response) : Velox.Response :=
  ⟨m.returning, retCodeOf m.retcode⟩

/-- `response__unpack`. -/
def unpack (bs : Bytes) : Option Velox.Response :=
  (rt.messageUnpack (table rt) bs).map toResponse

end Unpack

/-!
## Nested messages
-/

theorem eq_notSet_of_case {r : Returning} (h : returningCase r = none) :
    r = .notSet := by
  cases r with
  | notSet => rfl
  | _ => cases h

theorem retCodeOf_retCodeNumber (code : RetCode) :
    retCodeOf (retCodeNumber code) = some code := by
  cases code <;> rfl

theorem nested_stores {r : Returning} {k : Call}
    (h : returningCase r = some k) :
    (nestedTable k).stores (nestedTable k).init (nestedFields r) =
      some r := by
  cases r with
  | recvfromCall r buf addr =>
      cases h
      rcases r with ⟨ret, errno⟩
      cases errno <;> cases buf <;> cases addr <;> rfl
  | getpeernameCall r peername =>
      cases h
      rcases r with ⟨ret, errno⟩
      cases errno <;> cases peername <;> rfl
  | getsocknameCall r sockanme =>
      cases h
      rcases r with ⟨ret, errno⟩
      cases errno <;> cases sockanme <;> rfl
  | atstartAction startfd count =>
      cases h
      cases count <;> rfl
  | notSet => cases h
  | _ r =>
      cases h
      rcases r with ⟨ret, errno⟩
      cases errno <;> rfl

/-- The result of a call, or the start of the range, is always written. -/
theorem nested_complete {r : Returning} {k : Call}
    (h : returningCase r = some k) :
    (nestedTable k).complete ((nestedFields r).map Field.number) = true := by
  cases r with
  | notSet => cases h
  | _ =>
      cases h
      rfl

theorem optionalField_numbers {α : Type} (number : Nat)
    (value : α -> FieldValue) (a : Option α) :
    ((optionalField number value a).map Field.number).Sublist [number] := by
  cases a with
  | none => exact List.nil_sublist _
  | some a => exact List.Sublist.refl _

theorem resultFields_numbers (r : CallRet) :
    ((resultFields r).map Field.number).Sublist [1, 2] :=
  (optionalField_numbers 2 _ r.errno).cons_cons 1

theorem nestedFields_numbers (r : Returning) :
    ((nestedFields r).map Field.number).Sublist [1, 2, 3, 4] := by
  cases r with
  | recvfromCall r buf addr =>
      rw [nestedFields, List.map_append, List.map_append]
      exact ((resultFields_numbers r).append
        (optionalField_numbers 3 _ buf)).append (optionalField_numbers 4 _ addr)
  | getpeernameCall r peername =>
      rw [nestedFields, List.map_append]
      exact ((resultFields_numbers r).append
        (optionalField_numbers 3 _ peername)).trans (by decide)
  | getsocknameCall r sockanme =>
      rw [nestedFields, List.map_append]
      exact ((resultFields_numbers r).append
        (optionalField_numbers 3 _ sockanme)).trans (by decide)
  | atstartAction startfd count =>
      exact ((optionalField_numbers 2 _ count).cons_cons 1).trans (by decide)
  | notSet => exact List.nil_sublist _
  | _ r => exact (resultFields_numbers r).trans (by decide)

/-!
## Sizes
-/

theorem sum_int32 {number : Nat} (h : number < 16) (n : Option Int32) :
    ((optionalField number .int32 n).map Field.size).sum =
      int32FieldSize n := by
  cases n with
  | none => rfl
  | some n => exact Field.size_int32 h n

theorem sum_bytes {number : Nat} (h : number < 16) (content : Option Bytes) :
    ((optionalField number .bytes content).map Field.size).sum =
      bytesFieldSize content := by
  cases content with
  | none => rfl
  | some content => exact Field.size_bytes h content

theorem sum_result (r : CallRet) :
    ((resultFields r).map Field.size).sum = r.byteSize :=
  congrArg (int32FieldSize (some r.ret) + ·) (sum_int32 (by decide) r.errno)

/-- The sizes of the fields add up to that of the nested message. -/
theorem byteSize_eq_sum {r : Returning} {k : Call}
    (h : returningCase r = some k) :
    r.byteSize = delimitedSize (varintSize (k.number * 8 + 2))
      ((nestedFields r).map Field.size).sum := by
  cases r with
  | recvfromCall r buf addr =>
      cases h
      refine congrArg (delimitedSize 1) ?_
      rw [nestedFields, List.map_append, List.map_append, List.sum_append,
        List.sum_append, sum_result, sum_bytes (by decide),
        sum_bytes (by decide)]
  | getpeernameCall r peername =>
      cases h
      refine congrArg (delimitedSize 1) ?_
      rw [nestedFields, List.map_append, List.sum_append, sum_result,
        sum_bytes (by decide)]
  | getsocknameCall r sockanme =>
      cases h
      refine congrArg (delimitedSize 1) ?_
      rw [nestedFields, List.map_append, List.sum_append, sum_result,
        sum_bytes (by decide)]
  | atstartAction startfd count =>
      cases h
      exact congrArg (delimitedSize 2) (congrArg
        (int32FieldSize (some startfd) + ·) (sum_int32 (by decide) count)).symm
  | notSet => cases h
  | _ r =>
      cases h
      exact congrArg (delimitedSize 1) (sum_result r).symm

theorem sum_retCode (code : Option RetCode) :
    ((retCodeFields code).map Field.size).sum = code.elim 0 fun _ => 2 := by
  cases code with
  | none => rfl
  | some code => cases code <;> rfl

section Nested

variable {rt : Runtime} {r : Returning} {k : Call}

theorem nestedFields_valid (hcase : returningCase r = some k)
    (hfits : r.byteSize <= rpcMessageMaxSize) :
    forall f, f ∈ nestedFields r -> f.Valid := by
  apply Field.valid_of_sum (by decide : 4 < 2 ^ 29)
  · intro f hf
    have hmem := (nestedFields_numbers r).subset (List.mem_map_of_mem hf)
    simp only [List.mem_cons, List.not_mem_nil, or_false] at hmem
    lia
  · rw [byteSize_eq_sum hcase] at hfits
    exact Nat.le_trans (Nat.le_add_left _ _) hfits

theorem nestedField_size (h : rt.Lawful) (hcase : returningCase r = some k)
    (hfits : r.byteSize <= rpcMessageMaxSize) :
    (nestedField rt r k).size = r.byteSize := by
  rw [nestedField, h.size_message k.number (nestedFields_valid hcase hfits),
    byteSize_eq_sum hcase]

theorem nestedField_valid (h : rt.Lawful) (hcase : returningCase r = some k)
    (hfits : r.byteSize <= rpcMessageMaxSize) :
    (nestedField rt r k).Valid := by
  have hfields := nestedFields_valid hcase hfits
  rw [byteSize_eq_sum hcase] at hfits
  exact h.message_valid k hfields hfits

theorem nested_unpack (h : rt.Lawful) (hcase : returningCase r = some k)
    (hfits : r.byteSize <= rpcMessageMaxSize) :
    rt.messageUnpack (nestedTable k) (rt.writeAll (nestedFields r)) =
      some r := by
  have hnodup : ((nestedFields r).map Field.number).Nodup :=
    (nestedFields_numbers r).nodup (by decide)
  rw [h.unpack (nestedTable k) (nestedFields r) r
    (nestedFields_valid hcase hfits) hnodup (nested_stores hcase),
    if_pos (nested_complete hcase)]

theorem store_nested (h : rt.Lawful) (hcase : returningCase r = some k)
    (hfits : r.byteSize <= rpcMessageMaxSize) (s : Response) :
    (table rt).store s (nestedField rt r k) =
      some { s with returning := r } := by
  have hentry : (table rt).store s (nestedField rt r k) =
      (rt.messageUnpack (nestedTable k) (rt.writeAll (nestedFields r))).map
        fun r => { s with returning := r } := by
    cases k <;> rfl
  rw [hentry, nested_unpack h hcase hfits]
  rfl

end Nested

/-!
## Responses
-/

section Runs

variable {rt : Runtime} {resp : Velox.Response}

theorem fields_of_none (hcase : returningCase resp.returning = none) :
    fields rt resp = retCodeFields resp.retCode := by
  rw [fields, frontFields, atstartFields, hcase]
  exact List.append_nil _

theorem fields_of_front {k : Call}
    (hcase : returningCase resp.returning = some k)
    (hk : k ≠ .atstartAction) :
    fields rt resp =
      nestedField rt resp.returning k :: retCodeFields resp.retCode := by
  have hfront : frontFields rt resp.returning =
      [nestedField rt resp.returning k] := by
    rw [frontFields, hcase]
    cases k <;> first | rfl | exact absurd rfl hk
  rw [fields, hfront, atstartFields, if_neg fun hstart => hk
    (Option.some.inj (hcase.symm.trans hstart))]
  exact List.append_nil _

theorem fields_of_atstart
    (hcase : returningCase resp.returning = some .atstartAction) :
    fields rt resp = retCodeFields resp.retCode ++
      [nestedField rt resp.returning .atstartAction] := by
  rw [fields, frontFields, atstartFields, hcase]
  rfl

/-- The nested message is written in front of the code or behind it. -/
theorem fields_perm {k : Call} (hcase : returningCase resp.returning = some k) :
    (fields rt resp).Perm
      (nestedField rt resp.returning k :: retCodeFields resp.retCode) := by
  by_cases hk : k = .atstartAction
  · subst hk
    rw [fields_of_atstart hcase]
    exact List.perm_append_singleton _ _
  · exact List.Perm.of_eq (fields_of_front hcase hk)

theorem retCodeFields_valid (code : Option RetCode) :
    forall f, f ∈ retCodeFields code -> f.Valid := by
  cases code with
  | none => exact List.forall_mem_nil _
  | some code =>
      exact List.forall_mem_singleton.2
        (Field.valid (by decide) (by decide) (Nat.zero_le _))

theorem byteSize_eq_add (resp : Velox.Response) :
    resp.byteSize = resp.returning.byteSize +
      ((retCodeFields resp.retCode).map Field.size).sum := by
  rw [sum_retCode, Velox.Response.byteSize]
  cases resp.retCode with
  | none => rfl
  | some code => rfl

theorem byteSize_le_of_response (hfits : resp.byteSize <= rpcMessageMaxSize) :
    resp.returning.byteSize <= rpcMessageMaxSize := by
  rw [byteSize_eq_add] at hfits
  exact Nat.le_trans (Nat.le_add_right _ _) hfits

theorem fields_valid (h : rt.Lawful)
    (hfits : resp.byteSize <= rpcMessageMaxSize) :
    forall f, f ∈ fields rt resp -> f.Valid := by
  have hcode := retCodeFields_valid resp.retCode
  cases hcase : returningCase resp.returning with
  | none =>
      rw [fields_of_none hcase]
      exact hcode
  | some k =>
      have hnested := nestedField_valid h hcase (byteSize_le_of_response hfits)
      intro f hf
      exact List.forall_mem_cons.2 ⟨hnested, hcode⟩ f
        ((fields_perm hcase).mem_iff.1 hf)

theorem fields_nodup (rt : Runtime) (resp : Velox.Response) :
    ((fields rt resp).map Field.number).Nodup := by
  have hcode := optionalField_numbers 15
    (fun code => .enum (retCodeNumber code)) resp.retCode
  cases hcase : returningCase resp.returning with
  | none =>
      rw [fields_of_none hcase]
      exact hcode.nodup (by decide)
  | some k =>
      have hnumber : [k.number, 15].Nodup := by
        cases k <;> decide
      exact ((fields_perm hcase).map Field.number).nodup_iff.2
        ((hcode.cons_cons k.number).nodup hnumber)

/-- `SerializeToArray` writes as many bytes as `ByteSizeLong` says. -/
theorem length_serialize (h : rt.Lawful)
    (hfits : resp.byteSize <= rpcMessageMaxSize) :
    (serialize rt resp).length = resp.byteSize := by
  rw [serialize, h.length_writeAll (fields_valid h hfits), byteSize_eq_add]
  cases hcase : returningCase resp.returning with
  | none =>
      rw [fields_of_none hcase, eq_notSet_of_case hcase]
      exact (Nat.zero_add _).symm
  | some k =>
      have hsize := nestedField_size h hcase (byteSize_le_of_response hfits)
      rw [((fields_perm hcase).map Field.size).sum_eq, List.map_cons,
        List.sum_cons, hsize]

theorem stores_retCode (s : Response) (code : Option RetCode) :
    (table rt).stores s (retCodeFields code) =
      some { s with retcode := code.elim s.retcode retCodeNumber } := by
  cases code with
  | none => rfl
  | some code => rfl

/-- The structure that the fields are stored into. -/
theorem fields_stores (h : rt.Lawful)
    (hfits : resp.byteSize <= rpcMessageMaxSize) :
    (table rt).stores (table rt).init (fields rt resp) =
      some ⟨resp.returning, resp.retCode.elim 0 retCodeNumber⟩ := by
  have hsize := byteSize_le_of_response hfits
  cases hcase : returningCase resp.returning with
  | none =>
      rw [fields_of_none hcase, stores_retCode, eq_notSet_of_case hcase]
      rfl
  | some k =>
      have hnested := store_nested h hcase hsize
      by_cases hk : k = .atstartAction
      · subst hk
        rw [fields_of_atstart hcase, UnpackTable.stores_append, stores_retCode,
          Option.bind_some, UnpackTable.stores_cons, hnested]
        rfl
      · rw [fields_of_front hcase hk, UnpackTable.stores_cons, hnested,
          Option.bind_some, stores_retCode]
        rfl

theorem table_complete (rt : Runtime) (numbers : List Nat) :
    (table rt).complete numbers = numbers.contains 15 :=
  Bool.and_true _

theorem retCodeFields_mem (code : Option RetCode) :
    15 ∈ (retCodeFields code).map Field.number <-> code.isSome = true := by
  cases code with
  | none => exact iff_of_false List.not_mem_nil Bool.false_ne_true
  | some code => exact iff_of_true List.mem_cons_self rfl

/-- Only the code of a response may be missing. -/
theorem fields_complete (rt : Runtime) (resp : Velox.Response) :
    (table rt).complete ((fields rt resp).map Field.number) =
      resp.retCode.isSome := by
  rw [table_complete, Bool.eq_iff_iff, List.contains_iff_mem,
    ← retCodeFields_mem]
  cases hcase : returningCase resp.returning with
  | none => rw [fields_of_none hcase]
  | some k =>
      have hnumber : 15 ≠ k.number := by
        cases k <;> decide
      rw [((fields_perm hcase).map Field.number).mem_iff, List.map_cons,
        List.mem_cons]
      exact or_iff_right hnumber

theorem unpack_eq (h : rt.Lawful)
    (hfits : resp.byteSize <= rpcMessageMaxSize) :
    unpack rt (serialize rt resp) =
      Velox.ReadOutcome.responseUnpack resp := by
  rw [unpack, serialize, h.unpack _ _ _ (fields_valid h hfits)
    (fields_nodup rt resp) (fields_stores h hfits), fields_complete]
  rcases resp with ⟨returning, code⟩
  cases code with
  | none => rfl
  | some code =>
      exact congrArg (fun c => some (Velox.Response.mk returning c))
        (retCodeOf_retCodeNumber code)

end Runs

/-- The interceptor gets the response that the daemon made, in as many bytes as
`AgentChannel::Impl::write` passes to the kernel; without its code it gets a
null pointer. -/
theorem unpack_serialize (rt : Runtime) (h : rt.Lawful) (resp : Velox.Response)
    (hfits : resp.byteSize <= rpcMessageMaxSize) :
    (serialize rt resp).length = resp.byteSize ∧
      unpack rt (serialize rt resp) = ReadOutcome.responseUnpack resp :=
  ⟨length_serialize h hfits, unpack_eq h hfits⟩

theorem unpack_serialize_recvfrom :
    (serialize wireFormat
        ⟨.recvfromCall ⟨-1, some 11⟩ (some [5]) none, some .ok⟩).length = 20 ∧
      unpack wireFormat (serialize wireFormat
          ⟨.recvfromCall ⟨-1, some 11⟩ (some [5]) none, some .ok⟩) =
        some ⟨.recvfromCall ⟨-1, some 11⟩ (some [5]) none, some .ok⟩ :=
  unpack_serialize wireFormat wireFormat_lawful
    ⟨.recvfromCall ⟨-1, some 11⟩ (some [5]) none, some .ok⟩ (by decide)

end Response

end Rpc
end Velox
