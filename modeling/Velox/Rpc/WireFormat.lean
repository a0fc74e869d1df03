import Velox.Foundation.Base128
import Velox.Rpc.Runtime

/-!
# Libraries that meet the assumptions

`wireFormat` is no model of the libraries.  It shows that there are libraries
which meet the assumptions of `Runtime.Lawful`, and messages can be evaluated
with it: numbers are written in base 128, bytes behind their length, and a
structure is unpacked by looking up each field in its table.
-/

namespace Velox
namespace Rpc

open Foundation

/-- A negative number is extended to 64 bits. -/
def int32Varint (n : Int32) : Nat :=
  (n.toInt % 2 ^ 64).toNat

def FieldValue.encode : FieldValue -> Bytes
  | .int32 n => varintBytes (int32Varint n)
  | .uint64 n => varintBytes n.toNat
  | .bool b => varintBytes b.toNat
  | .enum n => varintBytes (int32Varint n)
  | .bytes content => delimitedBytes content
  | .message content => delimitedBytes content

def Field.encode (f : Field) : Bytes :=
  varintBytes f.tag ++ f.value.encode

def readAs (type : FieldType) (bs : Bytes) : Option (FieldValue × Bytes) :=
  match type with
  | .int32 => (readVarint 10 bs).map fun r => (.int32 (Int32.ofNat r.1), r.2)
  | .uint64 => (readVarint 10 bs).map fun r => (.uint64 (UInt64.ofNat r.1), r.2)
  | .bool => (readVarint 10 bs).map fun r => (.bool (r.1 != 0), r.2)
  | .enum => (readVarint 10 bs).map fun r => (.enum (Int32.ofNat r.1), r.2)
  | .bytes =>
      (readDelimited rpcMessageMaxSize bs).map fun r => (.bytes r.1, r.2)
  | .message =>
      (readDelimited rpcMessageMaxSize bs).map fun r => (.message r.1, r.2)

/-- A field is stored by the entry with its number, and its number is kept for
the test of the required fields. -/
def unpackField {σ : Type} (t : UnpackTable σ) (s : σ × List Nat) (tag : Nat)
    (bs : Bytes) : Option ((σ × List Nat) × Bytes) :=
  (t.entries.find? fun e => e.number == tag / 8).bind fun e =>
    if tag % 8 = e.type.kind then
      (readAs e.type bs).bind fun r =>
        (e.put s.1 r.1).map fun m => ((m, s.2 ++ [tag / 8]), r.2)
    else none

def wireFormat : Runtime where
  write := Field.encode
  readTag := readVarint 5
  readVarint32 bs := (readVarint 10 bs).map fun r => (UInt32.ofNat r.1, r.2)
  readVarint64 bs := (readVarint 10 bs).map fun r => (UInt64.ofNat r.1, r.2)
  readString := readDelimited rpcMessageMaxSize
  parseMessage parse bs :=
    (readDelimited rpcMessageMaxSize bs).bind fun r =>
      (parse r.1).map fun m => (m, r.2)
  unknownFieldParse _ _ := none
  messagePack entries m := ((packed entries m).map Field.encode).flatten
  messageUnpack t bs :=
    (parseMessage (readVarint 5) (unpackField t) (t.init, []) bs).bind fun r =>
      if t.complete r.2 then some r.1 else none

/-!
## Numbers
-/

theorem int32Varint_lt (n : Int32) : int32Varint n < 2 ^ 64 := by
  unfold int32Varint
  lia

theorem int32_ofNat_int32Varint (n : Int32) :
    Int32.ofNat (int32Varint n) = n := by
  have hle := n.le_toInt
  have hlt := n.toInt_lt
  apply Int32.toInt_inj.1
  rw [Int32.toInt_ofNat', int32Varint, Int.toNat_of_nonneg (by lia)]
  rw [Int.bmod_def]
  split
  · lia
  · lia

theorem uint32_ofNat_int32Varint (n : Int32) :
    UInt32.ofNat (int32Varint n) = n.toUInt32 :=
  congrArg Int32.toUInt32 (int32_ofNat_int32Varint n)

theorem reads_number {n : Nat} (h : n < 2 ^ 64) :
    Reads (readVarint 10) (varintBytes n) n :=
  reads_varint (by decide) (by lia)

theorem reads_content {content : Bytes}
    (h : content.length <= rpcMessageMaxSize) :
    Reads (readDelimited rpcMessageMaxSize) (delimitedBytes content) content :=
  reads_delimited (by decide) h

theorem reads_tag {f : Field} (h : f.Valid) :
    Reads (readVarint 5) (varintBytes f.tag) f.tag := by
  have hnumber := h.number_lt
  have hkind := f.value.type.kind_le_two
  apply reads_varint (by decide)
  unfold Field.tag
  lia

/-- The functions for the types read what was written. -/
theorem readsValue_encode {v : FieldValue}
    (h : v.length <= rpcMessageMaxSize) : wireFormat.ReadsValue v.encode v := by
  cases v with
  | int32 n =>
      have hread := (reads_number (int32Varint_lt n)).map UInt32.ofNat
      rw [uint32_ofNat_int32Varint] at hread
      exact hread
  | uint64 n =>
      have hread := (reads_number n.toNat_lt).map UInt64.ofNat
      rw [UInt64.ofNat_toNat] at hread
      exact hread
  | bool b =>
      have hlt : b.toNat < 2 ^ 64 := by
        cases b <;> decide
      have hread := (reads_number hlt).map UInt64.ofNat
      cases b with
      | false => exact hread
      | true => exact hread
  | enum n => exact (reads_number (int32Varint_lt n)).map UInt64.ofNat
  | bytes content => exact reads_content h
  | message content =>
      intro σ parse m hparse
      have hcontent := reads_content h
      constructor
      · intro rest
        show (readDelimited rpcMessageMaxSize _).bind _ = _
        rw [FieldValue.encode, hcontent.whole, Option.bind_some, hparse]
        rfl
      · intro q hq hne
        show (readDelimited rpcMessageMaxSize _).bind _ = _
        rw [hcontent.broken q hq hne]
        rfl

theorem readAs_encode {v : FieldValue} (h : v.length <= rpcMessageMaxSize) :
    Reads (readAs v.type) v.encode v := by
  cases v with
  | int32 n =>
      have hread := (reads_number (int32Varint_lt n)).map
        fun k => FieldValue.int32 (Int32.ofNat k)
      rw [int32_ofNat_int32Varint] at hread
      exact hread
  | uint64 n =>
      have hread := (reads_number n.toNat_lt).map
        fun k => FieldValue.uint64 (UInt64.ofNat k)
      rw [UInt64.ofNat_toNat] at hread
      exact hread
  | bool b =>
      have hlt : b.toNat < 2 ^ 64 := by
        cases b <;> decide
      have hread := (reads_number hlt).map fun k => FieldValue.bool (k != 0)
      cases b with
      | false => exact hread
      | true => exact hread
  | enum n =>
      have hread := (reads_number (int32Varint_lt n)).map
        fun k => FieldValue.enum (Int32.ofNat k)
      rw [int32_ofNat_int32Varint] at hread
      exact hread
  | bytes content => exact (reads_content h).map FieldValue.bytes
  | message content => exact (reads_content h).map FieldValue.message

/-!
## Sizes
-/

theorem length_varintBytesFuel (fuel n : Nat) :
    (varintBytesFuel fuel n).length = varintSizeFuel fuel n := by
  induction fuel generalizing n with
  | zero => rfl
  | succ fuel ih =>
      unfold varintBytesFuel varintSizeFuel
      split
      · rfl
      · rw [List.length_cons, ih, Nat.add_comm]

theorem length_varintBytes (n : Nat) :
    (varintBytes n).length = varintSize n :=
  length_varintBytesFuel 9 n

theorem varintSizeFuel_of_ge {fuel n : Nat} (h : 128 ^ fuel <= n) :
    varintSizeFuel fuel n = fuel + 1 := by
  induction fuel generalizing n with
  | zero => rfl
  | succ fuel ih =>
      have hpos : 1 <= 128 ^ fuel := Nat.one_le_pow _ _ (by decide)
      rw [Nat.pow_succ] at h
      have hdiv : 128 ^ fuel <= n / 128 :=
        (Nat.le_div_iff_mul_le (by decide)).2 h
      rw [varintSizeFuel, if_neg (by lia), ih hdiv, Nat.add_comm]

theorem varintSize_int32Varint (n : Int32) :
    varintSize (int32Varint n) = int32Size n := by
  have hle := n.le_toInt
  have hlt := n.toInt_lt
  have hsign : n < 0 <-> n.toInt < 0 := Int32.lt_iff_toInt_lt
  unfold int32Size
  split
  case isTrue hneg =>
    -- The sign fills the number up to its 64th bit.
    have hint := hsign.1 hneg
    have hbig : 128 ^ 9 <= int32Varint n := by
      unfold int32Varint
      lia
    exact varintSizeFuel_of_ge hbig
  case isFalse hneg =>
    have hint : ¬ n.toInt < 0 := fun h => hneg (hsign.2 h)
    have hsame : int32Varint n = n.toInt.toNat := by
      unfold int32Varint
      lia
    rw [hsame]

theorem FieldValue.length_encode (v : FieldValue) :
    v.encode.length = v.size := by
  cases v with
  | int32 n => exact (length_varintBytes _).trans (varintSize_int32Varint n)
  | uint64 n => exact length_varintBytes _
  | bool b =>
      cases b with
      | false => rfl
      | true => rfl
  | enum n => exact (length_varintBytes _).trans (varintSize_int32Varint n)
  | bytes content =>
      exact List.length_append.trans
        (congrArg (· + content.length) (length_varintBytes _))
  | message content =>
      exact List.length_append.trans
        (congrArg (· + content.length) (length_varintBytes _))

theorem Field.length_encode (f : Field) : f.encode.length = f.size := by
  rw [Field.encode, List.length_append, length_varintBytes,
    f.value.length_encode, Field.size]

/-!
## Unpacking
-/

section Unpacking

variable {σ : Type} {t : UnpackTable σ}

theorem unpackField_encode {f : Field} (hf : f.Valid) {m m' : σ}
    (hstore : t.store m f = some m') (seen : List Nat) (rest : Bytes) :
    unpackField t (m, seen) f.tag (f.value.encode ++ rest) =
      some ((m', seen ++ [f.number]), rest) := by
  have hkind := f.value.type.kind_le_two
  have hnumber : f.tag / 8 = f.number := by
    unfold Field.tag
    lia
  have htype : f.tag % 8 = f.value.type.kind := by
    unfold Field.tag
    lia
  rcases Option.bind_eq_some_iff.1 hstore with ⟨e, hfind, hput⟩
  by_cases he : e.type = f.value.type
  · rw [if_pos he] at hput
    rw [unpackField, hnumber, hfind, Option.bind_some, htype, he, if_pos rfl,
      (readAs_encode hf.length_le).whole, Option.bind_some, hput]
    rfl
  · rw [if_neg he] at hput
    cases hput

/-- Each turn of the loop stores the next field. -/
theorem parseFields_unpackField {fs : List Field}
    (hfs : forall f, f ∈ fs -> f.Valid) {m m' : σ}
    (hstores : t.stores m fs = some m') (seen : List Nat) {fuel : Nat}
    (hfuel : (fs.map Field.encode).flatten.length <= fuel) :
    parseFields (readVarint 5) (unpackField t) fuel (m, seen)
        (fs.map Field.encode).flatten =
      some (m', seen ++ fs.map Field.number) := by
  induction fs generalizing m seen fuel with
  | nil =>
      cases hstores
      rw [List.map_nil, List.map_nil, List.append_nil]
      exact parseFields_nil fuel _
  | cons f fs ih =>
      rw [List.forall_mem_cons] at hfs
      rcases Option.bind_eq_some_iff.1 hstores with ⟨mid, hstore, hrest⟩
      have htag := varintBytes_ne_nil f.tag
      have hne : f.encode ≠ [] :=
        fun hnil => htag (List.append_eq_nil_iff.1 hnil).1
      rw [List.map_cons, List.flatten_cons] at hfuel ⊢
      rcases exists_fuel hne hfuel with ⟨fuel, rfl, hlen⟩
      rw [Field.encode, parseFields_turn htag (reads_tag hfs.1)
        (unpackField_encode hfs.1 hstore seen _), ih hfs.2 hrest _ hlen,
        List.append_assoc]
      rfl

end Unpacking

theorem wireFormat_lawful : wireFormat.Lawful where
  length_write f _ := f.length_encode
  reads f hf := ⟨varintBytes f.tag, f.value.encode, rfl, varintBytes_ne_nil _,
    reads_tag hf, readsValue_encode hf.length_le⟩
  pack _ _ := rfl
  unpack := by
    intro σ t fs m hfs _ hstores
    have hparse : parseMessage (readVarint 5) (unpackField t) (t.init, [])
        (wireFormat.writeAll fs) = some (m, fs.map Field.number) :=
      parseFields_unpackField hfs hstores [] (Nat.le_refl _)
    show (parseMessage (readVarint 5) (unpackField t) _ _).bind _ = _
    rw [hparse]
    rfl

end Rpc
end Velox
