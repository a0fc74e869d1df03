import Velox.Foundation.Bytes

/-!
# Frame buffers

A `FrameBuf` holds the bytes of one frame together with pointers into them.
The model keeps the initialised part of `rawBytes` and represents a pointer by
its offset from the start of the array, with `none` for the null pointer.
-/

namespace Velox

open Foundation

def maxRawBytesSize : Nat := 1518

/-- One frame; a buffer larger than the array cannot be built. -/
structure FrameBuf where
  rawBytes : Bytes
  transportHdr : Option Nat
  networkHdr : Option Nat
  hdrsBegin : Option Nat
  hdrsEnd : Option Nat
  userPayloadBegin : Option Nat
  userPayloadEnd : Option Nat
  size_le : rawBytes.length <= maxRawBytesSize
  deriving DecidableEq

/-- A non-null `shared_ptr<FrameBuf>`: a frame and the frames linked behind
it through `next`. -/
structure Skbuf where
  head : FrameBuf
  next : List FrameBuf
  deriving DecidableEq

namespace FrameBuf

def pointee (f : FrameBuf) (p : Option Nat) : Bytes :=
  match p with
  | none => []
  | some o => f.rawBytes.drop o

def write8 (f : FrameBuf) (p : Option Nat) (i : Nat) (v : UInt8) : FrameBuf :=
  match p with
  | none => f
  | some o =>
      { f with
        rawBytes := store8 f.rawBytes (o + i) v
        size_le := by simpa using f.size_le }

def write16 (f : FrameBuf) (p : Option Nat) (i : Nat) (v : UInt16) :
    FrameBuf :=
  match p with
  | none => f
  | some o =>
      { f with
        rawBytes := store16 f.rawBytes (o + i) v
        size_le := by simpa using f.size_le }

def write32 (f : FrameBuf) (p : Option Nat) (i : Nat) (v : UInt32) :
    FrameBuf :=
  match p with
  | none => f
  | some o =>
      { f with
        rawBytes := store32 f.rawBytes (o + i) v
        size_le := by simpa using f.size_le }

def pointerDiff (pend pbegin : Option Nat) : Int :=
  match pend, pbegin with
  | some e, some b => (e : Int) - (b : Int)
  | _, _ => 0

def range (f : FrameBuf) (pbegin pend : Option Nat) : Bytes :=
  match pbegin, pend with
  | some b, some e => (f.rawBytes.drop b).take (e - b)
  | _, _ => []

def userPayloadLen (f : FrameBuf) : Int :=
  pointerDiff f.userPayloadEnd f.userPayloadBegin

def userPayload (f : FrameBuf) : Bytes :=
  f.range f.userPayloadBegin f.userPayloadEnd

end FrameBuf

/-- `drain_skbuf_chain`: the payloads of the linked frames that have one. -/
def drainSkbufChain : List FrameBuf -> Bytes
  | [] => []
  | skb :: rest =>
      (if 0 < skb.userPayloadLen then skb.userPayload else []) ++
        drainSkbufChain rest

def FrameBuf.PayloadInside (f : FrameBuf) : Prop :=
  exists b e, f.userPayloadBegin = some b ∧ f.userPayloadEnd = some e ∧
    b <= e ∧ e <= f.rawBytes.length

theorem FrameBuf.PayloadInside.length_eq {f : FrameBuf}
    (h : f.PayloadInside) : (f.userPayload.length : Int) = f.userPayloadLen := by
  rcases h with ⟨b, e, hbegin, hend, hle, hsize⟩
  rw [userPayload, userPayloadLen, hbegin, hend, range, pointerDiff,
    List.length_take, List.length_drop]
  lia

theorem drainSkbufChain_cons {f : FrameBuf} (h : f.PayloadInside)
    (rest : List FrameBuf) :
    drainSkbufChain (f :: rest) = f.userPayload ++ drainSkbufChain rest := by
  have hlen := h.length_eq
  rw [drainSkbufChain]
  by_cases hpos : 0 < f.userPayloadLen
  · rw [if_pos hpos]
  · have hnil : f.userPayload = [] := List.eq_nil_of_length_eq_zero (by lia)
    rw [if_neg hpos, hnil]

def Skbuf.frames (skbuf : Skbuf) : List FrameBuf :=
  skbuf.head :: skbuf.next

/-- `TunIface::rx`: the frame that a read of the device leaves. -/
def TunIface.rx (frame : Bytes) : FrameBuf where
  rawBytes := frame.take maxRawBytesSize
  transportHdr := none
  networkHdr := some 0
  hdrsBegin := some 0
  hdrsEnd := none
  userPayloadBegin := none
  userPayloadEnd := some (frame.take maxRawBytesSize).length
  size_le := List.length_take_le _ _

structure SockaddrIn where
  sinFamily : UInt16
  sinPort : UInt16
  sinAddr : UInt32
  sinZero : Bytes
  deriving DecidableEq

def afInet : UInt16 := 2

namespace SockaddrIn

def toBytes (a : SockaddrIn) : Bytes :=
  [byteOf a.sinFamily.toNat 0, byteOf a.sinFamily.toNat 1,
    byteOf a.sinPort.toNat 0, byteOf a.sinPort.toNat 1,
    byteOf a.sinAddr.toNat 0, byteOf a.sinAddr.toNat 1,
    byteOf a.sinAddr.toNat 2, byteOf a.sinAddr.toNat 3] ++ a.sinZero

/-- The `memcpy` of a `bytes` field of a message into the structure. -/
def ofBytes (bs : Bytes) : SockaddrIn where
  sinFamily := load16 bs 0
  sinPort := load16 bs 2
  sinAddr := load32 bs 4
  sinZero := (bs.drop 8).take 8

/-- A `bzero`ed structure with the `AF_INET` family, an address and a port. -/
def inet (addr : UInt32) (port : UInt16) : SockaddrIn where
  sinFamily := afInet
  sinPort := port
  sinAddr := addr
  sinZero := List.replicate 8 0

end SockaddrIn

end Velox
