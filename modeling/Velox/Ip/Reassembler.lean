import Velox.Frame.Headers

/-!
# IP reassembly

`Reassembler::defrag` keeps one group of fragments for each datagram that is
not complete.  A fragment is linked into its group by offset; once the group
covers the datagram, it is removed and returned as one chain.  The result is
`none` where the source dereferences a null pointer.
-/

namespace Velox

open Foundation

structure FragKey where
  ipId : UInt16
  ipProtocol : UInt16
  ipSaddr : UInt32
  ipDaddr : UInt32
  deriving DecidableEq

structure FragGroup where
  key : FragKey
  first : List FrameBuf
  deriving DecidableEq

def fragKey (f : FrameBuf) : FragKey where
  ipId := IpHdr.id f
  ipProtocol := UInt16.ofNat (IpHdr.protocol f).toNat
  ipSaddr := IpHdr.saddr f
  ipDaddr := IpHdr.daddr f

/-- The fragment offset in units of 8 bytes. -/
def fragOffset (f : FrameBuf) : Nat :=
  (ntohs (IpHdr.fragOff f) &&& ipOffMask).toNat

/-- `ours_off`: the same field without the conversion to host order. -/
def oursOff (f : FrameBuf) : Nat :=
  (IpHdr.fragOff f &&& ipOffMask).toNat

def moreFragments (f : FrameBuf) : Bool :=
  ntohs (IpHdr.fragOff f) &&& ipMfMask != 0

def fragPayloadLen (f : FrameBuf) : Int :=
  (ntohs (IpHdr.totLen f)).toNat - IpHdr.ihl f * 4

namespace FragGroup

def linkBehind (skbuf : FrameBuf) : List FrameBuf -> List FrameBuf
  | [] => [skbuf]
  | curr :: rest =>
      if fragOffset curr < oursOff skbuf then
        curr :: linkBehind skbuf rest
      else skbuf :: curr :: rest

/-- Links a frame into a group.  If the walk stops at the first frame, `prev`
is still null when its `next` is set. -/
def link (skbuf : FrameBuf) : List FrameBuf -> Option (List FrameBuf)
  | [] => some [skbuf]
  | first :: rest =>
      if fragOffset skbuf < fragOffset first then
        some (skbuf :: first :: rest)
      else if fragOffset first < oursOff skbuf then
        some (first :: linkBehind skbuf rest)
      else none

def contiguous : Int -> List FrameBuf -> Bool
  | _, [] => true
  | expectedOff, curr :: rest =>
      decide ((fragOffset curr : Int) * 8 = expectedOff) &&
        contiguous ((fragOffset curr : Int) * 8 + fragPayloadLen curr) rest

def complete (frames : List FrameBuf) : Bool :=
  contiguous 0 frames &&
    match frames.getLast? with
    | none => false
    | some last => !moreFragments last

/-- `payloadlen`, a 16-bit variable. -/
def payloadLen (last : FrameBuf) : UInt16 :=
  UInt16.ofNat
    (Int.toNat (((fragOffset last : Int) * 8 + fragPayloadLen last) % 65536))

def adjustFirst (first : FrameBuf) (payloadlen : UInt16) : FrameBuf :=
  IpHdr.setTotLen first
    (ntohs (payloadlen + UInt16.ofNat (IpHdr.ihl first * 4)))

/-- The adjustment of a subsequent fragment: `iphdrlen` is the field `ihl`,
which counts words. -/
def adjustNext (curr : FrameBuf) : FrameBuf :=
  let iphdrlen := IpHdr.ihl curr
  { curr with networkHdr := none, userPayloadBegin := some iphdrlen }

def assemble (first : FrameBuf) (rest : List FrameBuf) : Skbuf where
  head := adjustFirst first (payloadLen ((first :: rest).getLast nofun))
  next := rest.map adjustNext

def add (g : FragGroup) (skbuf : FrameBuf) :
    Option (Option FragGroup × Option Skbuf) :=
  match link skbuf g.first with
  | none => none
  | some frames =>
      match frames with
      | [] => some (some { g with first := frames }, none)
      | first :: rest =>
          if complete frames then some (none, some (assemble first rest))
          else some (some { g with first := frames }, none)

end FragGroup

namespace Reassembler

/-- `Reassembler::defrag`: the frame goes to the first group with its key, or
to a new one at the end of the list. -/
def defrag (skbuf : FrameBuf) :
    List FragGroup -> Option (List FragGroup × Option Skbuf)
  | [] =>
      (FragGroup.add { key := fragKey skbuf, first := [] } skbuf).map
        fun result => (result.1.toList, result.2)
  | g :: rest =>
      if g.key = fragKey skbuf then
        (g.add skbuf).map fun result => (result.1.toList ++ rest, result.2)
      else
        (defrag skbuf rest).map fun result => (g :: result.1, result.2)

def defragAll (groups : List FragGroup) :
    List FrameBuf -> Option (List FragGroup × List (Option Skbuf))
  | [] => some (groups, [])
  | skbuf :: rest =>
      match defrag skbuf groups with
      | none => none
      | some (groups', result) =>
          (defragAll groups' rest).map fun later =>
            (later.1, result :: later.2)

end Reassembler

/-- The IP payload of a returned packet: the first fragment behind its IP
header, then what `drain_skbuf_chain` reads of the others. -/
def ipPayload (packet : Skbuf) : Bytes :=
  packet.head.range
      (packet.head.networkHdr.map fun o => o + IpHdr.ihl packet.head * 4)
      packet.head.userPayloadEnd ++
    drainSkbufChain packet.next

end Velox
