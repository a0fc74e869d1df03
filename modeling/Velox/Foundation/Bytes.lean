import Mathlib.Data.List.Basic
import Mathlib.Tactic.Ring

/-!
# Byte memory of a little-endian host

A block of memory is the list of its bytes.  Loads and stores of 16-bit and
32-bit words are native, so the byte at the lower address is the less
significant one; network byte order is reached by an explicit byte swap, as a
program does it with `htons` and `ntohl`.
-/

namespace Velox
namespace Foundation

abbrev Bytes := List UInt8

/-- The byte at offset `i`; nothing can be read past the end. -/
def byteAt (bs : Bytes) (i : Nat) : UInt8 :=
  bs.getD i 0

def byteOf (v k : Nat) : UInt8 :=
  UInt8.ofNat (v / 256 ^ k)

def load16 (bs : Bytes) (i : Nat) : UInt16 :=
  UInt16.ofNat ((byteAt bs i).toNat + 256 * (byteAt bs (i + 1)).toNat)

def load32 (bs : Bytes) (i : Nat) : UInt32 :=
  UInt32.ofNat ((byteAt bs i).toNat + 256 * (byteAt bs (i + 1)).toNat +
    65536 * (byteAt bs (i + 2)).toNat + 16777216 * (byteAt bs (i + 3)).toNat)

def store8 (bs : Bytes) (i : Nat) (v : UInt8) : Bytes :=
  bs.set i v

def store16 (bs : Bytes) (i : Nat) (v : UInt16) : Bytes :=
  (bs.set i (byteOf v.toNat 0)).set (i + 1) (byteOf v.toNat 1)

def store32 (bs : Bytes) (i : Nat) (v : UInt32) : Bytes :=
  (((bs.set i (byteOf v.toNat 0)).set (i + 1) (byteOf v.toNat 1)).set (i + 2)
    (byteOf v.toNat 2)).set (i + 3) (byteOf v.toNat 3)

def bswap16 (v : UInt16) : UInt16 :=
  UInt16.ofNat (256 * (v.toNat % 256) + v.toNat / 256)

def bswap32 (v : UInt32) : UInt32 :=
  UInt32.ofNat (16777216 * (v.toNat % 256) + 65536 * (v.toNat / 256 % 256) +
    256 * (v.toNat / 65536 % 256) + v.toNat / 16777216)

/-!
## Single bytes
-/

@[simp] theorem byteOf_toNat (v k : Nat) :
    (byteOf v k).toNat = v / 256 ^ k % 256 := by
  simp [byteOf]

theorem byteAt_replicate_zero (n i : Nat) :
    byteAt (List.replicate n 0) i = 0 := by
  by_cases hi : i < n
  · simp [byteAt, hi]
  · simp [byteAt, List.getD_eq_getElem?_getD, hi]

theorem byteAt_append_left {as : Bytes} (bs : Bytes) {i : Nat}
    (hi : i < as.length) : byteAt (as ++ bs) i = byteAt as i := by
  simp [byteAt, hi, List.getElem?_append_left]

theorem byteAt_drop (bs : Bytes) (n i : Nat) :
    byteAt (bs.drop n) i = byteAt bs (n + i) := by
  simp [byteAt, List.getD_eq_getElem?_getD]

theorem byteAt_take (bs : Bytes) {n i : Nat} (hi : i < n) :
    byteAt (bs.take n) i = byteAt bs i := by
  simp [byteAt, List.getD_eq_getElem?_getD, hi]

theorem byteAt_set (bs : Bytes) (i j : Nat) (v : UInt8) :
    byteAt (bs.set i v) j =
      if i = j ∧ j < bs.length then v else byteAt bs j := by
  by_cases hij : i = j
  · subst i
    by_cases hj : j < bs.length
    · simp [byteAt, hj]
    · have hset : bs.set j v = bs := List.set_eq_of_length_le (by lia)
      simp [hset, hj]
  · simp [byteAt, List.getD_eq_getElem?_getD, hij]

@[simp] theorem byteAt_set_self (bs : Bytes) {i : Nat} (v : UInt8)
    (hi : i < bs.length) : byteAt (bs.set i v) i = v := by
  simp [byteAt_set, hi]

@[simp] theorem byteAt_set_ne (bs : Bytes) {i j : Nat} (v : UInt8)
    (hij : i ≠ j) : byteAt (bs.set i v) j = byteAt bs j := by
  simp [byteAt_set, hij]

@[simp] theorem length_store8 (bs : Bytes) (i : Nat) (v : UInt8) :
    (store8 bs i v).length = bs.length := by
  simp [store8]

@[simp] theorem length_store16 (bs : Bytes) (i : Nat) (v : UInt16) :
    (store16 bs i v).length = bs.length := by
  simp [store16]

@[simp] theorem length_store32 (bs : Bytes) (i : Nat) (v : UInt32) :
    (store32 bs i v).length = bs.length := by
  simp [store32]

/-!
## Disjoint stores
-/

theorem byteAt_store8_of_disjoint (bs : Bytes) {i j : Nat} (v : UInt8)
    (hij : i ≠ j) : byteAt (store8 bs i v) j = byteAt bs j :=
  byteAt_set_ne bs v hij

theorem byteAt_store16_of_disjoint (bs : Bytes) {i j : Nat} (v : UInt16)
    (hij : j < i ∨ i + 2 <= j) : byteAt (store16 bs i v) j = byteAt bs j := by
  unfold store16
  rw [byteAt_set_ne _ _ (by lia), byteAt_set_ne _ _ (by lia)]

theorem byteAt_store32_of_disjoint (bs : Bytes) {i j : Nat} (v : UInt32)
    (hij : j < i ∨ i + 4 <= j) : byteAt (store32 bs i v) j = byteAt bs j := by
  unfold store32
  rw [byteAt_set_ne _ _ (by lia), byteAt_set_ne _ _ (by lia),
    byteAt_set_ne _ _ (by lia), byteAt_set_ne _ _ (by lia)]

theorem byteAt_store16_low (bs : Bytes) {i : Nat} (v : UInt16)
    (hi : i < bs.length) : byteAt (store16 bs i v) i = byteOf v.toNat 0 := by
  rw [store16, byteAt_set_ne _ _ (by lia), byteAt_set_self _ _ hi]

theorem byteAt_store16_high (bs : Bytes) {i : Nat} (v : UInt16)
    (hi : i + 1 < bs.length) :
    byteAt (store16 bs i v) (i + 1) = byteOf v.toNat 1 := by
  rw [store16, byteAt_set_self _ _ (by rw [List.length_set]; exact hi)]

theorem load16_shift {as bs : Bytes} {i j : Nat}
    (h : forall k, k < 2 -> byteAt as (i + k) = byteAt bs (j + k)) :
    load16 as i = load16 bs j := by
  have h0 : byteAt as i = byteAt bs j := h 0 (by decide)
  have h1 := h 1 (by decide)
  rw [load16, load16, h0, h1]

theorem load32_shift {as bs : Bytes} {i j : Nat}
    (h : forall k, k < 4 -> byteAt as (i + k) = byteAt bs (j + k)) :
    load32 as i = load32 bs j := by
  have h0 : byteAt as i = byteAt bs j := h 0 (by decide)
  have h1 := h 1 (by decide)
  have h2 := h 2 (by decide)
  have h3 := h 3 (by decide)
  rw [load32, load32, h0, h1, h2, h3]

theorem load16_store8_of_disjoint (bs : Bytes) {i j : Nat} (v : UInt8)
    (hij : j + 2 <= i ∨ i < j) : load16 (store8 bs i v) j = load16 bs j :=
  load16_shift fun _ _ => byteAt_store8_of_disjoint bs v (by lia)

theorem load16_store16_of_disjoint (bs : Bytes) {i j : Nat} (v : UInt16)
    (hij : j + 2 <= i ∨ i + 2 <= j) :
    load16 (store16 bs i v) j = load16 bs j :=
  load16_shift fun _ _ => byteAt_store16_of_disjoint bs v (by lia)

theorem load16_store32_of_disjoint (bs : Bytes) {i j : Nat} (v : UInt32)
    (hij : j + 2 <= i ∨ i + 4 <= j) :
    load16 (store32 bs i v) j = load16 bs j :=
  load16_shift fun _ _ => byteAt_store32_of_disjoint bs v (by lia)

theorem load32_congr {as bs : Bytes} {i : Nat}
    (h : forall k, k < 4 -> byteAt as (i + k) = byteAt bs (i + k)) :
    load32 as i = load32 bs i :=
  load32_shift h

theorem load32_store8_of_disjoint (bs : Bytes) {i j : Nat} (v : UInt8)
    (hij : j + 4 <= i ∨ i < j) : load32 (store8 bs i v) j = load32 bs j :=
  load32_congr fun _ _ => byteAt_store8_of_disjoint bs v (by lia)

theorem load32_store16_of_disjoint (bs : Bytes) {i j : Nat} (v : UInt16)
    (hij : j + 4 <= i ∨ i + 2 <= j) :
    load32 (store16 bs i v) j = load32 bs j :=
  load32_congr fun _ _ => byteAt_store16_of_disjoint bs v (by lia)

theorem load32_store32_of_disjoint (bs : Bytes) {i j : Nat} (v : UInt32)
    (hij : j + 4 <= i ∨ i + 4 <= j) :
    load32 (store32 bs i v) j = load32 bs j :=
  load32_congr fun _ _ => byteAt_store32_of_disjoint bs v (by lia)

/-!
## Words

A store is undone by the load at the same offset, and a byte swap by itself.
-/

theorem load16_store16 (bs : Bytes) (i : Nat) (v : UInt16)
    (hi : i + 2 ≤ bs.length) : load16 (store16 bs i v) i = v := by
  have hlow := byteAt_store16_low bs (i := i) v (by lia)
  have hhigh := byteAt_store16_high bs (i := i) v (by lia)
  apply UInt16.toNat_inj.mp
  have hv := v.toNat_lt
  simp only [load16, hlow, hhigh, byteOf_toNat, UInt16.toNat_ofNat']
  omega

theorem load32_store32 (bs : Bytes) (i : Nat) (v : UInt32)
    (hi : i + 4 ≤ bs.length) : load32 (store32 bs i v) i = v := by
  have h0 : byteAt (store32 bs i v) i = byteOf v.toNat 0 := by
    simp [store32, byteAt_set]
    lia
  have h1 : byteAt (store32 bs i v) (i + 1) = byteOf v.toNat 1 := by
    simp [store32, byteAt_set]
    lia
  have h2 : byteAt (store32 bs i v) (i + 2) = byteOf v.toNat 2 := by
    simp [store32, byteAt_set]
    lia
  have h3 : byteAt (store32 bs i v) (i + 3) = byteOf v.toNat 3 := by
    simp [store32, byteAt_set]
    lia
  apply UInt32.toNat_inj.mp
  have hv := v.toNat_lt
  simp only [load32, h0, h1, h2, h3, byteOf_toNat, UInt32.toNat_ofNat']
  omega

theorem bswap32_ofDigits {a b c d : Nat} (ha : a < 256) (hb : b < 256)
    (hc : c < 256) (hd : d < 256) :
    bswap32 (UInt32.ofNat (a + 256 * b + 65536 * c + 16777216 * d)) =
      UInt32.ofNat (d + 256 * c + 65536 * b + 16777216 * a) := by
  have hlt : a + 256 * b + 65536 * c + 16777216 * d < 2 ^ 32 := by lia
  have hb' : (a + 256 * b + 65536 * c + 16777216 * d) / 256 % 256 = b := by
    omega
  have hc' : (a + 256 * b + 65536 * c + 16777216 * d) / 65536 % 256 = c := by
    omega
  have hd' : (a + 256 * b + 65536 * c + 16777216 * d) / 16777216 = d := by
    omega
  have ha' : (a + 256 * b + 65536 * c + 16777216 * d) % 256 = a := by
    omega
  unfold bswap32
  rw [UInt32.toNat_ofNat', Nat.mod_eq_of_lt hlt, ha', hb', hc', hd']
  congr 1
  ring

theorem bswap32_bswap32 (v : UInt32) : bswap32 (bswap32 v) = v := by
  have hv := v.toNat_lt
  have hdigits : v = UInt32.ofNat (v.toNat % 256 + 256 * (v.toNat / 256 % 256) +
      65536 * (v.toNat / 65536 % 256) + 16777216 * (v.toNat / 16777216)) := by
    apply UInt32.toNat_inj.mp
    rw [UInt32.toNat_ofNat']
    omega
  rw [hdigits, bswap32_ofDigits (by lia) (by lia) (by lia) (by lia),
    bswap32_ofDigits (by lia) (by lia) (by lia) (by lia)]

theorem bswap16_toNat (v : UInt16) :
    (bswap16 v).toNat = 256 * (v.toNat % 256) + v.toNat / 256 := by
  have hv := v.toNat_lt
  simp only [bswap16, UInt16.toNat_ofNat']
  omega

theorem bswap16_bswap16 (v : UInt16) : bswap16 (bswap16 v) = v := by
  apply UInt16.toNat_inj.mp
  rw [bswap16_toNat, bswap16_toNat]
  have hv := v.toNat_lt
  omega

theorem byteOf_bswap16_zero (v : UInt16) :
    byteOf (bswap16 v).toNat 0 = byteOf v.toNat 1 := by
  apply UInt8.toNat_inj.mp
  rw [byteOf_toNat, byteOf_toNat, bswap16_toNat]
  have hv := v.toNat_lt
  omega

theorem byteOf_bswap16_one (v : UInt16) :
    byteOf (bswap16 v).toNat 1 = byteOf v.toNat 0 := by
  apply UInt8.toNat_inj.mp
  have hv := v.toNat_lt
  have hhigh : (256 * (v.toNat % 256) + v.toNat / 256) / 256 =
      v.toNat % 256 := by
    omega
  rw [byteOf_toNat, byteOf_toNat, bswap16_toNat, pow_one, hhigh]
  omega

end Foundation
end Velox
