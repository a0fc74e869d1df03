import Velox.Foundation.OnesComplement

/-!
# The Internet checksum of the daemon

`Csum16::checksum` adds native 16-bit loads into a 32-bit accumulator, adds a
left-over byte, folds the accumulator and returns its complement.  The model
keeps the 32-bit arithmetic; the results below say when it does not wrap and
what the folded value then is.
-/

namespace Velox
namespace Csum16

open Foundation

/-- The summing loop with its left-over byte, over the bytes it reads. -/
def sumLoop : Bytes -> UInt32 -> UInt32
  | a :: b :: rest, sum =>
      sumLoop rest (sum + UInt32.ofNat (a.toNat + 256 * b.toNat))
  | [a], sum => sum + UInt32.ofNat a.toNat
  | [], sum => sum

private theorem halves_toNat (sum : UInt32) :
    ((sum &&& (0xffff : UInt32)) + (sum >>> (16 : UInt32))).toNat =
      sum.toNat % 65536 + sum.toNat / 65536 := by
  have hsum := sum.toNat_lt
  have hlow : (sum &&& (0xffff : UInt32)).toNat = sum.toNat % 65536 := by
    rw [UInt32.toNat_and]
    exact Nat.and_two_pow_sub_one_eq_mod sum.toNat 16
  have hhigh : (sum >>> (16 : UInt32)).toNat = sum.toNat / 65536 := by
    rw [UInt32.toNat_shiftRight]
    exact Nat.shiftRight_eq_div_pow sum.toNat 16
  rw [UInt32.toNat_add, hlow, hhigh]
  omega

private theorem carry_eq_zero_iff (sum : UInt32) :
    sum >>> (16 : UInt32) = 0 <-> sum.toNat / 65536 = 0 := by
  rw [← UInt32.toNat_inj, UInt32.toNat_shiftRight]
  exact Iff.of_eq (congrArg (fun n => n = 0)
    (Nat.shiftRight_eq_div_pow sum.toNat 16))

private theorem foldLoop_decreases {sum : UInt32}
    (hcarry : ¬ sum >>> (16 : UInt32) = 0) :
    ((sum &&& (0xffff : UInt32)) + (sum >>> (16 : UInt32))).toNat <
      sum.toNat := by
  rw [carry_eq_zero_iff] at hcarry
  rw [halves_toNat]
  lia

/-- The loop `while (sum >> 16) sum = (sum & 0xffff) + (sum >> 16)`. -/
def foldLoop (sum : UInt32) : UInt32 :=
  if sum >>> (16 : UInt32) = 0 then sum
  else foldLoop ((sum &&& (0xffff : UInt32)) + (sum >>> (16 : UInt32)))
termination_by sum.toNat
decreasing_by
  rename_i hcarry
  exact foldLoop_decreases hcarry

/-- The checksum of `count` bytes at `addr`, with the partial sum of other
words carried in. -/
def checksum (addr : Bytes) (count : Nat) (startSum : Int32) : UInt32 :=
  ~~~(foldLoop (sumLoop (addr.take count) startSum.toUInt32))

/-!
## Values of the two loops
-/

theorem sumLoop_toNat (bytes : Bytes) (sum : UInt32)
    (hfit : sum.toNat + leSum bytes < 2 ^ 32) :
    (sumLoop bytes sum).toNat = sum.toNat + leSum bytes := by
  induction bytes, sum using sumLoop.induct with
  | case1 a b rest sum ih =>
      have ha := a.toNat_lt
      have hb := b.toNat_lt
      rw [leSum] at hfit
      have hstep : (sum + UInt32.ofNat (a.toNat + 256 * b.toNat)).toNat =
          sum.toNat + (a.toNat + 256 * b.toNat) := by
        rw [UInt32.toNat_add, UInt32.toNat_ofNat']
        omega
      rw [sumLoop, ih (by rw [hstep]; lia), hstep, leSum]
      ring
  | case2 a sum =>
      have ha := a.toNat_lt
      rw [leSum] at hfit
      rw [sumLoop, UInt32.toNat_add, UInt32.toNat_ofNat', leSum]
      omega
  | case3 sum =>
      simp [sumLoop, leSum]

theorem foldLoop_toNat (sum : UInt32) :
    (foldLoop sum).toNat = foldCarry sum.toNat := by
  induction sum using foldLoop.induct with
  | case1 sum hcarry =>
      have hlt := (carry_eq_zero_iff sum).mp hcarry
      rw [foldLoop, if_pos hcarry, foldCarry, if_pos hlt]
  | case2 sum hcarry ih =>
      have hge : ¬ sum.toNat / 65536 = 0 := fun h =>
        hcarry ((carry_eq_zero_iff sum).mpr h)
      rw [foldLoop, if_neg hcarry, ih, halves_toNat]
      conv => rhs; rw [foldCarry, if_neg hge]

theorem checksum_toUInt16_toNat (addr : Bytes) (count : Nat) (sum : UInt32)
    (hfit : sum.toNat + leSum (addr.take count) < 2 ^ 32) :
    (checksum addr count sum.toInt32).toUInt16.toNat =
      65535 - foldCarry (sum.toNat + leSum (addr.take count)) := by
  have hfold := (foldCarry_spec (sum.toNat + leSum (addr.take count))).left
  have hval : (foldLoop (sumLoop (addr.take count) sum)).toNat =
      foldCarry (sum.toNat + leSum (addr.take count)) := by
    rw [foldLoop_toNat, sumLoop_toNat _ _ hfit]
  have hnot : (~~~(foldLoop (sumLoop (addr.take count) sum))).toNat =
      2 ^ 32 - 1 - foldCarry (sum.toNat + leSum (addr.take count)) := by
    rw [UInt32.toNat_not, hval]
    rfl
  simp only [checksum, UInt32.toUInt32_toInt32]
  rw [UInt32.toNat_toUInt16, hnot]
  omega

/-!
## The accumulator

Every addition of the loop is one of unsigned 32-bit numbers.
-/

def NoWrap : Bytes -> UInt32 -> Prop
  | a :: b :: rest, sum =>
      sum.toNat + (a.toNat + 256 * b.toNat) < 2 ^ 32 ∧
        NoWrap rest (sum + UInt32.ofNat (a.toNat + 256 * b.toNat))
  | [a], sum => sum.toNat + a.toNat < 2 ^ 32
  | [], _ => True

theorem noWrap_iff (bytes : Bytes) (sum : UInt32) :
    NoWrap bytes sum <-> sum.toNat + leSum bytes < 2 ^ 32 := by
  induction bytes, sum using sumLoop.induct with
  | case1 a b rest sum ih =>
      have ha := a.toNat_lt
      have hb := b.toNat_lt
      rw [NoWrap, ih, leSum, UInt32.toNat_add, UInt32.toNat_ofNat']
      lia
  | case2 a sum => rfl
  | case3 sum =>
      have hsum := sum.toNat_lt
      exact ⟨fun _ => hsum, fun _ => trivial⟩

/-!
## Sums in two parts
-/

/-- The sum of a payload may be carried into the checksum of the header before
it. -/
theorem checksum_of_parts {header payload : Bytes}
    (heven : Even header.length) (hpayload : NoWrap payload 0)
    (hheader : NoWrap header (sumLoop payload 0)) (rest : Bytes) :
    (checksum (header ++ rest) header.length
        (sumLoop payload 0).toInt32).toUInt16 =
      (checksum (header ++ payload) (header.length + payload.length)
        0).toUInt16 := by
  have hsum : (sumLoop payload 0).toNat = leSum payload := by
    rw [sumLoop_toNat payload 0 ((noWrap_iff payload 0).1 hpayload),
      UInt32.toNat_zero, Nat.zero_add]
  rw [noWrap_iff, hsum] at hheader
  have htake : (header ++ rest).take header.length = header :=
    List.take_left' rfl
  have hall : (header ++ payload).take (header.length + payload.length) =
      header ++ payload :=
    List.take_of_length_le (Nat.le_of_eq List.length_append)
  have hparts := checksum_toUInt16_toNat (header ++ rest) header.length
    (sumLoop payload 0) (by rw [htake, hsum]; exact hheader)
  have hwhole := checksum_toUInt16_toNat (header ++ payload)
    (header.length + payload.length) 0 (by
      rw [hall, leSum_append _ heven, UInt32.toNat_zero]
      lia)
  apply UInt16.toNat_inj.1
  rw [htake, hsum] at hparts
  rw [hall, leSum_append _ heven, UInt32.toNat_zero, Nat.zero_add,
    Nat.add_comm (leSum header)] at hwhole
  exact hparts.trans hwhole.symm

/-!
## The Internet checksum

The start value is the sum of other words, as the host loads them.
-/

structure SumsTo (others : Bytes) (startSum : Int32) : Prop where
  even : Even others.length
  sum_eq : leSum others = startSum.toUInt32.toNat

theorem exists_sumsTo (startSum : Int32) :
    exists others, SumsTo others startSum := by
  rcases exists_leSum_eq startSum.toUInt32.toNat with ⟨others, heven, hsum⟩
  exact ⟨others, heven, hsum⟩

theorem SumsTo.checksum_toNat {others : Bytes} {startSum : Int32}
    (h : SumsTo others startSum) {addr : Bytes} {count : Nat}
    (hfit : startSum.toUInt32.toNat + leSum (addr.take count) <= 2 ^ 32 - 1) :
    (checksum addr count startSum).toUInt16.toNat =
      65535 - foldCarry (leSum (others ++ addr.take count)) := by
  have hvalue := checksum_toUInt16_toNat addr count startSum.toUInt32 (by lia)
  rw [Int32.toInt32_toUInt32] at hvalue
  rw [hvalue, leSum_append _ h.even, h.sum_eq]

/-- The low half of the result, stored as the host stores it, is the Internet
checksum in network byte order of the other words and the string, and it makes
the sum of a string with an empty field for it all ones. -/
theorem checksum_is_internetChecksum (addr : Bytes) (count : Nat)
    (startSum : Int32)
    (hfit : startSum.toUInt32.toNat + leSum (addr.take count) <= 2 ^ 32 - 1) :
    (exists others, SumsTo others startSum) ∧
      forall others, SumsTo others startSum ->
        store16 [0, 0] 0 (checksum addr count startSum).toUInt16 =
            networkBytes (internetChecksum (others ++ addr.take count)) ∧
          forall k, 2 * k + 2 <= (addr.take count).length ->
            byteAt (addr.take count) (2 * k) = 0 ->
            byteAt (addr.take count) (2 * k + 1) = 0 ->
              onesSum (others ++ store16 (addr.take count) (2 * k)
                (checksum addr count startSum).toUInt16) = 0xffff := by
  refine ⟨exists_sumsTo startSum, ?_⟩
  intro others hothers
  have hvalue := hothers.checksum_toNat hfit
  refine ⟨store16_complement _ hvalue, ?_⟩
  intro k hlen hlow hhigh
  rw [onesSum_eq, foldCarry_beSum_eq_allOnes_iff,
    leSum_append _ hothers.even, leSum_store16 _ k _ hlen hlow hhigh,
    ← Nat.add_assoc, ← leSum_append _ hothers.even, hvalue]
  exact foldCarry_add_complement _

theorem internetChecksum_of_odd_string :
    (exists others, SumsTo others 255) ∧
      forall others, SumsTo others 255 ->
        store16 [0, 0] 0 (checksum [0x45, 0, 0, 0, 7] 5 255).toUInt16 =
            networkBytes (internetChecksum (others ++ [0x45, 0, 0, 0, 7])) ∧
          onesSum (others ++ store16 [0x45, 0, 0, 0, 7] 2
            (checksum [0x45, 0, 0, 0, 7] 5 255).toUInt16) = 0xffff := by
  have hchecksum := checksum_is_internetChecksum [0x45, 0, 0, 0, 7] 5 255
    (by decide)
  refine ⟨hchecksum.1, ?_⟩
  intro others hothers
  have hothers' := hchecksum.2 others hothers
  exact ⟨hothers'.1, hothers'.2 1 (by decide) rfl rfl⟩

end Csum16
end Velox
