import Velox.Foundation.Bytes
import Mathlib.Data.Nat.ModEq

/-!
# Ones'-complement sums

The Internet checksum adds a byte string as a sequence of 16-bit words and
folds the carries back in.  A reader of the wire adds big-endian words; a
little-endian host adds the words as it loads them.  Modulo 65535 the second
sum is the first one multiplied by 256, so both fold to all ones together, and
the complement of a folded sum is what completes the sum to all ones.
-/

namespace Velox
namespace Foundation

/-!
## End-around carry
-/

/-- Add the carries above the low 16 bits back in until none is left. -/
def foldCarry (s : Nat) : Nat :=
  if s / 65536 = 0 then s else foldCarry (s % 65536 + s / 65536)
termination_by s
decreasing_by lia

theorem foldCarry_of_lt {s : Nat} (hs : s < 65536) : foldCarry s = s := by
  rw [foldCarry, if_pos (by lia)]

theorem foldCarry_of_ge {s : Nat} (hs : 65536 ≤ s) :
    foldCarry s = foldCarry (s % 65536 + s / 65536) := by
  rw [foldCarry, if_neg (by lia)]

/-- Folding keeps the sum modulo 65535, and only the zero sum folds to zero. -/
theorem foldCarry_spec (s : Nat) :
    foldCarry s < 65536 ∧ foldCarry s % 65535 = s % 65535 ∧
      (foldCarry s = 0 <-> s = 0) := by
  induction s using Nat.strong_induction_on with
  | h s ih =>
      by_cases hs : s < 65536
      · rw [foldCarry_of_lt hs]
        exact ⟨hs, rfl, Iff.rfl⟩
      · have hge : 65536 ≤ s := by lia
        rcases ih (s % 65536 + s / 65536) (by lia) with ⟨hlt, hmod, hzero⟩
        rw [foldCarry_of_ge hge]
        refine ⟨hlt, ?_, ?_⟩
        · rw [hmod]
          omega
        · rw [hzero]
          lia

theorem foldCarry_eq {s v : Nat} (hlt : v < 65536)
    (hmod : v % 65535 = s % 65535) (hzero : v = 0 <-> s = 0) :
    foldCarry s = v := by
  rcases foldCarry_spec s with ⟨hlt', hmod', hzero'⟩
  lia

theorem foldCarry_eq_allOnes_iff (s : Nat) :
    foldCarry s = 65535 <-> 0 < s ∧ s % 65535 = 0 := by
  rcases foldCarry_spec s with ⟨hlt, hmod, hzero⟩
  constructor
  · intro h
    rw [h] at hmod hzero
    lia
  · intro h
    lia

theorem foldCarry_add_complement (s : Nat) :
    foldCarry (s + (65535 - foldCarry s)) = 65535 := by
  rcases foldCarry_spec s with ⟨hlt, hmod, hzero⟩
  rw [foldCarry_eq_allOnes_iff]
  constructor
  · lia
  · omega

/-- The ones'-complement sum of two 16-bit numbers: a carry is added back. -/
def onesAdd (a b : Nat) : Nat :=
  if a + b < 65536 then a + b else a + b - 65535

/-- Carries may be added back after each addition or at the end. -/
theorem foldCarry_add {s w : Nat} (hw : w < 65536) :
    foldCarry (s + w) = onesAdd (foldCarry s) w := by
  rcases foldCarry_spec s with ⟨hlt, hmod, hzero⟩
  unfold onesAdd
  by_cases hcarry : foldCarry s + w < 65536
  · rw [if_pos hcarry]
    refine foldCarry_eq hcarry ?_ (by lia)
    rw [Nat.add_mod, hmod, ← Nat.add_mod]
  · rw [if_neg hcarry]
    refine foldCarry_eq (by lia) ?_ (by lia)
    rw [← Nat.mod_eq_sub_mod (by lia), Nat.add_mod, hmod, ← Nat.add_mod]

/-!
## Sums of a byte string

An odd string counts as padded with one zero byte.
-/

/-- The sum of the words of a string as a little-endian host loads them. -/
def leSum : Bytes -> Nat
  | [] => 0
  | [a] => a.toNat
  | a :: b :: rest => a.toNat + 256 * b.toNat + leSum rest

/-- The sum of the words of a string in network byte order. -/
def beSum : Bytes -> Nat
  | [] => 0
  | [a] => 256 * a.toNat
  | a :: b :: rest => 256 * a.toNat + b.toNat + beSum rest

def beWords : Bytes -> List Nat
  | [] => []
  | [a] => [256 * a.toNat]
  | a :: b :: rest => (256 * a.toNat + b.toNat) :: beWords rest

def onesSum (xs : Bytes) : Nat :=
  (beWords xs).foldl onesAdd 0

theorem foldl_onesAdd_beWords (xs : Bytes) (s : Nat) :
    (beWords xs).foldl onesAdd (foldCarry s) = foldCarry (s + beSum xs) := by
  induction xs using beWords.induct generalizing s with
  | case1 => rfl
  | case2 a =>
      have ha := a.toNat_lt
      exact (foldCarry_add (by lia)).symm
  | case3 a b rest ih =>
      have ha := a.toNat_lt
      have hb := b.toNat_lt
      rw [beWords, List.foldl_cons, ← foldCarry_add (by lia), ih, beSum,
        Nat.add_assoc]

theorem onesSum_eq (xs : Bytes) : onesSum xs = foldCarry (beSum xs) := by
  have hsum := foldl_onesAdd_beWords xs 0
  rw [foldCarry_of_lt (by decide), Nat.zero_add] at hsum
  exact hsum

theorem leSum_append {xs : Bytes} (ys : Bytes) (hxs : Even xs.length) :
    leSum (xs ++ ys) = leSum xs + leSum ys := by
  induction xs using leSum.induct with
  | case1 =>
      simp [leSum]
  | case2 a =>
      simp at hxs
  | case3 a b rest ih =>
      have hrest : Even rest.length := by
        simpa [Nat.even_add_one] using hxs
      simp only [List.cons_append, leSum, ih hrest]
      ring

theorem leSum_store16 (bs : Bytes) (k : Nat) (v : UInt16)
    (hlen : 2 * k + 2 <= bs.length) (hlow : byteAt bs (2 * k) = 0)
    (hhigh : byteAt bs (2 * k + 1) = 0) :
    leSum (store16 bs (2 * k) v) = leSum bs + v.toNat := by
  induction k generalizing bs with
  | zero =>
      rcases bs with _ | ⟨a, _ | ⟨b, rest⟩⟩
      · simp at hlen
      · simp at hlen
      · have ha : a = 0 := hlow
        have hb : b = 0 := hhigh
        have hv := v.toNat_lt
        subst ha hb
        show leSum (byteOf v.toNat 0 :: byteOf v.toNat 1 :: rest) = _
        simp only [leSum, byteOf_toNat, UInt8.toNat_zero]
        omega
  | succ k ih =>
      rcases bs with _ | ⟨a, _ | ⟨b, rest⟩⟩
      · simp at hlen
      · simp at hlen
      · have hrest := ih rest (by simpa [Nat.mul_add] using hlen) hlow hhigh
        show leSum (a :: b :: store16 rest (2 * k) v) = _
        simp only [leSum, hrest]
        ring

theorem leSum_le (xs : Bytes) :
    leSum xs <= 65535 * ((xs.length + 1) / 2) := by
  induction xs using leSum.induct with
  | case1 =>
      simp [leSum]
  | case2 a =>
      have ha := a.toNat_lt
      simp only [leSum, List.length_singleton]
      lia
  | case3 a b rest ih =>
      have ha := a.toNat_lt
      have hb := b.toNat_lt
      simp only [leSum, List.length_cons]
      lia

/-- Reading the words the other way round multiplies the sum by 256. -/
theorem beSum_modEq (xs : Bytes) :
    beSum xs ≡ 256 * leSum xs [MOD 65535] := by
  induction xs using leSum.induct with
  | case1 =>
      rfl
  | case2 a =>
      rfl
  | case3 a b rest ih =>
      have hword : 256 * a.toNat + b.toNat ≡
          256 * (a.toNat + 256 * b.toNat) [MOD 65535] := by
        unfold Nat.ModEq
        omega
      have hsum := hword.add ih
      simp only [beSum, leSum]
      rwa [Nat.mul_add]

theorem exists_leSum_eq (n : Nat) :
    exists xs : Bytes, Even xs.length ∧ leSum xs = n := by
  induction n with
  | zero => exact ⟨[], Even.zero, rfl⟩
  | succ n ih =>
      rcases ih with ⟨xs, heven, hsum⟩
      refine ⟨1 :: 0 :: xs, ?_, ?_⟩
      · simpa [Nat.even_add_one] using heven
      · rw [leSum, hsum, Nat.add_comm]
        rfl

theorem beSum_eq_zero_iff (xs : Bytes) : beSum xs = 0 <-> leSum xs = 0 := by
  induction xs using leSum.induct with
  | case1 =>
      simp [beSum, leSum]
  | case2 a =>
      simp [beSum, leSum]
  | case3 a b rest ih =>
      simp only [beSum, leSum]
      lia

/-- The folded sums of the two byte orders have each other's bytes. -/
theorem foldCarry_beSum (xs : Bytes) :
    foldCarry (beSum xs) =
      256 * (foldCarry (leSum xs) % 256) + foldCarry (leSum xs) / 256 := by
  rcases foldCarry_spec (leSum xs) with ⟨hlt, hmod, hzero⟩
  have hbytes := beSum_modEq xs
  have hnone := beSum_eq_zero_iff xs
  have hswap : 256 * foldCarry (leSum xs) =
      256 * (foldCarry (leSum xs) % 256) + foldCarry (leSum xs) / 256 +
        65535 * (foldCarry (leSum xs) / 256) := by
    lia
  unfold Nat.ModEq at hbytes
  refine foldCarry_eq (by lia) ?_ (by lia)
  rw [hbytes, Nat.mul_mod, ← hmod, ← Nat.mul_mod, hswap,
    Nat.add_mul_mod_self_left]

/-- The Internet checksum: the complement of the sum of the words. -/
def internetChecksum (xs : Bytes) : Nat :=
  65535 - onesSum xs

def networkBytes (n : Nat) : Bytes :=
  [byteOf n 1, byteOf n 0]

theorem byteOf_pair {low high : Nat} (hlow : low < 256) :
    byteOf (low + 256 * high) 0 = UInt8.ofNat low ∧
      byteOf (low + 256 * high) 1 = UInt8.ofNat high := by
  have hdiv : (low + 256 * high) / 256 = high := by lia
  constructor
  · apply UInt8.toNat_inj.1
    rw [byteOf_toNat, UInt8.toNat_ofNat', pow_zero, Nat.div_one]
    exact Nat.add_mul_mod_self_left low 256 high
  · apply UInt8.toNat_inj.1
    rw [byteOf_toNat, UInt8.toNat_ofNat', pow_one, hdiv]

/-- The complement of a sum of host words, stored as the host stores it, is
the checksum in network byte order. -/
theorem store16_complement {v : UInt16} (xs : Bytes)
    (hv : v.toNat = 65535 - foldCarry (leSum xs)) :
    store16 [0, 0] 0 v = networkBytes (internetChecksum xs) := by
  have hlt := (foldCarry_spec (leSum xs)).1
  have hsum := foldCarry_beSum xs
  generalize hlow : foldCarry (leSum xs) % 256 = low at hsum
  generalize hhigh : foldCarry (leSum xs) / 256 = high at hsum
  have hhost : v.toNat = (255 - low) + 256 * (255 - high) := by lia
  have hwire : internetChecksum xs = (255 - high) + 256 * (255 - low) := by
    rw [internetChecksum, onesSum_eq, hsum]
    lia
  have hlow' : 255 - low < 256 := by lia
  have hhigh' : 255 - high < 256 := by lia
  rcases byteOf_pair hlow' with ⟨hhost0, hhost1⟩
  rcases byteOf_pair hhigh' with ⟨hwire0, hwire1⟩
  show [byteOf v.toNat 0, byteOf v.toNat 1] = _
  rw [networkBytes, hhost, hwire, hhost0, hhost1, hwire0, hwire1]

/-- A string folds to all ones in one byte order exactly when it does so in
the other. -/
theorem foldCarry_beSum_eq_allOnes_iff (xs : Bytes) :
    foldCarry (beSum xs) = 65535 <-> foldCarry (leSum xs) = 65535 := by
  have hmod : beSum xs % 65535 = 256 * leSum xs % 65535 := beSum_modEq xs
  have hzero := beSum_eq_zero_iff xs
  rw [foldCarry_eq_allOnes_iff, foldCarry_eq_allOnes_iff]
  omega

end Foundation
end Velox
