import Velox.Foundation.Fields
import Mathlib.Algebra.Group.Nat.Defs

/-!
# Numbers in base 128

A number of up to 64 bits is written in base 128, the least digit first, with
the high bit set in all bytes but the last.  Bytes of any number are written
behind their length.  Both are read back as they were written.
-/

namespace Velox
namespace Foundation

/-- The fuel is for the digits after the first. -/
def varintBytesFuel : Nat -> Nat -> Bytes
  | 0, n => [UInt8.ofNat n]
  | fuel + 1, n =>
      if n < 128 then [UInt8.ofNat n]
      else UInt8.ofNat (n % 128 + 128) :: varintBytesFuel fuel (n / 128)

/-- A number of 64 bits has at most ten digits. -/
def varintBytes (n : Nat) : Bytes :=
  varintBytesFuel 9 n

/-- The number in front of the bytes, of at most `k` digits. -/
def readVarint : Nat -> Bytes -> Option (Nat × Bytes)
  | 0, _ => none
  | _ + 1, [] => none
  | k + 1, b :: bs =>
      if b.toNat < 128 then some (b.toNat, bs)
      else (readVarint k bs).map fun r => (b.toNat - 128 + 128 * r.1, r.2)

theorem varintBytesFuel_of_lt (fuel : Nat) {n : Nat} (h : n < 128) :
    varintBytesFuel fuel n = [UInt8.ofNat n] := by
  cases fuel with
  | zero => rfl
  | succ fuel => exact if_pos h

theorem varintBytesFuel_of_ge (fuel : Nat) {n : Nat} (h : 128 <= n) :
    varintBytesFuel (fuel + 1) n =
      UInt8.ofNat (n % 128 + 128) :: varintBytesFuel fuel (n / 128) :=
  if_neg (Nat.not_lt.2 h)

theorem varintBytes_ne_nil (n : Nat) : varintBytes n ≠ [] := by
  unfold varintBytes varintBytesFuel
  split
  · exact List.cons_ne_nil _ _
  · exact List.cons_ne_nil _ _

theorem readVarint_last (k : Nat) {n : Nat} (h : n < 128) (rest : Bytes) :
    readVarint (k + 1) (UInt8.ofNat n :: rest) = some (n, rest) := by
  have hn : (UInt8.ofNat n).toNat = n := by
    rw [UInt8.toNat_ofNat']
    lia
  rw [readVarint, hn, if_pos h]

theorem readVarint_digit (k n : Nat) (rest : Bytes) :
    readVarint (k + 1) (UInt8.ofNat (n % 128 + 128) :: rest) =
      (readVarint k rest).map fun r => (n % 128 + 128 * r.1, r.2) := by
  have hn : (UInt8.ofNat (n % 128 + 128)).toNat = n % 128 + 128 := by
    rw [UInt8.toNat_ofNat']
    lia
  rw [readVarint, hn, if_neg (by lia), Nat.add_sub_cancel]

theorem readVarint_varintBytesFuel {k fuel n : Nat} (hk : k <= fuel)
    (h : n < 128 ^ (k + 1)) (rest : Bytes) :
    readVarint (k + 1) (varintBytesFuel fuel n ++ rest) = some (n, rest) := by
  induction k generalizing fuel n with
  | zero =>
      rw [varintBytesFuel_of_lt fuel (by simpa using h)]
      exact readVarint_last 0 (by simpa using h) rest
  | succ k ih =>
      by_cases hn : n < 128
      · rw [varintBytesFuel_of_lt fuel hn]
        exact readVarint_last (k + 1) hn rest
      · cases fuel with
        | zero => exact absurd hk (Nat.not_succ_le_zero k)
        | succ fuel =>
            have hdiv : n / 128 < 128 ^ (k + 1) := by
              rw [Nat.div_lt_iff_lt_mul (by decide), ← Nat.pow_succ]
              exact h
            rw [varintBytesFuel_of_ge fuel (Nat.not_lt.1 hn),
              List.cons_append, readVarint_digit,
              ih (Nat.le_of_succ_le_succ hk) hdiv]
            exact congrArg (fun m => some (m, rest)) (Nat.mod_add_div n 128)

/-- No number is read from digits that break off. -/
theorem readVarint_of_isPrefix (k fuel n : Nat) {q : Bytes}
    (hq : q <+: varintBytesFuel fuel n) (hne : q ≠ varintBytesFuel fuel n) :
    readVarint k q = none := by
  induction k generalizing fuel n q with
  | zero => rfl
  | succ k ih =>
      cases q with
      | nil => rfl
      | cons b q =>
          by_cases hn : n < 128
          · rw [varintBytesFuel_of_lt fuel hn] at hq hne
            rcases List.cons_prefix_cons.1 hq with ⟨rfl, hnil⟩
            rw [List.prefix_nil.1 hnil] at hne
            exact absurd rfl hne
          · cases fuel with
            | zero =>
                rcases List.cons_prefix_cons.1 hq with ⟨rfl, hnil⟩
                rw [List.prefix_nil.1 hnil] at hne
                exact absurd rfl hne
            | succ fuel =>
                rw [varintBytesFuel_of_ge fuel (Nat.not_lt.1 hn)] at hq hne
                rcases List.cons_prefix_cons.1 hq with ⟨rfl, htail⟩
                have hpart : q ≠ varintBytesFuel fuel (n / 128) :=
                  fun heq => hne (by rw [heq])
                rw [readVarint_digit, ih fuel (n / 128) htail hpart]
                rfl

theorem reads_varint {k n : Nat} (hk : k <= 9) (h : n < 128 ^ (k + 1)) :
    Reads (readVarint (k + 1)) (varintBytes n) n where
  whole := readVarint_varintBytesFuel hk h
  broken := by
    intro q hq hne
    exact readVarint_of_isPrefix (k + 1) 9 n hq hne

/-!
## Bytes behind their length
-/

def delimitedBytes (bytes : Bytes) : Bytes :=
  varintBytes bytes.length ++ bytes

/-- Lengths up to a limit are read. -/
def readDelimited (limit : Nat) (bs : Bytes) : Option (Bytes × Bytes) :=
  (readVarint 5 bs).bind fun r =>
    if r.1 <= limit ∧ r.1 <= r.2.length then
      some (r.2.take r.1, r.2.drop r.1)
    else none

theorem reads_delimited {limit : Nat} (hlimit : limit < 2 ^ 32) {bytes : Bytes}
    (h : bytes.length <= limit) :
    Reads (readDelimited limit) (delimitedBytes bytes) bytes := by
  have hlen : Reads (readVarint 5) (varintBytes bytes.length) bytes.length :=
    reads_varint (by decide) (by lia)
  constructor
  · intro rest
    rw [delimitedBytes, List.append_assoc, readDelimited, hlen.whole,
      Option.bind_some, if_pos ⟨h, by simp⟩, List.take_left, List.drop_left]
  · intro q hq hne
    rcases isPrefix_append_cases hq hne with
      ⟨hfirst, hpart⟩ | ⟨r, rfl, hr, hpart⟩
    · rw [readDelimited, hlen.broken q hfirst hpart]
      rfl
    · -- The length is whole, but there are fewer bytes than it says.
      have hlt : r.length < bytes.length :=
        Nat.lt_of_le_of_ne hr.length_le fun heq => hpart (hr.eq_of_length heq)
      rw [readDelimited, hlen.whole, Option.bind_some,
        if_neg (fun hle => by lia)]

end Foundation
end Velox
