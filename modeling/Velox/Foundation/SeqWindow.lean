import Mathlib.Algebra.Group.Nat.Defs
import Mathlib.Data.List.Basic

/-!
# Windows of sequence numbers

Sequence numbers of 32 bits are compared by their distance from the oldest
outstanding number.  A plain comparison agrees with that only on one side of
the place where the numbers wrap.
-/

namespace Velox
namespace Foundation

/-- The number `k` acknowledges something of what lies between the oldest
outstanding number `una` and the next number `nxt`. -/
def InWindow (una nxt k : UInt32) : Prop :=
  0 < k - una ∧ k - una <= nxt - una

instance (una nxt k : UInt32) : Decidable (InWindow una nxt k) :=
  inferInstanceAs (Decidable (_ ∧ _))

theorem InWindow.ne {una nxt k : UInt32} (h : InWindow una nxt k) :
    k ≠ una := by
  rintro rfl
  have hpos := h.left
  rw [UInt32.sub_self] at hpos
  exact UInt32.lt_irrefl _ hpos

theorem inWindow_iff {una nxt k : UInt32} :
    InWindow una nxt k <->
      if una <= nxt then una < k ∧ k <= nxt else una < k ∨ k <= nxt := by
  have hk := k.toNat_lt
  have huna := una.toNat_lt
  have hnxt := nxt.toNat_lt
  by_cases hwrap : una <= nxt
  · rw [if_pos hwrap]
    rw [UInt32.le_iff_toNat_le] at hwrap
    simp only [InWindow, UInt32.lt_iff_toNat_lt, UInt32.le_iff_toNat_le,
      UInt32.toNat_sub, UInt32.toNat_zero]
    omega
  · rw [if_neg hwrap]
    rw [UInt32.le_iff_toNat_le] at hwrap
    simp only [InWindow, UInt32.lt_iff_toNat_lt, UInt32.le_iff_toNat_le,
      UInt32.toNat_sub, UInt32.toNat_zero]
    omega

/-- The plain comparison with the oldest outstanding number is right exactly
if `k` lies on the same side of `nxt` as that number does. -/
theorem lt_iff_inWindow_iff {una nxt k : UInt32} :
    (una < k <-> InWindow una nxt k) <-> (una <= nxt <-> k <= nxt) := by
  rw [inWindow_iff]
  by_cases hwrap : una <= nxt
  · rw [if_pos hwrap, iff_true_left hwrap]
    constructor
    · intro h
      by_cases hlt : una < k
      · exact (h.1 hlt).right
      · exact UInt32.le_trans (UInt32.not_lt.1 hlt) hwrap
    · intro hle
      exact ⟨fun hlt => ⟨hlt, hle⟩, fun h => h.left⟩
  · rw [if_neg hwrap, iff_false_left hwrap]
    constructor
    · intro h hle
      have hlt := h.2 (.inr hle)
      exact hwrap (UInt32.le_trans (UInt32.le_of_lt hlt) hle)
    · intro hnot
      exact ⟨.inl, fun h => h.resolve_right hnot⟩

/-- Two rules that move `una` to a number other than it give the same result
exactly if they apply together. -/
theorem ite_eq_ite_iff {una k : UInt32} {P Q : Prop} [Decidable P]
    [Decidable Q] (hP : P -> k ≠ una) (hQ : Q -> k ≠ una) :
    ((if P then k else una) = if Q then k else una) <-> (P <-> Q) := by
  by_cases hp : P
  · by_cases hq : Q
    · rw [if_pos hp, if_pos hq]
      exact ⟨fun _ => ⟨fun _ => hq, fun _ => hp⟩, fun _ => rfl⟩
    · rw [if_pos hp, if_neg hq]
      exact ⟨fun h => absurd h (hP hp), fun h => absurd (h.1 hp) hq⟩
  · by_cases hq : Q
    · rw [if_neg hp, if_pos hq]
      exact ⟨fun h => absurd h.symm (hQ hq), fun h => absurd (h.2 hq) hp⟩
    · rw [if_neg hp, if_neg hq]
      exact ⟨fun _ => ⟨fun h => absurd h hp, fun h => absurd h hq⟩,
        fun _ => rfl⟩

theorem InWindow.distance_lt {una nxt k : UInt32} (h : InWindow una nxt k) :
    (nxt - k).toNat < (nxt - una).toNat := by
  have hpos := UInt32.lt_iff_toNat_lt.1 h.left
  have hle := UInt32.le_iff_toNat_le.1 h.right
  rw [UInt32.toNat_zero] at hpos
  have hsplit : nxt - k = (nxt - una) - (k - una) := by grind
  rw [hsplit, UInt32.toNat_sub_of_le _ _ h.right]
  omega

theorem distance_add {una nxt : UInt32} {n : Nat}
    (h : (nxt - una).toNat + n < 2 ^ 32) :
    (nxt + UInt32.ofNat n - una).toNat = (nxt - una).toNat + n := by
  have hsplit : nxt + UInt32.ofNat n - una = (nxt - una) + UInt32.ofNat n := by
    grind
  rw [hsplit, UInt32.toNat_add, UInt32.toNat_ofNat']
  omega

end Foundation
end Velox
