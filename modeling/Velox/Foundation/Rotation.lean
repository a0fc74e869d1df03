import Mathlib.Data.List.Nodup
import Mathlib.Order.Interval.Finset.Nat

/-!
# Counting round and round

A count that goes from one to `m` and starts again.  Its numbers are given by
their places in the count, so that a stretch of it is the image of an interval
of places, and a stretch of at most `m` numbers has no number twice.
-/

namespace Velox
namespace Foundation

/-- `n` numbers of the count from the place `k` on; the place zero has the
number one. -/
def rotation (m k n : Nat) : List Nat :=
  (List.range' k n).map fun i => i % m + 1

theorem rotation_succ (m k n : Nat) :
    rotation m k (n + 1) = (k % m + 1) :: rotation m (k + 1) n := rfl

@[simp] theorem length_rotation (m k n : Nat) :
    (rotation m k n).length = n := by
  rw [rotation, List.length_map, List.length_range']

theorem getElem?_rotation {m n i : Nat} (k : Nat) (h : i < n) :
    (rotation m k n)[i]? = some ((k + i) % m + 1) := by
  rw [rotation, List.getElem?_map, List.getElem?_range' h, Nat.one_mul]
  rfl

theorem rotation_append (m k n n' : Nat) :
    rotation m k n ++ rotation m (k + n) n' = rotation m k (n + n') := by
  rw [rotation, rotation, rotation, ← List.map_append, List.range'_append_1]

theorem pos_of_mem_rotation {m k n v : Nat} (h : v ∈ rotation m k n) :
    0 < v := by
  rcases List.mem_map.1 h with ⟨i, _, hi⟩
  rw [← hi]
  exact Nat.succ_pos _

theorem nodup_rotation {m n : Nat} (k : Nat) (h : n <= m) :
    (rotation m k n).Nodup := by
  refine (List.nodup_range' 1).map_on ?_
  intro i hi j hj hij
  rw [List.mem_range'_1] at hi hj
  have hmod : i % m = j % m := Nat.succ.inj hij
  -- The places lie in one interval of length `m`.
  exact Nat.mod_injOn_Ico k m (Finset.mem_coe.2 (Finset.mem_Ico.2 (by lia)))
    (Finset.mem_coe.2 (Finset.mem_Ico.2 (by lia))) hmod

theorem eq_rotation_of_infix {m k n : Nat} {w : List Nat}
    (h : w <:+: rotation m k n) : exists k', w = rotation m k' w.length := by
  rcases h with ⟨front, back, heq⟩
  refine ⟨k + front.length, ?_⟩
  have hlen : n = front.length + w.length + back.length := by
    rw [← length_rotation m k n, ← heq, List.length_append, List.length_append]
  rw [hlen, ← rotation_append, ← rotation_append] at heq
  have hleft := (List.append_inj heq (by simp)).left
  exact (List.append_inj hleft (by simp)).right

/-- A window of at most `m` numbers has no number twice. -/
theorem nodup_of_infix_rotation {m k n : Nat} {w : List Nat}
    (h : w <:+: rotation m k n) (hlen : w.length <= m) : w.Nodup := by
  rcases eq_rotation_of_infix h with ⟨k', hw⟩
  rw [hw]
  exact nodup_rotation k' hlen

end Foundation
end Velox
