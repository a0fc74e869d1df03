import Mathlib.Algebra.BigOperators.Group.List.Basic
import Mathlib.Algebra.GroupWithZero.Nat
import Mathlib.Data.List.Dedup
import Mathlib.Data.List.Induction

/-!
# First arrivals

A sequence of arrivals without its repetitions: every element where it comes
first.  What depends on the first arrivals only, such as the first element
with the least key, is the same for both sequences.
-/

namespace Velox
namespace Foundation

variable {α : Type _}

section Arrivals

variable [DecidableEq α]

/-- The sequence without repetitions, in the order of the first arrivals. -/
def firstArrivals (xs : List α) : List α :=
  xs.reverse.dedup.reverse

theorem mem_firstArrivals {xs : List α} {x : α} :
    x ∈ firstArrivals xs <-> x ∈ xs := by
  rw [firstArrivals, List.mem_reverse, List.mem_dedup, List.mem_reverse]

theorem firstArrivals_append_of_mem {xs : List α} {x : α} (h : x ∈ xs) :
    firstArrivals (xs ++ [x]) = firstArrivals xs := by
  rw [firstArrivals, List.reverse_append, List.reverse_singleton,
    List.singleton_append, List.dedup_cons_of_mem (List.mem_reverse.2 h),
    firstArrivals]

theorem firstArrivals_append_of_notMem {xs : List α} {x : α} (h : x ∉ xs) :
    firstArrivals (xs ++ [x]) = firstArrivals xs ++ [x] := by
  rw [firstArrivals, List.reverse_append, List.reverse_singleton,
    List.singleton_append,
    List.dedup_cons_of_notMem (fun hx => h (List.mem_reverse.1 hx)),
    List.reverse_cons, firstArrivals]

theorem firstArrivals_eq_self {xs : List α} (h : xs.Nodup) :
    firstArrivals xs = xs := by
  rw [firstArrivals, (List.nodup_reverse.2 h).dedup, List.reverse_reverse]

theorem nodup_firstArrivals (xs : List α) : (firstArrivals xs).Nodup :=
  List.nodup_reverse.2 (List.nodup_dedup _)

theorem firstArrivals_sublist (xs : List α) :
    (firstArrivals xs).Sublist xs := by
  have h := (List.dedup_sublist xs.reverse).reverse
  rw [List.reverse_reverse] at h
  exact h

/-- Repetitions have a weight of their own. -/
theorem sum_firstArrivals_lt {weight : α -> Nat} {xs : List α}
    (hpos : forall x, x ∈ xs -> 0 < weight x) (h : ¬ xs.Nodup) :
    ((firstArrivals xs).map weight).sum < (xs.map weight).sum := by
  rcases (firstArrivals_sublist xs).exists_perm_append with ⟨extra, hperm⟩
  cases extra with
  | nil =>
      rw [List.append_nil] at hperm
      exact absurd (hperm.nodup_iff.2 (nodup_firstArrivals xs)) h
  | cons x rest =>
      have hx := hpos x (hperm.mem_iff.2 (List.mem_append_right _
        List.mem_cons_self))
      rw [(hperm.map weight).sum_nat, List.map_append, List.sum_append,
        List.map_cons, List.sum_cons]
      lia

end Arrivals

/-!
## The first element with the least key
-/

section Least

variable (key : α -> Nat)

def pickLess (best : Option α) (x : α) : Option α :=
  match best with
  | none => some x
  | some b => if key x < key b then some x else some b

def firstLeast (xs : List α) : Option α :=
  xs.foldl (pickLess key) none

theorem firstLeast_append (xs : List α) (x : α) :
    firstLeast key (xs ++ [x]) = pickLess key (firstLeast key xs) x := by
  rw [firstLeast, List.foldl_append]
  rfl

theorem firstLeast_le {xs : List α} {x : α} (h : x ∈ xs) :
    exists b, firstLeast key xs = some b ∧ key b <= key x := by
  induction xs using List.reverseRecOn with
  | nil => exact absurd h List.not_mem_nil
  | append_singleton xs y ih =>
      rw [firstLeast_append]
      rcases List.mem_append.1 h with hold | hnew
      · rcases ih hold with ⟨b, hb, hle⟩
        rw [hb, pickLess]
        split
        · exact ⟨y, rfl, by lia⟩
        · exact ⟨b, rfl, hle⟩
      · cases List.mem_singleton.1 hnew
        cases firstLeast key xs with
        | none => exact ⟨x, rfl, Nat.le_refl _⟩
        | some b =>
            rw [pickLess]
            split
            · exact ⟨x, rfl, Nat.le_refl _⟩
            · exact ⟨b, rfl, by lia⟩

theorem firstLeast_firstArrivals [DecidableEq α] (xs : List α) :
    firstLeast key (firstArrivals xs) = firstLeast key xs := by
  induction xs using List.reverseRecOn with
  | nil => rfl
  | append_singleton xs x ih =>
      by_cases hx : x ∈ xs
      · rcases firstLeast_le key hx with ⟨b, hb, hle⟩
        rw [firstArrivals_append_of_mem hx, ih, firstLeast_append, hb,
          pickLess, if_neg (Nat.not_lt.2 hle)]
      · rw [firstArrivals_append_of_notMem hx, firstLeast_append,
          firstLeast_append, ih]

end Least

end Foundation
end Velox
