import Mathlib.Data.List.TakeWhile

/-!
# Insertion into a list

A new element is put between two parts of a list.  Whether the result is
ordered depends only on how the new element compares with the two parts; if
the parts are found by a walk along keys, it depends on the bound of the walk.
-/

namespace Velox
namespace Foundation

variable {α : Type _}

theorem pairwise_insert_iff {R : α -> α -> Prop} {ahead behind : List α}
    {x : α} (h : (ahead ++ behind).Pairwise R) :
    (ahead ++ x :: behind).Pairwise R <->
      (forall y, y ∈ ahead -> R y x) ∧ (forall y, y ∈ behind -> R x y) := by
  rw [List.pairwise_append] at h ⊢
  rw [List.pairwise_cons]
  constructor
  · intro hnew
    exact ⟨fun y hy => hnew.2.2 y hy x List.mem_cons_self, hnew.2.1.1⟩
  · intro hx
    refine ⟨h.1, ⟨hx.2, h.2.1⟩, ?_⟩
    intro y hy z hz
    rcases List.mem_cons.1 hz with rfl | hbehind
    · exact hx.1 y hy
    · exact h.2.2 y hy z hbehind

theorem le_of_mem_dropWhile {key : α -> Nat} {bound : Nat} {xs : List α}
    (h : xs.Pairwise fun x y => key x <= key y) {y : α}
    (hy : y ∈ xs.dropWhile fun x => key x < bound) : bound <= key y := by
  induction xs with
  | nil => exact absurd hy List.not_mem_nil
  | cons x rest ih =>
      rw [List.pairwise_cons] at h
      by_cases hlt : key x < bound
      · rw [List.dropWhile_cons_of_pos (by simpa using hlt)] at hy
        exact ih h.2 hy
      · rw [List.dropWhile_cons_of_neg (by simpa using hlt)] at hy
        rcases List.mem_cons.1 hy with rfl | hrest
        · exact Nat.le_of_not_lt hlt
        · exact Nat.le_trans (Nat.le_of_not_lt hlt) (h.1 y hrest)

theorem lt_of_mem_takeWhile {key : α -> Nat} {bound : Nat} {xs : List α}
    {y : α} (hy : y ∈ xs.takeWhile fun x => key x < bound) :
    key y < bound :=
  by simpa using List.mem_takeWhile_imp hy

/-- An element inserted behind the keys below a bound keeps the order exactly
if the bound separates the keys as the element's own key does. -/
theorem pairwise_insert_bound_iff {key : α -> Nat} {bound : Nat}
    {xs : List α} {x : α} (h : xs.Pairwise fun x y => key x <= key y) :
    ((xs.takeWhile fun y => key y < bound) ++
        x :: xs.dropWhile fun y => key y < bound).Pairwise
          (fun x y => key x <= key y) <->
      forall y, y ∈ xs -> key y ≠ key x ->
        (key y < bound <-> key y < key x) := by
  rw [pairwise_insert_iff (by rw [List.takeWhile_append_dropWhile]; exact h)]
  constructor
  · rintro ⟨hahead, hbehind⟩ y hy hne
    rw [← List.takeWhile_append_dropWhile (p := fun y => key y < bound)
      (l := xs), List.mem_append] at hy
    rcases hy with hy | hy
    · have hlt := lt_of_mem_takeWhile hy
      have hle := hahead y hy
      lia
    · have hge := le_of_mem_dropWhile h hy
      have hle := hbehind y hy
      lia
  · intro hsep
    constructor
    · intro y hy
      have hlt := lt_of_mem_takeWhile hy
      have hiff := hsep y ((List.takeWhile_sublist _).subset hy)
      lia
    · intro y hy
      have hge := le_of_mem_dropWhile h hy
      have hiff := hsep y ((List.dropWhile_sublist _).subset hy)
      lia

end Foundation
end Velox
