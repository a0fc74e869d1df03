import Mathlib.Data.Finset.Card
import Mathlib.Data.Set.Finite.Basic
import Mathlib.Order.Interval.Finset.Nat

/-!
# The lowest free number

The least number outside a finite set, which is what an allocator hands out
that always takes the lowest number not in use.
-/

namespace Velox
namespace Foundation

def lowestFree (used : Finset Nat) : Nat :=
  Nat.find (Infinite.exists_notMem_finset used)

theorem lowestFree_notMem (used : Finset Nat) : lowestFree used ∉ used :=
  Nat.find_spec (Infinite.exists_notMem_finset used)

theorem lowestFree_le {used : Finset Nat} {n : Nat} (h : n ∉ used) :
    lowestFree used <= n :=
  Nat.find_min' (Infinite.exists_notMem_finset used) h

theorem mem_of_lt_lowestFree {used : Finset Nat} {n : Nat}
    (h : n < lowestFree used) : n ∈ used := by
  by_contra hfree
  exact Nat.not_le_of_lt h (lowestFree_le hfree)

theorem lowestFree_eq {used : Finset Nat} {n : Nat} (hfree : n ∉ used)
    (hbelow : forall m, m < n -> m ∈ used) : lowestFree used = n := by
  refine Nat.le_antisymm (lowestFree_le hfree) ?_
  by_contra hlt
  exact lowestFree_notMem used (hbelow _ (Nat.lt_of_not_le hlt))

theorem lowestFree_range (n : Nat) : lowestFree (Finset.range n) = n :=
  lowestFree_eq Finset.notMem_range_self fun _ hm => Finset.mem_range.2 hm

theorem exists_free_of_card_lt {used : Finset Nat} {n : Nat}
    (h : used.card < n) : exists m, m < n ∧ m ∉ used := by
  have hcard : used.card < (Finset.range n).card := by
    rwa [Finset.card_range]
  rcases Finset.exists_mem_notMem_of_card_lt_card hcard with ⟨m, hm, hfree⟩
  exact ⟨m, Finset.mem_range.1 hm, hfree⟩

/-- The lowest free number avoids an interval exactly if a number before the
interval is free or the interval is full. -/
theorem lowestFree_notMem_interval_iff (used : Finset Nat) (start count : Nat) :
    ¬ (start <= lowestFree used ∧ lowestFree used < start + count) <->
      (exists n, n < start ∧ n ∉ used) ∨
        forall n, start <= n -> n < start + count -> n ∈ used := by
  constructor
  · intro havoids
    rcases Nat.lt_or_ge (lowestFree used) start with hlt | hge
    · exact Or.inl ⟨_, hlt, lowestFree_notMem used⟩
    · refine Or.inr ?_
      intro n _ hn
      apply mem_of_lt_lowestFree
      lia
  · rintro (⟨n, hn, hfree⟩ | hfull) ⟨hge, hlt⟩
    · have hle := lowestFree_le hfree
      lia
    · exact lowestFree_notMem used (hfull _ hge hlt)

end Foundation
end Velox
