import Velox.Foundation.LowestFree

/-!
# Allocation below a limit

An allocator takes the lowest numbers that are not in use and fails at a limit.
It succeeds exactly if there are enough numbers, whichever of them are in use.
-/

namespace Velox
namespace Foundation

/-- The lowest numbers that are free, all of them below a limit, or none. -/
def allocate (limit : Nat) : Nat -> Finset Nat -> Option (Finset Nat)
  | 0, used => some used
  | n + 1, used =>
      if lowestFree used < limit then
        allocate limit n (insert (lowestFree used) used)
      else none

def Below (limit : Nat) (used : Finset Nat) : Prop :=
  forall k, k ∈ used -> k < limit

namespace Below

variable {limit : Nat} {used : Finset Nat}

theorem card_le (h : Below limit used) : used.card <= limit := by
  have hsubset : used ⊆ Finset.range limit := fun k hk =>
    Finset.mem_range.mpr (h k hk)
  have hcard := Finset.card_le_card hsubset
  rwa [Finset.card_range] at hcard

theorem insert_lowestFree (h : Below limit used)
    (hlt : lowestFree used < limit) :
    Below limit (insert (lowestFree used) used) := by
  intro k hk
  rcases Finset.mem_insert.mp hk with rfl | hused
  · exact hlt
  · exact h k hused

theorem erase (h : Below limit used) (k : Nat) :
    Below limit (used.erase k) :=
  fun m hm => h m (Finset.mem_of_mem_erase hm)

end Below

theorem card_insert_lowestFree (used : Finset Nat) :
    (insert (lowestFree used) used).card = used.card + 1 :=
  Finset.card_insert_of_notMem (lowestFree_notMem used)

structure Allocated (limit n : Nat) (used used' : Finset Nat) : Prop where
  subset : used ⊆ used'
  card : used'.card = used.card + n
  below : Below limit used'

theorem allocated_of_allocate {limit n : Nat} {used used' : Finset Nat}
    (hbelow : Below limit used) (h : allocate limit n used = some used') :
    Allocated limit n used used' := by
  induction n generalizing used with
  | zero =>
      cases h
      exact ⟨Finset.Subset.refl _, rfl, hbelow⟩
  | succ n ih =>
      unfold allocate at h
      split at h
      case isTrue hlt =>
        have hrest := ih (hbelow.insert_lowestFree hlt) h
        refine ⟨(Finset.subset_insert _ used).trans hrest.subset, ?_,
          hrest.below⟩
        rw [hrest.card, card_insert_lowestFree]
        lia
      case isFalse _ => cases h

/-- There are enough numbers exactly if the number of those in use allows
it. -/
theorem allocate_iff {limit n : Nat} {used : Finset Nat}
    (hbelow : Below limit used) :
    (exists used', allocate limit n used = some used') <->
      used.card + n <= limit := by
  constructor
  · rintro ⟨used', h⟩
    have hallocated := allocated_of_allocate hbelow h
    rw [← hallocated.card]
    exact hallocated.below.card_le
  · intro hroom
    induction n generalizing used with
    | zero => exact ⟨used, rfl⟩
    | succ n ih =>
        have hcard : used.card < limit := by lia
        rcases exists_free_of_card_lt hcard with ⟨k, hk, hfree⟩
        have hlt : lowestFree used < limit :=
          Nat.lt_of_le_of_lt (lowestFree_le hfree) hk
        rw [allocate, if_pos hlt]
        apply ih (hbelow.insert_lowestFree hlt)
        rw [card_insert_lowestFree]
        lia

end Foundation
end Velox
