import Mathlib.Data.List.Nodup
import Mathlib.Logic.Function.Basic

/-!
# A partial map with its list and its index

A partial map from names to entries, each with a key and a value, is kept in
two other places: as the list of the names that have an entry, and as an index
from keys to names and values.  The rules say how a new entry, a new value and
the removal of an entry are carried to both.
-/

namespace Velox
namespace Foundation

variable {ι κ ν : Type _}

/-- The list and the index hold what the map holds. -/
structure Mirror (m : ι -> Option (κ × ν)) (names : List ι)
    (index : κ -> Option (ι × ν)) : Prop where
  nodup : names.Nodup
  mem_iff : forall p, p ∈ names <-> (m p).isSome = true
  index_iff : forall k p v, index k = some (p, v) <-> m p = some (k, v)

namespace Mirror

variable {m : ι -> Option (κ × ν)} {names : List ι}
  {index : κ -> Option (ι × ν)}

theorem empty : Mirror (fun _ : ι => (none : Option (κ × ν))) []
    (fun _ => none) where
  nodup := List.nodup_nil
  mem_iff := by simp
  index_iff := by simp

theorem index_eq_none (h : Mirror m names index) {k : κ}
    (hfree : forall p v, m p ≠ some (k, v)) : index k = none := by
  cases hk : index k with
  | none => rfl
  | some entry => exact absurd ((h.index_iff k _ _).1 hk) (hfree _ _)

theorem notMem (h : Mirror m names index) {p : ι} (hp : m p = none) :
    p ∉ names := by
  rw [h.mem_iff, hp]
  exact Bool.false_ne_true

theorem mem (h : Mirror m names index) {p : ι} {entry : κ × ν}
    (hp : m p = some entry) : p ∈ names := by
  rw [h.mem_iff, hp]
  rfl

theorem eq_of_key (h : Mirror m names index) {p q : ι} {k : κ} {v w : ν}
    (hp : m p = some (k, v)) (hq : m q = some (k, w)) : q = p := by
  rw [← h.index_iff] at hp hq
  rw [hp] at hq
  cases hq
  rfl

theorem key_unique {p : ι} {k k' : κ} {v w : ν} (hp : m p = some (k, v))
    (hp' : m p = some (k', w)) : k' = k := by
  rw [hp] at hp'
  cases hp'
  rfl

section Update

variable [DecidableEq ι] [DecidableEq κ]

/-- The index after a change at one name, when the key is nobody else's and
the name has no other. -/
theorem index_update (h : Mirror m names index) {p : ι} {k : κ}
    (hkey : forall q v, m q = some (k, v) -> q = p)
    (hname : forall k' v, m p = some (k', v) -> k' = k) (entry : Option ν)
    (k' : κ) (q : ι) (v : ν) :
    Function.update index k (entry.map (Prod.mk p)) k' = some (q, v) <->
      Function.update m p (entry.map (Prod.mk k)) q = some (k', v) := by
  by_cases hk : k' = k
  case pos =>
    subst hk
    by_cases hq : q = p
    case pos =>
      subst hq
      cases entry <;> simp
    case neg =>
      rw [Function.update_self, Function.update_of_ne hq]
      refine iff_of_false ?_ fun hm => hq (hkey q v hm)
      cases entry <;> simp [Ne.symm hq]
  case neg =>
    rw [Function.update_of_ne hk, h.index_iff]
    by_cases hq : q = p
    case pos =>
      subst hq
      rw [Function.update_self]
      refine iff_of_false (fun hm => hk (hname k' v hm)) ?_
      cases entry <;> simp [Ne.symm hk]
    case neg => rw [Function.update_of_ne hq]

theorem insert (h : Mirror m names index) {p : ι} {k : κ} (hp : m p = none)
    (hk : index k = none) (v : ν) :
    Mirror (Function.update m p (some (k, v))) (names ++ [p])
      (Function.update index k (some (p, v))) := by
  constructor
  case nodup =>
    rw [List.nodup_append_comm]
    exact List.nodup_cons.2 ⟨h.notMem hp, h.nodup⟩
  case mem_iff =>
    intro q
    rw [List.mem_append, List.mem_singleton, h.mem_iff]
    by_cases hq : q = p <;> simp [hq]
  case index_iff =>
    refine h.index_update ?_ ?_ (some v)
    · intro q w hq
      rw [← h.index_iff, hk] at hq
      cases hq
    · intro k' w hm
      rw [hp] at hm
      cases hm

theorem modify (h : Mirror m names index) {p : ι} {k : κ} {v : ν}
    (hp : m p = some (k, v)) (w : ν) :
    Mirror (Function.update m p (some (k, w))) names
      (Function.update index k (some (p, w))) := by
  constructor
  case nodup => exact h.nodup
  case mem_iff =>
    intro q
    rw [h.mem_iff]
    by_cases hq : q = p
    · simp [hq, hp]
    · rw [Function.update_of_ne hq]
  case index_iff =>
    exact h.index_update (fun _ _ => h.eq_of_key hp)
      (fun _ _ => key_unique hp) (some w)

theorem remove (h : Mirror m names index) {p : ι} {k : κ} {v : ν}
    (hp : m p = some (k, v)) :
    Mirror (Function.update m p none) (names.erase p)
      (Function.update index k none) := by
  constructor
  case nodup => exact h.nodup.erase p
  case mem_iff =>
    intro q
    rw [h.nodup.mem_erase_iff, h.mem_iff]
    by_cases hq : q = p <;> simp [hq]
  case index_iff =>
    exact h.index_update (fun _ _ => h.eq_of_key hp)
      (fun _ _ => key_unique hp) none

end Update

end Mirror
end Foundation
end Velox
