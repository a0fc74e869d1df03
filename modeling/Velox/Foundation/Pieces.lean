import Mathlib.Algebra.GroupWithZero.Nat
import Mathlib.Data.List.Basic
import Mathlib.Data.List.OfFn
import Mathlib.Data.List.Range

/-!
# Pieces of a sequence

A sequence cut into pieces can be put together again when each piece starts
where the one before it ends.  The converse holds for the positions of the
pieces, which tell equal elements apart.
-/

namespace Velox
namespace Foundation

structure Piece where
  off : Nat
  len : Nat
  deriving DecidableEq

def positions (pieces : List Piece) : List Nat :=
  pieces.flatMap fun p => List.range' p.off p.len

def totalLen (pieces : List Piece) : Nat :=
  (pieces.map Piece.len).sum

/-- The first piece starts at `e` and every other at the end of the one
before it. -/
def Tiles : Nat -> List Piece -> Prop
  | _, [] => True
  | e, p :: rest => p.off = e ∧ Tiles (e + p.len) rest

instance decidableTiles : (e : Nat) -> (pieces : List Piece) ->
    Decidable (Tiles e pieces)
  | _, [] => isTrue trivial
  | e, p :: rest =>
      have := decidableTiles (e + p.len) rest
      inferInstanceAs (Decidable (p.off = e ∧ Tiles (e + p.len) rest))

/-- The part of a sequence that a piece stands for. -/
def slice {α : Type _} (xs : List α) (p : Piece) : List α :=
  (xs.drop p.off).take p.len

theorem Tiles.take {e : Nat} {pieces : List Piece} (h : Tiles e pieces)
    (n : Nat) : Tiles e (pieces.take n) := by
  induction pieces generalizing e n with
  | nil =>
      rw [List.take_nil]
      exact h
  | cons p rest ih =>
      cases n with
      | zero => exact trivial
      | succ n => exact ⟨h.1, ih h.2 n⟩

theorem tiles_singles (e n : Nat) :
    Tiles e (List.ofFn fun i : Fin n => (⟨e + i, 1⟩ : Piece)) := by
  induction n generalizing e with
  | zero => exact trivial
  | succ n ih =>
      rw [List.ofFn_succ]
      refine ⟨rfl, ?_⟩
      have hrest := ih (e + 1)
      simp only [Nat.add_assoc, Nat.add_comm 1] at hrest
      exact hrest

theorem range_append_range' (e n : Nat) :
    List.range e ++ List.range' e n = List.range (e + n) := by
  rw [List.range_eq_range', List.range_eq_range', ← List.range'_append_1,
    Nat.zero_add]

theorem Tiles.positions_eq {e : Nat} {pieces : List Piece}
    (h : Tiles e pieces) :
    List.range e ++ positions pieces = List.range (e + totalLen pieces) := by
  induction pieces generalizing e with
  | nil => exact List.append_nil _
  | cons p rest ih =>
      have hrest := ih h.2
      rw [← range_append_range', ← h.1, List.append_assoc] at hrest
      rw [← h.1, positions, List.flatMap_cons, totalLen, List.map_cons,
        List.sum_cons, ← Nat.add_assoc]
      exact hrest

theorem Tiles.slices_eq {α : Type _} (xs : List α) {e : Nat}
    {pieces : List Piece} (h : Tiles e pieces) :
    xs.take e ++ pieces.flatMap (slice xs) =
      xs.take (e + totalLen pieces) := by
  induction pieces generalizing e with
  | nil => exact List.append_nil _
  | cons p rest ih =>
      have hfirst : xs.take e ++ slice xs p = xs.take (e + p.len) := by
        rw [slice, h.1, List.take_add]
      have hrest := ih h.2
      rw [← hfirst, List.append_assoc] at hrest
      rw [List.flatMap_cons, totalLen, List.map_cons, List.sum_cons,
        ← Nat.add_assoc]
      exact hrest

/-- Pieces that cover an initial range in order, none of them empty, tile it. -/
theorem tiles_of_positions {e m : Nat} {pieces : List Piece}
    (hne : forall p, p ∈ pieces -> 0 < p.len)
    (h : List.range e ++ positions pieces = List.range m) :
    Tiles e pieces := by
  induction pieces generalizing e with
  | nil => exact trivial
  | cons p rest ih =>
      have hlen : 0 < p.len := hne p List.mem_cons_self
      rw [positions, List.flatMap_cons] at h
      have hoff : p.off = e := by
        have hget := congrArg (fun xs => xs[e]?) h
        rw [List.getElem?_append_right (by simp)] at hget
        have hm : e < m := by
          have hsize := congrArg List.length h
          simp at hsize
          lia
        simpa [List.getElem?_append_left, hlen, hm] using hget
      refine ⟨hoff, ih (fun q hq => hne q (List.mem_cons_of_mem p hq)) ?_⟩
      rw [← range_append_range', ← hoff, List.append_assoc]
      rw [← hoff] at h
      exact h

/-!
## Disjoint pieces
-/

def Piece.Covers (p : Piece) (x : Nat) : Prop :=
  p.off <= x ∧ x < p.off + p.len

def Piece.Before (p q : Piece) : Prop :=
  p.off + p.len <= q.off

theorem Tiles.le_off {e : Nat} {pieces : List Piece} (h : Tiles e pieces)
    {p : Piece} (hp : p ∈ pieces) : e <= p.off := by
  induction pieces generalizing e with
  | nil => exact absurd hp List.not_mem_nil
  | cons q rest ih =>
      rcases List.mem_cons.1 hp with rfl | hrest
      · exact Nat.le_of_eq h.1.symm
      · exact Nat.le_trans (Nat.le_add_right e q.len) (ih h.2 hrest)

theorem Tiles.pairwise_before {e : Nat} {pieces : List Piece}
    (h : Tiles e pieces) : pieces.Pairwise Piece.Before := by
  induction pieces generalizing e with
  | nil => exact List.Pairwise.nil
  | cons p rest ih =>
      refine List.pairwise_cons.2 ⟨?_, ih h.2⟩
      intro q hq
      rw [Piece.Before, h.1]
      exact h.2.le_off hq

theorem totalLen_cons (p : Piece) (pieces : List Piece) :
    totalLen (p :: pieces) = p.len + totalLen pieces := by
  rw [totalLen, totalLen, List.map_cons, List.sum_cons]

theorem Tiles.end_le {e : Nat} {pieces : List Piece} (h : Tiles e pieces)
    {p : Piece} (hp : p ∈ pieces) : p.off + p.len <= e + totalLen pieces := by
  induction pieces generalizing e with
  | nil => exact absurd hp List.not_mem_nil
  | cons q rest ih =>
      rw [totalLen_cons]
      rcases List.mem_cons.1 hp with rfl | hrest
      · rw [h.1]
        lia
      · have hend := ih h.2 hrest
        lia

theorem Tiles.end_last {e : Nat} {pieces : List Piece} {p : Piece}
    (h : Tiles e (pieces ++ [p])) :
    p.off + p.len = e + totalLen (pieces ++ [p]) := by
  induction pieces generalizing e with
  | nil =>
      rw [List.nil_append, totalLen_cons, h.1]
      rfl
  | cons q rest ih =>
      rw [ih h.2, List.cons_append, totalLen_cons, Nat.add_assoc]

theorem Tiles.exists_covers {e : Nat} {pieces : List Piece}
    (h : Tiles e pieces) {x : Nat} (hlow : e <= x)
    (hhigh : x < e + totalLen pieces) :
    exists p, p ∈ pieces ∧ p.Covers x := by
  induction pieces generalizing e with
  | nil => exact absurd hhigh (Nat.not_lt.2 hlow)
  | cons p rest ih =>
      by_cases hin : x < e + p.len
      · refine ⟨p, List.mem_cons_self, ?_⟩
        rw [Piece.Covers, h.1]
        exact ⟨hlow, hin⟩
      · rw [totalLen_cons] at hhigh
        rcases ih h.2 (Nat.le_of_not_lt hin) (by lia) with ⟨q, hq, hcovers⟩
        exact ⟨q, List.mem_cons_of_mem p hq, hcovers⟩

theorem Piece.Before.not_covers {p q : Piece} (h : p.Before q) {x : Nat}
    (hp : p.Covers x) : ¬ q.Covers x := by
  unfold Piece.Before at h
  unfold Piece.Covers at hp ⊢
  lia

/-- Pieces one before the other that cover a range tile it. -/
theorem tiles_of_covers {e n : Nat} {pieces : List Piece}
    (hbefore : pieces.Pairwise Piece.Before)
    (hlow : forall p, p ∈ pieces -> e <= p.off)
    (hhigh : forall p, p ∈ pieces -> p.off <= n)
    (hcover : forall x, e <= x -> x < n ->
      exists p, p ∈ pieces ∧ p.Covers x) : Tiles e pieces := by
  induction pieces generalizing e with
  | nil => trivial
  | cons p rest ih =>
      rw [List.pairwise_cons] at hbefore
      have hoff : p.off = e := by
        by_contra hne
        have hpe := hlow p List.mem_cons_self
        have hpn := hhigh p List.mem_cons_self
        rcases hcover e (Nat.le_refl e) (by lia) with ⟨q, hq, hcovers⟩
        unfold Piece.Covers at hcovers
        rcases List.mem_cons.1 hq with rfl | hrest
        · lia
        · have hpq := hbefore.1 q hrest
          unfold Piece.Before at hpq
          lia
      refine ⟨hoff, ih hbefore.2 ?_ ?_ ?_⟩
      · intro q hq
        rw [← hoff]
        exact hbefore.1 q hq
      · intro q hq
        exact hhigh q (List.mem_cons_of_mem p hq)
      · intro x hx hxn
        rcases hcover x (by lia) hxn with ⟨q, hq, hcovers⟩
        rcases List.mem_cons.1 hq with rfl | hrest
        · unfold Piece.Covers at hcovers
          lia
        · exact ⟨q, hrest, hcovers⟩

end Foundation
end Velox
