import Mathlib.Algebra.Order.BigOperators.Group.Finset
import Mathlib.Data.Finset.Card
import Mathlib.Data.Finset.Range
import Mathlib.Data.Fintype.BigOperators
import Mathlib.Data.List.Basic

/-!
# Counting loops over arrays and sets

A loop `for (i = 0; i < n; i++)` is a fold over the numbers below `n`.  An
array is a list.  Some loops change every entry by itself; others move the
entries of one kind to an array of their own, and the results back to where
the entries came from.  A loop over the numbers below `n` collects members of
a finite set.
-/

namespace Velox
namespace Foundation

variable {α β σ : Type _}

/-!
## The loop
-/

/-- `for (i = 0; i < n; i++)`. -/
def forLoop (n : Nat) (body : σ -> Nat -> σ) (init : σ) : σ :=
  (List.range n).foldl body init

theorem forLoop_succ (n : Nat) (body : σ -> Nat -> σ) (init : σ) :
    forLoop (n + 1) body init = body (forLoop n body init) n := by
  rw [forLoop, List.range_succ, List.foldl_append]
  rfl

/-- What holds at the start, and after each round if it holds before it, holds
at the end. -/
theorem forLoop_rule {Inv : Nat -> σ -> Prop} {n : Nat}
    {body : σ -> Nat -> σ} {init : σ} (hinit : Inv 0 init)
    (hround : forall i s, i < n -> Inv i s -> Inv (i + 1) (body s i)) :
    Inv n (forLoop n body init) := by
  induction n with
  | zero => exact hinit
  | succ n ih =>
      rw [forLoop_succ]
      refine hround n _ (Nat.lt_succ_self n) (ih ?_)
      intro i s hi
      exact hround i s (Nat.lt_succ_of_lt hi)

def tryLoop (n : Nat) (body : σ -> Nat -> Option σ) (init : σ) : Option σ :=
  forLoop n (fun s i => s.bind fun s => body s i) (some init)

theorem tryLoop_rule {Inv : Nat -> σ -> Prop} {n : Nat}
    {body : σ -> Nat -> Option σ} {init : σ} (hinit : Inv 0 init)
    (hround : forall i s, i < n -> Inv i s ->
      exists s', body s i = some s' ∧ Inv (i + 1) s') :
    exists s, tryLoop n body init = some s ∧ Inv n s := by
  refine @forLoop_rule _ (fun i s => exists s', s = some s' ∧ Inv i s') n _ _
    ⟨init, rfl, hinit⟩ ?_
  rintro i _ hi ⟨s, rfl, hs⟩
  exact hround i s hi hs

theorem tryLoop_eq_none {n i : Nat} {body : σ -> Nat -> Option σ} {init : σ}
    (hi : i < n) (h : forall s, body s i = none) :
    tryLoop n body init = none := by
  induction n with
  | zero => cases hi
  | succ n ih =>
      rw [tryLoop, forLoop_succ]
      rcases Nat.lt_succ_iff_lt_or_eq.1 hi with hlt | rfl
      · have hnone := ih hlt
        unfold tryLoop at hnone
        rw [hnone]
        rfl
      · cases forLoop i (fun s i => s.bind fun s => body s i) (some init) with
        | none => rfl
        | some s => exact h s

/-!
## Changing every entry
-/

def mapFirst (f : α -> α) (n : Nat) (xs : List α) : List α :=
  (xs.take n).map f ++ xs.drop n

theorem mapFirst_length (f : α -> α) (xs : List α) :
    mapFirst f xs.length xs = xs.map f := by
  simp [mapFirst]

theorem mapFirst_cons (f : α -> α) (n : Nat) (x : α) (xs : List α) :
    mapFirst f (n + 1) (x :: xs) = f x :: mapFirst f n xs :=
  rfl

theorem mapFirst_getElem? (f : α -> α) (n : Nat) (xs : List α) :
    (mapFirst f n xs)[n]? = xs[n]? := by
  induction n generalizing xs with
  | zero => rfl
  | succ n ih =>
      cases xs with
      | nil => rfl
      | cons x xs =>
          rw [mapFirst_cons, List.getElem?_cons_succ, List.getElem?_cons_succ]
          exact ih xs

theorem mapFirst_modify (f : α -> α) (n : Nat) (xs : List α) :
    (mapFirst f n xs).modify n f = mapFirst f (n + 1) xs := by
  induction n generalizing xs with
  | zero => cases xs <;> rfl
  | succ n ih =>
      cases xs with
      | nil => rfl
      | cons x xs =>
          rw [mapFirst_cons, mapFirst_cons, List.modify_succ_cons, ih]

theorem mapFirst_succ_getElem? (f : α -> α) (n : Nat) (xs : List α) :
    (mapFirst f (n + 1) xs)[n]? = (xs[n]?).map f := by
  rw [← mapFirst_modify, List.getElem?_modify_eq, mapFirst_getElem?]
  rfl

theorem modify_congr {f g : α -> α} {n : Nat} {xs : List α} {x : α}
    (hx : xs[n]? = some x) (hfg : f x = g x) :
    xs.modify n f = xs.modify n g := by
  induction n generalizing xs with
  | zero =>
      cases xs with
      | nil => rfl
      | cons y ys =>
          cases hx
          rw [List.modify_zero_cons, List.modify_zero_cons, hfg]
  | succ n ih =>
      cases xs with
      | nil => rfl
      | cons y ys =>
          rw [List.modify_succ_cons, List.modify_succ_cons, ih hx]

theorem mapFirst_succ {f : α -> α} {n : Nat} {xs : List α} {x : α}
    (hx : xs[n]? = some x) (hfix : f x = x) :
    mapFirst f (n + 1) xs = mapFirst f n xs := by
  have hentry := (mapFirst_getElem? f n xs).trans hx
  rw [← mapFirst_modify, modify_congr (g := id) hentry hfix, List.modify_id]

/-!
## Moving entries
-/

def placesOf (p : α -> Bool) : List α -> List Nat
  | [] => []
  | x :: xs =>
      (if p x then [0] else []) ++ (placesOf p xs).map Nat.succ

theorem placesOf_concat (p : α -> Bool) (xs : List α) (x : α) :
    placesOf p (xs ++ [x]) =
      placesOf p xs ++ if p x then [xs.length] else [] := by
  induction xs with
  | nil => simp [placesOf]
  | cons y ys ih =>
      rw [List.cons_append, placesOf, placesOf, ih]
      cases p x <;> simp

theorem placesOf_map {p : α -> Bool} {g : α -> α}
    (hg : forall x, p (g x) = p x) (xs : List α) :
    placesOf p (xs.map g) = placesOf p xs := by
  induction xs with
  | nil => rfl
  | cons x xs ih => rw [List.map_cons, placesOf, placesOf, hg, ih]

theorem length_placesOf (p : α -> Bool) (xs : List α) :
    (placesOf p xs).length = (xs.filter p).length := by
  induction xs with
  | nil => rfl
  | cons x xs ih =>
      rw [placesOf, List.filter_cons]
      cases p x <;> simp [ih]

def scatter (f : α -> β -> α) (xs : List α) (moves : List (Nat × β)) :
    List α :=
  moves.foldl (fun acc move => acc.modify move.1 fun x => f x move.2) xs

theorem scatter_concat (f : α -> β -> α) (xs : List α)
    (moves : List (Nat × β)) (i : Nat) (v : β) :
    scatter f xs (moves ++ [(i, v)]) =
      (scatter f xs moves).modify i fun x => f x v := by
  rw [scatter, List.foldl_append]
  rfl

theorem scatter_cons (f : α -> β -> α) (x : α) (xs : List α)
    (moves : List (Nat × β)) :
    scatter f (x :: xs) (moves.map (Prod.map Nat.succ id)) =
      x :: scatter f xs moves := by
  induction moves generalizing xs with
  | nil => rfl
  | cons move rest ih => exact ih _

/-- Values dealt out to the entries of a kind, in their order. -/
def deal (p : α -> Bool) (f : α -> β -> α) : List α -> List β -> List α
  | [], _ => []
  | xs, [] => xs
  | x :: xs, v :: vs =>
      if p x then f x v :: deal p f xs vs else x :: deal p f xs (v :: vs)

theorem deal_nil (p : α -> Bool) (f : α -> β -> α) (xs : List α) :
    deal p f xs [] = xs := by
  cases xs <;> rfl

theorem deal_eq_self {p : α -> Bool} {f : α -> β -> α} {xs : List α}
    {vs : List β} (h : forall x, x ∈ xs -> forall v, v ∈ vs -> f x v = x) :
    deal p f xs vs = xs := by
  induction xs generalizing vs with
  | nil => rfl
  | cons x xs ih =>
      cases vs with
      | nil => rfl
      | cons v vs =>
          have hxs : forall y, y ∈ xs -> forall w, w ∈ v :: vs -> f y w = y :=
            fun y hy => h y (List.mem_cons_of_mem x hy)
          rw [deal]
          cases p x with
          | true =>
              rw [if_pos rfl, h x List.mem_cons_self v List.mem_cons_self,
                ih fun y hy w hw => hxs y hy w (List.mem_cons_of_mem v hw)]
          | false => rw [if_neg (by simp), ih hxs]

theorem scatter_placesOf (p : α -> Bool) (f : α -> β -> α) (xs : List α)
    (vs : List β) :
    scatter f xs ((placesOf p xs).zip vs) = deal p f xs vs := by
  induction xs generalizing vs with
  | nil => rfl
  | cons x xs ih =>
      cases vs with
      | nil =>
          rw [List.zip_nil_right]
          rfl
      | cons v vs =>
          rw [placesOf, deal]
          cases hx : p x with
          | true =>
              simp only [if_pos]
              show scatter f (f x v :: xs)
                (((placesOf p xs).map Nat.succ).zip vs) = _
              rw [List.zip_map_left, scatter_cons, ih]
          | false =>
              simp only [Bool.false_eq_true, if_false, List.nil_append]
              rw [List.zip_map_left, scatter_cons, ih]

theorem filter_deal {p : α -> Bool} {f : α -> β -> α}
    (hf : forall x v, p (f x v) = p x) {xs : List α} {vs : List β}
    (hlen : vs.length = (xs.filter p).length) :
    (deal p f xs vs).filter p = List.zipWith f (xs.filter p) vs := by
  induction xs generalizing vs with
  | nil => rfl
  | cons x xs ih =>
      cases vs with
      | nil =>
          rw [deal_nil, List.eq_nil_of_length_eq_zero hlen.symm]
          rfl
      | cons v vs =>
          rw [deal]
          cases hx : p x with
          | true =>
              rw [List.filter_cons_of_pos hx] at hlen ⊢
              rw [if_pos rfl, List.filter_cons_of_pos ((hf x v).trans hx),
                List.zipWith_cons_cons, ih (Nat.succ.inj hlen)]
          | false =>
              have hneg : ¬ p x = true := by simp [hx]
              rw [List.filter_cons_of_neg hneg] at hlen ⊢
              rw [if_neg (by simp), List.filter_cons_of_neg hneg, ih hlen]

theorem map_deal {γ : Type _} {g : α -> γ} {p : α -> Bool}
    {f : α -> β -> α} (hg : forall x v, g (f x v) = g x) (xs : List α)
    (vs : List β) : (deal p f xs vs).map g = xs.map g := by
  induction xs generalizing vs with
  | nil => rfl
  | cons x xs ih =>
      cases vs with
      | nil => rw [deal_nil]
      | cons v vs =>
          rw [deal]
          cases p x <;> simp [hg, ih]

/-!
## Collecting members
-/

def below (p : Nat -> Bool) (s : Finset Nat) (n : Nat) : Finset Nat :=
  s.filter fun i => p i = true ∧ i < n

theorem mem_below {p : Nat -> Bool} {s : Finset Nat} {n i : Nat} :
    i ∈ below p s n <-> i ∈ s ∧ p i = true ∧ i < n :=
  Finset.mem_filter

theorem below_zero (p : Nat -> Bool) (s : Finset Nat) : below p s 0 = ∅ := by
  simp [below]

theorem below_succ_of_mem {p : Nat -> Bool} {s : Finset Nat} {n : Nat}
    (hp : p n = true) (hn : n ∈ s) :
    below p s (n + 1) = insert n (below p s n) := by
  ext i
  rw [Finset.mem_insert, mem_below, mem_below, Nat.lt_succ_iff_lt_or_eq]
  constructor
  case mp =>
    rintro ⟨hi, hpi, hlt | heq⟩
    · exact Or.inr ⟨hi, hpi, hlt⟩
    · exact Or.inl heq
  case mpr =>
    rintro (rfl | ⟨hi, hpi, hlt⟩)
    · exact ⟨hn, hp, Or.inr rfl⟩
    · exact ⟨hi, hpi, Or.inl hlt⟩

theorem below_succ_of_not {p : Nat -> Bool} {s : Finset Nat} {n : Nat}
    (h : ¬ (n ∈ s ∧ p n = true)) : below p s (n + 1) = below p s n := by
  ext i
  rw [mem_below, mem_below, Nat.lt_succ_iff_lt_or_eq]
  constructor
  case mp =>
    rintro ⟨hi, hpi, hlt | rfl⟩
    · exact ⟨hi, hpi, hlt⟩
    · exact absurd ⟨hi, hpi⟩ h
  case mpr =>
    rintro ⟨hi, hpi, hlt⟩
    exact ⟨hi, hpi, Or.inl hlt⟩

theorem card_filter_range_succ (p : Nat -> Bool) (n : Nat) :
    ((Finset.range (n + 1)).filter fun i => p i = true).card =
      ((Finset.range n).filter fun i => p i = true).card +
        if p n then 1 else 0 := by
  rw [Finset.range_add_one, Finset.filter_insert]
  split
  case isTrue h =>
    rw [Finset.card_insert_of_notMem fun hmem =>
      Finset.notMem_range_self (Finset.mem_of_mem_filter n hmem)]
  case isFalse h => rfl

section Counting

variable {κ : Type _} [Fintype κ] (R : α -> κ -> Prop)
  [forall a k, Decidable (R a k)]

theorem ite_exists_le_card (a : α) :
    (if exists k, R a k then 1 else 0) <=
      (Finset.univ.filter fun k => R a k).card := by
  split
  case isTrue h =>
    rcases h with ⟨k, hk⟩
    exact Finset.card_pos.2 ⟨k, by simp [hk]⟩
  case isFalse h => exact Nat.zero_le _

theorem ite_exists_eq_card_iff (a : α) :
    (if exists k, R a k then 1 else 0) =
        (Finset.univ.filter fun k => R a k).card <->
      forall k k', R a k -> R a k' -> k = k' := by
  have hle := ite_exists_le_card R a
  have hone : (Finset.univ.filter fun k => R a k).card <= 1 <->
      forall k k', R a k -> R a k' -> k = k' := by
    rw [Finset.card_le_one]
    simp only [Finset.mem_filter, Finset.mem_univ, true_and]
    constructor
    case mp => exact fun h k k' hk hk' => h k hk k' hk'
    case mpr => exact fun h k hk k' hk' => h k k' hk hk'
  rw [← hone]
  split at hle
  case isTrue h => rw [if_pos h]; omega
  case isFalse h =>
    have hzero : (Finset.univ.filter fun k => R a k).card = 0 := by
      rw [Finset.card_eq_zero, Finset.filter_eq_empty_iff]
      intro k _ hk
      exact h ⟨k, hk⟩
    rw [if_neg h, hzero]
    simp

theorem sum_card_filter (s : Finset α) :
    ∑ k, (s.filter fun a => R a k).card =
      ∑ a ∈ s, (Finset.univ.filter fun k => R a k).card := by
  simp only [Finset.card_filter]
  exact Finset.sum_comm

theorem card_filter_exists_le_sum (s : Finset α) :
    (s.filter fun a => exists k, R a k).card <=
      ∑ k, (s.filter fun a => R a k).card := by
  rw [sum_card_filter, Finset.card_filter]
  exact Finset.sum_le_sum fun a _ => ite_exists_le_card R a

/-- Counting members once agrees with counting them once for each of their
kinds when none of them is of two kinds, and only then. -/
theorem card_filter_exists_eq_sum_iff (s : Finset α) :
    (s.filter fun a => exists k, R a k).card =
        ∑ k, (s.filter fun a => R a k).card <->
      forall a, a ∈ s -> forall k k', R a k -> R a k' -> k = k' := by
  rw [sum_card_filter, Finset.card_filter, Finset.sum_eq_sum_iff_of_le
    fun a _ => ite_exists_le_card R a]
  exact forall₂_congr fun a _ => ite_exists_eq_card_iff R a

end Counting

end Foundation
end Velox
