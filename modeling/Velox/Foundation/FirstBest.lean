import Mathlib.Data.List.Basic

/-!
# The first best element of a list

A loop that scores the elements of a list, skips those without a score and
keeps the first one with the greatest score.
-/

namespace Velox
namespace Foundation

variable {α : Type _} (score : α -> Option Int)

/-- The loop, with the best element so far and its score. -/
def firstBest : List α -> Option α × Int -> Option α
  | [], best => best.1
  | a :: rest, best =>
      match score a with
      | none => firstBest rest best
      | some accum =>
          if best.2 < accum then firstBest rest (some a, accum)
          else firstBest rest best

variable {score}

/-- What the loop leaves: the candidate that it was given, which no element
beats, or the first of the elements that no other one beats. -/
inductive FirstBestCase (score : α -> Option Int) (l : List α)
    (best : Option α × Int) : Option α -> Prop where
  | kept (h : forall a, a ∈ l -> forall m, score a = some m -> m <= best.2) :
      FirstBestCase score l best best.1
  | found (before after : List α) (r : α) (n : Int)
      (hl : l = before ++ r :: after) (hscore : score r = some n)
      (hbest : best.2 < n)
      (hbefore : forall a, a ∈ before -> forall m, score a = some m -> m < n)
      (hafter : forall a, a ∈ after -> forall m, score a = some m -> m <= n) :
      FirstBestCase score l best (some r)

theorem FirstBestCase.skip {l : List α} {best : Option α × Int}
    {result : Option α} {a : α}
    (h : FirstBestCase score l best result)
    (ha : forall m, score a = some m -> m <= best.2) :
    FirstBestCase score (a :: l) best result := by
  cases h with
  | kept hall => exact .kept (List.forall_mem_cons.2 ⟨ha, hall⟩)
  | found before after r n hl hscore hbest hbefore hafter =>
      refine .found (a :: before) after r n (congrArg (a :: ·) hl) hscore hbest
        (List.forall_mem_cons.2 ⟨?_, hbefore⟩) hafter
      intro m hm
      exact Int.lt_of_le_of_lt (ha m hm) hbest

theorem firstBest_cases (score : α -> Option Int) (l : List α)
    (best : Option α × Int) :
    FirstBestCase score l best (firstBest score l best) := by
  induction l generalizing best with
  | nil => exact .kept (List.forall_mem_nil _)
  | cons a rest ih =>
      unfold firstBest
      cases hscore : score a with
      | none =>
          refine (ih best).skip ?_
          intro m hm
          rw [hscore] at hm
          cases hm
      | some accum =>
          dsimp only
          by_cases hbetter : best.2 < accum
          · rw [if_pos hbetter]
            generalize hresult : firstBest score rest (some a, accum) = result
            cases hresult ▸ ih (some a, accum) with
            | kept hall =>
                exact .found [] rest a accum rfl hscore hbetter
                  (List.forall_mem_nil _) hall
            | found before after r n hl hr hbest hbefore hafter =>
                refine .found (a :: before) after r n (congrArg (a :: ·) hl) hr
                  (Int.lt_trans hbetter hbest)
                  (List.forall_mem_cons.2 ⟨?_, hbefore⟩) hafter
                intro m hm
                rw [hscore] at hm
                cases hm
                exact hbest
          · rw [if_neg hbetter]
            refine (ih best).skip ?_
            intro m hm
            rw [hscore] at hm
            cases hm
            exact Int.not_lt.1 hbetter

theorem firstBest_insert {a : α} (ha : score a = none) (before after : List α)
    (best : Option α × Int) :
    firstBest score (before ++ a :: after) best =
      firstBest score (before ++ after) best := by
  induction before generalizing best with
  | nil =>
      show firstBest score (a :: after) best = _
      rw [firstBest, ha]
      rfl
  | cons b rest ih =>
      show firstBest score (b :: (rest ++ a :: after)) best =
        firstBest score (b :: (rest ++ after)) best
      rw [firstBest, firstBest]
      cases score b with
      | none => exact ih best
      | some accum =>
          show (if best.2 < accum then _ else _) =
            if best.2 < accum then _ else _
          rw [ih, ih]

theorem firstBest_scored {l : List α} {best : Option α × Int} {r : α}
    (h : firstBest score l best = some r) :
    best.1 = some r ∨ (r ∈ l ∧ exists n, score r = some n) := by
  have hcase := firstBest_cases score l best
  generalize firstBest score l best = result at h hcase
  cases hcase with
  | kept _ => exact .inl h
  | found before after r' n hl hscore _ _ _ =>
      cases h
      refine .inr ⟨?_, n, hscore⟩
      rw [hl]
      exact List.mem_append_right before List.mem_cons_self

/-- An element that beats all others, and the candidate, is the result. -/
theorem firstBest_eq {l : List α} {best : Option α × Int} {r : α} {n : Int}
    (hmem : r ∈ l) (hscore : score r = some n) (hbest : best.2 < n)
    (hothers : forall a, a ∈ l -> a ≠ r -> forall m, score a = some m ->
      m < n) :
    firstBest score l best = some r := by
  have hcase := firstBest_cases score l best
  generalize firstBest score l best = result at hcase ⊢
  cases hcase with
  | kept hall =>
      exact absurd hbest (Int.not_lt.2 (hall r hmem n hscore))
  | found before after r' n' hl hscore' _ hbefore hafter =>
      by_contra hne
      have hr' : r' ∈ l := by
        rw [hl]
        exact List.mem_append_right before List.mem_cons_self
      have hlt := hothers r' hr' (fun heq => hne (congrArg some heq)) n' hscore'
      rw [hl] at hmem
      rcases List.mem_append.1 hmem with hfirst | hrest
      · have hlt' := hbefore r hfirst n hscore
        exact absurd hlt' (Int.not_lt.2 (Int.le_of_lt hlt))
      · rcases List.mem_cons.1 hrest with heq | hlast
        · exact hne (congrArg some heq.symm)
        · exact absurd hlt (Int.not_lt.2 (hafter r hlast n hscore))

end Foundation
end Velox
