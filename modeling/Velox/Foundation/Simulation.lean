import Velox.Foundation.Runs

/-!
# Simulations between step functions

A fine system takes several steps where a coarse one takes a single step.  If
every fine step is matched by some coarse steps, none of them included, and the
related states stay related, then every fine run has a coarse run beside it.
-/

namespace Velox
namespace Foundation

variable {fine coarse act move : Type _}
  {step : fine -> act -> Option fine}
  {coarseStep : coarse -> move -> Option coarse}

/-- A step of the fine system is matched by a run of the coarse one. -/
def Simulates (step : fine -> act -> Option fine)
    (coarseStep : coarse -> move -> Option coarse)
    (Rel : fine -> coarse -> Prop) : Prop :=
  forall s t a s', Rel s t -> step s a = some s' ->
    exists moves t', run coarseStep t moves = some t' ∧ Rel s' t'

theorem Simulates.run {Rel : fine -> coarse -> Prop}
    (hsim : Simulates step coarseStep Rel) {s s' : fine} {t : coarse}
    {actions : List act} (hrel : Rel s t)
    (hrun : Foundation.run step s actions = some s') :
    exists moves t', Foundation.run coarseStep t moves = some t' ∧
      Rel s' t' := by
  induction actions generalizing s t with
  | nil =>
      cases hrun
      exact ⟨[], t, rfl, hrel⟩
  | cons a rest ih =>
      rcases run_cons hrun with ⟨mid, hstep, hrest⟩
      rcases hsim s t a mid hrel hstep with ⟨first, u, hfirst, hmid⟩
      rcases ih hmid hrest with ⟨more, t', hmore, hend⟩
      exact ⟨first ++ more, t', (run_append hfirst more).trans hmore, hend⟩

/-- A fine step the coarse system does not see. -/
theorem unmatched {Rel : fine -> coarse -> Prop} {s' : fine} {t : coarse}
    (h : Rel s' t) :
    exists moves t', Foundation.run coarseStep t moves = some t' ∧
      Rel s' t' :=
  ⟨[], t, rfl, h⟩

/-- A fine step at which the coarse system takes one step. -/
theorem matched {Rel : fine -> coarse -> Prop} {s' : fine} {t t' : coarse}
    {m : move} (hstep : coarseStep t m = some t') (h : Rel s' t') :
    exists moves t', Foundation.run coarseStep t moves = some t' ∧
      Rel s' t' :=
  ⟨[m], t', run_of_step hstep [], h⟩

end Foundation
end Velox
