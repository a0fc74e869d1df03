import Mathlib.Data.List.Basic

/-!
# Runs of a partial step function

A system is given by a step function that is undefined on an action the
current state does not enable.  Invariants are proved for one step and carried
to whole runs by the rules of this module, for every run or for those runs
whose steps all meet a condition on the state before the step.
-/

namespace Velox
namespace Foundation

variable {state action : Type _}

/-- The state a list of actions leads to, if all of them are enabled in turn. -/
def run (step : state -> action -> Option state) :
    state -> List action -> Option state
  | s, [] => some s
  | s, a :: rest =>
      match step s a with
      | none => none
      | some s' => run step s' rest

/-- Every step of the run meets the condition in the state it starts from. -/
def StepsMeet (step : state -> action -> Option state)
    (Guard : state -> action -> Prop) : state -> List action -> Prop
  | _, [] => True
  | s, a :: rest =>
      Guard s a ∧
        match step s a with
        | none => True
        | some s' => StepsMeet step Guard s' rest

instance decidableStepsMeet (step : state -> action -> Option state)
    (Guard : state -> action -> Prop) [forall s a, Decidable (Guard s a)] :
    forall s actions, Decidable (StepsMeet step Guard s actions)
  | _, [] => isTrue trivial
  | s, a :: rest =>
      @instDecidableAnd (Guard s a) _ _
        (match step s a with
        | none => isTrue trivial
        | some s' => decidableStepsMeet step Guard s' rest)

variable {step : state -> action -> Option state}

theorem run_cons {s s' : state} {a : action} {rest : List action}
    (h : run step s (a :: rest) = some s') :
    exists mid, step s a = some mid ∧ run step mid rest = some s' := by
  unfold run at h
  cases hstep : step s a with
  | none =>
      rw [hstep] at h
      cases h
  | some mid =>
      rw [hstep] at h
      exact ⟨mid, rfl, h⟩

theorem run_of_step {s mid : state} {a : action} (h : step s a = some mid)
    (rest : List action) : run step s (a :: rest) = run step mid rest := by
  rw [run, h]

/-- What one step preserves under the condition, a run of such steps does. -/
theorem guardedRun_invariant {Guard : state -> action -> Prop}
    {Inv : state -> Prop}
    (hpres : forall s a s', Inv s -> Guard s a -> step s a = some s' -> Inv s')
    {s s' : state} {actions : List action} (hinit : Inv s)
    (hguard : StepsMeet step Guard s actions)
    (hrun : run step s actions = some s') : Inv s' := by
  induction actions generalizing s with
  | nil =>
      cases hrun
      exact hinit
  | cons a rest ih =>
      rcases run_cons hrun with ⟨mid, hstep, hrest⟩
      unfold StepsMeet at hguard
      rw [hstep] at hguard
      exact ih (hpres s a mid hinit hguard.left hstep) hguard.right hrest

theorem run_invariant {Inv : state -> Prop}
    (hpres : forall s a s', Inv s -> step s a = some s' -> Inv s')
    {s s' : state} {actions : List action} (hinit : Inv s)
    (hrun : run step s actions = some s') : Inv s' := by
  induction actions generalizing s with
  | nil =>
      cases hrun
      exact hinit
  | cons a rest ih =>
      rcases run_cons hrun with ⟨mid, hstep, hrest⟩
      exact ih (hpres s a mid hinit hstep) hrest

theorem run_append {s mid : state} {first : List action}
    (h : run step s first = some mid) (rest : List action) :
    run step s (first ++ rest) = run step mid rest := by
  induction first generalizing s with
  | nil =>
      cases h
      rfl
  | cons a more ih =>
      rcases run_cons h with ⟨next, hstep, hmore⟩
      rw [List.cons_append, run_of_step hstep]
      exact ih hmore

theorem run_split {s s' : state} {first rest : List action}
    (h : run step s (first ++ rest) = some s') :
    exists mid, run step s first = some mid ∧ run step mid rest = some s' := by
  induction first generalizing s with
  | nil => exact ⟨s, rfl, h⟩
  | cons a more ih =>
      rcases run_cons h with ⟨next, hstep, hmore⟩
      rcases ih hmore with ⟨mid, hfirst, hrest⟩
      exact ⟨mid, (run_of_step hstep more).trans hfirst, hrest⟩

theorem run_mono {more : state -> action -> Option state}
    (h : forall s a s', step s a = some s' -> more s a = some s')
    {s s' : state} {actions : List action}
    (hrun : run step s actions = some s') : run more s actions = some s' := by
  induction actions generalizing s with
  | nil => exact hrun
  | cons a rest ih =>
      rcases run_cons hrun with ⟨mid, hstep, hrest⟩
      exact (run_of_step (h s a mid hstep) rest).trans (ih hrest)

/-- A condition is exact for a fault that stays: steps under the condition
keep an invariant that excludes the fault, and a step against it causes the
fault.  Then a run ends without the fault exactly if all its steps meet the
condition. -/
theorem faultless_iff_stepsMeet {Guard : state -> action -> Prop}
    {Inv Fault : state -> Prop}
    (hpres : forall s a s', Inv s -> Guard s a -> step s a = some s' -> Inv s')
    (hexcl : forall s, Inv s -> ¬ Fault s)
    (hcause : forall s a s', Inv s -> ¬ Guard s a -> step s a = some s' ->
      Fault s')
    (hstays : forall s a s', Fault s -> step s a = some s' -> Fault s')
    {s s' : state} {actions : List action} (hinit : Inv s)
    (hrun : run step s actions = some s') :
    ¬ Fault s' <-> StepsMeet step Guard s actions := by
  constructor
  · intro hfree
    induction actions generalizing s with
    | nil => trivial
    | cons a rest ih =>
        rcases run_cons hrun with ⟨mid, hstep, hrest⟩
        by_cases hguard : Guard s a
        · refine ⟨hguard, ?_⟩
          rw [hstep]
          exact ih (hpres s a mid hinit hguard hstep) hrest
        · have hfault := hcause s a mid hinit hguard hstep
          exact absurd (run_invariant hstays hfault hrest) hfree
  · intro hmeet
    exact hexcl s' (guardedRun_invariant hpres hinit hmeet hrun)

/-- A condition is exact for a property of all states of a run: steps under
the condition keep an invariant that gives the property, and a step against it
leads to a state without the property. -/
theorem prefixes_iff_stepsMeet {Guard : state -> action -> Prop}
    {Inv Holds : state -> Prop}
    (hpres : forall s a s', Inv s -> Guard s a -> step s a = some s' -> Inv s')
    (hholds : forall s, Inv s -> Holds s)
    (hcause : forall s a, Inv s -> ¬ Guard s a ->
      exists s', step s a = some s' ∧ ¬ Holds s')
    {s : state} {actions : List action} (hinit : Inv s) :
    (forall n s', run step s (actions.take n) = some s' -> Holds s') <->
      StepsMeet step Guard s actions := by
  constructor
  · intro hall
    induction actions generalizing s with
    | nil => trivial
    | cons a rest ih =>
        by_cases hguard : Guard s a
        · refine ⟨hguard, ?_⟩
          cases hstep : step s a with
          | none => trivial
          | some mid =>
              apply ih (hpres s a mid hinit hguard hstep)
              intro n s' hrun
              apply hall (n + 1) s'
              rw [List.take_succ_cons, run_of_step hstep]
              exact hrun
        · rcases hcause s a hinit hguard with ⟨mid, hstep, hnot⟩
          refine absurd (hall 1 mid ?_) hnot
          rw [List.take_succ_cons, run_of_step hstep]
          rfl
  · intro hmeet
    induction actions generalizing s with
    | nil =>
        intro n s' hrun
        rw [List.take_nil] at hrun
        cases hrun
        exact hholds s hinit
    | cons a rest ih =>
        intro n s' hrun
        cases n with
        | zero =>
            cases hrun
            exact hholds s hinit
        | succ n =>
            rw [List.take_succ_cons] at hrun
            rcases run_cons hrun with ⟨mid, hstep, hrest⟩
            unfold StepsMeet at hmeet
            rw [hstep] at hmeet
            exact ih (hpres s a mid hinit hmeet.left hstep) hmeet.right n s'
              hrest

theorem stepsMeet_of_append {Guard : state -> action -> Prop}
    {s mid : state} {first rest : List action}
    (hfirst : run step s first = some mid)
    (hmeet : StepsMeet step Guard s (first ++ rest)) :
    StepsMeet step Guard mid rest := by
  induction first generalizing s with
  | nil =>
      cases hfirst
      exact hmeet
  | cons a others ih =>
      rcases run_cons hfirst with ⟨next, hstep, hothers⟩
      rw [List.cons_append, StepsMeet, hstep] at hmeet
      exact ih hothers hmeet.right

/-- Two conditions on steps agree along a run if they agree, for the actions
of the run, wherever the invariant holds that one of them keeps. -/
theorem stepsMeet_congr_of_mem {Guard Check : state -> action -> Prop}
    {Inv : state -> Prop} {s : state} {actions : List action}
    (hpres : forall s a s', a ∈ actions -> Inv s -> Guard s a ->
      step s a = some s' -> Inv s')
    (hiff : forall s a, a ∈ actions -> Inv s -> (Check s a <-> Guard s a))
    (hinit : Inv s) :
    StepsMeet step Check s actions <-> StepsMeet step Guard s actions := by
  induction actions generalizing s with
  | nil => exact Iff.rfl
  | cons a rest ih =>
      have hrest : forall b, b ∈ rest -> b ∈ a :: rest :=
        fun b hb => List.mem_cons_of_mem a hb
      unfold StepsMeet
      rw [hiff s a (List.mem_cons_self ..) hinit]
      refine and_congr_right ?_
      intro hguard
      cases hstep : step s a with
      | none => exact Iff.rfl
      | some mid =>
          exact ih (fun s b s' hb => hpres s b s' (hrest b hb))
            (fun s b hb => hiff s b (hrest b hb))
            (hpres s a mid (List.mem_cons_self ..) hinit hguard hstep)

theorem stepsMeet_congr {Guard Check : state -> action -> Prop}
    {Inv : state -> Prop} {s : state} {actions : List action}
    (hpres : forall s a s', Inv s -> Guard s a -> step s a = some s' -> Inv s')
    (hiff : forall s a, Inv s -> (Check s a <-> Guard s a))
    (hinit : Inv s) :
    StepsMeet step Check s actions <-> StepsMeet step Guard s actions :=
  stepsMeet_congr_of_mem (fun s a s' _ => hpres s a s') (fun s a _ => hiff s a)
    hinit

theorem stepsMeet_and {Guard Check : state -> action -> Prop} {s : state}
    {actions : List action} :
    StepsMeet step (fun s a => Guard s a ∧ Check s a) s actions <->
      (StepsMeet step Guard s actions ∧ StepsMeet step Check s actions) := by
  induction actions generalizing s with
  | nil => exact ⟨fun _ => ⟨trivial, trivial⟩, fun _ => trivial⟩
  | cons a rest ih =>
      unfold StepsMeet
      cases hstep : step s a with
      | none =>
          constructor
          · intro h
            exact ⟨⟨h.left.left, trivial⟩, h.left.right, trivial⟩
          · intro h
            exact ⟨⟨h.left.left, h.right.left⟩, trivial⟩
      | some mid =>
          constructor
          · intro h
            have hrest := ih.1 h.right
            exact ⟨⟨h.left.left, hrest.left⟩, h.left.right, hrest.right⟩
          · intro h
            exact ⟨⟨h.left.left, h.right.left⟩,
              ih.2 ⟨h.left.right, h.right.right⟩⟩

/-- Some run whose actions are all of one kind leads from the one state to
the other. -/
def Leads (step : state -> action -> Option state) (Kind : action -> Prop)
    (s s' : state) : Prop :=
  exists actions, (forall a, a ∈ actions -> Kind a) ∧
    run step s actions = some s'

namespace Leads

variable {Kind : action -> Prop} {s mid s' : state}

theorem refl (s : state) : Leads step Kind s s :=
  ⟨[], List.forall_mem_nil _, rfl⟩

theorem cons {a : action} (ha : Kind a) (hstep : step s a = some mid)
    (h : Leads step Kind mid s') : Leads step Kind s s' := by
  rcases h with ⟨actions, hkind, hrun⟩
  exact ⟨a :: actions, List.forall_mem_cons.2 ⟨ha, hkind⟩,
    (run_of_step hstep actions).trans hrun⟩

theorem trans (h : Leads step Kind s mid) (h' : Leads step Kind mid s') :
    Leads step Kind s s' := by
  rcases h with ⟨first, hfirst, hrun⟩
  rcases h' with ⟨rest, hrest, hrun'⟩
  exact ⟨first ++ rest, List.forall_mem_append.2 ⟨hfirst, hrest⟩,
    (run_append hrun rest).trans hrun'⟩

end Leads

end Foundation
end Velox
