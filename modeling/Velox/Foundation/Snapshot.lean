import Velox.Foundation.Runs

/-!
# Loops over a snapshot

A loop takes a list of registered items and works through it, while other
steps may come between.  What a step does can unregister items that are still
on the list.  The items that the loop reaches are all registered exactly if no
step unregisters an item that is still to come.
-/

namespace Velox
namespace Foundation

variable {state action item : Type _}

/-- The items that are still to come after a step; `calls` tells which steps
take the next one. -/
def upcoming (pending : state -> List item) (calls : action -> Bool)
    (s : state) (a : action) : List item :=
  if calls a then (pending s).tail else pending s

/-- `pending` is the rest of the list, whose first item is the next one;
`removes` tells what a step unregisters. -/
structure SnapshotLoop (step : state -> action -> Option state)
    (pending : state -> List item) (calls : action -> Bool)
    (registered : state -> item -> Prop)
    (removes : state -> action -> item -> Prop) (Inv : state -> Prop) :
    Prop where
  keeps : forall s a s', Inv s -> step s a = some s' -> Inv s'
  /-- A step makes a new list, of registered items, or leaves the rest. -/
  takes : forall s a s', Inv s -> step s a = some s' ->
    (pending s = [] ∧ forall h, h ∈ pending s' -> registered s' h) ∨
      pending s' = upcoming pending calls s a
  registers : forall s a s' h, Inv s -> step s a = some s' ->
    h ∈ upcoming pending calls s a ->
    (registered s' h <-> registered s h ∧ ¬ removes s a h)

/-- A step that takes the next item finds it registered. -/
def Reaches (pending : state -> List item) (calls : action -> Bool)
    (registered : state -> item -> Prop) (s : state) (a : action) : Prop :=
  calls a = true -> forall x, (pending s).head? = some x -> registered s x

/-- The step unregisters none of the items that are still to come. -/
def Spares (pending : state -> List item) (calls : action -> Bool)
    (removes : state -> action -> item -> Prop) (s : state) (a : action) :
    Prop :=
  forall h, h ∈ upcoming pending calls s a -> ¬ removes s a h

namespace SnapshotLoop

variable {step : state -> action -> Option state}
  {pending : state -> List item} {calls : action -> Bool}
  {registered : state -> item -> Prop}
  {removes : state -> action -> item -> Prop} {Inv : state -> Prop}
  (loop : SnapshotLoop step pending calls registered removes Inv)

theorem mem_of_mem_upcoming {s : state} {a : action} {h : item}
    (hmem : h ∈ upcoming pending calls s a) : h ∈ pending s := by
  unfold upcoming at hmem
  split at hmem
  · exact List.mem_of_mem_tail hmem
  · exact hmem

include loop

theorem mem_pending {s s' : state} {a : action} {h : item} (hinv : Inv s)
    (hstep : step s a = some s') (hmem : h ∈ upcoming pending calls s a) :
    h ∈ pending s' := by
  rcases loop.takes s a s' hinv hstep with ⟨hnil, _⟩ | hrest
  · have hpending := mem_of_mem_upcoming hmem
    rw [hnil] at hpending
    cases hpending
  · rw [hrest]
    exact hmem

/-- An item that is no longer registered is reached in the end. -/
theorem not_reaches_of_lost {s s' : state} {actions : List action} {h : item}
    (hinv : Inv s) (hpending : h ∈ pending s) (hlost : ¬ registered s h)
    (hrun : run step s actions = some s') (hdone : pending s' = []) :
    ¬ StepsMeet step (Reaches pending calls registered) s actions := by
  induction actions generalizing s with
  | nil =>
      cases hrun
      rw [hdone] at hpending
      cases hpending
  | cons a rest ih =>
      rcases run_cons hrun with ⟨mid, hstep, hrest⟩
      intro hmeet
      unfold StepsMeet at hmeet
      rw [hstep] at hmeet
      have hlater : h ∈ upcoming pending calls s a -> False := by
        intro hmem
        have hmid : ¬ registered mid h := fun hreg =>
          hlost ((loop.registers s a mid h hinv hstep hmem).1 hreg).left
        exact ih (loop.keeps s a mid hinv hstep)
          (loop.mem_pending hinv hstep hmem) hmid hrest hmeet.right
      cases hcalls : calls a with
      | false =>
          apply hlater
          rw [upcoming, hcalls]
          exact hpending
      | true =>
          rw [upcoming, hcalls, if_pos rfl] at hlater
          cases hlist : pending s with
          | nil =>
              rw [hlist] at hpending
              cases hpending
          | cons x behind =>
              rw [hlist] at hpending hlater
              rcases List.mem_cons.1 hpending with rfl | hbehind
              · apply hlost
                apply hmeet.left hcalls
                rw [hlist]
                rfl
              · exact hlater hbehind

theorem registered_of_spares {s s' : state} {a : action} (hinv : Inv s)
    (hall : forall h, h ∈ pending s -> registered s h)
    (hspares : Spares pending calls removes s a)
    (hstep : step s a = some s') :
    forall h, h ∈ pending s' -> registered s' h := by
  rcases loop.takes s a s' hinv hstep with ⟨_, hnew⟩ | hrest
  · exact hnew
  · intro h hh
    rw [hrest] at hh
    apply (loop.registers s a s' h hinv hstep hh).2
    exact ⟨hall h (mem_of_mem_upcoming hh), hspares h hh⟩

theorem reaches_iff_spares {s s' : state} {actions : List action}
    (hinv : Inv s) (hall : forall h, h ∈ pending s -> registered s h)
    (hrun : run step s actions = some s') (hdone : pending s' = []) :
    StepsMeet step (Reaches pending calls registered) s actions <->
      StepsMeet step (Spares pending calls removes) s actions := by
  induction actions generalizing s with
  | nil => exact Iff.rfl
  | cons a rest ih =>
      rcases run_cons hrun with ⟨mid, hstep, hrest⟩
      have hmid := loop.keeps s a mid hinv hstep
      have hreaches : Reaches pending calls registered s a := fun _ x hx =>
        hall x (List.mem_of_mem_head? hx)
      unfold StepsMeet
      rw [hstep]
      constructor
      · intro hmeet
        have hspares : Spares pending calls removes s a := by
          intro h hmem hremoved
          have hlost : ¬ registered mid h := fun hreg =>
            ((loop.registers s a mid h hinv hstep hmem).1 hreg).right hremoved
          exact loop.not_reaches_of_lost hmid
            (loop.mem_pending hinv hstep hmem) hlost hrest hdone hmeet.right
        have hall' := loop.registered_of_spares hinv hall hspares hstep
        exact ⟨hspares, (ih hmid hall' hrest).1 hmeet.right⟩
      · intro hmeet
        have hall' := loop.registered_of_spares hinv hall hmeet.left hstep
        exact ⟨hreaches, (ih hmid hall' hrest).2 hmeet.right⟩

end SnapshotLoop

end Foundation
end Velox
