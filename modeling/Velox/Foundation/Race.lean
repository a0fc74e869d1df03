import Velox.Foundation.Runs

/-!
# A reader beside a writer

One thread has a list of writes to a shared state, another reads the state and
goes on according to what it finds; a scheduler interleaves them.  What the
reader has seen is a matter of how much had been written at each of its reads,
so the rules of this module speak of prefixes of the writes.
-/

namespace Velox
namespace Foundation

/-- The shared state, the writes to come and the point of the reader. -/
structure Race (shared write reader : Type _) where
  state : shared
  writes : List write
  point : reader

inductive Side where
  | writer
  | reader
  deriving DecidableEq

namespace Race

variable {shared write reader : Type _} (put : shared -> write -> shared)
  (get : shared -> reader -> reader)

def step (r : Race shared write reader) :
    Side -> Option (Race shared write reader)
  | .writer =>
      match r.writes with
      | [] => none
      | w :: rest => some { r with state := put r.state w, writes := rest }
  | .reader => some { r with point := get r.state r.point }

def Reaches (r r' : Race shared write reader) : Prop :=
  exists schedule, run (step put get) r schedule = some r'

variable {put get} {s : shared} {ws : List write} {p : reader}

/-!
## What every schedule keeps
-/

/-- What has been seen after some of the writes: a read keeps it, and one
more write does. -/
structure Keeps (put : shared -> write -> shared)
    (get : shared -> reader -> reader) (s : shared) (ws : List write)
    (Saw : List write -> reader -> Prop) : Prop where
  read : forall done p, done <+: ws -> Saw done p ->
    Saw done (get (done.foldl put s) p)
  write : forall done w p, done ++ [w] <+: ws -> Saw done p ->
    Saw (done ++ [w]) p

/-- The state is that after some of the writes, and the reader has seen what
can be seen by then. -/
def Along (put : shared -> write -> shared) (s : shared) (ws : List write)
    (Saw : List write -> reader -> Prop)
    (r : Race shared write reader) : Prop :=
  exists done, ws = done ++ r.writes ∧ r.state = done.foldl put s ∧
    Saw done r.point

theorem Keeps.step {Saw : List write -> reader -> Prop}
    (h : Keeps put get s ws Saw) {r r' : Race shared write reader} {side : Side}
    (halong : Along put s ws Saw r)
    (hstep : r.step put get side = some r') : Along put s ws Saw r' := by
  rcases r with ⟨state, writes, point⟩
  rcases halong with ⟨done, hws, hstate, hsaw⟩
  dsimp only at hws hstate hsaw
  cases side with
  | writer =>
      cases writes with
      | nil => cases hstep
      | cons w rest =>
          cases hstep
          have hmore : ws = done ++ [w] ++ rest := by
            rw [hws, List.append_assoc]
            rfl
          refine ⟨done ++ [w], hmore, ?_,
            h.write done w point ⟨rest, hmore.symm⟩ hsaw⟩
          rw [List.foldl_append, hstate]
          rfl
  | reader =>
      cases hstep
      refine ⟨done, hws, hstate, ?_⟩
      rw [hstate]
      exact h.read done point ⟨writes, hws.symm⟩ hsaw

theorem Keeps.run {Saw : List write -> reader -> Prop}
    (h : Keeps put get s ws Saw) (hstart : Saw [] p) {schedule : List Side}
    {r : Race shared write reader}
    (hrun : Foundation.run (Race.step put get) ⟨s, ws, p⟩ schedule = some r) :
    Along put s ws Saw r :=
  run_invariant (fun _ _ _ halong hstep => h.step halong hstep)
    ⟨[], rfl, rfl, hstart⟩ hrun

/-- What a field holds after some of the writes is what was written to it
last. -/
theorem getElem?_written {value : Type _} (field : shared -> value)
    {written : write -> Option value}
    (h : forall s w, field (put s w) = (written w).getD (field s))
    (s : shared) (done rest : List write) :
    (field s :: (done ++ rest).filterMap written)[
        (done.filterMap written).length]? =
      some (field (done.foldl put s)) := by
  induction done generalizing s with
  | nil => rfl
  | cons w more ih =>
      have hmore := ih (put s w)
      rw [h] at hmore
      cases hw : written w with
      | none =>
          rw [hw, Option.getD_none] at hmore
          rw [List.cons_append, List.filterMap_cons_none hw,
            List.filterMap_cons_none hw]
          exact hmore
      | some a =>
          rw [hw, Option.getD_some] at hmore
          rw [List.cons_append, List.filterMap_cons_some hw,
            List.filterMap_cons_some hw]
          exact hmore

/-!
## What some schedule reaches
-/

theorem Reaches.refl (r : Race shared write reader) : Reaches put get r r :=
  ⟨[], rfl⟩

theorem Reaches.trans {r₁ r₂ r₃ : Race shared write reader}
    (h₁ : Reaches put get r₁ r₂) (h₂ : Reaches put get r₂ r₃) :
    Reaches put get r₁ r₃ := by
  rcases h₁ with ⟨first, hfirst⟩
  rcases h₂ with ⟨rest, hrest⟩
  exact ⟨first ++ rest, (run_append hfirst rest).trans hrest⟩

theorem reaches_put (first rest : List write) :
    Reaches put get ⟨s, first ++ rest, p⟩ ⟨first.foldl put s, rest, p⟩ := by
  induction first generalizing s with
  | nil => exact Reaches.refl _
  | cons w more ih =>
      have hone : Reaches put get ⟨s, w :: more ++ rest, p⟩
          ⟨put s w, more ++ rest, p⟩ := ⟨[.writer], rfl⟩
      exact hone.trans ih

theorem reaches_get {p' : reader} (h : get s p = p') :
    Reaches put get ⟨s, ws, p⟩ ⟨s, ws, p'⟩ := by
  subst h
  exact ⟨[.reader], rfl⟩

end Race

end Foundation
end Velox
