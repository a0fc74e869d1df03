import Mathlib.Data.List.Basic

/-!
# A line that keeps the order

A sender cuts a stream into pieces and numbers each of them by the place where
it starts; a line carries the pieces and keeps their order.  The numbers may
wrap: all that is known of them is how they advance.
-/

namespace Velox
namespace Foundation

/-- How pieces of type `π` are numbered, and which part of the stream each of
them carries. -/
structure Numbering (π ν α : Type _) where
  number : π -> ν
  content : π -> List α
  advance : ν -> Nat -> ν
  advance_zero : forall n, advance n 0 = n
  advance_add : forall n a b, advance (advance n a) b = advance n (a + b)

namespace Numbering

variable {π ν α : Type _} (c : Numbering π ν α)

/-- The first piece has the number `n`, every other the number at which the
one before it ends. -/
def Consecutive (n : ν) : List π -> Prop
  | [] => True
  | p :: rest =>
      c.number p = n ∧ Consecutive (c.advance n (c.content p).length) rest

/-- The line holds the part of the stream that has not been received, and the
numbers begin at `base`. -/
structure InFlight (base : ν) (sent received : List α) (line : List π) :
    Prop where
  content : sent = received ++ line.flatMap c.content
  numbers : c.Consecutive (c.advance base received.length) line

variable {c}

theorem Consecutive.snoc {n : ν} {line : List π} {p : π}
    (h : c.Consecutive n line)
    (hp : c.number p = c.advance n (line.flatMap c.content).length) :
    c.Consecutive n (line ++ [p]) := by
  induction line generalizing n with
  | nil => exact ⟨hp.trans (c.advance_zero n), trivial⟩
  | cons q rest ih =>
      refine ⟨h.1, ih h.2 ?_⟩
      rw [hp, c.advance_add, List.flatMap_cons, List.length_append]

namespace InFlight

variable {base : ν} {sent received : List α} {line : List π} {p : π}

theorem empty : c.InFlight base [] [] [] :=
  ⟨rfl, trivial⟩

theorem push (h : c.InFlight base sent received line)
    (hp : c.number p = c.advance base sent.length) :
    c.InFlight base (sent ++ c.content p) received (line ++ [p]) where
  content := by
    rw [h.content, List.flatMap_append, List.append_assoc,
      List.flatMap_singleton]
  numbers := by
    apply h.numbers.snoc
    rw [hp, c.advance_add, h.content, List.length_append]

theorem number_eq (h : c.InFlight base sent received (p :: line)) :
    c.number p = c.advance base received.length :=
  h.numbers.1

theorem pop (h : c.InFlight base sent received (p :: line)) :
    c.InFlight base sent (received ++ c.content p) line where
  content := by
    rw [h.content, List.flatMap_cons, List.append_assoc]
  numbers := by
    rw [List.length_append, ← c.advance_add]
    exact h.numbers.2

theorem arrived (h : c.InFlight base sent received []) : sent = received := by
  rw [h.content, List.flatMap_nil, List.append_nil]

end InFlight

end Numbering

end Foundation
end Velox
