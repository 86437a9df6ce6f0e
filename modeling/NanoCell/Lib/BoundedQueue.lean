import Mathlib.Algebra.GroupWithZero.Nat
import Mathlib.Order.MinMax
import NanoCell.Lib.Transition

/-!
# Bounded queues whose places are returned later

A queue over `n` places. An item that arrives takes a place, if there is one. A service takes items
from the head of the queue, as many as its budget allows; the places of the items that were served
are returned in their order, all of them when the service finds plenty of what it takes, else
perhaps later.

## Main definitions

* `BoundedQueue`, `BoundedQueue.Step`: the queue, and what an event does to it
* `BoundedQueue.Ok`: the order of the three counters

## Main results

* `Step.ok`, `steps_ok`: the counters keep their order
* `steps_serve`: services alone take the items that their budgets add up to
* `returned_of_plenty`: the last of them returns every place when it finds plenty
-/

open Transition

/-- The items that have arrived, how many of them were served, and of how many the places were
returned. -/
structure BoundedQueue (α : Type*) where
  items : List α
  served : ℕ
  returned : ℕ

namespace BoundedQueue

variable {α : Type*} {n : ℕ} {q q' : BoundedQueue α}

/-- An arrival, or a service, which may find plenty. -/
inductive Event (α : Type*) where
  | arrive (a : α)
  | serve (budget : ℕ) (plenty : Prop)

/-- The queue without items. -/
def empty : BoundedQueue α := ⟨[], 0, 0⟩

/-- How far a service with this budget gets. -/
def reach (q : BoundedQueue α) (budget : ℕ) : ℕ := min q.items.length (q.served + budget)

/-- What an event does to a queue over `n` places. -/
inductive Step (n : ℕ) (q : BoundedQueue α) : Event α → BoundedQueue α → Prop
  | arrive (a : α) : q.items.length < q.returned + n →
      Step n q (.arrive a) { q with items := q.items ++ [a] }
  | serve (budget : ℕ) (plenty : Prop) (m : ℕ) : q.returned ≤ m → m ≤ q.reach budget →
      (plenty → m = q.reach budget) →
      Step n q (.serve budget plenty) { q with served := q.reach budget, returned := m }

/-- The counters are in order, and the items that hold a place have one. -/
structure Ok (n : ℕ) (q : BoundedQueue α) : Prop where
  returned_le : q.returned ≤ q.served
  served_le : q.served ≤ q.items.length
  room : q.items.length ≤ q.returned + n

theorem ok_empty : Ok n (empty : BoundedQueue α) := ⟨le_rfl, le_rfl, by simp [empty]⟩

theorem Step.ok {e : Event α} (h : Step n q e q') (hq : Ok n q) : Ok n q' := by
  obtain ⟨hret, hserved, hroom⟩ := hq
  cases h with
  | arrive a hlt =>
    refine ⟨hret, ?_, ?_⟩
    · simp only [List.length_append, List.length_singleton]
      omega
    · simp only [List.length_append, List.length_singleton]
      omega
  | serve budget plenty m hle hreach _ => exact ⟨hreach, min_le_left _ _, by dsimp only; omega⟩

theorem steps_ok {es : List (Event α)} (h : Steps (Step n) q es q') (hq : Ok n q) : Ok n q' :=
  h.induct (fun _ _ _ hstep hq => hstep.ok hq) hq

/-- **Services alone** take the items that their budgets add up to, or all. -/
theorem steps_serve {bs : List (ℕ × Prop)} (hq : Ok n q)
    (h : Steps (Step n) q (bs.map fun b => .serve b.1 b.2) q') :
    q'.items = q.items ∧
      q'.served = min q.items.length (q.served + (bs.map fun b => b.1).sum) := by
  induction bs generalizing q with
  | nil =>
    cases h
    refine ⟨rfl, ?_⟩
    have := hq.served_le
    simp only [List.map_nil, List.sum_nil]
    omega
  | cons b bs ih =>
    cases h with
    | cons hstep hrest =>
      obtain ⟨hitems, hserved⟩ := ih (hstep.ok hq) hrest
      cases hstep with
      | serve budget plenty m hle hreach _ =>
        refine ⟨hitems, ?_⟩
        simp only [reach, List.map_cons, List.sum_cons] at hserved ⊢
        omega

/-- A service that finds plenty returns the place of every item that was served. -/
theorem returned_of_plenty {es : List (Event α)} {budget : ℕ} {plenty : Prop}
    (h : Steps (Step n) q (es ++ [.serve budget plenty]) q') (hplenty : plenty) :
    q'.returned = q'.served := by
  obtain ⟨u, -, hlast⟩ := steps_append.mp h
  cases hlast with
  | cons hstep hrest =>
    cases hrest
    cases hstep with
    | serve _ _ m _ _ hm => exact hm hplenty

end BoundedQueue
