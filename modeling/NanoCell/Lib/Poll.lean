import Mathlib.Order.Nat

/-!
# Loops that poll a device

A driver waits for a device in a counted loop: each turn reads a register once, and the loop ends
early when a value is accepted. The loop is given by its counter, whatever type it has and whichever
way it runs; how often the register is read depends only on how many turns the counter allows.

## Main definitions

* `LoopCounter`: the counter of a loop, with the number of turns it allows
* `LoopCounter.poll`: the number of reads of a polling loop
* `Stops turns done n`: `n` reads are what at most `turns` turns take

## Main results

* `LoopCounter.poll_stops`: a polling loop takes the turns of its counter, or stops at the first
  value that is accepted
* `Stops.iff_of_lt`: when a loop stops as soon as one with fewer turns would
-/

/-- The counter of a loop: the condition under which the loop goes on, the step of the counter, and
the number of turns it allows from each value. -/
structure LoopCounter (ι : Type*) where
  more : ι → Bool
  next : ι → ι
  turns : ι → ℕ
  turns_of_more : ∀ i, more i = true → turns i = turns (next i) + 1
  turns_of_not_more : ∀ i, more i = false → turns i = 0

/-- With at most `turns` turns, `n` values are read: none but the last is accepted, and the last one
is if turns are left. -/
structure Stops (turns : ℕ) (done : ℕ → Bool) (n : ℕ) : Prop where
  le : n ≤ turns
  before : ∀ k, k + 1 < n → done k = false
  last : n < turns → ∃ k, n = k + 1 ∧ done k = true

namespace LoopCounter

variable {ι : Type*} (c : LoopCounter ι) (done : ℕ → Bool)

/-- The number of reads of the loop, entered with the counter `i` after `n` reads. The value of the
read number `n` is accepted if `done n`. -/
def poll (i : ι) (n : ℕ) : ℕ :=
  if c.more i = true then if done n = true then n + 1 else poll (c.next i) (n + 1) else n
termination_by c.turns i
decreasing_by
  rename_i hmore _
  have := c.turns_of_more i hmore
  omega

/-- The reads of a loop that was entered after `n` reads. -/
theorem poll_spec (i : ι) (n : ℕ) :
    n ≤ c.poll done i n ∧ c.poll done i n ≤ n + c.turns i ∧
      (∀ k, n ≤ k → k + 1 < c.poll done i n → done k = false) ∧
      (c.poll done i n < n + c.turns i →
        ∃ k, n ≤ k ∧ c.poll done i n = k + 1 ∧ done k = true) := by
  fun_induction poll c done i n with
  | case1 i n hmore hdone =>
    have hturns := c.turns_of_more i hmore
    exact ⟨by omega, by omega, fun k hk hlt => by omega, fun _ => ⟨n, le_rfl, rfl, hdone⟩⟩
  | case2 i n hmore hdone ih =>
    have hturns := c.turns_of_more i hmore
    obtain ⟨hge, hle, hbefore, hlast⟩ := ih
    refine ⟨by omega, by omega, ?_, ?_⟩
    · intro k hk hlt
      rcases Nat.eq_or_lt_of_le hk with rfl | hk
      · exact Bool.not_eq_true _ ▸ hdone
      · exact hbefore k hk hlt
    · intro hlt
      obtain ⟨k, hk, he, hd⟩ := hlast (by omega)
      exact ⟨k, by omega, he, hd⟩
  | case3 i n hmore =>
    have hturns := c.turns_of_not_more i (Bool.not_eq_true _ ▸ hmore)
    exact ⟨le_rfl, by omega, fun k hk hlt => by omega, fun hlt => by omega⟩

/-- **A polling loop** takes the turns of its counter, or stops at the first accepted value. -/
theorem poll_stops (i : ι) : Stops (c.turns i) done (c.poll done i 0) := by
  obtain ⟨-, hle, hbefore, hlast⟩ := c.poll_spec done i 0
  refine ⟨by omega, fun k => hbefore k (Nat.zero_le k), ?_⟩
  intro hlt
  obtain ⟨k, -, he, hd⟩ := hlast (by omega)
  exact ⟨k, he, hd⟩

end LoopCounter

section Stops

variable {turns fewer n : ℕ} {done : ℕ → Bool}

/-- The values determine the number of reads. -/
theorem Stops.unique {m : ℕ} (h : Stops turns done n) (h' : Stops turns done m) : n = m := by
  have hlt : ∀ {n m : ℕ}, Stops turns done n → Stops turns done m → ¬ n < m := by
    intro n m h h' hlt
    have hle := h'.le
    obtain ⟨k, rfl, hd⟩ := h.last (by omega)
    rw [h'.before k hlt] at hd
    cases hd
  exact le_antisymm (not_lt.mp (hlt h' h)) (not_lt.mp (hlt h h'))

/-- A loop stops within fewer turns than it has exactly when one of as many values is accepted. -/
theorem Stops.iff_of_lt (h : Stops turns done n) (hlt : fewer < turns) :
    Stops fewer done n ↔ ∃ k < fewer, done k = true := by
  constructor
  · intro h'
    have hle := h'.le
    obtain ⟨k, rfl, hd⟩ := h.last (by omega)
    exact ⟨k, by omega, hd⟩
  · rintro ⟨k, hk, hd⟩
    have hle : n ≤ k + 1 := by
      by_contra hgt
      rw [h.before k (by omega)] at hd
      cases hd
    exact ⟨by omega, h.before, fun hn => h.last (by omega)⟩

/-- Without an accepted value a loop takes all its turns. -/
theorem Stops.eq_turns (h : Stops turns done n) (hnever : ∀ k, done k = false) : n = turns := by
  apply le_antisymm h.le
  by_contra hlt
  obtain ⟨k, -, hd⟩ := h.last (by omega)
  rw [hnever k] at hd
  cases hd

end Stops
