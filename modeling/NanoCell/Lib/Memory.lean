import Mathlib.Algebra.Order.Ring.Int
import Mathlib.Logic.Function.Basic

/-!
# Memory around a pointer

A memory gives the value at every offset from a pointer, before it and after it. Values are loaded
from an offset on and stored in ranges; two ranges are exchanged through a temporary copy of one of
them.

## Main definitions

* `Memory.load m p`: the values of `m` from the offset `p` on
* `Memory.store m p n vs`: the memory after the first `n` of the values `vs` are stored at `p`
* `Memory.exchange m p q n`: the memory after `n` values at `p` and at `q` change places

## Main results

* `Memory.store_inside`, `Memory.store_outside`: what a store changes
* `Memory.exchange_apply`: an exchange moves every value to its other place
-/

/-- The values at the offsets from a pointer. -/
abbrev Memory (β : Type*) := ℤ → β

namespace Memory

variable {β : Type*} (m : Memory β)

/-- The values from the offset `p` on. -/
def load (p : ℤ) (k : ℕ) : β := m (p + k)

/-- The memory after the first `n` of the values `vs` are stored at the offset `p`. -/
def store (p : ℤ) (n : ℕ) (vs : ℕ → β) : Memory β :=
  fun a => if p ≤ a ∧ a < p + n then vs (a - p).toNat else m a

/-- The memory after `n` values at `p` and `n` values at `q` change places: those at `p` are saved,
overwritten with those at `q`, and then stored at `q`. -/
def exchange (p q : ℤ) (n : ℕ) : Memory β :=
  let saved := m.load p
  let m := m.store p n (m.load q)
  m.store q n saved

/-- Where an exchange takes the value at an offset from. -/
def exchanged (p q : ℤ) (n : ℕ) (a : ℤ) : ℤ :=
  if q ≤ a ∧ a < q + n then a - q + p else if p ≤ a ∧ a < p + n then a - p + q else a

variable {m} {p q a : ℤ} {n : ℕ}

theorem store_inside (vs : ℕ → β) (h : p ≤ a) (h' : a < p + n) :
    m.store p n vs a = vs (a - p).toNat := if_pos ⟨h, h'⟩

theorem store_outside (vs : ℕ → β) (h : a < p ∨ p + n ≤ a) : m.store p n vs a = m a :=
  if_neg (by omega)

theorem load_toNat (h : p ≤ a) (q : ℤ) : m.load q (a - p).toNat = m (a - p + q) := by
  rw [load, Int.toNat_of_nonneg (by omega), add_comm]

/-- **An exchange of two ranges** moves every value to its other place. -/
theorem exchange_apply (a : ℤ) :
    m.exchange p q n a = m (exchanged p q n a) := by
  unfold exchange exchanged
  by_cases hq : q ≤ a ∧ a < q + n
  · rw [if_pos hq, store_inside _ hq.1 hq.2, load_toNat hq.1]
  · rw [if_neg hq, store_outside _ (by omega)]
    by_cases hp : p ≤ a ∧ a < p + n
    · rw [if_pos hp, store_inside _ hp.1 hp.2, load_toNat hp.1]
    · rw [if_neg hp, store_outside _ (by omega)]

theorem exchanged_left (h : p ≤ a) (h' : a < p + n) (hq : a < q ∨ q + n ≤ a) :
    exchanged p q n a = a - p + q := by
  rw [exchanged, if_neg (by omega), if_pos ⟨h, h'⟩]

theorem exchanged_right (h : q ≤ a) (h' : a < q + n) : exchanged p q n a = a - q + p := by
  rw [exchanged, if_pos ⟨h, h'⟩]

theorem exchanged_outside (hp : a < p ∨ p + n ≤ a) (hq : a < q ∨ q + n ≤ a) :
    exchanged p q n a = a := by
  rw [exchanged, if_neg (by omega), if_neg (by omega)]

end Memory
