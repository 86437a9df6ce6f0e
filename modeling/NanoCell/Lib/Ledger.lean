import Mathlib.Data.Multiset.Filter
import Mathlib.Data.Multiset.Bind
import Mathlib.Data.Finset.Basic
import Mathlib.Data.Fintype.Card
import Mathlib.Tactic.Abel

/-!
# Ledgers of acquired and released resources

A ledger records what was acquired, what was released and what is live. `Ledger.Holds l₀ l held`
says that since `l₀` everything acquired was released exactly once, `held` excepted, which is
still live. An array of optional slots holds the multiset of its occupied entries.

## Main definitions

* `Ledger α`, `Ledger.acquire`, `Ledger.release`
* `Ledger.Holds`: what a party holds since an earlier ledger
* `occupied f`: the entries of an array of optional slots

## Main results

* `Ledger.Holds.acquire`, `Ledger.Holds.release`: how the two operations move `held`
* `Ledger.Holds.trans`: what is held since one ledger, and what since another
* `occupied_update_some`, `occupied_update_none`: filling and emptying one slot
-/

/-- What was acquired, what was released, and what is live of a kind of resource. -/
structure Ledger (α : Type*) where
  live : Multiset α
  acquired : Multiset α
  released : Multiset α

namespace Ledger

variable {α : Type*}

/-- The ledger before the first acquisition. -/
def empty : Ledger α := ⟨0, 0, 0⟩

/-- Record the acquisition of `a`. -/
def acquire (l : Ledger α) (a : α) : Ledger α :=
  { l with live := a ::ₘ l.live, acquired := a ::ₘ l.acquired }

/-- Record a release of `a`; it ends the life of `a` only if `a` is live. -/
def release [DecidableEq α] (l : Ledger α) (a : α) : Ledger α :=
  { l with live := l.live.erase a, released := a ::ₘ l.released }

/-- Since `l₀`, everything acquired was released exactly once but `held`, which is live. -/
def Holds (l₀ l : Ledger α) (held : Multiset α) : Prop :=
  ∃ done, l.released = l₀.released + done ∧ l.acquired = l₀.acquired + done + held ∧
    l.live = l₀.live + held

theorem holds_self (l : Ledger α) : Holds l l 0 := ⟨0, by simp, by simp, by simp⟩

theorem Holds.acquire {l₀ l : Ledger α} {held : Multiset α} (h : Holds l₀ l held) (a : α) :
    Holds l₀ (l.acquire a) (a ::ₘ held) := by
  obtain ⟨done, hr, ha, hl⟩ := h
  exact ⟨done, hr, by simp [Ledger.acquire, ha], by simp [Ledger.acquire, hl]⟩

theorem Holds.release [DecidableEq α] {l₀ l : Ledger α} {a : α} {held : Multiset α}
    (h : Holds l₀ l (a ::ₘ held)) : Holds l₀ (l.release a) held := by
  obtain ⟨done, hr, ha, hl⟩ := h
  refine ⟨a ::ₘ done, by simp [Ledger.release, hr], by simp [Ledger.release, ha], ?_⟩
  simp [Ledger.release, hl]

theorem Holds.trans {l₀ l₁ l₂ : Ledger α} {held held' : Multiset α} (h : Holds l₀ l₁ held)
    (h' : Holds l₁ l₂ held') : Holds l₀ l₂ (held + held') := by
  obtain ⟨done, hr, ha, hl⟩ := h
  obtain ⟨done', hr', ha', hl'⟩ := h'
  refine ⟨done + done', ?_, ?_, ?_⟩
  · rw [hr', hr, add_assoc]
  · rw [ha', ha]
    abel
  · rw [hl', hl, add_assoc]

theorem Holds.mem_live {l₀ l : Ledger α} {held : Multiset α} (h : Holds l₀ l held) {a : α}
    (ha : a ∈ held) : a ∈ l.live := by
  obtain ⟨done, -, -, hl⟩ := h
  rw [hl]
  exact Multiset.mem_add.mpr (Or.inr ha)

/-- A party that holds nothing released what it acquired, each item once. -/
theorem Holds.balanced {l₀ l : Ledger α} (h : Holds l₀ l 0) :
    ∃ done, l.released = l₀.released + done ∧ l.acquired = l₀.acquired + done ∧
      l.live = l₀.live := by
  obtain ⟨done, hr, ha, hl⟩ := h
  exact ⟨done, hr, by simpa using ha, by simpa using hl⟩

end Ledger

section Slots

variable {α β : Type*} {n : ℕ}

/-- The entries of an array of optional slots. -/
def occupied (f : Fin n → Option α) : Multiset α := (Finset.univ : Finset (Fin n)).val.filterMap f

theorem mem_occupied {f : Fin n → Option α} {a : α} : a ∈ occupied f ↔ ∃ i, f i = some a := by
  simp [occupied, Multiset.mem_filterMap]

theorem mem_occupied_of {f : Fin n → Option α} {i : Fin n} {a : α} (h : f i = some a) :
    a ∈ occupied f := mem_occupied.mpr ⟨i, h⟩

theorem occupied_eq_zero {f : Fin n → Option α} (h : ∀ i, f i = none) : occupied f = 0 := by
  apply Multiset.eq_zero_of_forall_notMem
  intro a ha
  obtain ⟨i, hi⟩ := mem_occupied.mp ha
  rw [h i] at hi
  cases hi

/-- An array without empty slots has as many entries as slots. -/
theorem card_occupied {f : Fin n → Option α} (h : ∀ i, ∃ a, f i = some a) :
    (occupied f).card = n := by
  choose g hg using h
  have hf : f = fun i => some (g i) := funext hg
  rw [occupied, hf, show (fun i => some (g i)) = some ∘ g from rfl, Multiset.filterMap_eq_map,
    Multiset.card_map]
  exact Finset.card_fin n

/-- One slot split off the entries of an array. -/
theorem occupied_split (f : Fin n → Option α) (i : Fin n) :
    occupied f = (f i).toList + (Finset.univ.erase i : Finset (Fin n)).val.filterMap f := by
  unfold occupied
  have hi : (Finset.univ : Finset (Fin n)).val = i ::ₘ (Finset.univ.erase i).val := by
    rw [Finset.erase_val, Multiset.cons_erase (Finset.mem_univ i)]
  rw [hi]
  cases h : f i with
  | none => rw [Multiset.filterMap_cons_none _ _ h]; simp
  | some a => rw [Multiset.filterMap_cons_some _ _ _ h]; simp

theorem card_filterMap_le (f : α → Option β) (s : Multiset α) :
    (s.filterMap f).card ≤ s.card :=
  Quot.inductionOn s fun l => List.length_filterMap_le f l

/-- An array with an empty slot has fewer entries than slots. -/
theorem card_occupied_lt {f : Fin n → Option α} {i : Fin n} (h : f i = none) :
    (occupied f).card < n := by
  have hle := card_filterMap_le f (Finset.univ.erase i : Finset (Fin n)).val
  rw [occupied_split f i, h, Option.toList_none, Multiset.coe_nil, zero_add]
  rw [Finset.card_val, Finset.card_erase_of_mem (Finset.mem_univ i), Finset.card_fin] at hle
  have := i.isLt
  omega

theorem filterMap_erase_update (f : Fin n → Option α) (i : Fin n) (o : Option α) :
    (Finset.univ.erase i : Finset (Fin n)).val.filterMap (Function.update f i o) =
      (Finset.univ.erase i : Finset (Fin n)).val.filterMap f := by
  rw [Multiset.filterMap_eq_bind, Multiset.filterMap_eq_bind]
  apply Multiset.bind_congr
  intro j hj
  have hne : j ≠ i := (Finset.mem_erase.mp (Finset.mem_val.mp hj)).1
  rw [Function.update_of_ne hne]

/-- Filling an empty slot. -/
theorem occupied_update_some {f : Fin n → Option α} {i : Fin n} (h : f i = none) (a : α) :
    occupied (Function.update f i (some a)) = a ::ₘ occupied f := by
  rw [occupied_split _ i, occupied_split f i, filterMap_erase_update, h]
  simp

/-- Emptying a filled slot. -/
theorem occupied_update_none {f : Fin n → Option α} {i : Fin n} {a : α} (h : f i = some a) :
    a ::ₘ occupied (Function.update f i none) = occupied f := by
  rw [occupied_split _ i, occupied_split f i, filterMap_erase_update, h]
  simp

end Slots
