import Mathlib.Algebra.BigOperators.Group.Finset.Basic
import Mathlib.Algebra.Order.BigOperators.Group.Finset
import Mathlib.Data.Multiset.Count

/-!
# Intrusive lists

The nodes of an intrusive list carry the pointer to the next node themselves, so a node can be on
one list only, and writing its pointer changes every list it is on. A family of such lists shares
one supply of nodes with the holders that have taken nodes off a list.

## Main definitions

* `Linked next head l`: the pointers lead from `head` through the nodes `l` and end there
* `Shares next head lists held all`: the nodes `all` are on the lists of a family or held

## Main results

* `Shares.pop`: taking the first node off a list
* `Shares.push`: putting a held node in front of a list
* `Shares.alloc`, `Shares.free`: a new node is held first, and a held one may be freed
* `Shares.nodup`, `Shares.disjoint`, `Shares.not_held`: a node is in one place only
-/

variable {α ι : Type*}

/-- The pointers `next` lead from `head` through the nodes of the list, one after the other, and the
last of them is null. -/
def Linked (next : α → Option α) : Option α → List α → Prop
  | head, [] => head = none
  | head, a :: l => head = some a ∧ Linked next (next a) l

namespace Linked

variable {next next' : α → Option α} {head : Option α} {l : List α} {a : α}

theorem nil : Linked next none [] := rfl

/-- The first node of a list, and the rest of it. -/
theorem exists_cons (h : Linked next (some a) l) : ∃ t, l = a :: t ∧ Linked next (next a) t := by
  cases l with
  | nil => exact absurd h (by simp [Linked])
  | cons b l =>
    obtain ⟨hb, hl⟩ := h
    cases hb
    exact ⟨l, rfl, hl⟩

/-- The pointers of other nodes do not matter. -/
theorem congr (hnext : ∀ b ∈ l, next' b = next b) (h : Linked next head l) :
    Linked next' head l := by
  induction l generalizing head with
  | nil => exact h
  | cons b l ih =>
    refine ⟨h.1, ?_⟩
    rw [hnext b (by simp)]
    exact ih (fun c hc => hnext c (by simp [hc])) h.2

/-- The pointers lead through one list only. -/
theorem unique {l' : List α} (h : Linked next head l) (h' : Linked next head l') : l = l' := by
  induction l generalizing head l' with
  | nil =>
    cases h
    cases l' with
    | nil => rfl
    | cons b l' => exact absurd h'.1 (by simp)
  | cons a l ih =>
    obtain ⟨rfl, hl⟩ := h
    obtain ⟨t, rfl, ht⟩ := h'.exists_cons
    rw [ih hl ht]

variable [DecidableEq α]

theorem update (h : Linked next head l) (ha : a ∉ l) (b : Option α) :
    Linked (Function.update next a b) head l := by
  apply h.congr
  intro c hc
  exact Function.update_of_ne (ne_of_mem_of_not_mem hc ha) _ _

/-- A node that is on no list is put in front of one. -/
theorem cons (h : Linked next head l) (ha : a ∉ l) :
    Linked (Function.update next a head) (some a) (a :: l) := by
  refine ⟨rfl, ?_⟩
  rw [Function.update_self]
  exact h.update ha head

end Linked

/-- The nodes `all` are shared by the lists of a family, with their heads `head`, and by the
holders of `held`: every one of them is in one place. -/
structure Shares [Fintype ι] (next : α → Option α) (head : ι → Option α) (lists : ι → List α)
    (held all : Multiset α) : Prop where
  linked : ∀ i, Linked next (head i) (lists i)
  sum_eq : ∑ i, (lists i : Multiset α) + held = all
  all_nodup : all.Nodup

namespace Shares

variable [Fintype ι] {next : α → Option α} {head : ι → Option α} {lists : ι → List α}
  {held all : Multiset α} {i j : ι} {a : α}

theorem mem_iff (h : Shares next head lists held all) :
    a ∈ all ↔ (∃ i, a ∈ lists i) ∨ a ∈ held := by
  rw [← h.sum_eq, Multiset.mem_add, Multiset.mem_sum]
  simp

theorem held_nodup (h : Shares next head lists held all) : held.Nodup :=
  Multiset.nodup_of_le (h.sum_eq ▸ Multiset.le_add_left _ _) h.all_nodup

/-- A new node is held first. -/
theorem alloc (h : Shares next head lists held all) (ha : a ∉ all) :
    Shares next head lists (a ::ₘ held) (a ::ₘ all) := by
  refine ⟨h.linked, ?_, Multiset.nodup_cons.mpr ⟨ha, h.all_nodup⟩⟩
  rw [Multiset.add_cons, h.sum_eq]

section Places

variable [DecidableEq α]

/-- A held node is freed. -/
theorem free (h : Shares next head lists (a ::ₘ held) all) :
    Shares next head lists held (all.erase a) := by
  refine ⟨h.linked, ?_, h.all_nodup.erase a⟩
  rw [← h.sum_eq, Multiset.add_cons, Multiset.erase_cons_head]

/-- A node is counted once. -/
theorem count_le (h : Shares next head lists held all) (a : α) :
    ∑ i, (lists i).count a + held.count a ≤ 1 := by
  have hle := Multiset.nodup_iff_count_le_one.mp h.all_nodup a
  rw [← h.sum_eq, Multiset.count_add, Multiset.count_sum'] at hle
  simpa using hle

theorem nodup (h : Shares next head lists held all) (i : ι) : (lists i).Nodup := by
  apply List.nodup_iff_count_le_one.mpr
  intro a
  have hle := h.count_le a
  have hi := Finset.single_le_sum (fun j _ => Nat.zero_le ((lists j).count a)) (Finset.mem_univ i)
  omega

theorem not_held (h : Shares next head lists held all) (ha : a ∈ lists i) : a ∉ held := by
  intro hheld
  have hle := h.count_le a
  rw [← List.count_pos_iff] at ha
  rw [← Multiset.count_pos] at hheld
  have hi := Finset.single_le_sum (fun j _ => Nat.zero_le ((lists j).count a)) (Finset.mem_univ i)
  omega

end Places

variable [DecidableEq ι]

theorem disjoint [DecidableEq α] (h : Shares next head lists held all) (hij : i ≠ j) :
    (lists i).Disjoint (lists j) := by
  intro a hi hj
  have hle := h.count_le a
  rw [← List.count_pos_iff] at hi hj
  have hsum : (lists i).count a + (lists j).count a ≤ ∑ k, (lists k).count a := by
    rw [← Finset.sum_pair (f := fun k => (lists k).count a) hij]
    exact Finset.sum_le_sum_of_subset (Finset.subset_univ _)
  omega

/-- The nodes on the lists after one list changed. -/
theorem sum_update (lists : ι → List α) (i : ι) (l : List α) :
    ∑ j, (Function.update lists i l j : Multiset α) =
      (l : Multiset α) + ∑ j ∈ Finset.univ.erase i, (lists j : Multiset α) := by
  rw [← Finset.add_sum_erase _ _ (Finset.mem_univ i), Function.update_self]
  congr 1
  apply Finset.sum_congr rfl
  intro j hj
  rw [Function.update_of_ne (Finset.ne_of_mem_erase hj)]

/-- The nodes on the list `i`, and those on the other lists. -/
theorem sum_eq_add (lists : ι → List α) (i : ι) :
    ∑ j, (lists j : Multiset α) =
      (lists i : Multiset α) + ∑ j ∈ Finset.univ.erase i, (lists j : Multiset α) :=
  (Finset.add_sum_erase _ _ (Finset.mem_univ i)).symm

theorem length_le (h : Shares next head lists held all) (i : ι) : (lists i).length ≤ all.card := by
  have hcard := congrArg Multiset.card h.sum_eq
  rw [sum_eq_add lists i] at hcard
  simp only [Multiset.card_add, Multiset.coe_card] at hcard
  omega

/-- **Taking the first node off a list**: the holder has it now. -/
theorem pop (h : Shares next head lists held all) (hi : head i = some a) :
    ∃ t, lists i = a :: t ∧
      Shares next (Function.update head i (next a)) (Function.update lists i t) (a ::ₘ held)
        all := by
  have hlinked := h.linked i
  rw [hi] at hlinked
  obtain ⟨t, ht, htl⟩ := hlinked.exists_cons
  refine ⟨t, ht, ?_, ?_, h.all_nodup⟩
  · intro j
    rcases eq_or_ne j i with rfl | hj
    · simpa using htl
    · simpa [hj] using h.linked j
  · rw [← h.sum_eq, sum_update, sum_eq_add lists i, ht, ← Multiset.cons_coe, Multiset.add_cons,
      Multiset.cons_add, Multiset.cons_add]

/-- **Putting a held node in front of a list**: its pointer is written, and the holder has it no
longer. -/
theorem push [DecidableEq α] (h : Shares next head lists (a ::ₘ held) all) (i : ι) :
    Shares (Function.update next a (head i)) (Function.update head i (some a))
      (Function.update lists i (a :: lists i)) held all := by
  -- the node is on no list, so that its pointer can be written
  have hfree : ∀ j, a ∉ lists j := by
    intro j hj
    exact h.not_held hj (Multiset.mem_cons_self a held)
  refine ⟨?_, ?_, h.all_nodup⟩
  · intro j
    rcases eq_or_ne j i with rfl | hj
    · simpa using (h.linked j).cons (hfree j)
    · simpa [hj] using (h.linked j).update (hfree j) (head i)
  · rw [← h.sum_eq, sum_update, sum_eq_add lists i, ← Multiset.cons_coe, Multiset.add_cons,
      Multiset.cons_add, Multiset.cons_add]

end Shares
