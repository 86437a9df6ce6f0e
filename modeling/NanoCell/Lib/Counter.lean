import Mathlib.Data.Nat.ModEq
import Mathlib.Data.Fin.Basic

/-!
# Free-running counters over a ring

A ring of `n` slots is addressed by counters of `w` bits that are never reduced: a counter only
grows, wraps past `2 ^ w`, and names the slot of its residue modulo `n`. When `n` divides `2 ^ w`
such a counter behaves as the unbounded position it truncates, and a window of at most `n`
positions meets every slot at most once.

## Main definitions

* `slot n c`: the slot named by the counter `c`
* `pos n p`: the slot of the unbounded position `p`
* `InWindow n lo hi i`: the slot `i` lies in the window from `lo` to `hi`

## Main results

* `slot_ofNat`: a counter names the slot of the position it truncates
* `toNat_ofNat_sub`: the wrapped distance of two counters is the distance of their positions
* `pos_inj`, `exists_pos_eq`: `n` consecutive positions meet every slot exactly once
* `inWindow_iff`: the window of two counters is the window of their positions
-/

namespace Counter

variable {w : ℕ}

/-- The slot named by a free-running counter. -/
def slot (n : ℕ) [NeZero n] (c : BitVec w) : Fin n := Fin.ofNat n c.toNat

/-- The slot of an unbounded position. -/
def pos (n : ℕ) [NeZero n] (p : ℕ) : Fin n := Fin.ofNat n p

/-- The slot `i` lies in the window `[lo, hi)`, taken modulo the ring size. -/
def InWindow (n : ℕ) [NeZero n] (lo hi : BitVec w) (i : Fin n) : Prop :=
  ∃ k < (hi - lo).toNat, slot n (lo + BitVec.ofNat w k) = i

variable {n : ℕ} [NeZero n]

theorem pos_val (p : ℕ) : (pos n p : ℕ) = p % n := rfl

theorem pos_eq_iff {p q : ℕ} : pos n p = pos n q ↔ p % n = q % n := by
  rw [Fin.ext_iff, pos_val, pos_val]

theorem slot_ofNat (h : n ∣ 2 ^ w) (p : ℕ) : slot n (BitVec.ofNat w p) = pos n p := by
  rw [Fin.ext_iff]
  simp only [slot, pos, Fin.val_ofNat, BitVec.toNat_ofNat]
  exact Nat.mod_mod_of_dvd p h

theorem slot_eq_pos (c : BitVec w) : slot n c = pos n c.toNat := rfl

theorem ofNat_succ (p : ℕ) : BitVec.ofNat w p + 1#w = BitVec.ofNat w (p + 1) := by
  rw [BitVec.ofNat_add]

/-- The wrapped distance of two counters is the distance of their positions. -/
theorem toNat_ofNat_sub {lo hi : ℕ} (hle : lo ≤ hi) (hlt : hi - lo < 2 ^ w) :
    (BitVec.ofNat w hi - BitVec.ofNat w lo).toNat = hi - lo := by
  obtain ⟨d, rfl⟩ := Nat.exists_eq_add_of_le hle
  rw [Nat.add_sub_cancel_left] at hlt ⊢
  rw [BitVec.ofNat_add, BitVec.add_comm, BitVec.add_sub_cancel, BitVec.toNat_ofNat,
    Nat.mod_eq_of_lt hlt]

theorem ofNat_sub_ofNat {lo hi : ℕ} (hle : lo ≤ hi) :
    BitVec.ofNat w hi - BitVec.ofNat w lo = BitVec.ofNat w (hi - lo) := by
  obtain ⟨d, rfl⟩ := Nat.exists_eq_add_of_le hle
  rw [Nat.add_sub_cancel_left, BitVec.ofNat_add, BitVec.add_comm, BitVec.add_sub_cancel]

/-- Two counters within one turn of the counter range agree only at the same position. -/
theorem ofNat_inj {lo hi : ℕ} (hle : lo ≤ hi) (hlt : hi - lo < 2 ^ w)
    (h : BitVec.ofNat w lo = BitVec.ofNat w hi) : lo = hi := by
  have hd := toNat_ofNat_sub (w := w) hle hlt
  rw [← h, BitVec.sub_self, BitVec.toNat_zero] at hd
  omega

/-- Positions of one turn of the ring meet different slots. -/
theorem pos_inj {d p q : ℕ} (hp : d ≤ p) (hp' : p < d + n) (hq : d ≤ q) (hq' : q < d + n)
    (h : pos n p = pos n q) : p = q := by
  rw [pos_eq_iff] at h
  rcases Nat.le_total p q with hle | hle
  · have hd : n ∣ q - p := (Nat.modEq_iff_dvd' hle).mp h
    have := Nat.eq_zero_of_dvd_of_lt hd (by omega)
    omega
  · have hd : n ∣ p - q := (Nat.modEq_iff_dvd' hle).mp h.symm
    have := Nat.eq_zero_of_dvd_of_lt hd (by omega)
    omega

theorem pos_ne {d p q : ℕ} (hp : d ≤ p) (hpq : p < q) (hq : q < d + n) : pos n p ≠ pos n q :=
  fun h => absurd (pos_inj hp (by omega) (by omega) hq h) (by omega)

/-- Every slot is met by some position of every turn of the ring. -/
theorem exists_pos_eq (d : ℕ) (i : Fin n) : ∃ p, d ≤ p ∧ p < d + n ∧ pos n p = i := by
  have hn : 0 < n := Nat.pos_of_ne_zero (NeZero.ne n)
  have hd := Nat.div_add_mod d n
  have hm := Nat.mod_lt d hn
  have hi := i.isLt
  by_cases hle : d % n ≤ i
  · refine ⟨n * (d / n) + i, by omega, by omega, ?_⟩
    rw [Fin.ext_iff, pos_val, Nat.mul_add_mod, Nat.mod_eq_of_lt i.isLt]
  · refine ⟨n * (d / n) + i + n, by omega, by omega, ?_⟩
    rw [Fin.ext_iff, pos_val, Nat.add_mod_right, Nat.mul_add_mod, Nat.mod_eq_of_lt i.isLt]

theorem pos_add_self (p : ℕ) : pos n (p + n) = pos n p := by
  rw [pos_eq_iff, Nat.add_mod_right]

/-- The window of two counters is the window of the positions they truncate. -/
theorem inWindow_iff (h : n ∣ 2 ^ w) {lo hi : ℕ} (hle : lo ≤ hi) (hlt : hi - lo < 2 ^ w)
    (i : Fin n) :
    InWindow n (BitVec.ofNat w lo) (BitVec.ofNat w hi) i ↔ ∃ p, lo ≤ p ∧ p < hi ∧ pos n p = i := by
  unfold InWindow
  rw [toNat_ofNat_sub hle hlt]
  constructor
  · rintro ⟨k, hk, rfl⟩
    exact ⟨lo + k, by omega, by omega, by rw [← BitVec.ofNat_add, slot_ofNat h]⟩
  · rintro ⟨p, hp, hp', rfl⟩
    refine ⟨p - lo, by omega, ?_⟩
    rw [← BitVec.ofNat_add, slot_ofNat h, Nat.add_sub_cancel' hp]

end Counter
