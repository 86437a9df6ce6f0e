import Mathlib.Algebra.BigOperators.ModEq
import Mathlib.Algebra.BigOperators.Ring.Finset
import Mathlib.Algebra.Order.BigOperators.Group.Finset
import Mathlib.Data.Nat.ModEq
import Mathlib.Tactic.Ring
import NanoCell.Lib.Memory

/-!
# The Internet checksum

The one's-complement sum of the 16-bit words of a buffer, as a host computes it: the words are
loaded in the byte order of the host, an odd last byte is padded with zero, the carries out of 32
bits are added back, and the sum is folded to 16 bits and complemented. The result is characterised
by the weighted sum of the bytes modulo `65535`, from which it follows that a checksum verifies in
one byte order exactly when it verifies in the other.

## Main definitions

* `ByteOrder.word`, `ByteOrder.bytes`: a 16-bit word and its two bytes in memory
* `csumPartial`, `csumFold`: the sum of a buffer, and the checksum of a sum
* `ByteOrder.total`: the sum of the words of a buffer as a natural number
* `Verifies e f n`: the checksum over the first `n` bytes of `f` is the one of a valid message

## Main results

* `verifies_iff`: when a checksum verifies, in terms of the sum of the words
* `verifies_order`: the byte order of the verifying host does not matter
* `verifies_perm`: bytes may change places if each stays at an even or at an odd offset
* `verifies_store`: the checksum computed over a message with a zeroed field, stored in that field,
  verifies
-/

/-- The byte order of a host. -/
inductive ByteOrder where
  | little
  | big
  deriving DecidableEq, Repr

namespace ByteOrder

/-- The 16-bit word that a host loads from the byte `a` and the byte `b` after it. -/
def word (e : ByteOrder) (a b : BitVec 8) : BitVec 16 :=
  match e with
  | little => b ++ a
  | big => a ++ b

/-- The bytes of a 16-bit word, in the order in which a host stores them. -/
def bytes (e : ByteOrder) (w : BitVec 16) (k : ℕ) : BitVec 8 :=
  match e, k with
  | little, 0 => w.setWidth 8
  | little, _ => (w >>> 8).setWidth 8
  | big, 0 => (w >>> 8).setWidth 8
  | big, _ => w.setWidth 8

/-- What the byte at the offset `k` counts in a sum of 16-bit words. -/
def weight (e : ByteOrder) (k : ℕ) : ℕ :=
  match e with
  | little => if k % 2 = 0 then 1 else 256
  | big => if k % 2 = 0 then 256 else 1

/-- The sum of the 16-bit words of the first `n` bytes of a buffer. -/
def total (e : ByteOrder) (f : ℕ → BitVec 8) (n : ℕ) : ℕ :=
  ∑ k ∈ Finset.range n, e.weight k * (f k).toNat

end ByteOrder

/-- The sum of two partial sums, with the carry out of 32 bits added back. -/
def csumAdd (a b : BitVec 32) : BitVec 32 :=
  let r := a + b
  r + if r < b then 1 else 0

/-- The one's-complement sum of the first bytes of a buffer, added to `sum`. -/
def csumPartial (e : ByteOrder) (buff : ℕ → BitVec 8) : (len : ℕ) → (sum : BitVec 32) → BitVec 32
  | 0, sum => sum
  | 1, sum => csumAdd sum ((e.word (buff 0) 0).setWidth 32)
  | len + 2, sum =>
    csumPartial e (fun k => buff (k + 2)) len
      (csumAdd sum ((e.word (buff 0) (buff 1)).setWidth 32))

/-- The checksum of a partial sum: the sum folded to 16 bits, complemented. -/
def csumFold (sum : BitVec 32) : BitVec 16 :=
  let sum := (sum &&& 0xffff#32) + (sum >>> 16)
  let sum := (sum &&& 0xffff#32) + (sum >>> 16)
  ~~~ (sum.setWidth 16)

/-- The checksum over the first `n` bytes, the checksum field of the message included, is zero. -/
def Verifies (e : ByteOrder) (f : ℕ → BitVec 8) (n : ℕ) : Prop :=
  csumFold (csumPartial e f n 0) = 0

instance (e : ByteOrder) (f : ℕ → BitVec 8) (n : ℕ) : Decidable (Verifies e f n) :=
  inferInstanceAs (Decidable (_ = _))

namespace ByteOrder

variable (e : ByteOrder)

@[simp] theorem weight_add_two (k : ℕ) : e.weight (k + 2) = e.weight k := by
  cases e <;> simp [weight]

theorem weight_pos (k : ℕ) : 0 < e.weight k := by
  cases e <;> simp only [weight] <;> split <;> decide

theorem weight_congr {k l : ℕ} (h : k % 2 = l % 2) : e.weight k = e.weight l := by
  cases e <;> simp [weight, h]

/-- A word is the sum of its two bytes at an even offset. -/
theorem toNat_word (a b : BitVec 8) :
    (e.word a b).toNat = e.weight 0 * a.toNat + e.weight 1 * b.toNat := by
  have happend : ∀ high low : BitVec 8, (high ++ low).toNat = 256 * high.toNat + low.toNat := by
    intro high low
    rw [BitVec.toNat_append, ← Nat.shiftLeft_add_eq_or_of_lt low.isLt, Nat.shiftLeft_eq, mul_comm]
  cases e
  · simp [word, weight, happend, add_comm]
  · simp [word, weight, happend]

/-- The two bytes of a word, stored at an even offset, count what the word is. -/
theorem weight_bytes {j : ℕ} (hj : j % 2 = 0) (w : BitVec 16) :
    e.weight j * (e.bytes w 0).toNat + e.weight (j + 1) * (e.bytes w 1).toNat = w.toNat := by
  have hw := w.isLt
  cases e <;>
    simp [weight, bytes, hj, Nat.succ_mod_two_eq_one_iff.mpr hj, Nat.shiftRight_eq_div_pow] <;>
    omega

/-- The bytes at even offsets in one order are those at odd offsets in the other. -/
theorem dvd_total_big (f : ℕ → BitVec 8) (n : ℕ) :
    65535 ∣ total big f n ↔ 65535 ∣ total little f n := by
  have hmod : 256 * total big f n ≡ total little f n [MOD 65535] := by
    unfold total
    rw [Finset.mul_sum]
    apply Nat.ModEq.sum
    intro k _
    rw [← mul_assoc]
    apply Nat.ModEq.mul_right
    by_cases hk : k % 2 = 0 <;> simp [weight, hk, Nat.ModEq]
  -- `256` is invertible modulo `65535`
  rw [← hmod.dvd_iff dvd_rfl]
  exact (Nat.Coprime.dvd_mul_left (by decide)).symm

theorem total_eq_zero (f : ℕ → BitVec 8) (n : ℕ) :
    e.total f n = 0 ↔ ∀ k < n, f k = 0 := by
  simp only [total, Finset.sum_eq_zero_iff, Finset.mem_range, mul_eq_zero,
    (e.weight_pos _).ne', false_or]
  refine forall₂_congr fun k _ => ?_
  exact ⟨fun h => BitVec.eq_of_toNat_eq h, fun h => by rw [h]; rfl⟩

/-- The first two bytes of a buffer are its first word. -/
theorem total_add_two (f : ℕ → BitVec 8) (n : ℕ) :
    e.total f (n + 2) = (e.word (f 0) (f 1)).toNat + e.total (fun k => f (k + 2)) n := by
  rw [toNat_word]
  simp only [total, Finset.sum_range_succ', weight_add_two, zero_add]
  ring

/-- Bytes that change places keep the sum, if each stays at an even or at an odd offset. -/
theorem total_perm {f g : ℕ → BitVec 8} {n : ℕ} {σ : ℕ → ℕ} (hinv : Function.Involutive σ)
    (hlt : ∀ k < n, σ k < n) (hpar : ∀ k, σ k % 2 = k % 2) (hg : ∀ k < n, g k = f (σ k)) :
    e.total g n = e.total f n := by
  apply Finset.sum_nbij' σ σ
  · intro k hk
    exact Finset.mem_range.mpr (hlt k (Finset.mem_range.mp hk))
  · intro k hk
    exact Finset.mem_range.mpr (hlt k (Finset.mem_range.mp hk))
  · exact fun k _ => hinv k
  · exact fun k _ => hinv k
  · intro k hk
    rw [hg k (Finset.mem_range.mp hk), e.weight_congr (hpar k)]

/-- A word stored at an even offset over two zero bytes adds to the sum what the word is. -/
theorem total_stored {f g : ℕ → BitVec 8} {n j : ℕ} {w : BitVec 16} (hj : j % 2 = 0)
    (hjn : j + 1 < n) (hf : f j = 0) (hf' : f (j + 1) = 0) (hfst : g j = e.bytes w 0)
    (hsnd : g (j + 1) = e.bytes w 1) (hg : ∀ k < n, k ≠ j → k ≠ j + 1 → g k = f k) :
    e.total g n = e.total f n + w.toNat := by
  have hsplit : ∀ h : ℕ → BitVec 8, e.total h n =
      (e.weight j * (h j).toNat + e.weight (j + 1) * (h (j + 1)).toNat) +
        ∑ k ∈ ((Finset.range n).erase j).erase (j + 1), e.weight k * (h k).toNat := by
    intro h
    have hmem : j ∈ Finset.range n := Finset.mem_range.mpr (by omega)
    have hmem' : j + 1 ∈ (Finset.range n).erase j :=
      Finset.mem_erase.mpr ⟨by omega, Finset.mem_range.mpr hjn⟩
    rw [total, ← Finset.add_sum_erase _ _ hmem, ← Finset.add_sum_erase _ _ hmem', add_assoc]
  have hrest : ∑ k ∈ ((Finset.range n).erase j).erase (j + 1), e.weight k * (g k).toNat =
      ∑ k ∈ ((Finset.range n).erase j).erase (j + 1), e.weight k * (f k).toNat := by
    apply Finset.sum_congr rfl
    intro k hk
    simp only [Finset.mem_erase, Finset.mem_range] at hk
    rw [hg k hk.2.2 hk.2.1 hk.1]
  rw [hsplit g, hsplit f, hrest, hfst, hsnd, weight_bytes e hj w, hf, hf']
  simp [add_comm]

end ByteOrder

/-- A partial sum stands for the number `m`: both are the same modulo `65535`, and zero only
together. -/
structure Sums (s : BitVec 32) (m : ℕ) : Prop where
  mod_eq : s.toNat % 65535 = m % 65535
  zero_iff : s.toNat = 0 ↔ m = 0

theorem Sums.add_word {s : BitVec 32} {m : ℕ} (h : Sums s m) (w : BitVec 16) :
    Sums (csumAdd s (w.setWidth 32)) (m + w.toNat) := by
  have hw := w.isLt
  have hs := s.isLt
  have hwide : (w.setWidth 32).toNat = w.toNat := by
    simp only [BitVec.toNat_setWidth]
    omega
  obtain ⟨hmod, hzero⟩ := h
  -- the end-around carry takes away `2 ^ 32 - 1`, a multiple of `65535`
  have hval : (csumAdd s (w.setWidth 32)).toNat = s.toNat + w.toNat ∨
      (csumAdd s (w.setWidth 32)).toNat + 65535 * 65537 = s.toNat + w.toNat ∧
        0 < (csumAdd s (w.setWidth 32)).toNat := by
    simp only [csumAdd, BitVec.lt_def, BitVec.toNat_add, hwide]
    split
    · right
      have hone : (1 : BitVec 32).toNat = 1 := rfl
      omega
    · left
      have hzero : (0 : BitVec 32).toNat = 0 := rfl
      omega
  constructor
  · omega
  · omega

/-- The sum of a buffer stands for the sum of its words. -/
theorem Sums.csumPartial_total {s : BitVec 32} {m : ℕ} (h : Sums s m) (e : ByteOrder)
    (f : ℕ → BitVec 8) (n : ℕ) : Sums (csumPartial e f n s) (m + e.total f n) := by
  fun_induction csumPartial e f n s generalizing m with
  | case1 f s => simpa [ByteOrder.total] using h
  | case2 f s =>
    -- the last byte is the word that a zero byte would make of it
    have hword : e.total f 1 = (e.word (f 0) 0).toNat := by
      simp [ByteOrder.total, ByteOrder.toNat_word]
    rw [hword]
    exact h.add_word _
  | case3 f n s ih =>
    rw [ByteOrder.total_add_two, ← add_assoc]
    exact ih (h.add_word _)

theorem csumPartial_sums (e : ByteOrder) (f : ℕ → BitVec 8) (n : ℕ) :
    Sums (csumPartial e f n 0) (e.total f n) := by
  have hzero : Sums 0 0 := ⟨rfl, by simp⟩
  simpa using hzero.csumPartial_total e f n

/-- The checksum of a sum: the complement of a number that is the sum modulo `65535`, and that is
zero only if the sum is. -/
theorem Sums.toNat_csumFold {s : BitVec 32} {m : ℕ} (h : Sums s m) :
    ∃ v ≤ 65535, (csumFold s).toNat = 65535 - v ∧ v % 65535 = m % 65535 ∧ (v = 0 ↔ m = 0) := by
  have hfold : ∀ t : BitVec 32,
      ((t &&& 0xffff#32) + (t >>> 16)).toNat = t.toNat % 65536 + t.toNat / 65536 := by
    intro t
    have ht := t.isLt
    have hand : (t &&& 0xffff#32).toNat = t.toNat % 65536 := by
      rw [BitVec.toNat_and]
      exact Nat.and_two_pow_sub_one_eq_mod t.toNat 16
    rw [BitVec.toNat_add, hand, BitVec.toNat_ushiftRight, Nat.shiftRight_eq_div_pow]
    omega
  have hs := s.isLt
  obtain ⟨hmod, hzero⟩ := h
  set u := (s &&& 0xffff#32) + (s >>> 16) with hu
  have hval := hfold s
  rw [← hu] at hval
  refine ⟨u.toNat % 65536 + u.toNat / 65536, by omega, ?_, by omega, by omega⟩
  simp only [csumFold, ← hu, BitVec.toNat_not, BitVec.toNat_setWidth, hfold u]
  omega

/-- A checksum verifies if the sum of the words is a positive multiple of `65535`. -/
theorem verifies_iff (e : ByteOrder) (f : ℕ → BitVec 8) (n : ℕ) :
    Verifies e f n ↔ 65535 ∣ e.total f n ∧ e.total f n ≠ 0 := by
  obtain ⟨v, hv, hfold, hmod, hzero⟩ := (csumPartial_sums e f n).toNat_csumFold
  have htoNat : Verifies e f n ↔ (csumFold (csumPartial e f n 0)).toNat = 0 := by
    rw [Verifies, ← BitVec.toNat_inj]
    rfl
  rw [htoNat]
  omega

/-- **The byte order** of the host that verifies a checksum does not matter. -/
theorem verifies_order (e e' : ByteOrder) (f : ℕ → BitVec 8) (n : ℕ) :
    Verifies e f n ↔ Verifies e' f n := by
  have hboth : Verifies .big f n ↔ Verifies .little f n := by
    rw [verifies_iff, verifies_iff, ByteOrder.dvd_total_big, Ne, Ne, ByteOrder.total_eq_zero,
      ByteOrder.total_eq_zero]
  cases e <;> cases e'
  · rfl
  · exact hboth.symm
  · exact hboth
  · rfl

/-- Bytes may change places, if each stays at an even or at an odd offset. -/
theorem verifies_perm {f g : ℕ → BitVec 8} {n : ℕ} {σ : ℕ → ℕ} (hinv : Function.Involutive σ)
    (hlt : ∀ k < n, σ k < n) (hpar : ∀ k, σ k % 2 = k % 2) (hg : ∀ k < n, g k = f (σ k))
    (e : ByteOrder) : Verifies e g n ↔ Verifies e f n := by
  rw [verifies_iff, verifies_iff, e.total_perm hinv hlt hpar hg]

theorem verifies_congr {f g : ℕ → BitVec 8} {n : ℕ} (hg : ∀ k < n, g k = f k) (e : ByteOrder) :
    Verifies e g n ↔ Verifies e f n :=
  verifies_perm (fun _ => rfl) (fun _ => id) (fun _ => rfl) hg e

/-- **The checksum of a message** of `n` bytes at `p`, computed while its field is zero and then
stored in the field, verifies. The field is at an even offset `j`, and the host that stores it is
the one that computed it. -/
theorem verifies_store {e : ByteOrder} {m : Memory (BitVec 8)} {p : ℤ} {n j : ℕ} (hj : j % 2 = 0)
    (hjn : j + 1 < n) (hm : m.load p j = 0) (hm' : m.load p (j + 1) = 0) (e' : ByteOrder) :
    Verifies e'
      ((m.store (p + j) 2 (e.bytes (csumFold (csumPartial e (m.load p) n 0)))).load p) n := by
  have htotal : e.total
      ((m.store (p + j) 2 (e.bytes (csumFold (csumPartial e (m.load p) n 0)))).load p) n =
        e.total (m.load p) n + (csumFold (csumPartial e (m.load p) n 0)).toNat := by
    apply e.total_stored hj hjn hm hm'
    · rw [Memory.load, Memory.store_inside _ (by omega) (by omega)]
      simp
    · rw [Memory.load, Memory.store_inside _ (by omega) (by omega)]
      simp
    · intro k _ hk hk'
      exact Memory.store_outside _ (by omega)
  rw [verifies_order e' e, verifies_iff, htotal]
  obtain ⟨v, hv, hfold, hmod, hzero⟩ := (csumPartial_sums e (m.load p) n).toNat_csumFold
  omega
