import NanoCell.Rtl8101.RxWindow

/-!
# The refill of the Rx ring

`rtl8101_rx_fill` goes from one index to another, skips the slots that hold a buffer and allocates
one for each empty slot, until an allocation fails. What it returns is where it stopped: every index
of the driver is moved by it. The run is the same for every pair of 32-bit indexes, and for any
slots it finds.

## Main definitions

* `RxRing.Offered r r' i`: the empty slot `i` was given a buffer that the NIC may fill
* `RxRing.Refilled alloc r start r' n`: what a refill of `n` positions from `start` on leaves

## Main results

* `FillRun.kept`, `FillRun.filled`, `FillRun.outside`, `FillRun.offered`: the slots of a refill run
* `rxFill_refilled`: `rtl8101_rx_fill` refills exactly a contiguous run
-/

namespace Rtl8101

open Counter

namespace RxRing

/-- The slot `i`, empty in `r`, was given a buffer: its descriptor is with the NIC, has the size
`rx_buf_sz`, the address of a new mapping, and the `RingEnd` bit it had. -/
structure Offered (r r' : RxRing) (i : Fin numRxDesc) (skb : SkBuff) : Prop where
  own : (r'.rxDescArray i).own = true
  size : lenField (r'.rxDescArray i).opts1 = r.rxBufSz
  addr : (r'.rxDescArray i).addr = skb.dma
  mapped : ⟨skb.dma, r.rxBufSz⟩ ∈ r'.dma.live
  fresh : ∀ m ∈ r.dma.live, m.addr ≠ skb.dma
  eor : (r'.rxDescArray i).eor = (r.rxDescArray i).eor

/-- The ring `r'` after a refill of the ring `r` that passed `n` positions from `start` on. -/
structure Refilled (alloc : BitVec 32 → Allocator) (r : RxRing) (start stop : BitVec 32)
    (r' : RxRing) (n : BitVec 32) : Prop where
  le : n.toNat ≤ (stop - start).toNat
  filled : ∀ k < n.toNat, ∃ skb, r'.rxSkbuff (entry (start + BitVec.ofNat 32 k)) = some skb
  stopped : n = stop - start ∨ r'.rxSkbuff (entry (start + n)) = none ∧
    (alloc (start + n)).outcome r'.dma.live = none
  kept : ∀ i skb, r.rxSkbuff i = some skb →
    r'.rxSkbuff i = some skb ∧ r'.rxDescArray i = r.rxDescArray i
  offered : ∀ i skb, r.rxSkbuff i = none → r'.rxSkbuff i = some skb → Offered r r' i skb
  outside : ∀ i, (∀ k < n.toNat, entry (start + BitVec.ofNat 32 k) ≠ i) →
    r'.rxSkbuff i = r.rxSkbuff i ∧ r'.rxDescArray i = r.rxDescArray i

/-! ## The slots of a refill run -/

section FillRun

variable {alloc : BitVec 32 → Allocator} {r r' : RxRing} {p q : ℕ}

/-- A slot that holds a buffer is left alone. -/
theorem FillRun.kept (hrun : FillRun alloc r p r' q) {i : Fin numRxDesc} {skb : SkBuff}
    (h : r.rxSkbuff i = some skb) :
    r'.rxSkbuff i = some skb ∧ r'.rxDescArray i = r.rxDescArray i := by
  induction hrun with
  | done r p => exact ⟨h, rfl⟩
  | skip _ _ ih => exact ih h
  | @fill r r₁ r' p q hs ha _ ih =>
    obtain ⟨m, -, rfl⟩ := allocRxSkb_eq_some ha
    have hne : i ≠ pos numRxDesc p := by
      rintro rfl
      rw [hs] at h
      cases h
    simpa [hne] using ih (by simpa [hne] using h)

/-- Every slot that the run passed holds a buffer. -/
theorem FillRun.filled (hrun : FillRun alloc r p r' q) {k : ℕ} (hp : p ≤ k) (hq : k < q) :
    ∃ skb, r'.rxSkbuff (pos numRxDesc k) = some skb := by
  induction hrun with
  | done r p => omega
  | @skip r r' p q skb hs hrest ih =>
    rcases Nat.eq_or_lt_of_le hp with rfl | hlt
    · exact ⟨skb, (hrest.kept hs).1⟩
    · exact ih hlt hq
  | @fill r r₁ r' p q hs ha hrest ih =>
    rcases Nat.eq_or_lt_of_le hp with rfl | hlt
    · obtain ⟨m, -, rfl⟩ := allocRxSkb_eq_some ha
      exact ⟨_, (hrest.kept (Function.update_self _ _ _)).1⟩
    · exact ih hlt hq

/-- A slot that the run did not pass is left alone. -/
theorem FillRun.outside (hrun : FillRun alloc r p r' q) {i : Fin numRxDesc}
    (h : ∀ k, p ≤ k → k < q → pos numRxDesc k ≠ i) :
    r'.rxSkbuff i = r.rxSkbuff i ∧ r'.rxDescArray i = r.rxDescArray i := by
  induction hrun with
  | done r p => exact ⟨rfl, rfl⟩
  | skip _ _ ih => exact ih fun k hk => h k (by omega)
  | @fill r r₁ r' p q hs ha hrest ih =>
    obtain ⟨m, -, rfl⟩ := allocRxSkb_eq_some ha
    have hne : i ≠ pos numRxDesc p := fun he => h p le_rfl hrest.le he.symm
    simpa [hne] using ih fun k hk => h k (by omega)

/-- What is mapped stays mapped. -/
theorem FillRun.live_mono (hrun : FillRun alloc r p r' q) {m : Mapping} (h : m ∈ r.dma.live) :
    m ∈ r'.dma.live := by
  induction hrun with
  | done r p => exact h
  | skip _ _ ih => exact ih h
  | fill _ ha _ ih =>
    obtain ⟨m', -, rfl⟩ := allocRxSkb_eq_some ha
    exact ih (Multiset.mem_cons_of_mem h)

/-- A slot that was empty and holds a buffer was offered to the NIC, with a size that fits the
field of the descriptor. -/
theorem FillRun.offered (hrun : FillRun alloc r p r' q) (hsz : r.rxBufSz.toNat < 2 ^ 14)
    {i : Fin numRxDesc} {skb : SkBuff} (h : r.rxSkbuff i = none)
    (h' : r'.rxSkbuff i = some skb) : Offered r r' i skb := by
  induction hrun with
  | done r p =>
    rw [h] at h'
    cases h'
  | skip _ _ ih => exact ih hsz h h'
  | @fill r r₁ r' p q hs ha hrest ih =>
    obtain ⟨m, hm, rfl⟩ := allocRxSkb_eq_some ha
    by_cases hi : i = pos numRxDesc p
    · subst hi
      obtain ⟨hskb, hdesc⟩ := hrest.kept (Function.update_self _ _ _)
      rw [hskb, Option.some.injEq] at h'
      subst h'
      simp only [Function.update_self] at hdesc
      refine ⟨by simp [hdesc], ?_, by rw [hdesc]; rfl, hrest.live_mono (Multiset.mem_cons_self _ _),
        (alloc _).fresh _ m hm, ?_⟩
      · rw [hdesc, Desc.mapToAsic, Desc.markToAsic_lenField, lenField_of_lt hsz]
      · rw [hdesc]
        exact Desc.mapToAsic_eor _ _ (hasBits_ringEnd_of_lt hsz)
    · obtain ⟨hown, hsize, haddr, hmapped, hfresh, heor⟩ := ih hsz (by simpa [hi] using h) h'
      refine ⟨hown, hsize, haddr, hmapped, ?_, by simpa [hi] using heor⟩
      intro m' hm'
      exact hfresh m' (Multiset.mem_cons_of_mem hm')

end FillRun

/-- **`rtl8101_rx_fill` refills exactly a contiguous run**, between any two indexes. -/
theorem rxFill_refilled (alloc : BitVec 32 → Allocator) (r : RxRing) (start stop : BitVec 32)
    (hsz : r.rxBufSz.toNat < 2 ^ 14) :
    Refilled alloc r start stop (rxFill alloc r start stop).1 (rxFill alloc r start stop).2 := by
  have hstart : BitVec.ofNat 32 start.toNat = start := by simp
  have hstop : BitVec.ofNat 32 (start.toNat + (stop - start).toNat) = stop := by
    rw [BitVec.ofNat_add, hstart, BitVec.ofNat_toNat, BitVec.setWidth_eq, BitVec.add_comm,
      BitVec.sub_add_cancel]
  obtain ⟨r', q, he, hrun, hq, hend⟩ := rxFill_spec alloc r start.toNat
    (start.toNat + (stop - start).toNat) (by omega) (by omega)
  rw [hstart, hstop] at he
  have hle := hrun.le
  have hn : (BitVec.ofNat 32 (q - start.toNat)).toNat = q - start.toNat := by
    rw [BitVec.toNat_ofNat, Nat.mod_eq_of_lt (by omega)]
  have hentry : ∀ k, entry (start + BitVec.ofNat 32 k) = pos numRxDesc (start.toNat + k) := by
    intro k
    rw [← entry_ofNat, BitVec.ofNat_add, hstart]
  have hindex : start + BitVec.ofNat 32 (q - start.toNat) = BitVec.ofNat 32 q := by
    rw [← hstart, ← BitVec.ofNat_add, BitVec.toNat_ofNat]
    congr 1
    omega
  rw [he]
  refine ⟨by rw [hn]; omega, ?_, ?_, fun i skb h => hrun.kept h,
    fun i skb h h' => hrun.offered hsz h h', ?_⟩
  · intro k hk
    rw [hn] at hk
    rw [hentry]
    exact hrun.filled (by omega) (by omega)
  · rcases Nat.eq_or_lt_of_le hq with heq | hlt
    · left
      rw [heq, Nat.add_sub_cancel_left, BitVec.ofNat_toNat, BitVec.setWidth_eq]
    · right
      rw [hindex, entry_ofNat]
      exact hend hlt
  · intro i hi
    apply hrun.outside
    intro k hp hk
    have hne := hi (k - start.toNat) (by rw [hn]; omega)
    rwa [hentry, Nat.add_sub_cancel' hp] at hne

/-- A refill over the end of the counter range, of a ring without buffers. -/
theorem rxFill_refilled_wrap :
    let r : RxRing := { Device.registered.rx with rxBufSz := rxBufSize }
    r.rxBufSz.toNat < 2 ^ 14 ∧
      Refilled OpenOutcome.plenty.alloc r 0xFFFFFFFE#32 3#32
        (rxFill OpenOutcome.plenty.alloc r 0xFFFFFFFE#32 3#32).1
        (rxFill OpenOutcome.plenty.alloc r 0xFFFFFFFE#32 3#32).2 :=
  ⟨by decide, rxFill_refilled _ _ _ _ (by decide)⟩

end RxRing

end Rtl8101
