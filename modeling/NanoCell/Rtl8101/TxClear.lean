import NanoCell.Rtl8101.TxWindow

/-!
# Clearing the Tx ring at any index

`rtl8101_tx_clear` lets its index run from `dirty_tx` up to `dirty_tx + NUM_TX_DESC`, a sum of 32
bits, and compares the two with `<`. Unlike the refill of the Rx ring, which looks at the difference
of its indexes, the loop does not survive the end of the counter range: in the last turn the sum
wraps to a value below `dirty_tx`, and no slot is visited.

Every turn that is taken moves what its slot holds to what was unmapped, freed and counted as
dropped. The sums of both sides are kept, and when every slot was visited nothing is held.

## Main definitions

* `TxRing.mapped`: the mappings that `rtl8101_unmap_tx_skb` would return
* `TxRing.Outstanding`: exactly the slots between `dirty_tx` and `cur_tx` are in use
* `TxRing.ClearedAll r r'`: all that `r` held was unmapped, freed and dropped, and `r'` is empty
* `TxRing.Balanced r r'`: nothing that `r` held was lost or counted twice on the way to `r'`

## Main results

* `Balanced.foldl`: the turns of the loop, over any positions
* `clearedAll_iff`: `rtl8101_tx_clear` empties the ring exactly when its bound does not wrap, or
  nothing is queued
-/

namespace Rtl8101

open Counter

namespace TxRing

/-- The mapping that `rtl8101_unmap_tx_skb` returns for the entry `i`, if a length marks it as
used. -/
def mappingOf (r : TxRing) (i : Fin numTxDesc) : Option Mapping :=
  if (r.txSkb i).len = 0#32 then none else some ⟨(r.txDescArray i).addr, (r.txSkb i).len⟩

/-- The mappings of the entries in use. -/
def mapped (r : TxRing) : Multiset Mapping := occupied r.mappingOf

/-- The entry `i` has a length and a buffer. -/
def InUse (r : TxRing) (i : Fin numTxDesc) : Prop :=
  (r.txSkb i).len ≠ 0#32 ∧ (r.txSkb i).skb ≠ none

/-- The entry `i` is empty, and its descriptor is not with the NIC. -/
def Vacant (r : TxRing) (i : Fin numTxDesc) : Prop :=
  r.txSkb i = .empty ∧ (r.txDescArray i).own = false

/-- Exactly the entries of the window `[dirty_tx, cur_tx)`, of at most `NUM_TX_DESC` positions, are
in use, and only their descriptors may be with the NIC. -/
structure Outstanding (r : TxRing) : Prop where
  size : (r.curTx - r.dirtyTx).toNat ≤ numTxDesc
  inUse : ∀ i, InWindow numTxDesc r.dirtyTx r.curTx i → r.InUse i
  vacant : ∀ i, ¬ InWindow numTxDesc r.dirtyTx r.curTx i → r.Vacant i

/-- On the way from `r` to `r'` every buffer was unmapped once, freed once and counted once as
dropped, and the ring `r'` is empty with both indexes at zero. -/
structure ClearedAll (r r' : TxRing) : Prop where
  unmapped : r'.dma.released = r.dma.released + r.mapped
  freed : r'.skbs.released = r.skbs.released + r.buffers
  dropped : r'.stats.txDropped = r.stats.txDropped + BitVec.ofNat 64 r.buffers.card
  vacant : ∀ i, r'.Vacant i
  curTx : r'.curTx = 0#32
  dirtyTx : r'.dirtyTx = 0#32

/-! ## The turns of the loop -/

/-- What was given back and what is still held add up to the same, before and after. -/
structure Balanced (r r' : TxRing) : Prop where
  unmapped : r'.dma.released + r'.mapped = r.dma.released + r.mapped
  freed : r'.skbs.released + r'.buffers = r.skbs.released + r.buffers
  dropped : r'.stats.txDropped + BitVec.ofNat 64 r'.buffers.card =
    r.stats.txDropped + BitVec.ofNat 64 r.buffers.card

variable {r r' r'' : TxRing} {i : Fin numTxDesc}

theorem Balanced.refl (r : TxRing) : Balanced r r := ⟨rfl, rfl, rfl⟩

theorem Balanced.trans (h : Balanced r r') (h' : Balanced r' r'') : Balanced r r'' :=
  ⟨h'.1.trans h.1, h'.2.trans h.2, h'.3.trans h.3⟩

/-- One turn of the loop at an entry in use. -/
theorem txClearEntry_inUse {skb : SkBuff} (hlen : (r.txSkb i).len ≠ 0#32)
    (hskb : (r.txSkb i).skb = some skb) :
    r.txClearEntry i = { r with
      dma := r.dma.release ⟨(r.txDescArray i).addr, (r.txSkb i).len⟩
      skbs := r.skbs.release skb
      ownedUnmaps := if (r.txDescArray i).own then r.ownedUnmaps + 1 else r.ownedUnmaps
      stats := { r.stats with txDropped := r.stats.txDropped + 1 }
      txDescArray := Function.update r.txDescArray i .zero
      txSkb := Function.update r.txSkb i .empty } := by
  unfold txClearEntry
  rw [if_pos hlen]
  simp only [unmapTxSkb, freeTxSkb, Function.update_self, hskb, Function.update_idem]
  rfl

/-- The buffers and the mappings of a ring, after one of its entries was emptied. -/
theorem buffers_emptied {skb : SkBuff} (hskb : (r.txSkb i).skb = some skb)
    (hslots : r'.txSkb = Function.update r.txSkb i .empty) :
    r.buffers = skb ::ₘ r'.buffers := by
  have hupd : (fun j => (r'.txSkb j).skb) = Function.update (fun j => (r.txSkb j).skb) i none := by
    funext j
    rw [hslots]
    by_cases hj : j = i
    · subst hj; simp [RingInfo.empty]
    · simp [hj]
  rw [buffers, buffers, hupd, occupied_update_none (a := skb) hskb]

theorem mapped_emptied (hlen : (r.txSkb i).len ≠ 0#32)
    (hslots : r'.txSkb = Function.update r.txSkb i .empty)
    (hdescs : r'.txDescArray = Function.update r.txDescArray i .zero) :
    r.mapped = ⟨(r.txDescArray i).addr, (r.txSkb i).len⟩ ::ₘ r'.mapped := by
  have hupd : r'.mappingOf = Function.update r.mappingOf i none := by
    funext j
    unfold mappingOf
    rw [hslots, hdescs]
    by_cases hj : j = i
    · subst hj; simp [RingInfo.empty]
    · simp [hj]
  have hself : r.mappingOf i = some ⟨(r.txDescArray i).addr, (r.txSkb i).len⟩ := if_neg hlen
  rw [mapped, mapped, hupd, occupied_update_none hself]

/-- **One turn of the loop** empties its entry and keeps the balance. -/
theorem txClearEntry_balanced (h : r.InUse i ∨ r.Vacant i) :
    Balanced r (r.txClearEntry i) ∧ (r.txClearEntry i).Vacant i ∧
      ∀ j ≠ i, (r.txClearEntry i).txSkb j = r.txSkb j ∧
        (r.txClearEntry i).txDescArray j = r.txDescArray j := by
  rcases h with ⟨hlen, hskb⟩ | hvacant
  · obtain ⟨skb, hskb⟩ := Option.ne_none_iff_exists'.mp hskb
    have he := txClearEntry_inUse hlen hskb
    obtain ⟨r', hr'⟩ : ∃ r', r.txClearEntry i = r' := ⟨_, rfl⟩
    rw [hr'] at he ⊢
    have hbuffers : r.buffers = skb ::ₘ r'.buffers := buffers_emptied hskb (by rw [he])
    have hmapped : r.mapped = ⟨(r.txDescArray i).addr, (r.txSkb i).len⟩ ::ₘ r'.mapped :=
      mapped_emptied hlen (by rw [he]) (by rw [he])
    refine ⟨⟨?_, ?_, ?_⟩, ?_, ?_⟩
    · rw [hmapped, he]
      simp [Ledger.release]
    · rw [hbuffers, he]
      simp [Ledger.release]
    · rw [hbuffers, Multiset.card_cons, BitVec.ofNat_add, he]
      simp only [BitVec.add_assoc]
      rw [BitVec.add_comm _ (BitVec.ofNat 64 1)]
      rfl
    · rw [he]
      exact ⟨by simp, by simp⟩
    · intro j hj
      rw [he]
      simp [hj]
  · rw [txClearEntry_empty hvacant.1]
    exact ⟨.refl r, hvacant, fun j _ => ⟨rfl, rfl⟩⟩

/-- **The loop**, over any list of positions: the entries it visits are vacant in the end, and the
balance is kept. -/
theorem Balanced.foldl (l : List ℕ) : ∀ r : TxRing, (∀ i, r.InUse i ∨ r.Vacant i) →
    Balanced r (l.foldl (fun r p => r.txClearEntry (pos numTxDesc p)) r) ∧
      (∀ i, r.Vacant i → (l.foldl (fun r p => r.txClearEntry (pos numTxDesc p)) r).Vacant i) ∧
      ∀ p ∈ l, (l.foldl (fun r p => r.txClearEntry (pos numTxDesc p)) r).Vacant
        (pos numTxDesc p) := by
  induction l with
  | nil => exact fun r h => ⟨.refl r, fun _ => id, fun p hp => by cases hp⟩
  | cons p l ih =>
    intro r h
    obtain ⟨hbal, hself, hother⟩ := txClearEntry_balanced (h (pos numTxDesc p))
    have hcase : ∀ i, i = pos numTxDesc p ∨
        ((r.txClearEntry (pos numTxDesc p)).InUse i ↔ r.InUse i) ∧
          ((r.txClearEntry (pos numTxDesc p)).Vacant i ↔ r.Vacant i) := by
      intro i
      by_cases hi : i = pos numTxDesc p
      · exact .inl hi
      · obtain ⟨hslot, hdesc⟩ := hother i hi
        exact .inr ⟨by rw [InUse, hslot, InUse], by rw [Vacant, hslot, hdesc, Vacant]⟩
    obtain ⟨hrest, hkeep, hvisited⟩ := ih (r.txClearEntry (pos numTxDesc p)) fun i => by
      rcases hcase i with rfl | ⟨huse, hvac⟩
      · exact .inr hself
      · rw [huse, hvac]
        exact h i
    rw [List.foldl_cons]
    refine ⟨hbal.trans hrest, ?_, ?_⟩
    · intro i hi
      apply hkeep
      rcases hcase i with rfl | ⟨-, hvac⟩
      · exact hself
      · exact hvac.mpr hi
    · intro p' hp'
      rcases List.mem_cons.mp hp' with rfl | hp'
      · exact hkeep _ hself
      · exact hvisited p' hp'

/-! ## The whole ring -/

theorem Outstanding.inUse_or_vacant (h : r.Outstanding) (i : Fin numTxDesc) :
    r.InUse i ∨ r.Vacant i := by
  by_cases hi : InWindow numTxDesc r.dirtyTx r.curTx i
  · exact .inl (h.inUse i hi)
  · exact .inr (h.vacant i hi)

/-- A vacant ring holds nothing. -/
theorem held_eq_zero (h : ∀ i, r.Vacant i) : r.mapped = 0 ∧ r.buffers = 0 := by
  refine ⟨occupied_eq_zero fun i => ?_, occupied_eq_zero fun i => ?_⟩
  · rw [mappingOf, (h i).1]
    rfl
  · rw [(h i).1]
    rfl

/-- What is balanced and vacant was cleared. -/
theorem Balanced.clearedAll (h : Balanced r r') (hvacant : ∀ i, r'.Vacant i) :
    ClearedAll r { r' with curTx := 0#32, dirtyTx := 0#32 } := by
  obtain ⟨hmapped, hbuffers⟩ := held_eq_zero hvacant
  have hunmapped := h.unmapped
  have hfreed := h.freed
  have hdropped := h.dropped
  rw [hmapped, add_zero] at hunmapped
  rw [hbuffers, add_zero] at hfreed
  rw [hbuffers, Multiset.card_zero, BitVec.add_zero] at hdropped
  exact ⟨hunmapped, hfreed, hdropped, hvacant, rfl, rfl⟩

/-- **Clearing the ring at any index**: when exactly the slots between `dirty_tx` and `cur_tx` are
in use, `rtl8101_tx_clear` unmaps, frees and counts each of their buffers once and leaves the ring
empty, exactly when `dirty_tx + NUM_TX_DESC` does not wrap or nothing is queued. -/
theorem clearedAll_iff (h : r.Outstanding) :
    ClearedAll r r.txClear ↔
      r.dirtyTx.toNat + numTxDesc < 2 ^ 32 ∨ r.curTx = r.dirtyTx := by
  by_cases hrange : r.dirtyTx.toNat + numTxDesc < 2 ^ 32
  · have hall : ∀ i, ((List.range' r.dirtyTx.toNat numTxDesc).foldl
        (fun r p => r.txClearEntry (pos numTxDesc p)) r).Vacant i := by
      intro i
      obtain ⟨p, hp, hp', rfl⟩ := exists_pos_eq r.dirtyTx.toNat i
      exact (Balanced.foldl _ r h.inUse_or_vacant).2.2 p (List.mem_range'_1.mpr ⟨hp, hp'⟩)
    have hbal := (Balanced.foldl (List.range' r.dirtyTx.toNat numTxDesc) r h.inUse_or_vacant).1
    rw [txClear_eq hrange]
    exact ⟨fun _ => .inl hrange, fun _ => hbal.clearedAll hall⟩
  · rw [txClear_of_wrap (by omega)]
    constructor
    · intro hcleared
      right
      by_contra hne
      have hin : InWindow numTxDesc r.dirtyTx r.curTx (entry r.dirtyTx) := by
        refine ⟨0, ?_, by simp [entry]⟩
        by_contra hzero
        apply hne
        apply sub_eq_zero.mp
        apply BitVec.eq_of_toNat_eq
        simpa using hzero
      obtain ⟨hlen, -⟩ := h.inUse _ hin
      have hvacant := (hcleared.vacant (entry r.dirtyTx)).1
      apply hlen
      rw [show r.txSkb (entry r.dirtyTx) = .empty from hvacant]
      rfl
    · rintro (hlt | heq)
      · exact absurd hlt hrange
      · refine (Balanced.refl r).clearedAll fun i => h.vacant i ?_
        rintro ⟨k, hk, -⟩
        rw [heq, BitVec.sub_self] at hk
        exact absurd hk (Nat.not_lt_zero k)

/-- A ring with the one buffer `skb`, queued at the index `dirty`. -/
def oneQueued (dirty : BitVec 32) (skb : SkBuff) : TxRing where
  curTx := dirty + 1#32
  dirtyTx := dirty
  txDescNull := false
  txDescArray :=
    Function.update (fun _ => .zero) (entry dirty) ⟨xmitWord (entry dirty) skb.len, 0#32, skb.dma⟩
  txSkb := Function.update (fun _ => .empty) (entry dirty) ⟨some skb, skb.len⟩
  stats := ⟨0, 0, 0⟩
  queueStopped := false
  dma := Ledger.empty.acquire (txMapping skb)
  skbs := Ledger.empty.acquire skb
  accepted := [skb]
  sent := []
  ownedUnmaps := 0

theorem oneQueued_outstanding (dirty : BitVec 32) {skb : SkBuff} (hlen : skb.len ≠ 0#32) :
    (oneQueued dirty skb).Outstanding := by
  have hone : (dirty + 1#32 - dirty).toNat = 1 := by rw [add_sub_cancel_left]; rfl
  have hwindow : ∀ i, InWindow numTxDesc dirty (dirty + 1#32) i ↔ i = entry dirty := by
    intro i
    unfold InWindow
    rw [hone]
    constructor
    · rintro ⟨k, hk, rfl⟩
      obtain rfl : k = 0 := by omega
      rw [BitVec.add_zero, entry]
    · rintro rfl
      exact ⟨0, by omega, by rw [BitVec.add_zero, entry]⟩
  refine ⟨?_, ?_, ?_⟩
  · show (dirty + 1#32 - dirty).toNat ≤ numTxDesc
    rw [hone]
    decide
  · intro i hi
    obtain rfl := (hwindow i).mp hi
    exact ⟨by simpa [oneQueued] using hlen, by simp [oneQueued]⟩
  · intro i hi
    have hne : i ≠ entry dirty := fun h => hi ((hwindow i).mpr h)
    exact ⟨by simp [oneQueued, hne], by simp [oneQueued, hne]⟩

/-- One buffer of 60 bytes at the index 0. -/
theorem clearedAll_iff_first :
    let r := oneQueued 0#32 ⟨0x1000#64, 60#32, 0#32, 0#8⟩
    r.Outstanding ∧ ClearedAll r r.txClear :=
  ⟨oneQueued_outstanding _ (by decide),
    (clearedAll_iff (oneQueued_outstanding _ (by decide))).mpr (.inl (by decide))⟩

/-- The same buffer at the index `2 ^ 32 - NUM_TX_DESC`: it stays mapped and queued, with its
descriptor at the NIC, while the indexes are zeroed. -/
theorem lastTurn_kept :
    let r := oneQueued 0xFFFFFC00#32 ⟨0x1000#64, 60#32, 0#32, 0#8⟩
    r.Outstanding ∧ r.txClear.curTx = 0#32 ∧ (r.txClear.txDescArray 0).own = true ∧
      (r.txClear.txSkb 0).skb ≠ none ∧ ¬ ClearedAll r r.txClear := by
  intro r
  have hclear : r.txClear = { r with curTx := 0#32, dirtyTx := 0#32 } :=
    txClear_of_wrap (by decide)
  rw [hclear]
  refine ⟨oneQueued_outstanding _ (by decide), rfl, by decide, by decide, ?_⟩
  intro h
  exact absurd (h.vacant 0).1 (by decide)

end TxRing

end Rtl8101
