import NanoCell.Lib.Ledger
import NanoCell.Rtl8101.Desc

/-!
# The transmit path

The Tx half of `Solutions/Rt8169Drv/net_stk.c`: the ring of `NUM_TX_DESC` descriptors, queueing a
buffer, reclaiming sent ones, clearing the ring, and the NIC that fetches descriptors. `TxRing`
holds the Tx fields of `DrvPvt` and of `dev->stats`, the state of the device's one Tx queue, and
what the driver did to the outside. `MAX_SKB_FRAGS` comes from the kernel's headers: it is a
parameter. `rtl8101_notify_for_tx` only prompts the NIC, which here may fetch at any time.

## Main definitions

* `TxRing`: the state of the transmit path
* `TxRing.startXmit`, `TxRing.txInterrupt`, `TxRing.txClear`: `rtl8101_start_xmit`,
  `rtl8101_tx_interrupt` and `rtl8101_tx_clear`
* `TxNic`, `TxNic.fetch`, `nicComplete`: the transmitting NIC

## Main results

* `TxRing.txLoop_txPass`: the reclaim loop, read on positions instead of 32-bit counters
* `TxRing.txInterrupt_spec`: `rtl8101_tx_interrupt` on positions
* `TxRing.txClear_eq`: below the end of the counter range `rtl8101_tx_clear` visits every slot
-/

namespace Rtl8101

open Counter

/-- The Tx counters of `dev->stats`, of type `unsigned long`. -/
structure TxStats where
  txPackets : BitVec 64
  txBytes : BitVec 64
  txDropped : BitVec 64
  deriving DecidableEq, Inhabited

/-- `RingInfo`. -/
structure RingInfo where
  skb : Option SkBuff
  len : BitVec 32
  deriving DecidableEq

/-- An entry of `tx_skb` after `memset(..., 0x0, ...)`. -/
def RingInfo.empty : RingInfo := ⟨none, 0#32⟩

/-- The return values of `ndo_start_xmit`. -/
inductive NetdevTx where
  | ok
  | busy
  deriving DecidableEq

/-- The transmit path: the Tx fields of `DrvPvt`, `txDescNull` standing for
`TxDescArray == NULL`, the state of the Tx queue, and the traces of its effects. `sent` lists the
buffers counted in `tx_packets`; `ownedUnmaps` counts the buffers taken from a descriptor that
the NIC owned. -/
structure TxRing where
  curTx : BitVec 32
  dirtyTx : BitVec 32
  txDescNull : Bool
  txDescArray : Fin numTxDesc → Desc
  txSkb : Fin numTxDesc → RingInfo
  stats : TxStats
  queueStopped : Bool
  /-- What the driver has mapped and unmapped. -/
  dma : Ledger Mapping
  /-- What it has taken from the stack and freed. -/
  skbs : Ledger SkBuff
  /-- The buffers for which `NETDEV_TX_OK` was returned. -/
  accepted : List SkBuff
  sent : List SkBuff
  ownedUnmaps : ℕ

namespace TxRing

/-- The entry of a ring counter. -/
def entry (cur : BitVec 32) : Fin numTxDesc := slot numTxDesc cur

/-- `TX_BUFFS_AVAIL`. -/
def txBuffsAvail (r : TxRing) : BitVec 32 := r.dirtyTx + BitVec.ofNat 32 numTxDesc - r.curTx - 1#32

/-- `rtl8101_unmap_tx_skb`. -/
def unmapTxSkb (r : TxRing) (i : Fin numTxDesc) : TxRing :=
  { r with
    dma := r.dma.release ⟨(r.txDescArray i).addr, (r.txSkb i).len⟩
    ownedUnmaps := if (r.txDescArray i).own then r.ownedUnmaps + 1 else r.ownedUnmaps
    -- `RingEnd` goes too: `opts1 = 0x00`
    txDescArray := Function.update r.txDescArray i ⟨0#32, 0#32, 0#64⟩
    txSkb := Function.update r.txSkb i { r.txSkb i with len := 0#32 } }

/-- `dev_kfree_skb` of the buffer of an entry, and the `NULL` stored for it. -/
def freeTxSkb (r : TxRing) (i : Fin numTxDesc) : TxRing :=
  match (r.txSkb i).skb with
  | some skb =>
    { r with
      skbs := r.skbs.release skb
      txSkb := Function.update r.txSkb i { r.txSkb i with skb := none } }
  | none => r

/-- One turn of the loop of `rtl8101_tx_clear`. -/
def txClearEntry (r : TxRing) (i : Fin numTxDesc) : TxRing :=
  -- an entry counts as used by its length, not by its `skb`
  if (r.txSkb i).len ≠ 0#32 then
    let r := (r.unmapTxSkb i).freeTxSkb i
    { r with stats := { r.stats with txDropped := r.stats.txDropped + 1 } }
  else r

/-- The loop of `rtl8101_tx_clear` from the index `i`, up to the sum `dirty_tx + NUM_TX_DESC` of
32 bits. -/
def txClearFrom (stop : BitVec 32) (r : TxRing) (i : BitVec 32) : TxRing :=
  if i < stop then txClearFrom stop (r.txClearEntry (entry i)) (i + 1#32) else r
termination_by (stop - i).toNat
decreasing_by all_goals bv_omega

/-- `rtl8101_tx_clear`. -/
def txClear (r : TxRing) : TxRing :=
  let r := txClearFrom (r.dirtyTx + BitVec.ofNat 32 numTxDesc) r r.dirtyTx
  { r with curTx := 0#32, dirtyTx := 0#32 }

/-- The body of the reclaim loop, for a descriptor that the NIC has given back. -/
def txReclaim (r : TxRing) (i : Fin numTxDesc) : TxRing :=
  let status := (r.txDescArray i).opts1
  -- the length is read before `rtl8101_unmap_tx_skb` clears it
  let r := { r with
    stats := { r.stats with
      txBytes := r.stats.txBytes + (r.txSkb i).len.setWidth 64
      txPackets := r.stats.txPackets + 1 }
    sent := r.sent ++ (r.txSkb i).skb.toList }
  let r := r.unmapTxSkb i
  if hasBits status lastFrag then r.freeTxSkb i else r

/-- The reclaim loop of `rtl8101_tx_interrupt`, with `txLeft` turns left. -/
def txLoop : ℕ → TxRing → BitVec 32 → TxRing × BitVec 32
  | 0, r, dirty => (r, dirty)
  | txLeft + 1, r, dirty =>
    if (r.txDescArray (entry dirty)).own then (r, dirty)
    else txLoop txLeft (r.txReclaim (entry dirty)) (dirty + 1#32)

/-- The wake-up of a stopped queue in `rtl8101_tx_interrupt`. -/
def wakeQueue (maxSkbFrags : ℕ) (r : TxRing) : TxRing :=
  if r.queueStopped = true ∧ maxSkbFrags ≤ r.txBuffsAvail.toNat then
    { r with queueStopped := false }
  else r

/-- `rtl8101_tx_interrupt`. -/
def txInterrupt (maxSkbFrags : ℕ) (r : TxRing) : TxRing :=
  let (r', dirty) := txLoop (r.curTx - r.dirtyTx).toNat r r.dirtyTx
  if r'.dirtyTx ≠ dirty then wakeQueue maxSkbFrags { r' with dirtyTx := dirty } else r'

/-- The `err_stop` branch of `rtl8101_start_xmit`. -/
def errStop (r : TxRing) : TxRing × NetdevTx :=
  ({ r with
    queueStopped := true
    stats := { r.stats with txDropped := r.stats.txDropped + 1 } }, .busy)

/-- The descriptor word that `rtl8101_start_xmit` builds for a buffer of length `len`. -/
def xmitWord (i : Fin numTxDesc) (len : BitVec 32) : BitVec 32 :=
  descOwn ||| (firstFrag ||| lastFrag) |||
    (len ||| if ((i : ℕ) + 1) % numTxDesc = 0 then ringEnd else 0#32)

/-- `rtl8101_start_xmit`. The two writes of `opts1` around the barrier leave the word with
`DescOwn`; after `netif_stop_queue` a second look may wake the queue again. -/
def startXmit (maxSkbFrags : ℕ) (r : TxRing) (skb : SkBuff) : TxRing × NetdevTx :=
  let i := entry r.curTx
  if r.txBuffsAvail.toNat < skb.nrFrags.toNat then r.errStop
  else if (r.txDescArray i).own then r.errStop
  else
    let r := { r with
      txSkb := Function.update r.txSkb i ⟨some skb, skb.len⟩
      dma := r.dma.acquire ⟨skb.dma, skb.len⟩
      skbs := r.skbs.acquire skb
      accepted := r.accepted ++ [skb]
      txDescArray := Function.update r.txDescArray i ⟨xmitWord i skb.len, 0#32, skb.dma⟩
      curTx := r.curTx + 1#32 }
    let r :=
      if r.txBuffsAvail.toNat < maxSkbFrags then
        { r with queueStopped := if maxSkbFrags ≤ r.txBuffsAvail.toNat then false else true }
      else r
    (r, .ok)

end TxRing

/-! ## The transmitting NIC -/

/-- A descriptor as the NIC fetched it, with its index. -/
structure Fetched where
  index : ℕ
  desc : Desc
  deriving DecidableEq

/-- The NIC's place in the Tx ring: it fetches at `fetchPos`, and gives the fetched descriptors
back in order from `donePos` on; `released` counts those it has given back. -/
structure TxNic where
  fetchPos : ℕ
  donePos : ℕ
  inFlight : ℕ
  fetched : List Fetched
  released : ℕ

/-- The NIC fetches the descriptor at its position, if that descriptor is its own. -/
def TxNic.fetch (nic : TxNic) (r : TxRing) : Option TxNic :=
  if h : nic.fetchPos < numTxDesc then
    let d := r.txDescArray ⟨nic.fetchPos, h⟩
    if d.own then
      some { nic with
        fetchPos := nextPos nic.fetchPos d
        inFlight := nic.inFlight + 1
        fetched := nic.fetched ++ [⟨nic.fetchPos, d⟩] }
    else none
  else none

/-- A descriptor that the NIC is done with: only `DescOwn` is cleared. -/
def Desc.release (d : Desc) : Desc := { d with opts1 := d.opts1 &&& ~~~descOwn }

@[simp] theorem Desc.release_own (d : Desc) : d.release.own = false := by
  simp [Desc.own, Desc.release, hasBits_and isFlag_descOwn, hasBits_not isFlag_descOwn,
    hasBits_self isFlag_descOwn]

@[simp] theorem Desc.release_addr (d : Desc) : d.release.addr = d.addr := rfl

/-- Giving a descriptor back keeps every flag but `DescOwn`. -/
theorem Desc.release_flag {flag : BitVec 32} (h : IsFlag flag) (hne : hasBits descOwn flag = false)
    (d : Desc) : hasBits d.release.opts1 flag = hasBits d.opts1 flag := by
  simp [Desc.release, hasBits_and h, hasBits_not h, hne]

/-- The NIC gives the oldest fetched descriptor back. -/
def nicComplete (r : TxRing) (nic : TxNic) : Option (TxRing × TxNic) :=
  if h : nic.donePos < numTxDesc then
    let d := r.txDescArray ⟨nic.donePos, h⟩
    if nic.inFlight = 0 then none
    else
      some ({ r with txDescArray := Function.update r.txDescArray ⟨nic.donePos, h⟩ d.release },
        { nic with
          donePos := nextPos nic.donePos d
          inFlight := nic.inFlight - 1
          released := nic.released + 1 })
  else none

/-- The ring after the NIC gave the descriptor `i` back. -/
def TxRing.completed (r : TxRing) (i : Fin numTxDesc) : TxRing :=
  { r with txDescArray := Function.update r.txDescArray i (r.txDescArray i).release }

theorem TxNic.fetch_eq_some {nic nic' : TxNic} {r : TxRing} (h : nic.fetch r = some nic') :
    ∃ i : Fin numTxDesc, nic.fetchPos = i ∧ (r.txDescArray i).own = true ∧ nic' = { nic with
      fetchPos := nextPos i (r.txDescArray i)
      inFlight := nic.inFlight + 1
      fetched := nic.fetched ++ [⟨i, r.txDescArray i⟩] } := by
  unfold TxNic.fetch at h
  split_ifs at h with hpos
  dsimp only at h
  split_ifs at h with hown
  cases h
  exact ⟨⟨nic.fetchPos, hpos⟩, rfl, hown, rfl⟩

theorem nicComplete_eq_some {r r' : TxRing} {nic nic' : TxNic}
    (h : nicComplete r nic = some (r', nic')) :
    ∃ i : Fin numTxDesc, nic.donePos = i ∧ nic.inFlight ≠ 0 ∧ r' = r.completed i ∧ nic' = { nic with
      donePos := nextPos i (r.txDescArray i)
      inFlight := nic.inFlight - 1
      released := nic.released + 1 } := by
  unfold nicComplete at h
  split_ifs at h with hpos hflight
  cases h
  exact ⟨⟨nic.donePos, hpos⟩, rfl, hflight, rfl, rfl⟩

namespace TxRing

/-! ## The loops, on positions -/

/-- A reclaim pass from the position `p` to the position `q`. -/
inductive TxPass : TxRing → ℕ → TxRing → ℕ → Prop
  | done (r : TxRing) (p : ℕ) : TxPass r p r p
  | next {r r' : TxRing} {p q : ℕ} :
      (r.txDescArray (pos numTxDesc p)).own = false →
        TxPass (r.txReclaim (pos numTxDesc p)) (p + 1) r' q → TxPass r p r' q

theorem entry_ofNat (p : ℕ) : entry (BitVec.ofNat 32 p) = pos numTxDesc p :=
  slot_ofNat numTxDesc_dvd p

/-- **The reclaim loop**, with `n` turns: it stops after `n` descriptors, or at one that the NIC
still owns. -/
theorem txLoop_txPass (n : ℕ) : ∀ (r : TxRing) (p : ℕ), ∃ r' q,
    txLoop n r (BitVec.ofNat 32 p) = (r', BitVec.ofNat 32 q) ∧ TxPass r p r' q ∧
    p ≤ q ∧ q ≤ p + n ∧ (q < p + n → (r'.txDescArray (pos numTxDesc q)).own = true) := by
  induction n with
  | zero => exact fun r p => ⟨r, p, rfl, .done r p, le_rfl, le_rfl, fun h => absurd h (by omega)⟩
  | succ n ih =>
    intro r p
    rw [txLoop, entry_ofNat, ofNat_succ]
    cases hown : (r.txDescArray (pos numTxDesc p)).own with
    | true => exact ⟨r, p, by simp, .done r p, le_rfl, by omega, fun _ => hown⟩
    | false =>
      obtain ⟨r', q, he, hrun, hpq, hq, hstop⟩ := ih (r.txReclaim (pos numTxDesc p)) (p + 1)
      refine ⟨r', q, by simpa using he, .next hown hrun, by omega, by omega, ?_⟩
      intro hlt
      exact hstop (by omega)

theorem TxPass.le {r r' : TxRing} {p q : ℕ} (h : TxPass r p r' q) : p ≤ q := by
  induction h with
  | done => exact le_rfl
  | next _ _ ih => omega

/-- The parts of the ring that the reclaim loop and the clearing loop do not write. -/
structure SameFrame (r r' : TxRing) : Prop where
  curTx : r'.curTx = r.curTx
  dirtyTx : r'.dirtyTx = r.dirtyTx
  txDescNull : r'.txDescNull = r.txDescNull
  queueStopped : r'.queueStopped = r.queueStopped
  accepted : r'.accepted = r.accepted

theorem SameFrame.refl (r : TxRing) : SameFrame r r := ⟨rfl, rfl, rfl, rfl, rfl⟩

theorem SameFrame.trans {r₁ r₂ r₃ : TxRing} (h : SameFrame r₁ r₂) (h' : SameFrame r₂ r₃) :
    SameFrame r₁ r₃ :=
  ⟨h'.1.trans h.1, h'.2.trans h.2, h'.3.trans h.3, h'.4.trans h.4, h'.5.trans h.5⟩

theorem freeTxSkb_sameFrame (r : TxRing) (i : Fin numTxDesc) : SameFrame r (r.freeTxSkb i) := by
  unfold freeTxSkb
  split <;> exact ⟨rfl, rfl, rfl, rfl, rfl⟩

theorem unmapTxSkb_sameFrame (r : TxRing) (i : Fin numTxDesc) : SameFrame r (r.unmapTxSkb i) :=
  ⟨rfl, rfl, rfl, rfl, rfl⟩

theorem txReclaim_sameFrame (r : TxRing) (i : Fin numTxDesc) : SameFrame r (r.txReclaim i) := by
  unfold txReclaim
  dsimp only
  split
  · have h := freeTxSkb_sameFrame (unmapTxSkb { r with
      stats := { r.stats with
        txBytes := r.stats.txBytes + (r.txSkb i).len.setWidth 64
        txPackets := r.stats.txPackets + 1 }
      sent := r.sent ++ (r.txSkb i).skb.toList } i) i
    exact ⟨h.1, h.2, h.3, h.4, h.5⟩
  · exact ⟨rfl, rfl, rfl, rfl, rfl⟩

theorem TxPass.sameFrame {r r' : TxRing} {p q : ℕ} (h : TxPass r p r' q) : SameFrame r r' := by
  induction h with
  | done r p => exact .refl r
  | next _ _ ih => exact (txReclaim_sameFrame _ _).trans ih

theorem txClearEntry_sameFrame (r : TxRing) (i : Fin numTxDesc) :
    SameFrame r (r.txClearEntry i) := by
  unfold txClearEntry
  dsimp only
  split_ifs
  · have h := (unmapTxSkb_sameFrame r i).trans (freeTxSkb_sameFrame (r.unmapTxSkb i) i)
    exact ⟨h.1, h.2, h.3, h.4, h.5⟩
  · exact .refl r

theorem txLoop_sameFrame (n : ℕ) (r : TxRing) (dirty : BitVec 32) :
    SameFrame r (txLoop n r dirty).1 := by
  obtain ⟨r', q, he, hpass, -⟩ := txLoop_txPass n r dirty.toNat
  rw [BitVec.ofNat_toNat, BitVec.setWidth_eq] at he
  rw [he]
  exact hpass.sameFrame

theorem txInterrupt_txDescNull (maxSkbFrags : ℕ) (r : TxRing) :
    (r.txInterrupt maxSkbFrags).txDescNull = r.txDescNull := by
  unfold txInterrupt wakeQueue
  dsimp only
  split_ifs <;> exact (txLoop_sameFrame _ _ _).txDescNull

theorem startXmit_txDescNull (maxSkbFrags : ℕ) (r : TxRing) (skb : SkBuff) :
    (r.startXmit maxSkbFrags skb).1.txDescNull = r.txDescNull := by
  unfold startXmit
  dsimp only
  split_ifs <;> rfl

theorem startXmit_dirtyTx (maxSkbFrags : ℕ) (r : TxRing) (skb : SkBuff) :
    (r.startXmit maxSkbFrags skb).1.dirtyTx = r.dirtyTx := by
  unfold startXmit
  dsimp only
  split_ifs <;> rfl

/-- `accepted` gets the buffers for which `NETDEV_TX_OK` is returned, and no others. -/
theorem startXmit_accepted (maxSkbFrags : ℕ) (r : TxRing) (skb : SkBuff) :
    (r.startXmit maxSkbFrags skb).1.accepted =
      if (r.startXmit maxSkbFrags skb).2 = .ok then r.accepted ++ [skb] else r.accepted := by
  unfold startXmit
  dsimp only
  split_ifs <;> simp_all [errStop]

theorem startXmit_ok_iff (maxSkbFrags : ℕ) (r : TxRing) (skb : SkBuff) :
    (r.startXmit maxSkbFrags skb).2 = .ok ↔
      (r.startXmit maxSkbFrags skb).1.accepted = r.accepted ++ [skb] := by
  rw [startXmit_accepted]
  split_ifs with hok
  · exact iff_of_true hok rfl
  · exact iff_of_false hok (by simp)

/-- Nothing is reclaimed from an empty ring. -/
theorem txInterrupt_of_eq (maxSkbFrags : ℕ) {r : TxRing} (h : r.curTx = r.dirtyTx) :
    r.txInterrupt maxSkbFrags = r := by
  simp [txInterrupt, h, txLoop]

theorem txClear_txDescNull (r : TxRing) : r.txClear.txDescNull = r.txDescNull := by
  have hfrom : ∀ stop i, (txClearFrom stop r i).txDescNull = r.txDescNull := by
    intro stop i
    fun_induction txClearFrom stop r i with
    | case1 r i hlt ih => exact ih.trans (txClearEntry_sameFrame r _).txDescNull
    | case2 r i hlt => rfl
  exact hfrom _ _

theorem txBuffsAvail_ofNat {r : TxRing} {C D : ℕ} (hcur : r.curTx = BitVec.ofNat 32 C)
    (hdirty : r.dirtyTx = BitVec.ofNat 32 D) (hDC : D ≤ C) (hCD : C < D + numTxDesc) :
    r.txBuffsAvail.toNat = D + numTxDesc - 1 - C := by
  have hone : (1#32) = BitVec.ofNat 32 1 := rfl
  rw [txBuffsAvail, hcur, hdirty, ← BitVec.ofNat_add, ofNat_sub_ofNat (by omega), hone,
    ofNat_sub_ofNat (by omega), BitVec.toNat_ofNat, Nat.mod_eq_of_lt]
  · omega
  · have := numTxDesc_eq
    omega

/-- **`rtl8101_tx_interrupt`**, on the positions `C` and `D` behind `cur_tx` and `dirty_tx`: a
reclaim pass to a position `D'`; if it got anywhere, a stopped queue is woken when enough
descriptors are free. -/
theorem txInterrupt_spec (maxSkbFrags : ℕ) {r : TxRing} {C D : ℕ}
    (hcur : r.curTx = BitVec.ofNat 32 C) (hdirty : r.dirtyTx = BitVec.ofNat 32 D) (hDC : D ≤ C)
    (hCD : C < D + numTxDesc) :
    ∃ r₁ D', TxPass r D r₁ D' ∧ D ≤ D' ∧ D' ≤ C ∧
      (D' < C → (r₁.txDescArray (pos numTxDesc D')).own = true) ∧
      txInterrupt maxSkbFrags r = { r₁ with
        dirtyTx := BitVec.ofNat 32 D'
        queueStopped := if D < D' ∧ maxSkbFrags ≤ D' + numTxDesc - 1 - C then false
          else r.queueStopped } := by
  have hleft : (r.curTx - r.dirtyTx).toNat = C - D := by
    rw [hcur, hdirty]
    exact toNat_ofNat_sub hDC (by have := numTxDesc_eq; omega)
  obtain ⟨r₁, D', hloop, hpass, hDD', hD'C, hown⟩ := txLoop_txPass (C - D) r D
  have hframe := hpass.sameFrame
  have hd₁ : r₁.dirtyTx = BitVec.ofNat 32 D := hframe.dirtyTx.trans hdirty
  have hq₁ : r₁.queueStopped = r.queueStopped := hframe.queueStopped
  refine ⟨r₁, D', hpass, hDD', by omega, fun h => hown (by omega), ?_⟩
  have havail : ({ r₁ with dirtyTx := BitVec.ofNat 32 D' } : TxRing).txBuffsAvail.toNat =
      D' + numTxDesc - 1 - C :=
    txBuffsAvail_ofNat (hframe.curTx.trans hcur) rfl (by omega) (by omega)
  rw [← hleft, ← hdirty] at hloop
  rw [← hq₁]
  simp only [txInterrupt, wakeQueue, hloop, hd₁, havail]
  by_cases hmove : D < D'
  · have hne : BitVec.ofNat 32 D ≠ BitVec.ofNat 32 D' := by
      intro he
      exact absurd (ofNat_inj hDD' (by have := numTxDesc_eq; omega) he) (by omega)
    rw [if_pos hne]
    by_cases hm : maxSkbFrags ≤ D' + numTxDesc - 1 - C <;> cases hq : r₁.queueStopped <;>
      simp [hmove, hm, ← hq]
  · obtain rfl : D = D' := by omega
    simp [← hd₁]

/-- Below the end of the counter range the clearing loop visits consecutive positions. -/
theorem txClearFrom_eq (n : ℕ) : ∀ (r : TxRing) (p : ℕ), p + n < 2 ^ 32 →
    txClearFrom (BitVec.ofNat 32 (p + n)) r (BitVec.ofNat 32 p) =
      (List.range' p n).foldl (fun r p => r.txClearEntry (pos numTxDesc p)) r := by
  induction n with
  | zero =>
    intro r p hp
    rw [txClearFrom, if_neg]
    · simp
    · simp
  | succ n ih =>
    intro r p hp
    -- the loop compares the indexes with `<`: both are below `2 ^ 32`, so the order is that of
    -- the positions
    have hlt : BitVec.ofNat 32 p < BitVec.ofNat 32 (p + (n + 1)) := by
      rw [BitVec.lt_def, BitVec.toNat_ofNat, BitVec.toNat_ofNat, Nat.mod_eq_of_lt (by omega),
        Nat.mod_eq_of_lt hp]
      omega
    rw [txClearFrom, if_pos hlt, entry_ofNat, ofNat_succ, show p + (n + 1) = p + 1 + n by omega,
      ih _ (p + 1) (by omega), List.range'_succ, List.foldl_cons]

/-- **`rtl8101_tx_clear` visits every slot**, when `dirty_tx + NUM_TX_DESC` does not wrap. -/
theorem txClear_eq {r : TxRing} (h : r.dirtyTx.toNat + numTxDesc < 2 ^ 32) :
    r.txClear = { (List.range' r.dirtyTx.toNat numTxDesc).foldl
      (fun r p => r.txClearEntry (pos numTxDesc p)) r with curTx := 0#32, dirtyTx := 0#32 } := by
  have hd : r.dirtyTx = BitVec.ofNat 32 r.dirtyTx.toNat := by simp
  have hfrom := txClearFrom_eq numTxDesc r r.dirtyTx.toNat h
  rw [BitVec.ofNat_add, ← hd] at hfrom
  rw [txClear, hfrom]

/-- **`rtl8101_tx_clear` visits no slot**, when `dirty_tx + NUM_TX_DESC` wraps: the bound of the
loop is then below `dirty_tx`. -/
theorem txClear_of_wrap {r : TxRing} (h : 2 ^ 32 ≤ r.dirtyTx.toNat + numTxDesc) :
    r.txClear = { r with curTx := 0#32, dirtyTx := 0#32 } := by
  have hstay : txClearFrom (r.dirtyTx + BitVec.ofNat 32 numTxDesc) r r.dirtyTx = r := by
    rw [txClearFrom, if_neg]
    rw [BitVec.lt_def, BitVec.toNat_add, BitVec.toNat_ofNat]
    have := numTxDesc_eq
    have := r.dirtyTx.isLt
    omega
  rw [txClear, hstay]

end TxRing

end Rtl8101
