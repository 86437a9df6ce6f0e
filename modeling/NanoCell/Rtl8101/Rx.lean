import NanoCell.Lib.Ledger
import NanoCell.Rtl8101.Desc

/-!
# The receive path

The Rx half of `Solutions/Rt8169Drv/net_stk.c`: the ring of `NUM_RX_DESC` descriptors with its
buffers, the refill, the receive loop and the NIC that writes frames into the ring. `RxRing` holds
the Rx fields of `DrvPvt` and of `dev->stats`, the memory behind the buffers, and what the driver
did to the outside: the mappings it took and returned, the packets it handed up, and its faults.

## Main definitions

* `RxRing`: the state of the receive path
* `RxRing.rxFill`, `RxRing.rxClear`, `RxRing.rxInterrupt`: `rtl8101_rx_fill`, `rtl8101_rx_clear`
  and `rtl8101_rx_interrupt`
* `RxNic`, `nicReceive`: the receiving NIC

## Main results

* `RxRing.rxFillFrom_fillRun`: the refill, read on positions instead of 32-bit counters
* `RxRing.rxLoop_rxPass`: the receive loop, read on positions
* `RxRing.rxInterrupt_spec`: `rtl8101_rx_interrupt` is a receive pass followed by a refill
-/

namespace Rtl8101

open Counter

/-- The Rx counters of `dev->stats`, of type `unsigned long`. -/
structure RxStats where
  rxPackets : BitVec 64
  rxBytes : BitVec 64
  rxErrors : BitVec 64
  rxLengthErrors : BitVec 64
  rxCrcErrors : BitVec 64
  deriving DecidableEq, Inhabited

/-- What the kernel would report of a misused buffer: the dereference of a `NULL` entry of
`rx_skbuff`, and the unmapping of an address that is not mapped. -/
inductive Fault where
  | nullSkb (entry : Fin numRxDesc)
  | unmapDead (m : Mapping)
  deriving DecidableEq

/-- A packet handed to the network stack: the buffer after `skb_put`, and the bytes in it. -/
structure Packet where
  skb : SkBuff
  data : List (BitVec 8)
  deriving DecidableEq

/-- The receive path: the Rx fields of `DrvPvt`, `rxDescNull` standing for `RxDescArray == NULL`,
and the traces of its effects. -/
structure RxRing where
  curRx : BitVec 32
  dirtyRx : BitVec 32
  rxDescNull : Bool
  rxDescArray : Fin numRxDesc → Desc
  rxSkbuff : Fin numRxDesc → Option SkBuff
  rxBufSz : BitVec 32
  stats : RxStats
  /-- The memory behind the buffers, by bus address. -/
  mem : BitVec 64 → List (BitVec 8)
  /-- `pci_map_single`, `pci_unmap_single`. -/
  dma : Ledger Mapping
  /-- `dev_alloc_skb`, and the buffers freed or handed to the stack. -/
  skbs : Ledger SkBuff
  handedUp : List Packet
  faults : List Fault

namespace RxRing

/-- The entry of a ring counter. -/
def entry (cur : BitVec 32) : Fin numRxDesc := slot numRxDesc cur

/-- `pci_unmap_single(..., PCI_DMA_FROMDEVICE)`. -/
def pciUnmapSingle (r : RxRing) (m : Mapping) : RxRing :=
  { r with
    dma := r.dma.release m
    faults := if m ∈ r.dma.live then r.faults else r.faults ++ [.unmapDead m] }

/-- `rtl8101_alloc_rx_skb`; `none` stands for `-ENOMEM`. -/
def allocRxSkb (a : Allocator) (r : RxRing) (i : Fin numRxDesc) : Option RxRing :=
  match a.outcome r.dma.live with
  | none => none
  | some mapping =>
    let skb := (devAllocSkb mapping (r.rxBufSz + rtkRxAlign)).reserve rtkRxAlign
    some { r with
      skbs := r.skbs.acquire skb
      rxSkbuff := Function.update r.rxSkbuff i (some skb)
      dma := r.dma.acquire ⟨mapping, r.rxBufSz⟩
      rxDescArray :=
        Function.update r.rxDescArray i ((r.rxDescArray i).mapToAsic mapping r.rxBufSz) }

/-- `rtl8101_free_rx_skb`. -/
def freeRxSkb (r : RxRing) (i : Fin numRxDesc) (skb : SkBuff) : RxRing :=
  let r := r.pciUnmapSingle ⟨(r.rxDescArray i).addr, r.rxBufSz⟩
  { r with
    skbs := r.skbs.release skb
    rxSkbuff := Function.update r.rxSkbuff i none
    rxDescArray := Function.update r.rxDescArray i (r.rxDescArray i).makeUnusableByAsic }

/-- The loop of `rtl8101_rx_fill` from the index `cur`: the ring and the index at which it ends.
`alloc cur` is the outcome of the allocation at the index `cur`. -/
def rxFillFrom (alloc : BitVec 32 → Allocator) (stop : BitVec 32) (r : RxRing) (cur : BitVec 32) :
    RxRing × BitVec 32 :=
  if stop - cur = 0#32 then (r, cur)
  else
    match r.rxSkbuff (entry cur) with
    | some _ => rxFillFrom alloc stop r (cur + 1#32)
    | none =>
      match allocRxSkb (alloc cur) r (entry cur) with
      | none => (r, cur)
      | some r' => rxFillFrom alloc stop r' (cur + 1#32)
termination_by (stop - cur).toNat
decreasing_by all_goals bv_omega

/-- `rtl8101_rx_fill`. -/
def rxFill (alloc : BitVec 32 → Allocator) (r : RxRing) (start stop : BitVec 32) :
    RxRing × BitVec 32 :=
  let (r, cur) := rxFillFrom alloc stop r start
  (r, cur - start)

/-- One turn of the loop of `rtl8101_rx_clear`. -/
def rxClearEntry (r : RxRing) (i : Fin numRxDesc) : RxRing :=
  match r.rxSkbuff i with
  | some skb => r.freeRxSkb i skb
  | none => r

/-- `rtl8101_rx_clear`. -/
def rxClear (r : RxRing) : RxRing := (List.finRange numRxDesc).foldl rxClearEntry r

/-- The error branch of the receive loop. -/
def rxError (r : RxRing) (i : Fin numRxDesc) (status : BitVec 32) : RxRing :=
  { r with
    stats := { r.stats with
      rxErrors := r.stats.rxErrors + 1
      rxLengthErrors :=
        if hasBits status (rxRwt ||| rxRunt) then r.stats.rxLengthErrors + 1
        else r.stats.rxLengthErrors
      rxCrcErrors :=
        if hasBits status rxCrc then r.stats.rxCrcErrors + 1 else r.stats.rxCrcErrors }
    rxDescArray := Function.update r.rxDescArray i ((r.rxDescArray i).markToAsic r.rxBufSz) }

/-- The good-packet branch of the receive loop. The packet size is an `int`: it is passed to
`skb_put` as an unsigned length, and sign-extended into `rx_bytes`. -/
def rxGood (r : RxRing) (i : Fin numRxDesc) (status : BitVec 32) : RxRing :=
  let pktSize := lenField status - 4#32
  -- the buffer is unmapped before anything looks at `skb`
  let r := r.pciUnmapSingle ⟨(r.rxDescArray i).addr, r.rxBufSz⟩
  match r.rxSkbuff i with
  | none => { r with faults := r.faults ++ [.nullSkb i] }
  | some skb =>
    { r with
      rxSkbuff := Function.update r.rxSkbuff i none
      skbs := r.skbs.release skb
      handedUp := r.handedUp ++ [⟨skb.put pktSize, (r.mem skb.dma).take pktSize.toNat⟩]
      stats := { r.stats with
        rxBytes := r.stats.rxBytes + pktSize.signExtend 64
        rxPackets := r.stats.rxPackets + 1 } }

/-- The body of the receive loop, for a descriptor that the NIC has given back. -/
def rxEntry (r : RxRing) (i : Fin numRxDesc) : RxRing :=
  let status := (r.rxDescArray i).opts1
  if hasBits status rxRes then r.rxError i status else r.rxGood i status

/-- The receive loop of `rtl8101_rx_interrupt`, with `rxLeft` turns left. -/
def rxLoop : ℕ → RxRing → BitVec 32 → RxRing × BitVec 32
  | 0, r, cur => (r, cur)
  | rxLeft + 1, r, cur =>
    if (r.rxDescArray (entry cur)).own then (r, cur)
    else rxLoop rxLeft (r.rxEntry (entry cur)) (cur + 1#32)

/-- `rtl8101_rx_interrupt`: the ring and the number of descriptors processed. -/
def rxInterrupt (alloc : BitVec 32 → Allocator) (r : RxRing) (budget : BitVec 32) :
    RxRing × BitVec 32 :=
  let rxLeft := BitVec.ofNat 32 numRxDesc + r.dirtyRx - r.curRx
  let rxLeft := if rxLeft ≤ budget then rxLeft else budget
  if r.rxDescNull then (r, 0#32)
  else
    let (r', cur) := rxLoop rxLeft.toNat r r.curRx
    let count := cur - r'.curRx
    let r' := { r' with curRx := cur }
    let (r', delta) := rxFill alloc r' r'.dirtyRx r'.curRx
    ({ r' with dirtyRx := r'.dirtyRx + delta }, count)

end RxRing

namespace RxRing

/-! ## The loops, on positions

The indexes are free-running 32-bit counters. Each loop is read as a relation on the unbounded
positions they truncate; from here on nothing mentions their wrap-around. -/

/-- A refill from the position `p` to the position `q`: it skips the slots that hold a buffer and
allocates one for each empty slot. -/
inductive FillRun (alloc : BitVec 32 → Allocator) : RxRing → ℕ → RxRing → ℕ → Prop
  | done (r : RxRing) (p : ℕ) : FillRun alloc r p r p
  | skip {r r' : RxRing} {p q : ℕ} {skb : SkBuff} :
      r.rxSkbuff (pos numRxDesc p) = some skb → FillRun alloc r (p + 1) r' q →
        FillRun alloc r p r' q
  | fill {r r₁ r' : RxRing} {p q : ℕ} :
      r.rxSkbuff (pos numRxDesc p) = none →
        allocRxSkb (alloc (BitVec.ofNat 32 p)) r (pos numRxDesc p) = some r₁ →
        FillRun alloc r₁ (p + 1) r' q → FillRun alloc r p r' q

/-- A receive pass from the position `p` to the position `q`: it processes the descriptors that
the NIC has given back. -/
inductive RxPass : RxRing → ℕ → RxRing → ℕ → Prop
  | done (r : RxRing) (p : ℕ) : RxPass r p r p
  | next {r r' : RxRing} {p q : ℕ} :
      (r.rxDescArray (pos numRxDesc p)).own = false →
        RxPass (r.rxEntry (pos numRxDesc p)) (p + 1) r' q → RxPass r p r' q

theorem entry_ofNat (p : ℕ) : entry (BitVec.ofNat 32 p) = pos numRxDesc p :=
  slot_ofNat numRxDesc_dvd p

theorem FillRun.le {alloc : BitVec 32 → Allocator} {r r' : RxRing} {p q : ℕ}
    (h : FillRun alloc r p r' q) : p ≤ q := by
  induction h with
  | done => exact le_rfl
  | skip _ _ ih => omega
  | fill _ _ _ ih => omega

theorem RxPass.le {r r' : RxRing} {p q : ℕ} (h : RxPass r p r' q) : p ≤ q := by
  induction h with
  | done => exact le_rfl
  | next _ _ ih => omega

/-- **The refill loop**, over a distance `n` that the 32-bit indexes can express: it stops at the
end, or at an empty slot whose allocation fails. -/
theorem rxFillFrom_fillRun (alloc : BitVec 32 → Allocator) (n : ℕ) (hn : n < 2 ^ 32) :
    ∀ (r : RxRing) (p : ℕ), ∃ r' q,
      rxFillFrom alloc (BitVec.ofNat 32 (p + n)) r (BitVec.ofNat 32 p) = (r', BitVec.ofNat 32 q) ∧
      FillRun alloc r p r' q ∧ q ≤ p + n ∧
      (q < p + n → r'.rxSkbuff (pos numRxDesc q) = none ∧
        (alloc (BitVec.ofNat 32 q)).outcome r'.dma.live = none) := by
  induction n with
  | zero =>
    intro r p
    refine ⟨r, p, ?_, .done r p, le_rfl, fun h => absurd h (by omega)⟩
    rw [rxFillFrom, Nat.add_zero, if_pos (BitVec.sub_self _)]
  | succ n ih =>
    intro r p
    have hne : BitVec.ofNat 32 (p + (n + 1)) - BitVec.ofNat 32 p ≠ 0#32 := by
      intro h0
      have hd : (BitVec.ofNat 32 (p + (n + 1)) - BitVec.ofNat 32 p).toNat = p + (n + 1) - p :=
        toNat_ofNat_sub (by omega) (by omega)
      rw [h0, BitVec.toNat_zero] at hd
      omega
    have hsucc : p + (n + 1) = p + 1 + n := by omega
    rw [rxFillFrom, if_neg hne, entry_ofNat, ofNat_succ, hsucc]
    cases hslot : r.rxSkbuff (pos numRxDesc p) with
    | some skb =>
      obtain ⟨r', q, he, hrun, hq, hstop⟩ := ih (by omega) r (p + 1)
      exact ⟨r', q, he, .skip hslot hrun, hq, hstop⟩
    | none =>
      -- an empty slot: the loop breaks if its allocation fails
      cases halloc : allocRxSkb (alloc (BitVec.ofNat 32 p)) r (pos numRxDesc p) with
      | none =>
        refine ⟨r, p, rfl, .done r p, by omega, fun _ => ⟨hslot, ?_⟩⟩
        unfold allocRxSkb at halloc
        split at halloc
        · assumption
        · cases halloc
      | some r₁ =>
        obtain ⟨r', q, he, hrun, hq, hstop⟩ := ih (by omega) r₁ (p + 1)
        exact ⟨r', q, he, .fill hslot halloc hrun, hq, hstop⟩

/-- `rtl8101_rx_fill` between two positions: a refill run, and the number of slots it passed. -/
theorem rxFill_spec (alloc : BitVec 32 → Allocator) (r : RxRing) (start stop : ℕ)
    (hle : start ≤ stop) (hlt : stop - start < 2 ^ 32) :
    ∃ r' q, rxFill alloc r (BitVec.ofNat 32 start) (BitVec.ofNat 32 stop) =
        (r', BitVec.ofNat 32 (q - start)) ∧
      FillRun alloc r start r' q ∧ q ≤ stop ∧
      (q < stop → r'.rxSkbuff (pos numRxDesc q) = none ∧
        (alloc (BitVec.ofNat 32 q)).outcome r'.dma.live = none) := by
  obtain ⟨r', q, he, hrun, hq, hstop⟩ := rxFillFrom_fillRun alloc (stop - start) hlt r start
  rw [Nat.add_sub_cancel' hle] at he hq hstop
  refine ⟨r', q, ?_, hrun, hq, hstop⟩
  simp only [rxFill, he, ofNat_sub_ofNat hrun.le]

/-- **The receive loop**, with `n` turns: it stops after `n` descriptors, or at one that the NIC
still owns. -/
theorem rxLoop_rxPass (n : ℕ) : ∀ (r : RxRing) (p : ℕ), ∃ r' q,
    rxLoop n r (BitVec.ofNat 32 p) = (r', BitVec.ofNat 32 q) ∧ RxPass r p r' q ∧
    p ≤ q ∧ q ≤ p + n ∧ (q < p + n → (r'.rxDescArray (pos numRxDesc q)).own = true) := by
  induction n with
  | zero => exact fun r p => ⟨r, p, rfl, .done r p, le_rfl, le_rfl, fun h => absurd h (by omega)⟩
  | succ n ih =>
    intro r p
    rw [rxLoop, entry_ofNat, ofNat_succ]
    cases hown : (r.rxDescArray (pos numRxDesc p)).own with
    | true => exact ⟨r, p, by simp, .done r p, le_rfl, by omega, fun _ => hown⟩
    | false =>
      obtain ⟨r', q, he, hrun, hpq, hq, hstop⟩ := ih (r.rxEntry (pos numRxDesc p)) (p + 1)
      refine ⟨r', q, by simpa using he, .next hown hrun, by omega, by omega, ?_⟩
      intro hlt
      exact hstop (by omega)

/-! ## What the loops leave alone -/

/-- The parts of the ring that neither loop writes. -/
structure SameFrame (r r' : RxRing) : Prop where
  curRx : r'.curRx = r.curRx
  dirtyRx : r'.dirtyRx = r.dirtyRx
  rxDescNull : r'.rxDescNull = r.rxDescNull
  rxBufSz : r'.rxBufSz = r.rxBufSz
  mem : r'.mem = r.mem

theorem SameFrame.refl (r : RxRing) : SameFrame r r := ⟨rfl, rfl, rfl, rfl, rfl⟩

theorem SameFrame.trans {r₁ r₂ r₃ : RxRing} (h : SameFrame r₁ r₂) (h' : SameFrame r₂ r₃) :
    SameFrame r₁ r₃ :=
  ⟨h'.1.trans h.1, h'.2.trans h.2, h'.3.trans h.3, h'.4.trans h.4, h'.5.trans h.5⟩

theorem rxEntry_sameFrame (r : RxRing) (i : Fin numRxDesc) : SameFrame r (r.rxEntry i) := by
  unfold rxEntry rxError rxGood pciUnmapSingle
  dsimp only
  split
  · exact ⟨rfl, rfl, rfl, rfl, rfl⟩
  · split <;> exact ⟨rfl, rfl, rfl, rfl, rfl⟩

theorem RxPass.sameFrame {r r' : RxRing} {p q : ℕ} (h : RxPass r p r' q) : SameFrame r r' := by
  induction h with
  | done r p => exact .refl r
  | next _ _ ih => exact (rxEntry_sameFrame _ _).trans ih

theorem allocRxSkb_sameFrame {a : Allocator} {r r' : RxRing} {i : Fin numRxDesc}
    (h : allocRxSkb a r i = some r') : SameFrame r r' := by
  unfold allocRxSkb at h
  split at h
  · cases h
  · cases h
    exact ⟨rfl, rfl, rfl, rfl, rfl⟩

theorem FillRun.sameFrame {alloc : BitVec 32 → Allocator} {r r' : RxRing} {p q : ℕ}
    (h : FillRun alloc r p r' q) : SameFrame r r' := by
  induction h with
  | done r p => exact .refl r
  | skip _ _ ih => exact ih
  | fill _ halloc _ ih => exact (allocRxSkb_sameFrame halloc).trans ih

theorem rxLoop_sameFrame (n : ℕ) (r : RxRing) (cur : BitVec 32) :
    SameFrame r (rxLoop n r cur).1 := by
  obtain ⟨r', q, he, hpass, -⟩ := rxLoop_rxPass n r cur.toNat
  rw [BitVec.ofNat_toNat, BitVec.setWidth_eq] at he
  rw [he]
  exact hpass.sameFrame

/-- `rtl8101_rx_fill` between any two counters is a refill run. -/
theorem rxFill_fillRun (alloc : BitVec 32 → Allocator) (r : RxRing) (start stop : BitVec 32) :
    ∃ p q, FillRun alloc r p (rxFill alloc r start stop).1 q := by
  obtain ⟨r', q, he, hrun, -⟩ := rxFillFrom_fillRun alloc (stop - start).toNat (by omega) r
    start.toNat
  rw [BitVec.ofNat_add, BitVec.ofNat_toNat, BitVec.ofNat_toNat, BitVec.setWidth_eq,
    BitVec.setWidth_eq, BitVec.add_comm, BitVec.sub_add_cancel] at he
  rw [rxFill, he]
  exact ⟨_, _, hrun⟩

theorem rxFill_sameFrame (alloc : BitVec 32 → Allocator) (r : RxRing) (start stop : BitVec 32) :
    SameFrame r (rxFill alloc r start stop).1 := by
  obtain ⟨p, q, hrun⟩ := rxFill_fillRun alloc r start stop
  exact hrun.sameFrame

/-- `rtl8101_rx_interrupt` without its positions: some turns of the receive loop, and a refill. -/
theorem rxInterrupt_cases (alloc : BitVec 32 → Allocator) (r : RxRing) (budget : BitVec 32) :
    (rxInterrupt alloc r budget).1 = r ∨ ∃ n ≤ budget.toNat, ∃ r₁ cur r₂ delta p q,
      rxLoop n r r.curRx = (r₁, cur) ∧ FillRun alloc { r₁ with curRx := cur } p r₂ q ∧
      (rxInterrupt alloc r budget).1 = { r₂ with dirtyRx := delta } := by
  obtain ⟨left, hleft, hle⟩ : ∃ left,
      (if BitVec.ofNat 32 numRxDesc + r.dirtyRx - r.curRx ≤ budget
        then BitVec.ofNat 32 numRxDesc + r.dirtyRx - r.curRx else budget) = left ∧
      left.toNat ≤ budget.toNat := by
    refine ⟨_, rfl, ?_⟩
    split_ifs with hle
    · exact BitVec.le_def.mp hle
    · exact le_rfl
  unfold rxInterrupt
  dsimp only
  rw [hleft]
  rcases hloop : rxLoop left.toNat r r.curRx with ⟨r₁, cur⟩
  obtain ⟨p, q, hrun⟩ := rxFill_fillRun alloc { r₁ with curRx := cur } r₁.dirtyRx cur
  split_ifs with hnull
  · exact .inl rfl
  · exact .inr ⟨left.toNat, hle, r₁, cur, _, _, p, q, hloop, hrun, rfl⟩

theorem rxInterrupt_rxDescNull (alloc : BitVec 32 → Allocator) (r : RxRing) (budget : BitVec 32) :
    (rxInterrupt alloc r budget).1.rxDescNull = r.rxDescNull := by
  rcases rxInterrupt_cases alloc r budget with
    he | ⟨n, -, r₁, cur, r₂, delta, p, q, hloop, hrun, he⟩
  · rw [he]
  · have hpass := rxLoop_sameFrame n r r.curRx
    rw [hloop] at hpass
    rw [he]
    exact hrun.sameFrame.rxDescNull.trans hpass.rxDescNull

/-- A receive pass that finds the next descriptor with the NIC does not move. -/
theorem rxInterrupt_curRx_of_own (alloc : BitVec 32 → Allocator) {r : RxRing} (budget : BitVec 32)
    (h : budget = 0#32 ∨ (r.rxDescArray (entry r.curRx)).own = true) :
    (rxInterrupt alloc r budget).1.curRx = r.curRx := by
  rcases rxInterrupt_cases alloc r budget with
    he | ⟨n, hn, r₁, cur, r₂, delta, p, q, hloop, hrun, he⟩
  · rw [he]
  · have hstay : rxLoop n r r.curRx = (r, r.curRx) := by
      cases n with
      | zero => rfl
      | succ n =>
        have hown := h.resolve_left fun hb => by rw [hb] at hn; simp at hn
        rw [rxLoop, hown, if_pos rfl]
    rw [hstay] at hloop
    cases hloop
    rw [he]
    exact hrun.sameFrame.curRx

/-- **`rtl8101_rx_interrupt`**, on the positions `C` and `D` behind `cur_rx` and `dirty_rx`: a
receive pass to a position `C'`, then a refill to a position `D'`. The pass is limited by the
budget and by the end of the ring, and the refill by the pass. -/
theorem rxInterrupt_spec (alloc : BitVec 32 → Allocator) {r : RxRing} {C D : ℕ}
    (hnull : r.rxDescNull = false) (hcur : r.curRx = BitVec.ofNat 32 C)
    (hdirty : r.dirtyRx = BitVec.ofNat 32 D) (hDC : D ≤ C) (hCD : C ≤ D + numRxDesc)
    (budget : BitVec 32) :
    ∃ r₁ r₂ C' D', RxPass r C r₁ C' ∧ C ≤ C' ∧ C' ≤ D + numRxDesc ∧ C' - C ≤ budget.toNat ∧
      (C' < D + numRxDesc → C' - C < budget.toNat →
        (r₁.rxDescArray (pos numRxDesc C')).own = true) ∧
      FillRun alloc { r₁ with curRx := BitVec.ofNat 32 C' } D r₂ D' ∧ D ≤ D' ∧ D' ≤ C' ∧
      (D' < C' → r₂.rxSkbuff (pos numRxDesc D') = none ∧
        (alloc (BitVec.ofNat 32 D')).outcome r₂.dma.live = none) ∧
      rxInterrupt alloc r budget =
        ({ r₂ with dirtyRx := BitVec.ofNat 32 D' }, BitVec.ofNat 32 (C' - C)) := by
  have hleft : BitVec.ofNat 32 numRxDesc + r.dirtyRx - r.curRx =
      BitVec.ofNat 32 (numRxDesc + D - C) := by
    rw [hdirty, hcur, ← BitVec.ofNat_add, ofNat_sub_ofNat (by omega)]
  have htoNat : (BitVec.ofNat 32 (numRxDesc + D - C)).toNat = numRxDesc + D - C := by
    rw [BitVec.toNat_ofNat, Nat.mod_eq_of_lt]
    have := numRxDesc_eq
    omega
  obtain ⟨n, hn, hnN, hnB, hmin⟩ : ∃ n,
      (if BitVec.ofNat 32 (numRxDesc + D - C) ≤ budget then BitVec.ofNat 32 (numRxDesc + D - C)
        else budget).toNat = n ∧ n ≤ numRxDesc + D - C ∧ n ≤ budget.toNat ∧
      (n = numRxDesc + D - C ∨ n = budget.toNat) := by
    split_ifs with hle
    · rw [BitVec.le_def, htoNat] at hle
      exact ⟨_, htoNat, le_rfl, hle, Or.inl rfl⟩
    · rw [BitVec.le_def, htoNat] at hle
      exact ⟨_, rfl, by omega, le_rfl, Or.inr rfl⟩
  obtain ⟨r₁, C', hloop, hpass, hCC', hC'n, hown⟩ := rxLoop_rxPass n r C
  have hframe := hpass.sameFrame
  obtain ⟨r₂, D', hfill, hrun, hD'C', hstop⟩ :=
    rxFill_spec alloc { r₁ with curRx := BitVec.ofNat 32 C' } D C'
      (by omega) (by have := numRxDesc_eq; omega)
  refine ⟨r₁, r₂, C', D', hpass, hCC', by omega, by omega, ?_, hrun, hrun.le, hD'C', hstop, ?_⟩
  · intro h₁ h₂
    exact hown (by omega)
  · have hd₁ : r₁.dirtyRx = BitVec.ofNat 32 D := hframe.dirtyRx.trans hdirty
    have hc₁ : r₁.curRx = BitVec.ofNat 32 C := hframe.curRx.trans hcur
    have hd₂ : r₂.dirtyRx = BitVec.ofNat 32 D := hrun.sameFrame.dirtyRx.trans hd₁
    have hsum : BitVec.ofNat 32 D + BitVec.ofNat 32 (D' - D) = BitVec.ofNat 32 D' := by
      rw [← BitVec.ofNat_add, Nat.add_sub_cancel' hrun.le]
    rw [← hn, ← hleft, ← hcur] at hloop
    rw [← hd₁] at hfill
    simp only [rxInterrupt, hloop, hnull, hfill, hd₂, hsum, hc₁, ofNat_sub_ofNat hCC',
      Bool.false_eq_true, if_false]

end RxRing

/-! ## The receiving NIC -/

/-- The descriptor that the NIC fills next. -/
structure RxNic where
  pos : ℕ
  deriving DecidableEq

/-- The NIC stores a frame into the descriptor at its position, if that descriptor is its own,
and moves on; after a descriptor with `RingEnd` it continues at the first one. -/
def nicReceive (r : RxRing) (nic : RxNic) (f : RxFrame) : Option (RxRing × RxNic) :=
  if h : nic.pos < numRxDesc then
    let i : Fin numRxDesc := ⟨nic.pos, h⟩
    let d := r.rxDescArray i
    if d.own then
      some ({ r with
          mem := Function.update r.mem d.addr f.bytes
          rxDescArray := Function.update r.rxDescArray i { d with opts1 := f.writeBack d.opts1 } },
        ⟨nextPos nic.pos d⟩)
    else none
  else none

/-- The ring after the NIC stored the frame `f` into the descriptor `i`. -/
def RxRing.stored (r : RxRing) (i : Fin numRxDesc) (f : RxFrame) : RxRing :=
  { r with
    mem := Function.update r.mem (r.rxDescArray i).addr f.bytes
    rxDescArray := Function.update r.rxDescArray i
      { r.rxDescArray i with opts1 := f.writeBack (r.rxDescArray i).opts1 } }

theorem nicReceive_eq_some_iff {r r' : RxRing} {nic nic' : RxNic} {f : RxFrame} :
    nicReceive r nic f = some (r', nic') ↔ ∃ i : Fin numRxDesc, nic.pos = i ∧
      (r.rxDescArray i).own = true ∧ r' = r.stored i f ∧
      nic' = ⟨nextPos i (r.rxDescArray i)⟩ := by
  unfold nicReceive
  constructor
  · intro h
    split_ifs at h with hpos
    dsimp only at h
    split_ifs at h with hown
    simp only [Option.some.injEq, Prod.mk.injEq] at h
    exact ⟨⟨nic.pos, hpos⟩, rfl, hown, h.1.symm, h.2.symm⟩
  · rintro ⟨i, hpos, hown, rfl, rfl⟩
    obtain ⟨p⟩ := nic
    obtain rfl : p = i := hpos
    rw [dif_pos i.isLt]
    simp [hown, RxRing.stored]

@[simp] theorem RxRing.stored_own (r : RxRing) (i : Fin numRxDesc) (f : RxFrame) :
    ((r.stored i f).rxDescArray i).own = false := by
  simp [stored, Desc.own, RxFrame.writeBack_own]

@[simp] theorem RxRing.stored_rxRes (r : RxRing) (i : Fin numRxDesc) (f : RxFrame) :
    hasBits ((r.stored i f).rxDescArray i).opts1 rxRes = f.errored := by
  simp [stored, RxFrame.writeBack_rxRes]

@[simp] theorem RxRing.stored_addr (r : RxRing) (i j : Fin numRxDesc) (f : RxFrame) :
    ((r.stored i f).rxDescArray j).addr = (r.rxDescArray j).addr := by
  by_cases h : j = i
  · subst h; simp [stored]
  · simp [stored, h]

@[simp] theorem RxRing.stored_eor (r : RxRing) (i j : Fin numRxDesc) (f : RxFrame) :
    ((r.stored i f).rxDescArray j).eor = (r.rxDescArray j).eor := by
  by_cases h : j = i
  · subst h; simp [stored, Desc.eor, RxFrame.writeBack_eor]
  · simp [stored, h]

end Rtl8101
