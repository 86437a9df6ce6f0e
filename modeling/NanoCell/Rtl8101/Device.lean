import NanoCell.Lib.Transition
import NanoCell.Rtl8101.Rx
import NanoCell.Rtl8101.Tx

/-!
# The device: registers, link, reset and the stack's operations

The two rings together with the chip and the kernel's view of the device: `mac.c`, the buffer
management, link polling and network stack operations of `net_stk.c`, and the step function of
the whole system, whose events are the calls of the kernel and the actions of the NIC. Each call
is one step. A chip reset makes the NIC continue at descriptor 0 of both rings.

## Main definitions

* `Chip`, `Device`: the registers and the state of the whole system
* `Device.hwReset`, `Device.hwInit`: `rtl8101_hw_reset` and `rtl8101_hw_init`
* `Device.openDev`, `Device.closeDev`, `Device.poll`, `Device.resetTask`, `Device.txTimeout`,
  `Device.checkLinkStatus`: the operations of the driver
* `Event`, `step`: the system
* `Stepped`: what an enabled event found and did

## Main results

* `step_inv`: the step function, inverted
* `Device.ndoOpen_eq`: a successful open starts the chip on empty rings and a filled Rx ring
* `Device.ndoOpen_running`: open succeeds when every allocation does
-/

namespace Rtl8101

open Counter

/-! ## Registers -/

/-- `RxOK`. -/
def rxOk : BitVec 16 := 0x01#16

/-- `TxOK`. -/
def txOk : BitVec 16 := 0x04#16

/-- `RxDescUnavail`. -/
def rxDescUnavail : BitVec 16 := 0x10#16

/-- `SWInt`. -/
def swInt : BitVec 16 := 0x0100#16

/-- `IntrEnMask`. -/
def intrEnMask : BitVec 16 := rxDescUnavail ||| txOk ||| rxOk ||| swInt

/-- The registers that decide what the NIC does, `txEnb` and `rxEnb` being `CmdTxEnb` and
`CmdRxEnb` of `ChipCmd`, and its place in both rings. -/
structure Chip where
  txEnb : Bool
  rxEnb : Bool
  intrMask : BitVec 16
  intrStatus : BitVec 16
  rxNic : RxNic
  txNic : TxNic

namespace Chip

/-- `rtl8101_enable_interrupts`. -/
def enableInterrupts (c : Chip) (mask : BitVec 16) : Chip := { c with intrMask := mask }

/-- Writing `IntrStatus` clears the bits that are written as one. -/
def ackIntr (c : Chip) (bits : BitVec 16) : Chip :=
  { c with intrStatus := c.intrStatus &&& ~~~bits }

/-- `rtl8101_disable_n_clear_interrupts`. -/
def disableNClearInterrupts (c : Chip) : Chip :=
  let c := { c with intrMask := 0#16 }
  c.ackIntr c.intrStatus

/-- `rtl8101_nic_reset`: the soft reset stops both engines and rewinds them to descriptor 0. -/
def nicReset (c : Chip) : Chip :=
  { c with
    txEnb := false
    rxEnb := false
    rxNic := ⟨0⟩
    txNic := { c.txNic with fetchPos := 0, donePos := 0, inFlight := 0 } }

/-- `rtl8101_hw_reset`. -/
def hwReset (c : Chip) : Chip := c.disableNClearInterrupts.nicReset

/-- The chip part of `rtl8101_hw_init`. -/
def hwInit (c : Chip) : Chip :=
  { c.hwReset with txEnb := true, rxEnb := true }.enableInterrupts intrEnMask

end Chip

/-! ## The device -/

/-- The two coherent allocations of the driver. -/
inductive RingKind where
  | tx
  | rx
  deriving DecidableEq

/-- The indexes of the driver when `rtl8101_hw_init` returns. -/
structure InitSnapshot where
  curRx : BitVec 32
  curTx : BitVec 32
  dirtyTx : BitVec 32
  deriving DecidableEq

/-- The driver, the chip and the kernel's view of the device. `hwInits` lists the indexes at each
return of `rtl8101_hw_init`; `stolen` counts the buffers taken from a descriptor that the NIC
owned while its transmitter was enabled. -/
structure Device where
  rx : RxRing
  tx : TxRing
  chip : Chip
  running : Bool
  carrierOk : Bool
  napiEnabled : Bool
  irqRequested : Bool
  linkTimer : Bool
  taskPending : Bool
  /-- `pci_alloc_consistent`, `pci_free_consistent`. -/
  coherent : Ledger RingKind
  hwInits : List InitSnapshot
  stolen : ℕ

/-- The answers of the kernel during one `rtl8101_open`: the two `pci_alloc_consistent` calls,
the buffer allocations, and the return value of `request_irq`. -/
structure OpenOutcome where
  txRing : Bool
  rxRing : Bool
  alloc : BitVec 32 → Allocator
  irq : ℤ

/-- `-ENOMEM`. -/
def enomem : ℤ := -12

namespace Device

/-- `rtl8101_hw_reset`. -/
def hwReset (s : Device) : Device := { s with chip := s.chip.hwReset }

/-- `rtl8101_hw_init`: it stops the queue, restarts the chip and starts the queue again. -/
def hwInit (s : Device) : Device :=
  { s with
    chip := s.chip.hwInit
    tx := { s.tx with queueStopped := false }
    hwInits := s.hwInits ++ [⟨s.rx.curRx, s.tx.curTx, s.tx.dirtyTx⟩] }

/-- `rtl8101_tx_clear`. -/
def txClear (s : Device) : Device :=
  { s with
    tx := s.tx.txClear
    stolen := s.stolen + if s.chip.txEnb then s.tx.txClear.ownedUnmaps - s.tx.ownedUnmaps else 0 }

/-- `rtl8101_tx_interrupt`. -/
def txInterrupt (maxSkbFrags : ℕ) (s : Device) : Device :=
  { s with
    tx := s.tx.txInterrupt maxSkbFrags
    stolen := s.stolen + if s.chip.txEnb then
      (s.tx.txInterrupt maxSkbFrags).ownedUnmaps - s.tx.ownedUnmaps else 0 }

/-- `rtl8101_init_ring_indexes`. -/
def initRingIndexes (s : Device) : Device :=
  { s with
    tx := { s.tx with dirtyTx := 0#32, curTx := 0#32 }
    rx := { s.rx with dirtyRx := 0#32, curRx := 0#32 } }

/-- `pci_free_consistent` of the Tx ring, and the `NULL` stored for it. -/
def freeTxRing (s : Device) : Device :=
  { s with coherent := s.coherent.release .tx, tx := { s.tx with txDescNull := true } }

/-- `pci_free_consistent` of the Rx ring, and the `NULL` stored for it. -/
def freeRxRing (s : Device) : Device :=
  { s with coherent := s.coherent.release .rx, rx := { s.rx with rxDescNull := true } }

/-- Both rings allocated, all arrays set up by `rtl8101_init_buffers`, no buffer yet. -/
def clearedRings (s : Device) : Device :=
  { s.initRingIndexes with
    coherent := (s.coherent.acquire .tx).acquire .rx
    tx := { s.initRingIndexes.tx with
      txDescNull := false
      txSkb := fun _ => .empty
      txDescArray := freshRing numTxDesc }
    rx := { s.initRingIndexes.rx with
      rxDescNull := false
      rxSkbuff := fun _ => none
      rxDescArray := freshRing numRxDesc } }

/-- `rtl8101_init_buffers`. -/
def initBuffers (o : OpenOutcome) (s : Device) : Device × ℤ :=
  if o.txRing = false then ({ s with tx := { s.tx with txDescNull := true } }, enomem)
  else if o.rxRing = false then
    ({ s with coherent := s.coherent.acquire .tx
              rx := { s.rx with rxDescNull := true } }.freeTxRing, enomem)
  else
    let s := s.clearedRings
    let (rx, n) := s.rx.rxFill o.alloc 0#32 (BitVec.ofNat 32 numRxDesc)
    let s := { s with rx := rx }
    if n ≠ BitVec.ofNat 32 numRxDesc then
      ({ s with rx := s.rx.rxClear }.freeRxRing.freeTxRing, enomem)
    else (s, 0)

/-- `rtl8101_shut_buffers`. -/
def shutBuffers (s : Device) : Device := s.freeRxRing.freeTxRing

/-- The part of `rtl8101_open` between the set-up of the buffers and `request_irq`. -/
def startUp (s : Device) : Device := ({ s with napiEnabled := true } : Device).hwReset.hwInit

/-- `rtl8101_open`. A reset task that was queued before stays queued: `INIT_DELAYED_WORK` does not
cancel it. -/
def openDev (o : OpenOutcome) (s : Device) : Device × ℤ :=
  let s := { s with rx := { s.rx with rxBufSz := rxBufSize } }
  let (s, retval) := s.initBuffers o
  if retval < 0 then (s, retval)
  else
    let s := s.startUp
    -- neither the buffers nor NAPI nor the chip are undone here
    if o.irq < 0 then (s.shutBuffers, o.irq)
    else ({ s with irqRequested := true, linkTimer := true }, 0)

/-- `rtl8101_close`. -/
def closeDev (s : Device) : Device :=
  if s.tx.txDescNull = false ∧ s.rx.rxDescNull = false then
    let s := { s with
      linkTimer := false
      napiEnabled := false
      tx := { s.tx with queueStopped := true }
      carrierOk := false }
    -- the chip is quiet before the rings are emptied
    let s := s.hwReset.txClear
    let s := { s with rx := s.rx.rxClear, irqRequested := false }
    s.freeRxRing.freeTxRing
  else s

/-- `rtl8101_check_link_status`, for the link status read from the PHY. -/
def checkLinkStatus (s : Device) (linkStatusOn : Bool) : Device :=
  if s.carrierOk ≠ linkStatusOn then
    if linkStatusOn then { s.hwInit with carrierOk := true }
    else
      ({ s with
        carrierOk := false
        tx := { s.tx with queueStopped := true } } : Device).hwReset.txClear.initRingIndexes
  else s

/-- `rtl8101_poll`: the device and the work done. -/
def poll (maxSkbFrags : ℕ) (alloc : BitVec 32 → Allocator) (s : Device) (budget : BitVec 32) :
    Device × BitVec 32 :=
  let (rx, workDone) := s.rx.rxInterrupt alloc budget
  let s := ({ s with rx := rx } : Device).txInterrupt maxSkbFrags
  if workDone < budget then
    ({ s with chip := s.chip.enableInterrupts intrEnMask }, workDone)
  else (s, workDone)

/-- `rtl8101_tx_timeout`. -/
def txTimeout (s : Device) : Device := { s.hwReset with taskPending := true }

/-- The part of `rtl8101_reset_task` under the lock, `rxOk` being its test
`dirty_rx == cur_rx`. -/
def resetTail (s : Device) (rxOk : Bool) : Device :=
  let s := s.txClear
  if rxOk then
    let s := s.initRingIndexes.hwInit
    { s with tx := { s.tx with queueStopped := false } }
  -- `schedule_delayed_work(&pvt->task, 4)`: the buffer shortage may be over by then
  else { s with taskPending := true }

/-- `rtl8101_reset_task`. -/
def resetTask (alloc : BitVec 32 → Allocator) (s : Device) : Device :=
  if s.running = false then s
  else
    let s := { s with chip := s.chip.disableNClearInterrupts }
    let s := { s with rx := (s.rx.rxInterrupt alloc (~~~0#32)).1 }
    s.resetTail (s.rx.dirtyRx = s.rx.curRx)

/-- `rtl8101_start_xmit`. -/
def startXmit (maxSkbFrags : ℕ) (s : Device) (skb : SkBuff) : Device × NetdevTx :=
  ({ s with tx := (s.tx.startXmit maxSkbFrags skb).1 }, (s.tx.startXmit maxSkbFrags skb).2)

end Device

/-! ## The system -/

/-- The calls of the kernel and the actions of the NIC. -/
inductive Event where
  | openDev (o : OpenOutcome)
  | closeDev
  | receive (f : RxFrame)
  | fetch
  | complete
  | poll (alloc : BitVec 32 → Allocator) (budget : BitVec 32)
  | startXmit (skb : SkBuff)
  | txTimeout
  | resetTask (alloc : BitVec 32 → Allocator)
  | linkTimer (linkStatusOn : Bool)

/-- The kernel's `ndo_open`: the device is marked running before the driver is asked. -/
def Device.ndoOpen (s : Device) (o : OpenOutcome) : Device :=
  let (s', retval) := ({ s with running := true } : Device).openDev o
  if retval = 0 then s' else { s' with running := false }

/-- The kernel's `ndo_stop`. -/
def Device.ndoStop (s : Device) : Device := ({ s with running := false } : Device).closeDev

/-- The receiver stores a frame. -/
def Device.receive (s : Device) (f : RxFrame) : Option Device :=
  if s.chip.rxEnb then
    (nicReceive s.rx s.chip.rxNic f).map fun (rx, nic) =>
      { s with rx := rx, chip := { s.chip with rxNic := nic } }
  else none

theorem Device.receive_eq_some_iff {s t : Device} {f : RxFrame} :
    s.receive f = some t ↔ s.chip.rxEnb = true ∧ ∃ i : Fin numRxDesc, s.chip.rxNic.pos = i ∧
      (s.rx.rxDescArray i).own = true ∧ t = { s with
        rx := s.rx.stored i f
        chip := { s.chip with rxNic := ⟨nextPos i (s.rx.rxDescArray i)⟩ } } := by
  unfold Device.receive
  constructor
  · intro h
    split_ifs at h with hen
    obtain ⟨⟨rx, nic⟩, hr, rfl⟩ := Option.map_eq_some_iff.mp h
    obtain ⟨i, hpos, hown, rfl, rfl⟩ := nicReceive_eq_some_iff.mp hr
    exact ⟨hen, i, hpos, hown, rfl⟩
  · rintro ⟨hen, i, hpos, hown, rfl⟩
    rw [if_pos hen, nicReceive_eq_some_iff.mpr ⟨i, hpos, hown, rfl, rfl⟩]
    rfl

/-- The transmitter fetches a descriptor. -/
def Device.fetch (s : Device) : Option Device :=
  if s.chip.txEnb then
    (s.chip.txNic.fetch s.tx).map fun nic => { s with chip := { s.chip with txNic := nic } }
  else none

/-- The transmitter gives a descriptor back. -/
def Device.complete (s : Device) : Option Device :=
  if s.chip.txEnb then
    (nicComplete s.tx s.chip.txNic).map fun (tx, nic) =>
      { s with tx := tx, chip := { s.chip with txNic := nic } }
  else none

theorem Device.fetch_eq_some {s t : Device} (h : s.fetch = some t) :
    ∃ nic, s.chip.txNic.fetch s.tx = some nic ∧
      t = { s with chip := { s.chip with txNic := nic } } := by
  unfold Device.fetch at h
  split_ifs at h
  obtain ⟨nic, hnic, rfl⟩ := Option.map_eq_some_iff.mp h
  exact ⟨nic, hnic, rfl⟩

theorem Device.complete_eq_some {s t : Device} (h : s.complete = some t) :
    ∃ tx nic, nicComplete s.tx s.chip.txNic = some (tx, nic) ∧
      t = { s with tx := tx, chip := { s.chip with txNic := nic } } := by
  unfold Device.complete at h
  split_ifs at h
  obtain ⟨⟨tx, nic⟩, hnic, rfl⟩ := Option.map_eq_some_iff.mp h
  exact ⟨tx, nic, hnic, rfl⟩

/-- One event: the stack calls the driver only while the device is open, transmits only while the
queue is not stopped, the link timer runs between open and close, and the reset task runs at some
point after it was scheduled. -/
def step (maxSkbFrags : ℕ) (s : Device) : Event → Option Device
  | .openDev o => if s.running then none else some (s.ndoOpen o)
  | .closeDev => if s.running then some s.ndoStop else none
  | .receive f => s.receive f
  | .fetch => s.fetch
  | .complete => s.complete
  | .poll alloc budget => if s.running then some (s.poll maxSkbFrags alloc budget).1 else none
  | .startXmit skb =>
    if s.running = true ∧ s.tx.queueStopped = false then some (s.startXmit maxSkbFrags skb).1
    else none
  | .txTimeout => if s.running then some s.txTimeout else none
  | .resetTask alloc =>
    if s.taskPending then some (({ s with taskPending := false } : Device).resetTask alloc)
    else none
  | .linkTimer on => if s.linkTimer then some (s.checkLinkStatus on) else none

/-- What an event that was enabled found and did. -/
inductive Stepped (maxSkbFrags : ℕ) (s : Device) : Event → Device → Prop
  | openDev (o : OpenOutcome) : s.running = false → Stepped maxSkbFrags s (.openDev o) (s.ndoOpen o)
  | closeDev : s.running = true → Stepped maxSkbFrags s .closeDev s.ndoStop
  | receive (f : RxFrame) (i : Fin numRxDesc) (nic : RxNic) :
      Stepped maxSkbFrags s (.receive f)
        { s with rx := s.rx.stored i f, chip := { s.chip with rxNic := nic } }
  | fetch (nic : TxNic) :
      Stepped maxSkbFrags s .fetch { s with chip := { s.chip with txNic := nic } }
  | complete (i : Fin numTxDesc) (nic : TxNic) :
      Stepped maxSkbFrags s .complete
        { s with tx := s.tx.completed i, chip := { s.chip with txNic := nic } }
  | poll (alloc : BitVec 32 → Allocator) (budget : BitVec 32) : s.running = true →
      Stepped maxSkbFrags s (.poll alloc budget) (s.poll maxSkbFrags alloc budget).1
  | startXmit (skb : SkBuff) : s.running = true → s.tx.queueStopped = false →
      Stepped maxSkbFrags s (.startXmit skb) (s.startXmit maxSkbFrags skb).1
  | txTimeout : s.running = true → Stepped maxSkbFrags s .txTimeout s.txTimeout
  | resetTask (alloc : BitVec 32 → Allocator) : s.taskPending = true →
      Stepped maxSkbFrags s (.resetTask alloc)
        (({ s with taskPending := false } : Device).resetTask alloc)
  | linkTimer (on : Bool) : s.linkTimer = true →
      Stepped maxSkbFrags s (.linkTimer on) (s.checkLinkStatus on)

/-- **The step function, inverted**: the only place that unfolds it. -/
theorem step_inv {maxSkbFrags : ℕ} {s t : Device} {e : Event}
    (h : step maxSkbFrags s e = some t) : Stepped maxSkbFrags s e t := by
  cases e with
  | receive f =>
    obtain ⟨-, i, -, -, rfl⟩ := Device.receive_eq_some_iff.mp h
    exact .receive f i _
  | fetch =>
    obtain ⟨nic, -, rfl⟩ := Device.fetch_eq_some h
    exact .fetch nic
  | complete =>
    obtain ⟨tx, nic, hnic, rfl⟩ := Device.complete_eq_some h
    obtain ⟨i, -, -, rfl, -⟩ := nicComplete_eq_some hnic
    exact .complete i nic
  | openDev o =>
    simp only [step] at h
    split_ifs at h with hrun
    cases h
    exact .openDev o (by simpa using hrun)
  | closeDev =>
    simp only [step] at h
    split_ifs at h with hrun
    cases h
    exact .closeDev hrun
  | poll alloc budget =>
    simp only [step] at h
    split_ifs at h with hrun
    cases h
    exact .poll alloc budget hrun
  | startXmit skb =>
    simp only [step] at h
    split_ifs at h with hguard
    cases h
    exact .startXmit skb hguard.1 hguard.2
  | txTimeout =>
    simp only [step] at h
    split_ifs at h with hrun
    cases h
    exact .txTimeout hrun
  | resetTask alloc =>
    simp only [step] at h
    split_ifs at h with hpending
    cases h
    exact .resetTask alloc hpending
  | linkTimer on =>
    simp only [step] at h
    split_ifs at h with htimer
    cases h
    exact .linkTimer on htimer

/-- The device after `net_register_dev`: everything zeroed, the chip reset, the carrier off. -/
def Device.registered : Device where
  rx := {
    curRx := 0, dirtyRx := 0, rxDescNull := true, rxDescArray := fun _ => .zero
    rxSkbuff := fun _ => none, rxBufSz := 0, stats := ⟨0, 0, 0, 0, 0⟩, mem := fun _ => []
    dma := .empty, skbs := .empty, handedUp := [], faults := [] }
  tx := {
    curTx := 0, dirtyTx := 0, txDescNull := true, txDescArray := fun _ => .zero
    txSkb := fun _ => .empty, stats := ⟨0, 0, 0⟩, queueStopped := false
    dma := .empty, skbs := .empty, accepted := [], sent := [], ownedUnmaps := 0 }
  chip := {
    txEnb := false, rxEnb := false, intrMask := 0, intrStatus := 0
    rxNic := ⟨0⟩, txNic := ⟨0, 0, 0, [], 0⟩ }
  running := false
  carrierOk := false
  napiEnabled := false
  irqRequested := false
  linkTimer := false
  taskPending := false
  coherent := .empty
  hwInits := []
  stolen := 0

namespace Device

/-! ## Link changes -/

theorem checkLinkStatus_up {s : Device} (h : s.carrierOk = false) :
    s.checkLinkStatus true = { s.hwInit with carrierOk := true } := by
  simp [checkLinkStatus, h]

theorem checkLinkStatus_down {s : Device} (h : s.carrierOk = true) :
    s.checkLinkStatus false =
      ({ s with
        carrierOk := false
        tx := { s.tx with queueStopped := true } } : Device).hwReset.txClear.initRingIndexes := by
  simp [checkLinkStatus, h]

theorem checkLinkStatus_same (s : Device) : s.checkLinkStatus s.carrierOk = s := by
  simp [checkLinkStatus]

/-! ## Polls -/

/-- A poll runs the two passes, and may unmask the interrupts. -/
theorem poll_eq (s : Device) (maxSkbFrags : ℕ) (alloc : BitVec 32 → Allocator)
    (budget : BitVec 32) :
    ∃ mask stolen, (s.poll maxSkbFrags alloc budget).1 = { s with
      rx := (s.rx.rxInterrupt alloc budget).1
      tx := s.tx.txInterrupt maxSkbFrags
      chip := { s.chip with intrMask := mask }
      stolen := stolen } := by
  unfold poll
  dsimp only
  split_ifs
  · exact ⟨intrEnMask, _, rfl⟩
  · exact ⟨s.chip.intrMask, _, rfl⟩

theorem poll_rx (s : Device) (maxSkbFrags : ℕ) (alloc : BitVec 32 → Allocator)
    (budget : BitVec 32) :
    (s.poll maxSkbFrags alloc budget).1.rx = (s.rx.rxInterrupt alloc budget).1 := by
  obtain ⟨mask, stolen, he⟩ := s.poll_eq maxSkbFrags alloc budget
  rw [he]

theorem poll_carrierOk (s : Device) (maxSkbFrags : ℕ) (alloc : BitVec 32 → Allocator)
    (budget : BitVec 32) : (s.poll maxSkbFrags alloc budget).1.carrierOk = s.carrierOk := by
  obtain ⟨mask, stolen, he⟩ := s.poll_eq maxSkbFrags alloc budget
  rw [he]

/-! ## Opening the device -/

/-- Both rings set up by an open, no buffer yet. -/
def prepared (s : Device) : Device :=
  clearedRings { s with running := true, rx := { s.rx with rxBufSz := rxBufSize } }

/-- The device after the refill of an open. -/
def filled (s : Device) (o : OpenOutcome) : Device :=
  { s.prepared with rx := (s.prepared.rx.rxFill o.alloc 0#32 (BitVec.ofNat 32 numRxDesc)).1 }

/-- The refill of an open fills the whole ring. -/
def Fills (s : Device) (o : OpenOutcome) : Prop :=
  (s.prepared.rx.rxFill o.alloc 0#32 (BitVec.ofNat 32 numRxDesc)).2 = BitVec.ofNat 32 numRxDesc

/-- `rtl8101_init_buffers` fails for want of memory, or sets up both rings. -/
theorem initBuffers_cases (o : OpenOutcome) (s : Device) :
    (∃ tx rx c, s.initBuffers o = ({ s with tx := tx, rx := rx, coherent := c }, enomem) ∧
        (s.tx.curTx = s.tx.dirtyTx → tx.curTx = tx.dirtyTx)) ∨
      (s.clearedRings.rx.rxFill o.alloc 0#32 (BitVec.ofNat 32 numRxDesc)).2 =
          BitVec.ofNat 32 numRxDesc ∧
        s.initBuffers o = ({ s.clearedRings with
          rx := (s.clearedRings.rx.rxFill o.alloc 0#32 (BitVec.ofNat 32 numRxDesc)).1 }, 0) := by
  unfold initBuffers
  by_cases htx : o.txRing = false
  · exact .inl ⟨_, _, _, if_pos htx, id⟩
  by_cases hrx : o.rxRing = false
  · exact .inl ⟨{ s.tx with txDescNull := true }, _, _, by rw [if_neg htx, if_pos hrx]; rfl, id⟩
  rw [if_neg htx, if_neg hrx]
  rcases hfill : s.clearedRings.rx.rxFill o.alloc 0#32 (BitVec.ofNat 32 numRxDesc) with ⟨rx, n⟩
  simp only [hfill]
  by_cases hn : n = BitVec.ofNat 32 numRxDesc
  · exact .inr ⟨hn, if_neg (not_not.mpr hn)⟩
  · generalize rx.rxClear = rx'
    exact .inl ⟨{ s.clearedRings.tx with txDescNull := true }, { rx' with rxDescNull := true },
      (s.clearedRings.coherent.release .rx).release .tx, if_pos hn, fun _ => rfl⟩

/-- The three ends of an open: no memory, no interrupt line, success. -/
theorem ndoOpen_cases (s : Device) (o : OpenOutcome) :
    (∃ tx rx c, s.ndoOpen o = { s with tx := tx, rx := rx, coherent := c, running := false } ∧
        (s.tx.curTx = s.tx.dirtyTx → tx.curTx = tx.dirtyTx)) ∨
      s.Fills o ∧ s.ndoOpen o = { (s.filled o).startUp.shutBuffers with running := false } ∨
      s.Fills o ∧
        s.ndoOpen o = { (s.filled o).startUp with irqRequested := true, linkTimer := true } := by
  rcases initBuffers_cases o
    { s with running := true, rx := { s.rx with rxBufSz := rxBufSize } } with
      ⟨tx, rx, c, he, hidx⟩ | ⟨hfill, he⟩
  · exact .inl ⟨tx, rx, c, by simp [ndoOpen, openDev, he, enomem], hidx⟩
  · by_cases hirq : o.irq < 0
    · exact .inr (.inl ⟨hfill, by simp [ndoOpen, openDev, he, hirq, hirq.ne, filled, prepared]⟩)
    · exact .inr (.inr ⟨hfill, by simp [ndoOpen, openDev, he, hirq, filled, prepared]⟩)

/-- **A successful open** found memory for every buffer, and started the chip. -/
theorem ndoOpen_eq {s : Device} {o : OpenOutcome} (h : (s.ndoOpen o).running = true) :
    s.Fills o ∧
      s.ndoOpen o = { (s.filled o).startUp with irqRequested := true, linkTimer := true } := by
  rcases ndoOpen_cases s o with ⟨tx, rx, c, he, -⟩ | ⟨-, he⟩ | hok
  · rw [he] at h; cases h
  · rw [he] at h; cases h
  · exact hok

/-- The chip, the timer and the Tx indexes of the device `s` that was just opened, its carrier as
it was in the device `s₀`. -/
structure Started (s₀ s : Device) : Prop where
  running : s.running = true
  linkTimer : s.linkTimer = true
  carrierOk : s.carrierOk = s₀.carrierOk
  taskPending : s.taskPending = s₀.taskPending
  txEnb : s.chip.txEnb = true
  rxEnb : s.chip.rxEnb = true
  intrMask : s.chip.intrMask = intrEnMask
  rxNic : s.chip.rxNic = ⟨0⟩
  curTx : s.tx.curTx = 0#32
  dirtyTx : s.tx.dirtyTx = 0#32
  txDescNull : s.tx.txDescNull = false
  txFree : ∀ i, (s.tx.txDescArray i).own = false
  txNic : s.chip.txNic.fetchPos = 0 ∧ s.chip.txNic.donePos = 0 ∧ s.chip.txNic.inFlight = 0

theorem ndoOpen_started {s : Device} {o : OpenOutcome} (h : (s.ndoOpen o).running = true) :
    Started s (s.ndoOpen o) := by
  rw [(ndoOpen_eq h).2]
  exact ⟨rfl, rfl, rfl, rfl, rfl, rfl, rfl, rfl, rfl, rfl, rfl, fun i => freshRing_own i, rfl, rfl,
    rfl⟩

/-- Of the Tx ring only the state of the queue changes after `rtl8101_init_buffers`. -/
theorem ndoOpen_tx {s : Device} {o : OpenOutcome} (h : (s.ndoOpen o).running = true) :
    (s.ndoOpen o).tx = { s.prepared.tx with queueStopped := false } := by
  rw [(ndoOpen_eq h).2]
  rfl

theorem initBuffers_of_fills {s : Device} {o : OpenOutcome} (htx : o.txRing = true)
    (hrx : o.rxRing = true) (hfill : s.Fills o) :
    ({ s with running := true, rx := { s.rx with rxBufSz := rxBufSize } } : Device).initBuffers o =
      (s.filled o, 0) := by
  unfold initBuffers
  rw [if_neg (by simp [htx]), if_neg (by simp [hrx])]
  exact if_neg (not_not.mpr hfill)

/-- An open whose allocations all succeed. -/
theorem ndoOpen_running {s : Device} {o : OpenOutcome} (htx : o.txRing = true)
    (hrx : o.rxRing = true) (hfill : s.Fills o) (hirq : 0 ≤ o.irq) :
    (s.ndoOpen o).running = true := by
  have hopen : ({ s with running := true } : Device).openDev o =
      ({ (s.filled o).startUp with irqRequested := true, linkTimer := true }, 0) := by
    simp [openDev, initBuffers_of_fills htx hrx hfill, not_lt.mpr hirq]
  rw [ndoOpen, hopen]
  rfl

end Device

end Rtl8101
