import NanoCell.Lib.Transition
import NanoCell.Rtl8101.Desc

/-!
# The expt DMA driver

The receive half of `Solutions/expt_drv_with_dma.c`, a character driver for the same chip with one
descriptor and one buffer in each direction. A packet is offered to the readers by the interrupt
handler, read in pieces through the offset of an open file, and given back to the NIC by the read
that finds its offset at the end of the packet. Sizes and offsets are natural numbers: none of
them exceeds the 14-bit length field of a descriptor.

## Main definitions

* `DevPriv`: the receive fields of `dev_priv`, the registers of the interrupt, and the memory
* `DevPriv.setupBuffers`, `DevPriv.exptPciIntrHandler`, `DevPriv.exptRead`: the functions of the
  driver
* `DevPriv.nicReceive`: a NIC that stays within the size field of its descriptor

## Main results

* `DevPriv.exptRead_cases`: the four ends of a read
* `exptPciIntrHandler_rx`: what the handler does to the receive fields
-/

namespace Expt

open Rtl8101 (Desc RxFrame descOwn ringEnd lenField)

/-- `PKT_SIZE`, the value of `RX_PKT_SIZE` and `TX_PKT_SIZE`. -/
def pktSize : ℕ := 256

/-! ## Interrupt bits -/

/-- `INTR_TX_DESC_UNAVAIL`. -/
def intrTxDescUnavail : BitVec 16 := 1#16 <<< 7

/-- `INTR_LINK_CHG_BIT`. -/
def intrLinkChgBit : BitVec 16 := 1#16 <<< 5

/-- `INTR_RX_DESC_UNAVAIL`. -/
def intrRxDescUnavail : BitVec 16 := 1#16 <<< 4

/-- `INTR_TX_ERR`. -/
def intrTxErr : BitVec 16 := 1#16 <<< 3

/-- `INTR_TX_OK_BIT`. -/
def intrTxOkBit : BitVec 16 := 1#16 <<< 2

/-- `INTR_RX_ERR`. -/
def intrRxErr : BitVec 16 := 1#16 <<< 1

/-- `INTR_RX_OK_BIT`. -/
def intrRxOkBit : BitVec 16 := 1#16 <<< 0

/-- `INTR_MASK`. -/
def intrMaskBits : BitVec 16 := intrLinkChgBit ||| intrTxOkBit ||| intrRxOkBit

/-- `INTR_ERR_MASK`. -/
def intrErrMask : BitVec 16 := intrTxDescUnavail ||| intrRxDescUnavail ||| intrTxErr ||| intrRxErr

/-! ## The device -/

/-- The fields of `dev_priv` that the handler and the readers use, the two interrupt registers,
and the memory from `pkt_rx` on. Of the three counters only `pkt_tx_busy` is ever counted down. -/
structure DevPriv where
  descRx : Desc
  pktRx : ℕ → BitVec 8
  rxPktSize : ℕ
  pktRxAvail : ℕ
  pktTxBusy : ℤ
  intrStatus : BitVec 16
  intrMask : BitVec 16

/-- The return values of an interrupt handler. -/
inductive IrqReturn where
  | none
  | handled
  deriving DecidableEq

/-- The results of `expt_read`: `-EAGAIN`, `-EFAULT`, the 0 at the end of a packet, and the bytes
returned. -/
inductive ReadResult where
  | eagain
  | efault
  | endOfPacket
  | data (bytes : List (BitVec 8))
  deriving DecidableEq

namespace DevPriv

/-- The static `_pvt` when the module is loaded. -/
def loaded : DevPriv := ⟨.zero, fun _ => 0#8, 0, 0, 0, 0#16, 0#16⟩

/-- The end of `setup_buffers`, for a buffer mapped at `phyPktRx`: the descriptor is given to the
NIC with the size of the buffer. -/
def setupBuffers (s : DevPriv) (phyPktRx : BitVec 64) : DevPriv :=
  { s with
    descRx := ⟨descOwn ||| ringEnd ||| BitVec.ofNat 32 pktSize, 0#32, phyPktRx⟩
    pktTxBusy := 0
    pktRxAvail := 0 }

/-- Writing `INTR_STATUS_REG` clears the bits that are written as one. -/
def ackIntr (s : DevPriv) (bits : BitVec 16) : DevPriv :=
  { s with intrStatus := s.intrStatus &&& ~~~bits }

/-- `hw_enable_intr`. -/
def hwEnableIntr (s : DevPriv) (mask : BitVec 16) : DevPriv :=
  { s with intrMask := s.intrMask ||| mask }

/-- `hw_disable_intr`. -/
def hwDisableIntr (s : DevPriv) (mask : BitVec 16) : DevPriv :=
  { s with intrMask := s.intrMask &&& ~~~mask }

/-- `expt_pci_intr_handler`, without its messages and the link state they report. -/
def exptPciIntrHandler (s : DevPriv) : DevPriv × IrqReturn :=
  let intrStatus := s.intrStatus
  if intrStatus &&& (intrMaskBits ||| intrErrMask) = 0#16 then (s, .none)
  else
    -- each cause is acknowledged on its own, from the status read at the beginning
    let s := if intrStatus &&& intrLinkChgBit ≠ 0#16 then s.ackIntr intrLinkChgBit else s
    let s :=
      if intrStatus &&& intrTxOkBit ≠ 0#16 then
        { s.ackIntr intrTxOkBit with pktTxBusy := s.pktTxBusy - 1 }
      else s
    let s :=
      if intrStatus &&& intrRxOkBit ≠ 0#16 then
        { s.ackIntr intrRxOkBit with
          rxPktSize := (lenField s.descRx.opts1).toNat
          pktRxAvail := s.pktRxAvail + 1 }
      else s
    let s :=
      if intrStatus &&& intrErrMask ≠ 0#16 then
        let s :=
          if intrStatus &&& intrRxDescUnavail ≠ 0#16 then s.hwDisableIntr intrRxDescUnavail else s
        s.ackIntr intrErrMask
      else s
    (s, .handled)

/-- The recycling of the descriptor in `expt_read`. -/
def recycle (s : DevPriv) : DevPriv :=
  ({ s with
    pktRxAvail := 0
    descRx := { s.descRx with
      -- the old word is kept, the length that the NIC reported included
      opts1 := s.descRx.opts1 ||| descOwn ||| BitVec.ofNat 32 pktSize } } :
    DevPriv).hwEnableIntr intrRxDescUnavail

/-- `expt_read` of `len` bytes at the offset `off`: the device, the new offset and the result.
`fault` stands for a destination that `copy_to_user` cannot write. -/
def exptRead (s : DevPriv) (off len : ℕ) (fault : Bool) : DevPriv × ℕ × ReadResult :=
  if s.pktRxAvail = 0 then (s, off, .eagain)
  else if s.rxPktSize ≤ off then (s.recycle, 0, .endOfPacket)
  else
    let toRead := min len (s.rxPktSize - off)
    if fault = true ∧ toRead ≠ 0 then (s, off, .efault)
    else (s, off + toRead, .data ((List.range' off toRead).map s.pktRx))

/-- The NIC receives a frame into the descriptor that it owns, and latches `RX_OK`. It neither
writes nor reports more bytes than the size field of the descriptor. -/
def nicReceive (s : DevPriv) (f : RxFrame) : Option DevPriv :=
  if s.descRx.own = true ∧ lenField f.status ≤ lenField s.descRx.opts1 ∧
      f.bytes.length ≤ (lenField s.descRx.opts1).toNat then
    some { s with
      descRx := { s.descRx with opts1 := f.writeBack s.descRx.opts1 }
      pktRx := fun k => f.bytes.getD k (s.pktRx k)
      intrStatus := s.intrStatus ||| intrRxOkBit }
  else none

/-- The NIC latches other causes of an interrupt. -/
def latchOther (s : DevPriv) (bits : BitVec 16) : DevPriv :=
  { s with intrStatus := s.intrStatus ||| bits &&& ~~~intrRxOkBit }

/-- `RX_OK` is latched. -/
def RxPending (s : DevPriv) : Prop := s.intrStatus &&& intrRxOkBit ≠ 0#16

instance (s : DevPriv) : Decidable s.RxPending := inferInstanceAs (Decidable (_ ≠ _))

/-! ## What the functions do -/

/-- The four ends of `expt_read`. -/
theorem exptRead_cases (s : DevPriv) (off len : ℕ) (fault : Bool) :
    (s.pktRxAvail = 0 ∧ s.exptRead off len fault = (s, off, .eagain)) ∨
      (s.pktRxAvail ≠ 0 ∧ s.rxPktSize ≤ off ∧
        s.exptRead off len fault = (s.recycle, 0, .endOfPacket)) ∨
      (s.pktRxAvail ≠ 0 ∧ off < s.rxPktSize ∧ s.exptRead off len fault = (s, off, .efault)) ∨
      s.pktRxAvail ≠ 0 ∧ off < s.rxPktSize ∧ s.exptRead off len fault =
        (s, off + min len (s.rxPktSize - off),
          .data ((List.range' off (min len (s.rxPktSize - off))).map s.pktRx)) := by
  unfold exptRead
  by_cases havail : s.pktRxAvail = 0
  · exact .inl ⟨havail, if_pos havail⟩
  rw [if_neg havail]
  by_cases hend : s.rxPktSize ≤ off
  · exact .inr (.inl ⟨havail, hend, if_pos hend⟩)
  rw [if_neg hend]
  dsimp only
  split_ifs
  · exact .inr (.inr (.inl ⟨havail, not_le.mp hend, rfl⟩))
  · exact .inr (.inr (.inr ⟨havail, not_le.mp hend, rfl⟩))

/-- **The handler** offers a packet if `RX_OK` is latched, and leaves the descriptor and the
buffer. -/
theorem exptPciIntrHandler_rx (s : DevPriv) :
    s.exptPciIntrHandler.1.descRx = s.descRx ∧ s.exptPciIntrHandler.1.pktRx = s.pktRx ∧
      (¬ s.RxPending → s.exptPciIntrHandler.1.rxPktSize = s.rxPktSize ∧
        s.exptPciIntrHandler.1.pktRxAvail = s.pktRxAvail) ∧
      (s.RxPending → s.exptPciIntrHandler.1.rxPktSize = (lenField s.descRx.opts1).toNat ∧
        s.exptPciIntrHandler.1.pktRxAvail = s.pktRxAvail + 1) := by
  unfold exptPciIntrHandler RxPending
  dsimp only
  split
  · next hnone =>
    refine ⟨rfl, rfl, fun _ => ⟨rfl, rfl⟩, fun hrx => absurd ?_ hrx⟩
    have hsub : intrRxOkBit = (intrMaskBits ||| intrErrMask) &&& intrRxOkBit := by decide
    rw [hsub, ← BitVec.and_assoc, hnone, BitVec.zero_and]
  · split_ifs <;> simp_all [ackIntr, hwDisableIntr]

end DevPriv

end Expt
