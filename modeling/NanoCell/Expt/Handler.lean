import Mathlib.Logic.Relation
import NanoCell.Expt.Driver

/-!
# The interrupt handler step by step

While `expt_pci_intr_handler` runs on one processor, the calls of the driver run on others and the
NIC goes on. `handlerStep` takes the handler from one access of the device or of its fields to the
next one. The status is read once, at the beginning: every later test is of that copy, and every
bit of the register is acknowledged on its own.

## Main definitions

* `HandlerPc`: where the handler stands
* `handlerStep`: its next access

## Main results

* `handlerMove_alone`: with nothing in between, the steps amount to `exptPciIntrHandler`
* `handlerStep_txPending`, `handlerStep_rxPending`: what one step does to the completions and the
  packets that are pending
-/

namespace Expt

open Rtl8101 (lenField)

/-- Where the handler stands, with the status that it read. An idle handler reads it when it
starts. -/
inductive HandlerPc where
  | idle
  | link (st : BitVec 16)
  | txAck (st : BitVec 16)
  | txDec (st : BitVec 16)
  | rxAck (st : BitVec 16)
  | rxSize (st : BitVec 16)
  | rxInc (st : BitVec 16)
  | err (st : BitVec 16)
  | errAck (st : BitVec 16)
  deriving DecidableEq

/-- The next step of `expt_pci_intr_handler`. -/
def handlerStep (s : DevPriv) : HandlerPc → DevPriv × HandlerPc
  | .idle =>
    if s.intrStatus &&& (intrMaskBits ||| intrErrMask) = 0#16 then (s, .idle)
    else (s, .link s.intrStatus)
  | .link st => (if st &&& intrLinkChgBit ≠ 0#16 then s.ackIntr intrLinkChgBit else s, .txAck st)
  | .txAck st =>
    if st &&& intrTxOkBit ≠ 0#16 then (s.ackIntr intrTxOkBit, .txDec st) else (s, .rxAck st)
  | .txDec st => ({ s with pktTxBusy := s.pktTxBusy - 1 }, .rxAck st)
  | .rxAck st =>
    if st &&& intrRxOkBit ≠ 0#16 then (s.ackIntr intrRxOkBit, .rxSize st) else (s, .err st)
  | .rxSize st => ({ s with rxPktSize := (lenField s.descRx.opts1).toNat }, .rxInc st)
  | .rxInc st => ({ s with pktRxAvail := s.pktRxAvail + 1 }, .err st)
  | .err st =>
    if st &&& intrErrMask ≠ 0#16 then
      (if st &&& intrRxDescUnavail ≠ 0#16 then s.hwDisableIntr intrRxDescUnavail else s, .errAck st)
    else (s, .idle)
  | .errAck _ => (s.ackIntr intrErrMask, .idle)

/-- One step of the handler, as a relation on its states. -/
def HandlerMove (p q : DevPriv × HandlerPc) : Prop := handlerStep p.1 p.2 = q

/-! ## The handler alone

With nothing in between, the handler passes its causes one after the other. -/

section Alone

open Relation

variable (s : DevPriv) (st : BitVec 16)

theorem handlerMove_tx :
    ReflTransGen HandlerMove (s, .txAck st)
      (if st &&& intrTxOkBit ≠ 0#16 then
        { s.ackIntr intrTxOkBit with pktTxBusy := s.pktTxBusy - 1 } else s, .rxAck st) := by
  split_ifs with htx
  · have hack : HandlerMove (s, .txAck st) (s.ackIntr intrTxOkBit, .txDec st) := if_pos htx
    exact .head hack (.single rfl)
  · exact .single (if_neg htx)

theorem handlerMove_rx :
    ReflTransGen HandlerMove (s, .rxAck st)
      (if st &&& intrRxOkBit ≠ 0#16 then
        { s.ackIntr intrRxOkBit with
          rxPktSize := (lenField s.descRx.opts1).toNat
          pktRxAvail := s.pktRxAvail + 1 } else s, .err st) := by
  split_ifs with hrx
  · have hack : HandlerMove (s, .rxAck st) (s.ackIntr intrRxOkBit, .rxSize st) := if_pos hrx
    have hsize : HandlerMove (s.ackIntr intrRxOkBit, .rxSize st)
        ({ s.ackIntr intrRxOkBit with rxPktSize := (lenField s.descRx.opts1).toNat },
          .rxInc st) := rfl
    exact .head hack (.head hsize (.single rfl))
  · exact .single (if_neg hrx)

theorem handlerMove_err :
    ReflTransGen HandlerMove (s, .err st)
      (if st &&& intrErrMask ≠ 0#16 then
        (if st &&& intrRxDescUnavail ≠ 0#16 then s.hwDisableIntr intrRxDescUnavail
          else s).ackIntr intrErrMask else s, .idle) := by
  by_cases herr : st &&& intrErrMask ≠ 0#16
  · rw [if_pos herr]
    have hmask : HandlerMove (s, .err st)
      (if st &&& intrRxDescUnavail ≠ 0#16 then s.hwDisableIntr intrRxDescUnavail else s,
        .errAck st) := if_pos herr
    exact .head hmask (.single rfl)
  · rw [if_neg herr]
    exact .single (if_neg herr)

/-- **The handler alone**: with nothing in between, the steps of the handler take it back to its
start and amount to `exptPciIntrHandler`. -/
theorem handlerMove_alone :
    TransGen HandlerMove (s, .idle) (s.exptPciIntrHandler.1, .idle) := by
  unfold DevPriv.exptPciIntrHandler
  dsimp only
  by_cases hours : s.intrStatus &&& (intrMaskBits ||| intrErrMask) = 0#16
  · rw [if_pos hours]
    exact .single (if_pos hours)
  · rw [if_neg hours]
    have hread : HandlerMove (s, .idle) (s, .link s.intrStatus) := if_neg hours
    have hlink : HandlerMove (s, .link s.intrStatus)
      (if s.intrStatus &&& intrLinkChgBit ≠ 0#16 then s.ackIntr intrLinkChgBit else s,
        .txAck s.intrStatus) := rfl
    refine .head' hread (.head hlink ?_)
    exact ((handlerMove_tx _ _).trans (handlerMove_rx _ _)).trans (handlerMove_err _ _)

end Alone

/-! ## The status register -/

namespace DevPriv

/-- Some bit of `bits` is latched. -/
def Latched (s : DevPriv) (bits : BitVec 16) : Prop := s.intrStatus &&& bits ≠ 0#16

instance (s : DevPriv) (bits : BitVec 16) : Decidable (s.Latched bits) :=
  inferInstanceAs (Decidable (_ ≠ _))

/-- The NIC latches `bits`. -/
def latch (s : DevPriv) (bits : BitVec 16) : DevPriv :=
  { s with intrStatus := s.intrStatus ||| bits }

variable {s : DevPriv} {bits other : BitVec 16}

theorem ackIntr_latched_self : ¬ (s.ackIntr bits).Latched bits := by
  intro h
  apply h
  rw [ackIntr, BitVec.and_assoc, BitVec.not_and_self]
  exact BitVec.and_zero

/-- Acknowledging other bits leaves a cause latched or not. -/
theorem ackIntr_latched (h : ~~~bits &&& other = other) :
    (s.ackIntr bits).Latched other ↔ s.Latched other := by
  simp only [Latched, ackIntr, BitVec.and_assoc, h]

theorem latch_latched_self (h : bits ≠ 0#16) : (s.latch bits).Latched bits := by
  have hself : (s.intrStatus ||| bits) &&& bits = bits := by
    ext k
    simp only [BitVec.getElem_and, BitVec.getElem_or]
    cases s.intrStatus[k] <;> simp
  rw [Latched, latch, hself]
  exact h

/-- Latching other bits leaves a cause latched or not. -/
theorem latch_latched (h : bits &&& other = 0#16) :
    (s.latch bits).Latched other ↔ s.Latched other := by
  rw [Latched, Latched, latch, BitVec.and_comm, BitVec.and_or_distrib_left,
    BitVec.and_comm other bits, h, BitVec.or_zero, BitVec.and_comm]

theorem Latched.latch (h : s.Latched other) (bits : BitVec 16) : (s.latch bits).Latched other := by
  intro h0
  apply h
  rw [DevPriv.latch, BitVec.and_comm, BitVec.and_or_distrib_left, BitVec.or_eq_zero_iff] at h0
  rw [BitVec.and_comm]
  exact h0.1

/-- A cause that is neither latched nor in the hand of the handler is pending once the NIC latches
it. -/
theorem latch_pending (hbits : bits ≠ 0#16) {n : ℕ}
    (h : (if s.Latched bits then 1 else 0) + n = 0) :
    (if (s.latch bits).Latched bits then 1 else 0) + n = 1 := by
  rw [if_pos (latch_latched_self hbits)]
  omega

/-- The acknowledgement takes a cause from the register into the hand of the handler. -/
theorem ackIntr_pending (h : s.Latched bits) :
    (if (s.ackIntr bits).Latched bits then 1 else 0) + 1 =
      (if s.Latched bits then 1 else 0) + 0 := by
  rw [if_neg ackIntr_latched_self, if_pos h]

end DevPriv

/-! ## Completions on their way to the count

A completion of the NIC is latched as `TX_OK`, acknowledged, and then counted: from the one to the
other it is pending. -/

/-- The handler acknowledged `TX_OK` and has not counted it down yet. -/
def HandlerPc.inTx : HandlerPc → Bool
  | .txDec _ => true
  | _ => false

/-- The handler read `TX_OK` and will acknowledge it. -/
def HandlerPc.ToAckTx : HandlerPc → Prop
  | .link st | .txAck st => st &&& intrTxOkBit ≠ 0#16
  | _ => False

/-- The completions that the count does not know of yet. -/
def txPending (s : DevPriv) (pc : HandlerPc) : ℕ :=
  (if s.Latched intrTxOkBit then 1 else 0) + pc.inTx.toNat

section TxPending

variable {s t : DevPriv} {pc : HandlerPc}

theorem txPending_congr (h : t.Latched intrTxOkBit ↔ s.Latched intrTxOkBit) :
    txPending t pc = txPending s pc := by
  simp only [txPending, h]

theorem txPending_latch (h : txPending s pc = 0) : txPending (s.latch intrTxOkBit) pc = 1 :=
  DevPriv.latch_pending (by decide) h

/-- What the handler will acknowledge is still latched after its step. -/
theorem handlerStep_toAckTx (h : pc.ToAckTx → s.Latched intrTxOkBit) :
    (handlerStep s pc).2.ToAckTx → (handlerStep s pc).1.Latched intrTxOkBit := by
  cases pc with
  | idle =>
    simp only [handlerStep]
    split_ifs
    · exact False.elim
    · exact id
  | link st =>
    intro hst
    have hlatched := h hst
    simp only [handlerStep]
    split_ifs
    · exact (DevPriv.ackIntr_latched (by decide)).mpr hlatched
    · exact hlatched
  | txAck st => simp only [handlerStep]; split_ifs <;> exact False.elim
  | rxAck st => simp only [handlerStep]; split_ifs <;> exact False.elim
  | err st => simp only [handlerStep]; split_ifs <;> exact False.elim
  | txDec st => exact False.elim
  | rxSize st => exact False.elim
  | rxInc st => exact False.elim
  | errAck st => exact False.elim

/-- **A step of the handler** leaves the count and the pending completions, or counts one of them
down. -/
theorem handlerStep_txPending (h : pc.ToAckTx → s.Latched intrTxOkBit) :
    ((handlerStep s pc).1.pktTxBusy = s.pktTxBusy ∧ pc.inTx = false ∧
        txPending (handlerStep s pc).1 (handlerStep s pc).2 = txPending s pc) ∨
      ((handlerStep s pc).1.pktTxBusy = s.pktTxBusy - 1 ∧ pc.inTx = true ∧
        txPending (handlerStep s pc).1 (handlerStep s pc).2 + 1 = txPending s pc) := by
  cases pc with
  | idle =>
    refine .inl ?_
    simp only [handlerStep]
    split_ifs <;> exact ⟨rfl, rfl, rfl⟩
  | link st =>
    refine .inl ?_
    simp only [handlerStep]
    split_ifs
    · have hack : (s.ackIntr intrLinkChgBit).Latched intrTxOkBit ↔ s.Latched intrTxOkBit :=
        DevPriv.ackIntr_latched (by decide)
      exact ⟨rfl, rfl, txPending_congr hack⟩
    · exact ⟨rfl, rfl, rfl⟩
  | txAck st =>
    refine .inl ?_
    simp only [handlerStep]
    split_ifs with htx
    · exact ⟨rfl, rfl, DevPriv.ackIntr_pending (h htx)⟩
    · exact ⟨rfl, rfl, rfl⟩
  | txDec st => exact .inr ⟨rfl, rfl, rfl⟩
  | rxAck st =>
    refine .inl ?_
    simp only [handlerStep]
    split_ifs
    · have hack : (s.ackIntr intrRxOkBit).Latched intrTxOkBit ↔ s.Latched intrTxOkBit :=
        DevPriv.ackIntr_latched (by decide)
      exact ⟨rfl, rfl, txPending_congr hack⟩
    · exact ⟨rfl, rfl, rfl⟩
  | rxSize st => exact .inl ⟨rfl, rfl, rfl⟩
  | rxInc st => exact .inl ⟨rfl, rfl, rfl⟩
  | err st =>
    refine .inl ?_
    simp only [handlerStep]
    split_ifs <;> exact ⟨rfl, rfl, rfl⟩
  | errAck st =>
    have hack : (s.ackIntr intrErrMask).Latched intrTxOkBit ↔ s.Latched intrTxOkBit :=
      DevPriv.ackIntr_latched (by decide)
    exact .inl ⟨rfl, rfl, txPending_congr hack⟩

end TxPending

/-! ## Packets on their way to the readers

A packet is latched as `RX_OK`, acknowledged, its size taken from the descriptor, and then it is
offered: until then it is pending. -/

/-- The handler acknowledged `RX_OK` and has not offered the packet yet. -/
def HandlerPc.inRx : HandlerPc → Bool
  | .rxSize _ | .rxInc _ => true
  | _ => false

/-- The handler read `RX_OK` and will acknowledge it. -/
def HandlerPc.ToAckRx : HandlerPc → Prop
  | .link st | .txAck st | .txDec st | .rxAck st => st &&& intrRxOkBit ≠ 0#16
  | _ => False

/-- The packets that were not offered yet. -/
def rxPending (s : DevPriv) (pc : HandlerPc) : ℕ :=
  (if s.Latched intrRxOkBit then 1 else 0) + pc.inRx.toNat

section RxPending

variable {s t : DevPriv} {pc : HandlerPc}

theorem rxPending_congr (h : t.Latched intrRxOkBit ↔ s.Latched intrRxOkBit) :
    rxPending t pc = rxPending s pc := by
  simp only [rxPending, h]

theorem rxPending_latch (h : rxPending s pc = 0) : rxPending (s.latch intrRxOkBit) pc = 1 :=
  DevPriv.latch_pending (by decide) h

/-- The handler leaves the descriptor and the buffer. -/
theorem handlerStep_descRx (s : DevPriv) (pc : HandlerPc) :
    (handlerStep s pc).1.descRx = s.descRx ∧ (handlerStep s pc).1.pktRx = s.pktRx := by
  cases pc with
  | txDec | rxSize | rxInc | errAck => exact ⟨rfl, rfl⟩
  | idle | link | txAck | rxAck | err =>
    simp only [handlerStep]
    split_ifs <;> exact ⟨rfl, rfl⟩

theorem handlerStep_toAckRx (h : pc.ToAckRx → s.Latched intrRxOkBit) :
    (handlerStep s pc).2.ToAckRx → (handlerStep s pc).1.Latched intrRxOkBit := by
  cases pc with
  | idle =>
    simp only [handlerStep]
    split_ifs
    · exact False.elim
    · exact id
  | link st =>
    intro hst
    simp only [handlerStep]
    split_ifs
    · exact (DevPriv.ackIntr_latched (by decide)).mpr (h hst)
    · exact h hst
  | txAck st =>
    simp only [handlerStep]
    split_ifs
    · exact fun hst => (DevPriv.ackIntr_latched (by decide)).mpr (h hst)
    · exact fun hst => h hst
  | txDec st => exact fun hst => h hst
  | rxAck st => simp only [handlerStep]; split_ifs <;> exact False.elim
  | err st => simp only [handlerStep]; split_ifs <;> exact False.elim
  | rxSize st => exact False.elim
  | rxInc st => exact False.elim
  | errAck st => exact False.elim

/-- **A step of the handler** offers a pending packet, takes its size, or leaves what is offered
and what is pending. -/
theorem handlerStep_rxPending (h : pc.ToAckRx → s.Latched intrRxOkBit) :
    (∃ st, pc = .rxInc st ∧ (handlerStep s pc).2 = .err st ∧
        (handlerStep s pc).1 = { s with pktRxAvail := s.pktRxAvail + 1 }) ∨
      (∃ st, pc = .rxSize st ∧ (handlerStep s pc).2 = .rxInc st ∧
        (handlerStep s pc).1 = { s with rxPktSize := (lenField s.descRx.opts1).toNat }) ∨
      ((∀ st, (handlerStep s pc).2 ≠ .rxInc st) ∧
        (handlerStep s pc).1.rxPktSize = s.rxPktSize ∧
        (handlerStep s pc).1.pktRxAvail = s.pktRxAvail ∧
        rxPending (handlerStep s pc).1 (handlerStep s pc).2 = rxPending s pc) := by
  cases pc with
  | rxInc st => exact .inl ⟨st, rfl, rfl, rfl⟩
  | rxSize st => exact .inr (.inl ⟨st, rfl, rfl, rfl⟩)
  | idle =>
    refine .inr (.inr ?_)
    simp only [handlerStep]
    split_ifs <;> exact ⟨fun st => HandlerPc.noConfusion, rfl, rfl, rfl⟩
  | link st =>
    refine .inr (.inr ⟨fun st => HandlerPc.noConfusion, ?_⟩)
    simp only [handlerStep]
    split_ifs
    · exact ⟨rfl, rfl, rxPending_congr (DevPriv.ackIntr_latched (by decide))⟩
    · exact ⟨rfl, rfl, rfl⟩
  | txAck st =>
    refine .inr (.inr ?_)
    simp only [handlerStep]
    split_ifs
    · exact ⟨fun st => HandlerPc.noConfusion, rfl, rfl,
        rxPending_congr (DevPriv.ackIntr_latched (by decide))⟩
    · exact ⟨fun st => HandlerPc.noConfusion, rfl, rfl, rfl⟩
  | txDec st => exact .inr (.inr ⟨fun st => HandlerPc.noConfusion, rfl, rfl, rfl⟩)
  | rxAck st =>
    refine .inr (.inr ?_)
    simp only [handlerStep]
    split_ifs with hrx
    · exact ⟨fun st => HandlerPc.noConfusion, rfl, rfl, DevPriv.ackIntr_pending (h hrx)⟩
    · exact ⟨fun st => HandlerPc.noConfusion, rfl, rfl, rfl⟩
  | err st =>
    refine .inr (.inr ?_)
    simp only [handlerStep]
    split_ifs <;> exact ⟨fun st => HandlerPc.noConfusion, rfl, rfl, rfl⟩
  | errAck st =>
    exact .inr (.inr ⟨fun st => HandlerPc.noConfusion, rfl, rfl,
      rxPending_congr (DevPriv.ackIntr_latched (by decide))⟩)

end RxPending

end Expt
