import NanoCell.Rtl8101.Accounts

/-!
# When the device is quiet

A closed device should leave the bus and the processor alone, and so should one whose link is down:
close and link-down both stop the chip. Two things wake it up again behind their back: an open that
fails in `request_irq` leaves the chip started, and a reset task that finds every Rx slot filled
starts it whether or not there is a carrier.

## Main definitions

* `Wired`: the timer and the interrupt line are there exactly while the device is open
* `Shut`: nothing of a closed device is at work, and the driver holds nothing for it
* `LinkDown`: nothing is sent or received while the carrier is off
* `NoRestart`: the steps that leave the chip off while the carrier is

## Main results

* `Device.ndoOpen_ends`: the ends of an open, told by `irqFailures`
* `wired_always`: the timer and the interrupt line, along every run
* `shut_iff`: a closed device is quiet along a run exactly when no open of it fails in `request_irq`
* `linkDown_iff`: a link-down lasts along a run exactly when nothing restarts the chip before the
  carrier is back
-/

namespace Rtl8101

open Transition

variable {maxSkbFrags k : ℕ} {s t : Device} {e : Event} {o : OpenOutcome}

/-! ## The ends of an open, and a close -/

theorem TxRing.txClear_queueStopped (r : TxRing) : r.txClear.queueStopped = r.queueStopped := by
  have hfrom : ∀ stop i, (txClearFrom stop r i).queueStopped = r.queueStopped := by
    intro stop i
    fun_induction txClearFrom stop r i with
    | case1 r i hlt ih => exact ih.trans (txClearEntry_sameFrame r _).queueStopped
    | case2 r i hlt => rfl
  exact hfrom _ _

namespace Device

theorem initBuffers_queueStopped (s : Device) (o : OpenOutcome) :
    (s.initBuffers o).1.tx.queueStopped = s.tx.queueStopped := by
  unfold initBuffers
  dsimp only
  split_ifs
  · rfl
  · rfl
  · simp only [freeTxRing, freeRxRing, clearedRings, initRingIndexes]
  · rfl

/-- A failed open that changed nothing but the rings. -/
structure Refused (s t : Device) : Prop where
  eq : ∃ tx rx c, t = { s with tx := tx, rx := rx, coherent := c, running := false }
  queueStopped : t.tx.queueStopped = s.tx.queueStopped
  indexes : s.tx.curTx = s.tx.dirtyTx → t.tx.curTx = t.tx.dirtyTx

/-- **The ends of an open**: it was refused for want of memory, it failed in `request_irq` with the
chip started, or it succeeded. -/
theorem ndoOpen_ends (s : Device) (o : OpenOutcome) :
    (s.opening.initBuffers o).2 ≠ 0 ∧ irqFailures s (.openDev o) = 0 ∧ Refused s (s.ndoOpen o) ∨
      (s.opening.initBuffers o).2 = 0 ∧
        (irqFailures s (.openDev o) = 1 ∧
            s.ndoOpen o = { (s.filled o).startUp.shutBuffers with running := false } ∨
          irqFailures s (.openDev o) = 0 ∧
            s.ndoOpen o =
              { (s.filled o).startUp with irqRequested := true, linkTimer := true }) := by
  have hqueue := s.opening.initBuffers_queueStopped o
  rcases initBuffers_cases o s.opening with ⟨tx, rx, c, he, hidx⟩ | ⟨-, he⟩
  · rw [he] at hqueue
    refine .inl ⟨?_, ?_, ?_⟩
    · simp [he, enomem]
    · simp [irqFailures, he, enomem]
    · rw [ndoOpen_of_initBuffers he, if_pos (by decide)]
      exact ⟨⟨tx, rx, c, rfl⟩, hqueue, hidx⟩
  · have hcount : irqFailures s (.openDev o) = if o.irq < 0 then 1 else 0 := by
      simp [irqFailures, he]
    refine .inr ⟨by rw [he], ?_⟩
    rw [ndoOpen_of_initBuffers he, if_neg (lt_irrefl _), hcount]
    by_cases hirq : o.irq < 0
    · rw [if_pos hirq, if_pos hirq]
      exact .inl ⟨rfl, rfl⟩
    · rw [if_neg hirq, if_neg hirq]
      exact .inr ⟨rfl, rfl⟩

/-- What a close of an open device leaves. -/
structure Closed (s t : Device) : Prop where
  running : t.running = false
  carrierOk : t.carrierOk = false
  napiEnabled : t.napiEnabled = false
  irqRequested : t.irqRequested = false
  linkTimer : t.linkTimer = false
  chip : t.chip = s.chip.hwReset
  queueStopped : t.tx.queueStopped = true
  indexes : t.tx.curTx = t.tx.dirtyTx

theorem ndoStop_closed (hmatch : RingsMatch s) (hrun : s.running = true) : Closed s s.ndoStop := by
  have hboth : s.tx.txDescNull = false ∧ s.rx.rxDescNull = false := by
    rw [hmatch.tx, hmatch.rx, hrun]
    exact ⟨rfl, rfl⟩
  have hqueue := TxRing.txClear_queueStopped { s.tx with queueStopped := true }
  unfold ndoStop closeDev
  rw [if_pos hboth]
  refine ⟨?_, ?_, ?_, ?_, ?_, ?_, ?_, rfl⟩
  · simp only [freeTxRing, freeRxRing, txClear, hwReset]
  · simp only [freeTxRing, freeRxRing, txClear, hwReset]
  · simp only [freeTxRing, freeRxRing, txClear, hwReset]
  · simp only [freeTxRing, freeRxRing, txClear, hwReset]
  · simp only [freeTxRing, freeRxRing, txClear, hwReset]
  · simp only [freeTxRing, freeRxRing, txClear, hwReset]
  · simp only [freeTxRing, freeRxRing, txClear, hwReset, hqueue]

theorem hwReset_chip (c : Chip) : c.hwReset.rxEnb = false ∧ c.hwReset.txEnb = false ∧
    c.hwReset.intrMask = 0#16 := ⟨rfl, rfl, rfl⟩

/-- A reset task that does nothing, tidies up, or restarts the chip. -/
theorem resetTask_ends (s : Device) (alloc : BitVec 32 → Allocator) :
    s.running = false ∧ s.resetTask alloc = s ∨
      s.running = true ∧ ∃ rx, (rx = (s.rx.rxInterrupt alloc (~~~0#32)).1) ∧
        (rx.dirtyRx ≠ rx.curRx ∧
            (s.resetTask alloc) = ({ s with
              chip := s.chip.disableNClearInterrupts
              rx := rx } : Device).resetTail false ∨
          rx.dirtyRx = rx.curRx ∧
            (s.resetTask alloc) = ({ s with
              chip := s.chip.disableNClearInterrupts
              rx := rx } : Device).resetTail true) := by
  unfold resetTask
  by_cases hrun : s.running = false
  · exact .inl ⟨hrun, if_pos hrun⟩
  · refine .inr ⟨by simpa using hrun, _, rfl, ?_⟩
    rw [if_neg hrun]
    by_cases hidx : (s.rx.rxInterrupt alloc (~~~0#32)).1.dirtyRx =
        (s.rx.rxInterrupt alloc (~~~0#32)).1.curRx
    · refine .inr ⟨hidx, ?_⟩
      dsimp only
      rw [decide_eq_true hidx]
    · refine .inl ⟨hidx, ?_⟩
      dsimp only
      rw [decide_eq_false hidx]

end Device

/-! ## Closed devices -/

/-- The link timer and the interrupt line are there exactly while the device is open, and a closed
device has no carrier. -/
structure Wired (s : Device) : Prop where
  linkTimer : s.linkTimer = s.running
  irqRequested : s.irqRequested = s.running
  carrierOk : s.running = false → s.carrierOk = false

/-- A step that opens or closes nothing. -/
theorem Wired.congr (h : Wired s) (htimer : t.linkTimer = s.linkTimer)
    (hirq : t.irqRequested = s.irqRequested) (hrun : t.running = s.running)
    (hcarrier : s.running = false → t.carrierOk = s.carrierOk) : Wired t := by
  refine ⟨?_, ?_, ?_⟩
  · rw [htimer, hrun, h.linkTimer]
  · rw [hirq, hrun, h.irqRequested]
  · intro hclosed
    rw [hrun] at hclosed
    rw [hcarrier hclosed, h.carrierOk hclosed]

theorem Wired.ndoOpen (h : Wired s) (hclosed : s.running = false) (o : OpenOutcome) :
    Wired (s.ndoOpen o) := by
  have htimer : s.linkTimer = false := h.linkTimer.trans hclosed
  have hirq : s.irqRequested = false := h.irqRequested.trans hclosed
  have hcarrier : s.carrierOk = false := h.carrierOk hclosed
  rcases s.ndoOpen_ends o with ⟨-, -, hrefused⟩ | ⟨-, ⟨-, he⟩ | ⟨-, he⟩⟩
  · obtain ⟨tx, rx, c, he⟩ := hrefused.eq
    rw [he]
    exact ⟨htimer, hirq, fun _ => hcarrier⟩
  · rw [he]
    exact ⟨htimer, hirq, fun _ => hcarrier⟩
  · rw [he]
    exact ⟨rfl, rfl, fun hno => by cases hno⟩

theorem Wired.resetTask (h : Wired s) (alloc : BitVec 32 → Allocator) :
    Wired (s.resetTask alloc) := by
  rcases s.resetTask_ends alloc with ⟨-, he⟩ | ⟨hrun, rx, -, ⟨-, he⟩ | ⟨-, he⟩⟩
  · rw [he]
    exact h
  · rw [he]
    exact h.congr rfl rfl rfl fun _ => rfl
  · rw [he]
    exact h.congr rfl rfl rfl fun _ => rfl

theorem Wired.step (h : Wired s) (hmatch : RingsMatch s)
    (hstep : step maxSkbFrags s e = some t) : Wired t := by
  cases step_inv hstep with
  | openDev o hclosed => exact h.ndoOpen hclosed o
  | closeDev hrun =>
    have hclose := Device.ndoStop_closed hmatch hrun
    exact ⟨hclose.linkTimer.trans hclose.running.symm,
      hclose.irqRequested.trans hclose.running.symm, fun _ => hclose.carrierOk⟩
  | poll alloc budget =>
    obtain ⟨mask, stolen, he⟩ := s.poll_eq maxSkbFrags alloc budget
    rw [he]
    exact h.congr rfl rfl rfl fun _ => rfl
  | resetTask alloc hpending =>
    have hcleared : Wired { s with taskPending := false } := h.congr rfl rfl rfl fun _ => rfl
    exact hcleared.resetTask alloc
  -- the carrier changes only while the timer runs, that is on an open device
  | linkTimer on htimer =>
    have hopen : s.running = true := h.linkTimer.symm.trans htimer
    have hno : s.running = false → False := fun hclosed => by simp [hopen] at hclosed
    unfold Device.checkLinkStatus
    split_ifs
    · exact h.congr rfl rfl rfl fun hclosed => (hno hclosed).elim
    · exact h.congr rfl rfl rfl fun hclosed => (hno hclosed).elim
    · exact h
  | receive | fetch | complete | startXmit | txTimeout => exact h.congr rfl rfl rfl fun _ => rfl

/-- NAPI is enabled exactly while the device is open, and the chip of a closed device is off, with
its interrupts masked. -/
structure ChipOff (s : Device) : Prop where
  napiEnabled : s.napiEnabled = s.running
  chip : s.running = false →
    s.chip.rxEnb = false ∧ s.chip.txEnb = false ∧ s.chip.intrMask = 0#16

/-- Nothing is asked of the chip of an open device. -/
theorem ChipOff.of_open (h : ChipOff s) (hopen : s.running = true)
    (hnapi : t.napiEnabled = s.napiEnabled) (hrun : t.running = s.running) : ChipOff t := by
  refine ⟨?_, ?_⟩
  · rw [hnapi, hrun, h.napiEnabled]
  · intro hclosed
    rw [hrun, hopen] at hclosed
    cases hclosed

theorem ChipOff.step (h : ChipOff s) (hmatch : RingsMatch s) (hwired : Wired s)
    (hok : irqFailures s e = 0) (hstep : step maxSkbFrags s e = some t) : ChipOff t := by
  cases step_inv hstep with
  | openDev o hclosed =>
    rcases s.ndoOpen_ends o with ⟨-, -, hrefused⟩ | ⟨-, ⟨hone, -⟩ | ⟨-, he⟩⟩
    · obtain ⟨tx, rx, c, he⟩ := hrefused.eq
      rw [he]
      exact ⟨h.napiEnabled.trans hclosed, fun _ => h.chip hclosed⟩
    · rw [hok] at hone
      cases hone
    · rw [he]
      exact ⟨rfl, fun hno => by cases hno⟩
  | closeDev hrun =>
    have hclose := Device.ndoStop_closed hmatch hrun
    refine ⟨hclose.napiEnabled.trans hclose.running.symm, fun _ => ?_⟩
    rw [hclose.chip]
    exact Device.hwReset_chip s.chip
  | poll alloc budget hrun =>
    obtain ⟨mask, stolen, he⟩ := s.poll_eq maxSkbFrags alloc budget
    rw [he]
    exact h.of_open hrun rfl rfl
  | resetTask alloc hpending =>
    rcases Device.resetTask_ends { s with taskPending := false } alloc with
      ⟨-, he⟩ | ⟨hrun, rx, -, ⟨-, he⟩ | ⟨-, he⟩⟩
    · rw [he]
      exact ⟨h.napiEnabled, h.chip⟩
    · rw [he]
      exact h.of_open hrun rfl rfl
    · rw [he]
      exact h.of_open hrun rfl rfl
  | linkTimer on htimer =>
    have hopen : s.running = true := hwired.linkTimer.symm.trans htimer
    unfold Device.checkLinkStatus
    split_ifs
    · exact h.of_open hopen rfl rfl
    · exact h.of_open hopen rfl rfl
    · exact h
  | txTimeout hrun => exact h.of_open hrun rfl rfl
  | receive | fetch | complete | startXmit => exact ⟨h.napiEnabled, h.chip⟩

/-- A closed device at rest: both engines are off, the interrupts are masked, NAPI, the interrupt
line, the timer and the carrier are off, the rings are freed, and no Rx buffer is held. -/
structure Shut (s : Device) : Prop where
  engines : s.chip.rxEnb = false ∧ s.chip.txEnb = false
  intrMask : s.chip.intrMask = 0#16
  napiEnabled : s.napiEnabled = false
  irqRequested : s.irqRequested = false
  linkTimer : s.linkTimer = false
  carrierOk : s.carrierOk = false
  pointers : s.tx.txDescNull = true ∧ s.rx.rxDescNull = true
  rings : s.coherent.live = 0
  skbs : s.rx.skbs.live = 0

/-- What keeps a closed device at rest. -/
structure Tidy (s : Device) : Prop where
  rings : RingsMatch s
  wired : Wired s
  chip : ChipOff s
  books : RxBooks 0 s

theorem Tidy.registered : Tidy Device.registered :=
  ⟨⟨rfl, rfl⟩, ⟨rfl, rfl, fun _ => rfl⟩, ⟨rfl, fun _ => ⟨rfl, rfl, rfl⟩⟩, .registered⟩

theorem Tidy.step (h : Tidy s) (hok : irqFailures s e = 0)
    (hstep : step maxSkbFrags s e = some t) : Tidy t := by
  have hbooks := h.books.step h.rings hstep
  rw [hok] at hbooks
  exact ⟨h.rings.step hstep, h.wired.step h.rings hstep, h.chip.step h.rings h.wired hok hstep,
    hbooks⟩

theorem Tidy.shut (h : Tidy s) (hclosed : s.running = false) : Shut s := by
  obtain ⟨hrx, htx, hmask⟩ := h.chip.chip hclosed
  obtain ⟨hrings, hskbs, -⟩ := h.books.accounted
  obtain ⟨lost, hcard, -, -, -, hlive⟩ := hskbs
  obtain ⟨-, -, -, hrings'⟩ := hrings
  obtain rfl : lost = 0 := Multiset.card_eq_zero.mp (by simpa using hcard)
  refine ⟨⟨hrx, htx⟩, hmask, h.chip.napiEnabled.trans hclosed, h.wired.irqRequested.trans hclosed,
    h.wired.linkTimer.trans hclosed, h.wired.carrierOk hclosed, ⟨?_, ?_⟩, ?_, ?_⟩
  · rw [h.rings.tx, hclosed]
    rfl
  · rw [h.rings.rx, hclosed]
    rfl
  · simpa [hclosed, Ledger.empty] using hrings'
  · simpa [hclosed, Ledger.empty] using hlive

/-- **Closed means quiet**: along a run of a registered device, every closed state is at rest
exactly when no open of the run fails in `request_irq`. -/
theorem shut_iff (maxSkbFrags : ℕ) (es : List Event) :
    Always (step maxSkbFrags) (fun s => s.running = false → Shut s) Device.registered es ↔
      Along (step maxSkbFrags) (fun s e => irqFailures s e = 0) Device.registered es := by
  refine always_iff_along (J := Tidy) (fun s h => h.shut)
    (fun s e t h hok hstep => h.step hok hstep) ?_ .registered es
  intro s e t h hno hstep hshut
  cases e with
  | openDev o =>
    cases step_inv hstep with
    | openDev _ hclosed =>
      rcases s.ndoOpen_ends o with ⟨-, hzero, -⟩ | ⟨-, ⟨-, he⟩ | ⟨hzero, -⟩⟩
      · exact hno hzero
      · rw [he] at hshut
        have hon : true = false := (hshut rfl).engines.1
        cases hon
      · exact hno hzero
  | _ => exact hno rfl

/-! ## Link-down -/

/-- Without a carrier both engines are off, the queue is stopped and the Tx ring is empty. -/
structure LinkDown (s : Device) : Prop where
  engines : s.carrierOk = false → s.chip.rxEnb = false ∧ s.chip.txEnb = false
  queueStopped : s.carrierOk = false → s.tx.queueStopped = true
  indexes : s.carrierOk = false → s.tx.curTx = s.tx.dirtyTx

/-- The steps that leave the chip off: an open that is refused for want of memory, and a reset task
that runs with a carrier, on a closed device, or short of Rx buffers. -/
def NoRestart (s : Device) : Event → Prop
  | .openDev o => (s.opening.initBuffers o).2 ≠ 0
  | .resetTask alloc => s.running = true → s.carrierOk = false →
      (s.rx.rxInterrupt alloc (~~~0#32)).1.dirtyRx ≠ (s.rx.rxInterrupt alloc (~~~0#32)).1.curRx
  | _ => True

theorem LinkDown.of_carrier (h : s.carrierOk = true) : LinkDown s := by
  have hno : ¬ s.carrierOk = false := by simp [h]
  exact ⟨fun hoff => absurd hoff hno, fun hoff => absurd hoff hno, fun hoff => absurd hoff hno⟩

/-- A link-down stops the queue and the chip, and clears the ring. -/
theorem LinkDown.downed (s : Device) : LinkDown ({ s with
    carrierOk := false
    tx := { s.tx with queueStopped := true } } : Device).hwReset.txClear.initRingIndexes :=
  ⟨fun _ => ⟨rfl, rfl⟩, fun _ => TxRing.txClear_queueStopped { s.tx with queueStopped := true },
    fun _ => rfl⟩

theorem LinkDown.resetTask (h : LinkDown s) {alloc : BitVec 32 → Allocator}
    (hok : NoRestart s (.resetTask alloc)) : LinkDown (s.resetTask alloc) := by
  rcases s.resetTask_ends alloc with ⟨-, he⟩ | ⟨hrun, rx, rfl, ⟨-, he⟩ | ⟨hidx, he⟩⟩
  · rw [he]
    exact h
  · rw [he]
    refine ⟨h.engines, fun hoff => ?_, fun _ => rfl⟩
    exact (TxRing.txClear_queueStopped s.tx).trans (h.queueStopped hoff)
  · rw [he]
    cases hcarrier : s.carrierOk with
    | true => exact .of_carrier rfl
    | false => exact absurd hidx (hok hrun hcarrier)

theorem LinkDown.step (h : LinkDown s) (hmatch : RingsMatch s) (hok : NoRestart s e)
    (hstep : step maxSkbFrags s e = some t) : LinkDown t := by
  cases step_inv hstep with
  | openDev o hclosed =>
    rcases s.ndoOpen_ends o with ⟨-, -, hrefused⟩ | ⟨hzero, -⟩
    · obtain ⟨tx, rx, c, he⟩ := hrefused.eq
      have hqueue := hrefused.queueStopped
      have hidx := hrefused.indexes
      rw [he] at hqueue hidx ⊢
      exact ⟨h.engines, fun hoff => hqueue.trans (h.queueStopped hoff),
        fun hoff => hidx (h.indexes hoff)⟩
    · exact absurd hzero hok
  | closeDev hrun =>
    have hclose := Device.ndoStop_closed hmatch hrun
    obtain ⟨hrx, htx, -⟩ := Device.hwReset_chip s.chip
    refine ⟨fun _ => ?_, fun _ => hclose.queueStopped, fun _ => hclose.indexes⟩
    rw [hclose.chip]
    exact ⟨hrx, htx⟩
  | poll alloc budget =>
    obtain ⟨mask, stolen, he⟩ := s.poll_eq maxSkbFrags alloc budget
    rw [he]
    refine ⟨h.engines, fun hoff => ?_, fun hoff => ?_⟩
    · dsimp only
      rw [TxRing.txInterrupt_of_eq maxSkbFrags (h.indexes hoff)]
      exact h.queueStopped hoff
    · dsimp only
      rw [TxRing.txInterrupt_of_eq maxSkbFrags (h.indexes hoff)]
      exact h.indexes hoff
  | startXmit skb hrun hawake =>
    cases hcarrier : s.carrierOk with
    | true => exact .of_carrier hcarrier
    | false =>
      rw [h.queueStopped hcarrier] at hawake
      cases hawake
  | resetTask alloc hpending =>
    have hcleared : LinkDown { s with taskPending := false } :=
      ⟨h.engines, h.queueStopped, h.indexes⟩
    exact hcleared.resetTask hok
  | linkTimer on htimer =>
    unfold Device.checkLinkStatus
    split_ifs
    · exact .of_carrier rfl
    · exact .downed s
    · exact h
  | txTimeout hrun => exact ⟨fun _ => ⟨rfl, rfl⟩, h.queueStopped, h.indexes⟩
  | receive | fetch | complete => exact ⟨h.engines, h.queueStopped, h.indexes⟩

/-- A restart behind a link-down is seen at once. -/
theorem not_linkDown_step (hwired : Wired s) (hno : ¬ NoRestart s e)
    (hstep : step maxSkbFrags s e = some t) : ¬ LinkDown t := by
  intro hdown
  cases step_inv hstep with
  | openDev o hclosed =>
    have hoff : s.carrierOk = false := hwired.carrierOk hclosed
    rcases s.ndoOpen_ends o with ⟨hne, -⟩ | ⟨-, ⟨-, he⟩ | ⟨-, he⟩⟩
    · exact hno hne
    · rw [he] at hdown
      have hon : true = false := (hdown.engines hoff).1
      cases hon
    · rw [he] at hdown
      have hon : true = false := (hdown.engines hoff).1
      cases hon
  | resetTask alloc hpending =>
    obtain ⟨hrun, hoff, hidx⟩ : s.running = true ∧ s.carrierOk = false ∧
        (s.rx.rxInterrupt alloc (~~~0#32)).1.dirtyRx =
          (s.rx.rxInterrupt alloc (~~~0#32)).1.curRx := by
      unfold NoRestart at hno
      push Not at hno
      exact hno
    rcases Device.resetTask_ends { s with taskPending := false } alloc with
      ⟨hclosed, -⟩ | ⟨-, rx, rfl, ⟨hne, -⟩ | ⟨-, he⟩⟩
    · rw [show s.running = false from hclosed] at hrun
      cases hrun
    · exact hne hidx
    · rw [he] at hdown
      have hon : true = false := (hdown.engines hoff).1
      cases hon
  | _ => exact hno trivial

theorem wired_always (maxSkbFrags : ℕ) (es : List Event) :
    Always (step maxSkbFrags) (fun s => RingsMatch s ∧ Wired s) Device.registered es :=
  always_of_step (fun _ _ _ h hstep => ⟨h.1.step hstep, h.2.step h.1 hstep⟩)
    ⟨⟨rfl, rfl⟩, rfl, rfl, fun _ => rfl⟩ es

/-- **Down means quiet**: from a link-down on, in every state that a run comes to while the carrier
is off, both engines are off, the queue is stopped and the Tx ring is empty, exactly when the run
restarts the chip only with a carrier: no open gets as far as the chip, and no reset task finds
every slot of the Rx ring filled. -/
theorem linkDown_iff (maxSkbFrags : ℕ) {es₀ : List Event}
    (hrun : run (step maxSkbFrags) Device.registered es₀ = some s) (hup : s.carrierOk = true)
    (es : List Event) :
    Always (step maxSkbFrags) LinkDown (s.checkLinkStatus false) es ↔
      Along (step maxSkbFrags) NoRestart (s.checkLinkStatus false) es := by
  obtain ⟨hmatch, hwired⟩ := (wired_always maxSkbFrags es₀).of_run hrun
  have htimer : s.linkTimer = true := by
    rw [hwired.linkTimer]
    by_contra hno
    have hoff := hwired.carrierOk (by simpa using hno)
    rw [hup] at hoff
    cases hoff
  have hstep : step maxSkbFrags s (.linkTimer false) = some (s.checkLinkStatus false) := by
    simp [step, htimer]
  have hdown : LinkDown (s.checkLinkStatus false) := by
    rw [Device.checkLinkStatus_down hup]
    exact .downed s
  refine always_iff_along (J := fun s => LinkDown s ∧ RingsMatch s ∧ Wired s) (fun s h => h.1)
    ?_ ?_ ⟨hdown, hmatch.step hstep, hwired.step hmatch hstep⟩ es
  · rintro s e t ⟨hdown, hmatch, hwired⟩ hok hstep
    exact ⟨hdown.step hmatch hok hstep, hmatch.step hstep, hwired.step hmatch hstep⟩
  · rintro s e t ⟨-, -, hwired⟩ hno hstep
    exact not_linkDown_step hwired hno hstep

/-- The first open of a device and its link-up, after which the link is lost. -/
theorem linkDown_iff_flap :
    ∃ s, run (step 17) Device.registered [.openDev .plenty, .linkTimer true] = some s ∧
      s.carrierOk = true ∧ ∀ es, Always (step 17) LinkDown (s.checkLinkStatus false) es ↔
        Along (step 17) NoRestart (s.checkLinkStatus false) es := by
  have hopen : (Device.registered.ndoOpen .plenty).running = true := Device.ndoOpen_plenty rfl
  have hstarted := Device.ndoOpen_started hopen
  have hstep : step 17 Device.registered (.openDev .plenty) =
      some (Device.registered.ndoOpen .plenty) := rfl
  generalize Device.registered.ndoOpen .plenty = s₁ at hstarted hstep
  have hoff : s₁.carrierOk = false := hstarted.carrierOk
  have hup : step 17 s₁ (.linkTimer true) = some (s₁.checkLinkStatus true) := by
    simp [step, hstarted.linkTimer]
  have hcarrier : (s₁.checkLinkStatus true).carrierOk = true := by
    rw [Device.checkLinkStatus_up hoff]
  have hrun : run (step 17) Device.registered [.openDev .plenty, .linkTimer true] =
      some (s₁.checkLinkStatus true) := by
    rw [run_cons hstep, run_cons hup, run_nil]
  exact ⟨_, hrun, hcarrier, linkDown_iff 17 hrun hcarrier⟩

end Rtl8101
