import NanoCell.Rtl8101.RxQueue

/-!
# Setting up the buffers, and a failed open

`rtl8101_init_buffers` allocates both rings and fills the Rx ring; when one of its allocations fails
it undoes the ones before, and what it undoes in the Rx ring it reads off the slots that the refill
left behind. `rtl8101_open` goes on to enable NAPI and to start the chip, and when `request_irq`
then fails it frees the two rings and nothing else.

## Main definitions

* `Device.opening`: the device when `rtl8101_open` calls `rtl8101_init_buffers`
* `Device.SetUp`, `Device.RolledBack`: the two ends of `rtl8101_init_buffers`
* `RingsMatch`: the ring pointers are `NULL` exactly while the device is closed
* `Device.LeftNothing`: what a failed open owes to the next one

## Main results

* `FillRun.stocked`, `Stocked.rxClear`: the buffers taken from the kernel are those in the slots
* `allOrNothing_of_closed`: `rtl8101_init_buffers` sets up everything or undoes everything, in every
  closed state
* `requestIrq_leaks`: an open that fails at `request_irq` never leaves nothing behind
-/

namespace Rtl8101

open Counter Transition

namespace RxRing

variable {l₀ : Ledger SkBuff} {r r' : RxRing} {p q : ℕ}

/-! ## The buffers taken from the kernel -/

/-- Since `l₀` the buffers taken from the kernel and not given back are those in the slots. -/
def Stocked (l₀ : Ledger SkBuff) (r : RxRing) : Prop := l₀.Holds r.skbs (occupied r.rxSkbuff)

theorem Stocked.of_empty (h : ∀ i, r.rxSkbuff i = none) : Stocked r.skbs r := by
  rw [Stocked, occupied_eq_zero h]
  exact Ledger.holds_self r.skbs

/-- A refill puts what it takes into the slots. -/
theorem FillRun.stocked {alloc : BitVec 32 → Allocator} (hrun : FillRun alloc r p r' q)
    (h : Stocked l₀ r) : Stocked l₀ r' := by
  induction hrun with
  | done r p => exact h
  | skip _ _ ih => exact ih h
  | fill hs ha _ ih =>
    obtain ⟨m, -, rfl⟩ := allocRxSkb_eq_some ha
    apply ih
    unfold Stocked
    rw [occupied_update_some hs]
    exact Ledger.Holds.acquire h _

theorem Stocked.rxClearEntry (h : Stocked l₀ r) (i : Fin numRxDesc) :
    Stocked l₀ (r.rxClearEntry i) := by
  unfold RxRing.rxClearEntry
  cases hs : r.rxSkbuff i with
  | none => exact h
  | some skb =>
    unfold Stocked at h
    rw [← occupied_update_none hs] at h
    exact h.release

/-- **`rtl8101_rx_clear`** gives every buffer back. -/
theorem Stocked.rxClear (h : Stocked l₀ r) : l₀.Holds r.rxClear.skbs 0 := by
  have hstocked : Stocked l₀ r.rxClear := rxClear_induct (fun _ i h => h.rxClearEntry i) h
  have hzero : occupied r.rxClear.rxSkbuff = 0 := occupied_eq_zero r.rxClear_rxSkbuff
  rw [Stocked, hzero] at hstocked
  exact hstocked

/-- A refill offers every buffer with the size `rx_buf_sz`. -/
theorem FillRun.lenField {alloc : BitVec 32 → Allocator} (hrun : FillRun alloc r p r' q)
    (h : ∀ i skb, r.rxSkbuff i = some skb →
      Rtl8101.lenField (r.rxDescArray i).opts1 = Rtl8101.lenField r.rxBufSz) :
    ∀ i skb, r'.rxSkbuff i = some skb →
      Rtl8101.lenField (r'.rxDescArray i).opts1 = Rtl8101.lenField r'.rxBufSz := by
  induction hrun with
  | done r p => exact h
  | skip _ _ ih => exact ih h
  | @fill r r₁ r' p q hs ha _ ih =>
    apply ih
    intro i skb hi
    obtain ⟨m, -, rfl⟩ := allocRxSkb_eq_some ha
    by_cases hip : i = pos numRxDesc p
    · subst hip
      simp only [Function.update_self]
      exact Desc.markToAsic_lenField _ _
    · simpa [hip] using h i skb (by simpa [hip] using hi)

end RxRing

namespace Device

/-! ## All or nothing -/

/-- The device when `rtl8101_open` calls `rtl8101_init_buffers`. -/
def opening (s : Device) : Device :=
  { s with running := true, rx := { s.rx with rxBufSz := rxBufSize } }

/-- Both rings are set up: the Tx ring is free, every slot of the Rx ring has a buffer of its own
that its descriptor offers to the NIC, and since `s₀` exactly these were taken from the kernel. -/
structure SetUp (s₀ s : Device) : Prop where
  indexes : s.rx.curRx = 0#32 ∧ s.rx.dirtyRx = 0#32 ∧ s.tx.curTx = 0#32 ∧ s.tx.dirtyTx = 0#32
  pointers : s.tx.txDescNull = false ∧ s.rx.rxDescNull = false
  txOwn : ∀ i, (s.tx.txDescArray i).own = false
  txEor : ∀ i, (s.tx.txDescArray i).eor = decide ((i : ℕ) + 1 = numTxDesc)
  rxSlot : ∀ i, ∃ skb, s.rx.rxSkbuff i = some skb ∧ (s.rx.rxDescArray i).own = true ∧
    lenField (s.rx.rxDescArray i).opts1 = s.rx.rxBufSz ∧ (s.rx.rxDescArray i).addr = skb.dma ∧
    ⟨skb.dma, s.rx.rxBufSz⟩ ∈ s.rx.dma.live
  rxDistinct : ∀ i j skb skb', s.rx.rxSkbuff i = some skb → s.rx.rxSkbuff j = some skb' →
    skb.dma = skb'.dma → i = j
  rxEor : ∀ i, (s.rx.rxDescArray i).eor = decide ((i : ℕ) + 1 = numRxDesc)
  skbs : s₀.rx.skbs.Holds s.rx.skbs (occupied s.rx.rxSkbuff)
  dma : s₀.rx.dma.Holds s.rx.dma s.rx.mappings
  coherent : s₀.coherent.Holds s.coherent {.rx, .tx}

/-- Since `s₀` everything taken from the kernel was given back once: the buffers, their mappings
with the address and size they were mapped with, and the rings, whose pointers are `NULL`. -/
structure RolledBack (s₀ s : Device) : Prop where
  skbs : s₀.rx.skbs.Holds s.rx.skbs 0
  dma : s₀.rx.dma.Holds s.rx.dma 0
  faults : s.rx.faults = s₀.rx.faults
  coherent : s₀.coherent.Holds s.coherent 0
  pointers : s.tx.txDescNull = true ∧ s.rx.rxDescNull = true

/-- The two ends of `rtl8101_init_buffers`, called on the device `s₀`. -/
def AllOrNothing (s₀ : Device) (out : Device × ℤ) : Prop :=
  out.2 = 0 ∧ SetUp s₀ out.1 ∨ out.2 = enomem ∧ RolledBack s₀ out.1

variable {s t : Device} {o : OpenOutcome}

/-- The refill got to the end of the ring. -/
theorem setUp_of_full (hsz : s.rx.rxBufSz = rxBufSize) (alloc : BitVec 32 → Allocator)
    (hfull : (s.clearedRings.rx.rxFill alloc 0#32 (BitVec.ofNat 32 numRxDesc)).2 =
      BitVec.ofNat 32 numRxDesc) :
    SetUp s { s.clearedRings with
      rx := (s.clearedRings.rx.rxFill alloc 0#32 (BitVec.ofNat 32 numRxDesc)).1 } := by
  have hempty : ∀ i, s.clearedRings.rx.rxSkbuff i = none := fun _ => rfl
  obtain ⟨hrun, hrepr⟩ := RxRing.rxFill_fresh (r := s.clearedRings.rx) rfl hsz hempty hfull
  have hstocked : RxRing.Stocked s.rx.skbs s.clearedRings.rx :=
    RxRing.Stocked.of_empty (r := s.clearedRings.rx) hempty
  have hown := hrun.own fun i skb hi => by rw [hempty i] at hi; cases hi
  have hlen := hrun.lenField fun i skb hi => by rw [hempty i] at hi; cases hi
  have hframe := hrun.sameFrame
  generalize s.clearedRings.rx.rxFill alloc 0#32 (BitVec.ofNat 32 numRxDesc) = fill at *
  refine ⟨⟨hframe.curRx, hframe.dirtyRx, rfl, rfl⟩, ⟨rfl, hframe.rxDescNull⟩,
    fun i => freshRing_own i, fun i => freshRing_eor i, ?_, hrepr.distinct, ?_,
    hrun.stocked hstocked, hrepr.holds, ?_⟩
  · intro i
    obtain ⟨m, hm, hm', rfl⟩ := exists_pos_eq numRxDesc i
    obtain ⟨skb, hs⟩ := hrepr.exists_skb hm hm'
    have hlive := hrepr.mem_live hs
    refine ⟨skb, hs, hown _ skb hs, ?_, hrepr.addr _ skb hs, ?_⟩
    · dsimp only
      rw [hlen _ skb hs, hrepr.bufSz]
      decide
    · dsimp only
      rw [hrepr.bufSz]
      exact hlive
  · intro i
    exact (hrun.eor hsz i).trans (freshRing_eor i)
  · exact ((Ledger.holds_self s.coherent).acquire .tx).acquire .rx

/-- The refill stopped: what it put into the slots is given back. -/
theorem rolledBack_of_partial (hsz : s.rx.rxBufSz = rxBufSize) (alloc : BitVec 32 → Allocator) :
    RolledBack s ({ s.clearedRings with
      rx := (s.clearedRings.rx.rxFill alloc 0#32
        (BitVec.ofNat 32 numRxDesc)).1.rxClear } : Device).freeRxRing.freeTxRing := by
  have hempty : ∀ i, s.clearedRings.rx.rxSkbuff i = none := fun _ => rfl
  obtain ⟨q, -, hrun, -⟩ := RxRing.rxFill_empty alloc s.clearedRings.rx
  have hrepr := hrun.repr (.of_empty rfl hsz hempty)
  have hstocked : RxRing.Stocked s.rx.skbs s.clearedRings.rx :=
    RxRing.Stocked.of_empty (r := s.clearedRings.rx) hempty
  have hskbs := (hrun.stocked hstocked).rxClear
  obtain ⟨hdma, hfaults⟩ := hrepr.mapped.rxClear
  generalize (s.clearedRings.rx.rxFill alloc 0#32 (BitVec.ofNat 32 numRxDesc)).1.rxClear = rx at *
  refine ⟨hskbs, hdma, hfaults, ?_, rfl, rfl⟩
  -- the rings go back in the order opposite to the one they came in
  exact (((Ledger.holds_self s.coherent).acquire .tx).acquire .rx).release.release

/-- **`rtl8101_init_buffers` is all or nothing**, on a device whose Rx ring is not allocated. -/
theorem initBuffers_allOrNothing (hsz : s.rx.rxBufSz = rxBufSize) (hnull : s.rx.rxDescNull = true)
    (o : OpenOutcome) : AllOrNothing s (s.initBuffers o) := by
  have hskbs := Ledger.holds_self s.rx.skbs
  have hdma := Ledger.holds_self s.rx.dma
  have hcoherent := Ledger.holds_self s.coherent
  unfold initBuffers
  by_cases htx : o.txRing = false
  · rw [if_pos htx]
    exact .inr ⟨rfl, hskbs, hdma, rfl, hcoherent, rfl, hnull⟩
  by_cases hrx : o.rxRing = false
  · rw [if_neg htx, if_pos hrx]
    exact .inr ⟨rfl, hskbs, hdma, rfl, (hcoherent.acquire .tx).release, rfl, rfl⟩
  rw [if_neg htx, if_neg hrx]
  have hall := setUp_of_full hsz o.alloc
  have hnothing := rolledBack_of_partial hsz o.alloc
  rcases hfill : s.clearedRings.rx.rxFill o.alloc 0#32 (BitVec.ofNat 32 numRxDesc) with ⟨rx, n⟩
  rw [hfill] at hall hnothing
  simp only [hfill]
  by_cases hn : n = BitVec.ofNat 32 numRxDesc
  · rw [if_neg (not_not.mpr hn)]
    exact .inl ⟨rfl, hall hn⟩
  · rw [if_pos hn]
    exact .inr ⟨rfl, hnothing⟩

/-- A set-up that returns 0 set up everything, whatever it found. -/
theorem setUp_of_initBuffers (hsz : s.rx.rxBufSz = rxBufSize) (h : (s.initBuffers o).2 = 0) :
    SetUp s (s.initBuffers o).1 := by
  rcases initBuffers_cases o s with ⟨tx, rx, c, he, -⟩ | ⟨hfull, he⟩
  · rw [he] at h
    exact absurd (show enomem = 0 from h) (by decide)
  · rw [he]
    exact setUp_of_full hsz _ hfull

/-- An open, by what `rtl8101_init_buffers` and `request_irq` return. -/
theorem ndoOpen_of_initBuffers {s' : Device} {ret : ℤ}
    (h : s.opening.initBuffers o = (s', ret)) :
    s.ndoOpen o = if ret < 0 then { s' with running := false }
      else if o.irq < 0 then { s'.startUp.shutBuffers with running := false }
      else { s'.startUp with irqRequested := true, linkTimer := true } := by
  have hopen : ({ s with running := true } : Device).openDev o =
      if ret < 0 then (s', ret)
      else if o.irq < 0 then (s'.startUp.shutBuffers, o.irq)
      else ({ s'.startUp with irqRequested := true, linkTimer := true }, 0) := by
    unfold opening at h
    simp only [openDev, h]
  rw [ndoOpen, hopen]
  by_cases hret : ret < 0
  · simp only [hret, if_true, hret.ne, if_false]
  · by_cases hirq : o.irq < 0
    · simp only [hret, hirq, if_true, hirq.ne, if_false]
    · simp only [hret, hirq, if_true, if_false]

theorem initBuffers_running (s : Device) (o : OpenOutcome) :
    (s.initBuffers o).1.running = s.running := by
  rcases initBuffers_cases o s with ⟨tx, rx, c, he, -⟩ | ⟨-, he⟩
  · rw [he]
  · rw [he]
    rfl

end Device

/-! ## The ring pointers along a run -/

/-- The ring pointers are `NULL` exactly while the device is closed. -/
structure RingsMatch (s : Device) : Prop where
  tx : s.tx.txDescNull = !s.running
  rx : s.rx.rxDescNull = !s.running

variable {maxSkbFrags : ℕ} {s t : Device} {e : Event}

theorem RingsMatch.opening_allOrNothing (h : RingsMatch s) (hclosed : s.running = false)
    (o : OpenOutcome) : s.opening.AllOrNothing (s.opening.initBuffers o) := by
  refine Device.initBuffers_allOrNothing rfl ?_ o
  show s.rx.rxDescNull = true
  rw [h.rx, hclosed]
  rfl

theorem RingsMatch.ndoOpen (h : RingsMatch s) (hclosed : s.running = false) (o : OpenOutcome) :
    RingsMatch (s.ndoOpen o) := by
  have hends := h.opening_allOrNothing hclosed o
  have hrunning := s.opening.initBuffers_running o
  rcases he : s.opening.initBuffers o with ⟨s', ret⟩
  rw [he] at hends hrunning
  rw [Device.ndoOpen_of_initBuffers he]
  rcases hends with ⟨hret, hup⟩ | ⟨hret, hback⟩
  · rw [if_neg (by rw [show ret = 0 from hret]; decide)]
    obtain ⟨htx, hrx⟩ := hup.pointers
    split_ifs
    · exact ⟨rfl, rfl⟩
    · exact ⟨htx.trans (congrArg not hrunning).symm, hrx.trans (congrArg not hrunning).symm⟩
  · rw [if_pos (by rw [show ret = enomem from hret]; decide)]
    exact ⟨hback.pointers.1, hback.pointers.2⟩

theorem RingsMatch.step (h : RingsMatch s) (hstep : step maxSkbFrags s e = some t) :
    RingsMatch t := by
  cases step_inv hstep with
  | openDev o hclosed => exact h.ndoOpen hclosed o
  | closeDev hrun =>
    have hboth : s.tx.txDescNull = false ∧ s.rx.rxDescNull = false := by
      rw [h.tx, h.rx, hrun]
      exact ⟨rfl, rfl⟩
    unfold Device.ndoStop Device.closeDev
    rw [if_pos hboth]
    exact ⟨rfl, rfl⟩
  | poll alloc budget =>
    obtain ⟨mask, stolen, he⟩ := s.poll_eq maxSkbFrags alloc budget
    rw [he]
    exact ⟨(TxRing.txInterrupt_txDescNull _ _).trans h.tx,
      (s.rx.rxInterrupt_rxDescNull alloc budget).trans h.rx⟩
  | startXmit skb => exact ⟨(TxRing.startXmit_txDescNull _ _ skb).trans h.tx, h.rx⟩
  | resetTask alloc =>
    have htx := (TxRing.txClear_txDescNull s.tx).trans h.tx
    have hrx := (s.rx.rxInterrupt_rxDescNull alloc (~~~0#32)).trans h.rx
    unfold Device.resetTask Device.resetTail
    dsimp only
    split_ifs
    · exact ⟨h.tx, h.rx⟩
    · exact ⟨htx, hrx⟩
    · exact ⟨htx, hrx⟩
  | linkTimer on =>
    unfold Device.checkLinkStatus
    split_ifs
    · exact ⟨h.tx, h.rx⟩
    · exact ⟨(TxRing.txClear_txDescNull _).trans h.tx, h.rx⟩
    · exact h
  | receive | fetch | complete | txTimeout => exact ⟨h.tx, h.rx⟩

/-- **`rtl8101_init_buffers` is all or nothing**: in every closed state that a registered device
comes to, for every outcome of its allocations. -/
theorem allOrNothing_of_closed (maxSkbFrags : ℕ) {es : List Event}
    (hrun : run (step maxSkbFrags) Device.registered es = some s) (hclosed : s.running = false)
    (o : OpenOutcome) : s.opening.AllOrNothing (s.opening.initBuffers o) := by
  have hmatch : Always (Rtl8101.step maxSkbFrags) RingsMatch Device.registered es :=
    always_of_step (fun _ _ _ h hstep => h.step hstep) ⟨rfl, rfl⟩ es
  exact (hmatch.of_run hrun).opening_allOrNothing hclosed o

/-- The first open of a device, which runs out of memory at the sixth buffer. -/
theorem allOrNothing_of_closed_sixth :
    let o : OpenOutcome := { OpenOutcome.plenty with
      alloc := fun cur => if cur = 5#32 then .fail else OpenOutcome.plenty.alloc cur }
    Device.registered.running = false ∧
      Device.registered.opening.AllOrNothing (Device.registered.opening.initBuffers o) :=
  ⟨rfl, allOrNothing_of_closed 17 (run_nil Device.registered) rfl _⟩

/-! ## A failed `request_irq` -/

/-- What a failed open owes to whoever opens the device next: since `s` every buffer and mapping was
given back, and when the rings were freed the chip was stopped and masked, and NAPI disabled. -/
structure Device.LeftNothing (s t : Device) : Prop where
  skbs : s.rx.skbs.Holds t.rx.skbs 0
  dma : s.rx.dma.Holds t.rx.dma 0
  coherent : s.coherent.Holds t.coherent 0
  stopped : t.chip.rxEnb = false ∧ t.chip.txEnb = false
  napi : t.napiEnabled = false
  masked : t.chip.intrMask = 0#16

/-- An open whose buffers were set up and whose `request_irq` fails. -/
theorem Device.ndoOpen_of_irq {o : OpenOutcome} (hret : (s.opening.initBuffers o).2 = 0)
    (hirq : o.irq < 0) : ∃ s', s.opening.SetUp s' ∧
      (({ s with running := true } : Device).openDev o) = (s'.startUp.shutBuffers, o.irq) ∧
      s.ndoOpen o = { s'.startUp.shutBuffers with running := false } := by
  have hup := Device.setUp_of_initBuffers (s := s.opening) rfl hret
  rcases he : s.opening.initBuffers o with ⟨s', ret⟩
  rw [he] at hret hup
  obtain rfl : ret = 0 := hret
  refine ⟨s', hup, ?_, ?_⟩
  · unfold Device.opening at he
    simp only [Device.openDev, he, hirq, if_true, lt_irrefl, if_false]
  · rw [Device.ndoOpen_of_initBuffers he, if_neg (lt_irrefl _), if_pos hirq]

/-- `rtl8101_shut_buffers` leaves the buffers taken, and the chip and NAPI as they are. -/
theorem Device.SetUp.shutBuffers {s₀ s' : Device} (h : s₀.SetUp s') :
    (∃ skbs, s₀.rx.skbs.Holds s'.startUp.shutBuffers.rx.skbs skbs ∧ skbs.card = numRxDesc) ∧
      (∃ maps, s₀.rx.dma.Holds s'.startUp.shutBuffers.rx.dma maps ∧ maps.card = numRxDesc) ∧
      s'.startUp.shutBuffers.chip.rxEnb = true ∧ s'.startUp.shutBuffers.chip.txEnb = true ∧
      s'.startUp.shutBuffers.napiEnabled = true ∧
      s'.startUp.shutBuffers.chip.intrMask = intrEnMask := by
  refine ⟨⟨_, h.skbs, card_occupied fun i => ?_⟩, ⟨_, h.dma, card_occupied fun i => ?_⟩,
    rfl, rfl, rfl, rfl⟩
  · obtain ⟨skb, hs, -⟩ := h.rxSlot i
    exact ⟨skb, hs⟩
  · obtain ⟨skb, hs, -⟩ := h.rxSlot i
    exact ⟨rxMapping skb, by rw [hs]; rfl⟩

/-- **A failed `request_irq`**: whenever the buffers were set up, the open returns the error and
frees the rings, with a buffer and a mapping for every slot still taken, the receiver and the
transmitter on, NAPI enabled and the interrupts unmasked. -/
theorem requestIrq_leaks {o : OpenOutcome} (hret : (s.opening.initBuffers o).2 = 0)
    (hirq : o.irq < 0) :
    (({ s with running := true } : Device).openDev o).2 = o.irq ∧
      (∃ skbs, s.rx.skbs.Holds (s.ndoOpen o).rx.skbs skbs ∧ skbs.card = numRxDesc) ∧
      (∃ maps, s.rx.dma.Holds (s.ndoOpen o).rx.dma maps ∧ maps.card = numRxDesc) ∧
      (s.ndoOpen o).chip.rxEnb = true ∧ (s.ndoOpen o).chip.txEnb = true ∧
      (s.ndoOpen o).napiEnabled = true ∧ (s.ndoOpen o).chip.intrMask = intrEnMask ∧
      ¬ s.LeftNothing (s.ndoOpen o) := by
  obtain ⟨s', hup, hopen, he⟩ := Device.ndoOpen_of_irq hret hirq
  obtain ⟨hskbs, hdma, hrx, htx, hnapi, hmask⟩ := hup.shutBuffers
  rw [hopen, he]
  refine ⟨rfl, hskbs, hdma, hrx, htx, hnapi, hmask, ?_⟩
  intro h
  exact absurd (hnapi.symm.trans h.napi) (by decide)

/-- The first open of a device, whose interrupt line is taken. -/
def OpenOutcome.irqBusy : OpenOutcome := { OpenOutcome.plenty with irq := -16 }

theorem initBuffers_irqBusy : (Device.registered.opening.initBuffers .irqBusy).2 = 0 := by
  have hfills : Device.registered.Fills .irqBusy := Device.fills_plenty rfl
  have he : Device.registered.opening.initBuffers .irqBusy =
      (Device.registered.filled .irqBusy, 0) := Device.initBuffers_of_fills rfl rfl hfills
  rw [he]

theorem requestIrq_leaks_busy :
    (Device.registered.opening.initBuffers .irqBusy).2 = 0 ∧ OpenOutcome.irqBusy.irq < 0 ∧
      ¬ Device.registered.LeftNothing (Device.registered.ndoOpen .irqBusy) := by
  obtain ⟨-, -, -, -, -, -, -, hnot⟩ := requestIrq_leaks initBuffers_irqBusy (by decide)
  exact ⟨initBuffers_irqBusy, by decide, hnot⟩

/-- The same open, and a frame that arrives after it: the receiver stores it through a ring that was
freed, into one of the buffers that nobody holds any more. -/
theorem failedOpen_receives :
    ∃ t u, run (step 17) Device.registered [.openDev .irqBusy] = some t ∧ t.running = false ∧
      t.rx.rxDescNull = true ∧ t.rx.dma.live.card = numRxDesc ∧ t.chip.intrMask ≠ 0#16 ∧
      t.napiEnabled = true ∧ step 17 t (.receive pingFrame) = some u ∧
      ¬ Device.registered.LeftNothing t := by
  obtain ⟨s', hup, -, he⟩ := Device.ndoOpen_of_irq initBuffers_irqBusy (by decide)
  obtain ⟨-, ⟨maps, hholds, hcard⟩, hrx, -, hnapi, hmask⟩ := hup.shutBuffers
  have hstep : step 17 Device.registered (.openDev .irqBusy) =
      some { s'.startUp.shutBuffers with running := false } := congrArg some he
  obtain ⟨skb, -, hown, -⟩ := hup.rxSlot 0
  refine ⟨{ s'.startUp.shutBuffers with running := false }, _,
    by rw [run_cons hstep, run_nil], rfl, rfl, ?_, ?_, hnapi,
    Device.receive_eq_some_iff.mpr ⟨hrx, 0, rfl, hown, rfl⟩, ?_⟩
  · obtain ⟨-, -, -, hlive⟩ := hholds
    have hzero : Device.registered.opening.rx.dma.live = 0 := rfl
    rw [hzero, zero_add] at hlive
    exact (congrArg Multiset.card hlive).trans hcard
  · intro h
    exact absurd (hmask.symm.trans h) (by decide)
  · intro h
    exact absurd (hnapi.symm.trans h.napi) (by decide)

end Rtl8101
