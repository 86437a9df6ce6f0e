import NanoCell.Rtl8101.RxQueue
import NanoCell.Rtl8101.TxSession

/-!
# The reset task after a Tx timeout

`rtl8101_tx_timeout` stops the chip and schedules `rtl8101_reset_task`. The task runs the receive
pass without a budget, clears the Tx ring, and restarts the chip at descriptor 0 of both rings, but
only if the refill behind the receive pass caught up with it. That `dirty_rx == cur_rx` is enough
for a full Rx ring follows from where completed, recycled and empty slots can be after any traffic.

## Main definitions

* `TrafficEvent`, `trafficStep`: the traffic of an open device, with the list of the frames received
* `TrafficAt`: the invariant of both rings
* `Restarted`: what the reset task leaves

## Main results

* `Traffic.step`: every event keeps the invariant
* `run_txTimeout`, `RxRing.Queue.full`: the two ends of the task, and the ring it leaves full
* `TrafficAt.restarted`: the timeout and its reset task, from the invariant
* `resetTask_restarts`: the same after any traffic since the open
-/

namespace Rtl8101

open Counter Transition TxRing

/-! ## What is handed up -/

/-- What the driver hands up of a frame: the bytes of the buffer that the length field announces,
less the CRC; nothing for an error. -/
def RxFrame.delivered? (f : RxFrame) : Option (List (BitVec 8)) :=
  if f.errored then none else some (f.bytes.take (lenField f.status - 4#32).toNat)

namespace RxRing

/-- Since the ring `b` exactly the error-free ones of the frames `fs` were handed up, in order. -/
def Delivered (b r : RxRing) (fs : List RxFrame) : Prop :=
  r.handedUp.map Packet.data = b.handedUp.map Packet.data ++ fs.filterMap RxFrame.delivered?

/-- One turn of the receive loop hands the frame of its descriptor up, unless it is an error. -/
theorem Delivered.rxEntry {b r : RxRing} {fs : List RxFrame} {f : RxFrame} {i : Fin numRxDesc}
    {D p : ℕ} {l₀ : Ledger Mapping} {f₀ : List Fault} (h : Delivered b r fs)
    (hrepr : Repr l₀ f₀ r D p) (hshow : r.Shows i f) :
    Delivered b (r.rxEntry i) (fs ++ [f]) := by
  unfold Delivered at h ⊢
  obtain ⟨skb, hs, hmem⟩ := hshow.data
  unfold RxRing.rxEntry
  dsimp only
  split
  · next herr =>
    rw [hshow.rxRes] at herr
    simpa [RxRing.rxError, RxFrame.delivered?, herr] using h
  · next hgood =>
    rw [hshow.rxRes, Bool.not_eq_true] at hgood
    rw [hrepr.rxGood_eq hs, hshow.len, hmem]
    simp [h, RxFrame.delivered?, hgood]

end RxRing

/-! ## Traffic -/

/-- What happens to an open device between the open and a Tx timeout. -/
inductive TrafficEvent where
  | receive (f : RxFrame)
  | poll (alloc : BitVec 32 → Allocator) (budget : BitVec 32)
  | startXmit (skb : SkBuff)
  | complete (i : Fin numTxDesc)

/-- One event, with the list of the frames received: the stack transmits only while the queue is
not stopped, and the NIC may complete its descriptors in any order. -/
def trafficStep (maxSkbFrags : ℕ) (s : Device × List RxFrame) :
    TrafficEvent → Option (Device × List RxFrame)
  | .receive f => (s.1.receive f).map fun t => (t, s.2 ++ [f])
  | .poll alloc budget => some ((s.1.poll maxSkbFrags alloc budget).1, s.2)
  | .startXmit skb =>
    if s.1.tx.queueStopped = false then some ((s.1.startXmit maxSkbFrags skb).1, s.2) else none
  | .complete i => some ({ s.1 with tx := s.1.tx.completed i }, s.2)

/-- The stack queues buffers that are not empty. -/
def TrafficOk (_ : Device × List RxFrame) : TrafficEvent → Prop
  | .startXmit skb => skb.len ≠ 0#32
  | _ => True

/-- The invariant of a device that was opened as `b`: the Rx ring is a queue of the frames received,
the Tx ring holds the buffers between its indexes and all that was taken from the stack. -/
structure TrafficAt (maxSkbFrags : ℕ) (b : Device) (s : Device × List RxFrame) (q : ℕ → SkBuff)
    (D C E F : ℕ) : Prop where
  running : s.1.running = true
  rxPlace : RxQueueAt b.rx s.1 s.2 D C
  delivered : b.rx.Delivered s.1.rx (s.2.take C)
  dirtyTx : s.1.tx.dirtyTx = BitVec.ofNat 32 E
  curTx : s.1.tx.curTx = BitVec.ofNat 32 F
  window : Window q s.1.tx E F
  held : Held b.tx s.1.tx
  awake : s.1.tx.queueStopped = false → F - E + maxSkbFrags + 1 ≤ numTxDesc

/-- The invariant, wherever the indexes are. -/
def Traffic (maxSkbFrags : ℕ) (b : Device) (s : Device × List RxFrame) : Prop :=
  ∃ q D C E F, TrafficAt maxSkbFrags b s q D C E F

section Steps

variable {maxSkbFrags : ℕ} {b : Device} {s t : Device × List RxFrame} {q : ℕ → SkBuff}
  {D C E F : ℕ}

theorem TrafficAt.of_open (hM : maxSkbFrags < numTxDesc) {o : OpenOutcome}
    (h : (b.ndoOpen o).running = true) :
    TrafficAt maxSkbFrags b (b.ndoOpen o, []) (fun _ => default) 0 0 0 0 := by
  have hsession := SessionAt.of_open hM h
  refine ⟨h, .of_open h, ?_, hsession.dirty, hsession.cur, hsession.window, hsession.books.held, ?_⟩
  · simp [RxRing.Delivered, (Device.ndoOpen_opened h).handedUp]
  · intro _
    omega

theorem TrafficAt.receive (h : TrafficAt maxSkbFrags b s q D C E F) {f : RxFrame} {u : Device}
    (hu : s.1.receive f = some u) :
    TrafficAt maxSkbFrags b (u, s.2 ++ [f]) q D C E F := by
  obtain ⟨hplace, htx, -, hup, -⟩ := h.rxPlace.receive hu
  have hrun : u.running = s.1.running := by
    obtain ⟨-, i, -, -, rfl⟩ := Device.receive_eq_some_iff.mp hu
    rfl
  have hdelivered := h.delivered
  rw [RxRing.Delivered, ← hup] at hdelivered
  refine ⟨hrun.trans h.running, hplace, ?_, ?_, ?_, ?_, ?_, ?_⟩
  · rw [RxRing.Delivered, List.take_append_of_le_length h.rxPlace.queue.done]
    exact hdelivered
  all_goals rw [htx]
  · exact h.dirtyTx
  · exact h.curTx
  · exact h.window
  · exact h.held
  · exact h.awake

theorem TrafficAt.poll (h : TrafficAt maxSkbFrags b s q D C E F) (alloc : BitVec 32 → Allocator)
    (budget : BitVec 32) :
    Traffic maxSkbFrags b ((s.1.poll maxSkbFrags alloc budget).1, s.2) := by
  have hw := h.window
  have hlt := hw.lt
  obtain ⟨r', D', C', he, hqueue, hd, hc, hhead, -, -, -, r₁, hpass, hC', hup, -⟩ :=
    h.rxPlace.queue.rxInterrupt h.rxPlace.dirty h.rxPlace.cur alloc budget
  have hdelivered : b.rx.Delivered r₁ (s.2.take C') :=
    RxRing.RxPass.frames (P := b.rx.Delivered) (fun r p f _ hrepr hshow h => h.rxEntry hrepr hshow)
      hpass h.rxPlace.queue hC' h.delivered
  rw [RxRing.Delivered, ← hup] at hdelivered
  obtain ⟨r₂, E', htxPass, hEE', hE'F, -, htx⟩ :=
    txInterrupt_spec maxSkbFrags h.curTx h.dirtyTx hw.le hw.lt
  have hframe := htxPass.sameFrame
  obtain ⟨mask, stolen, hp⟩ := s.1.poll_eq maxSkbFrags alloc budget
  rw [he, htx] at hp
  rw [hp]
  refine ⟨q, D', C', E', F, h.running, ⟨hqueue, hd, hc, hhead, h.rxPlace.nic⟩, hdelivered, rfl,
    hframe.curTx.trans h.curTx, { htxPass.window hw hE'F with },
    { htxPass.held hw h.held hE'F with }, ?_⟩
  intro hq
  dsimp only at hq
  split_ifs at hq with hwake
  · omega
  · have := h.awake hq
    omega

theorem TrafficAt.startXmit (hM : 1 ≤ maxSkbFrags) (h : TrafficAt maxSkbFrags b s q D C E F)
    (hawake : s.1.tx.queueStopped = false) {skb : SkBuff} (hlen : skb.len ≠ 0#32) :
    Traffic maxSkbFrags b ((s.1.startXmit maxSkbFrags skb).1, s.2) := by
  have hfew := h.awake hawake
  have hle := h.window.le
  have hroom : F + 1 < E + numTxDesc := by omega
  unfold Device.startXmit
  rcases startXmit_cases maxSkbFrags skb h.curTx h.dirtyTx hle hroom with ⟨-, he⟩ | he
  · rw [he]
    exact ⟨q, D, C, E, F, h.running, { h.rxPlace with }, h.delivered, h.dirtyTx, h.curTx,
      { h.window with }, { h.held with }, fun hq => by cases hq⟩
  · rw [he]
    refine ⟨Function.update q F skb, D, C, E, F + 1, h.running, { h.rxPlace with }, h.delivered,
      h.dirtyTx, rfl, { h.window.queued hroom hlen with },
      { h.held.queued skb h.window.slot_free.1 with }, ?_⟩
    intro hq
    dsimp only at hq
    split_ifs at hq
    omega

theorem TrafficAt.complete (h : TrafficAt maxSkbFrags b s q D C E F) (i : Fin numTxDesc) :
    TrafficAt maxSkbFrags b ({ s.1 with tx := s.1.tx.completed i }, s.2) q D C E F :=
  { h with
    rxPlace := { h.rxPlace with }
    window := h.window.completed i
    held := { h.held with } }

/-- **Every event keeps the invariant.** -/
theorem Traffic.step (hM : 1 ≤ maxSkbFrags) (h : Traffic maxSkbFrags b s) {e : TrafficEvent}
    (hok : TrafficOk s e) (hstep : trafficStep maxSkbFrags s e = some t) :
    Traffic maxSkbFrags b t := by
  obtain ⟨q, D, C, E, F, h⟩ := h
  cases e with
  | receive f =>
    obtain ⟨u, hu, rfl⟩ := Option.map_eq_some_iff.mp hstep
    exact ⟨q, D, C, E, F, h.receive hu⟩
  | poll alloc budget =>
    rw [← Option.some.inj hstep]
    exact h.poll alloc budget
  | startXmit skb =>
    simp only [trafficStep] at hstep
    split_ifs at hstep with hawake
    rw [← Option.some.inj hstep]
    exact h.startXmit hM hawake hok
  | complete i =>
    rw [← Option.some.inj hstep]
    exact ⟨q, D, C, E, F, h.complete i⟩

end Steps

/-! ## The reset task -/

/-- A device that starts again from clean rings: every index is zero, every Rx descriptor is with
the NIC and has a mapped buffer, no Tx descriptor is, the queue is awake and interrupts are on. -/
structure CleanStart (s : Device) : Prop where
  indexes : s.rx.dirtyRx = 0#32 ∧ s.rx.curRx = 0#32 ∧ s.tx.dirtyTx = 0#32 ∧ s.tx.curTx = 0#32
  rxSlot : ∀ i, (s.rx.rxDescArray i).own = true ∧ ∃ skb, s.rx.rxSkbuff i = some skb ∧
    (s.rx.rxDescArray i).addr = skb.dma ∧ ⟨skb.dma, s.rx.rxBufSz⟩ ∈ s.rx.dma.live
  rxEor : ∀ i, (s.rx.rxDescArray i).eor = decide ((i : ℕ) + 1 = numRxDesc)
  txOwn : ∀ i, (s.tx.txDescArray i).own = false
  awake : s.tx.queueStopped = false
  intrMask : s.chip.intrMask = intrEnMask

/-- A device whose refill did not catch up with the receive pass that left the ring `r`: the task
comes again, and finds the indexes as the pass left them. -/
structure Rearmed (r : RxRing) (s : Device) : Prop where
  dirtyRx : s.rx.dirtyRx = r.dirtyRx
  curRx : s.rx.curRx = r.curRx
  slot : s.rx.rxSkbuff (RxRing.entry s.rx.dirtyRx) = none
  task : s.taskPending = true

/-- What the reset task leaves of a device that was opened as `b` and received the frames `R`, with
the ring `r` behind its receive pass: every error-free frame was handed up, every Tx buffer was
unmapped and freed, and the chip was restarted if the refill caught up with the pass. -/
structure Restarted (b : Device) (R : List RxFrame) (r : RxRing) (s : Device) : Prop where
  delivered : b.rx.Delivered s.rx R
  freed : b.tx.skbs.Holds s.tx.skbs 0
  unmapped : b.tx.dma.Holds s.tx.dma 0
  clean : r.dirtyRx = r.curRx → CleanStart s
  rearmed : r.dirtyRx ≠ r.curRx → Rearmed r s

variable {maxSkbFrags : ℕ} {b t : Device} {R : List RxFrame} {q : ℕ → SkBuff} {D C E F : ℕ}

/-- The two ends of a Tx timeout and its reset task, by the rings that the receive pass and
`rtl8101_tx_clear` leave. -/
theorem run_txTimeout (maxSkbFrags : ℕ) (hrun : t.running = true)
    (alloc : BitVec 32 → Allocator) {r : RxRing} (hr : (t.rx.rxInterrupt alloc (~~~0#32)).1 = r)
    {tx : TxRing} (htx : t.tx.txClear = tx) :
    ∃ u, run (step maxSkbFrags) t [.txTimeout, .resetTask alloc] = some u ∧
      (r.dirtyRx = r.curRx ∧ u.rx = { r with dirtyRx := 0#32, curRx := 0#32 } ∧
          u.tx = { tx with dirtyTx := 0#32, curTx := 0#32, queueStopped := false } ∧
          u.chip.intrMask = intrEnMask ∨
        r.dirtyRx ≠ r.curRx ∧ u.rx = r ∧ u.tx = tx ∧ u.taskPending = true) := by
  have hstep₁ : step maxSkbFrags t .txTimeout = some t.txTimeout := if_pos hrun
  have hstep₂ : step maxSkbFrags t.txTimeout (.resetTask alloc) =
      some (({ t.txTimeout with taskPending := false } : Device).resetTask alloc) := rfl
  refine ⟨_, by rw [run_cons hstep₁, run_cons hstep₂, run_nil], ?_⟩
  unfold Device.resetTask Device.resetTail Device.txClear Device.txTimeout Device.hwReset
  dsimp only
  rw [if_neg (by simp [hrun]), hr, htx]
  by_cases heq : r.dirtyRx = r.curRx
  · rw [if_pos (decide_eq_true heq)]
    exact .inl ⟨heq, rfl, rfl, rfl⟩
  · rw [if_neg (by simpa using heq)]
    exact .inr ⟨heq, rfl, rfl, rfl⟩

/-- The receive pass of the reset task: it is never limited by its budget, so it takes every frame
that waits. -/
theorem RxQueueAt.drain {bx : RxRing} (h : RxQueueAt bx t R D C)
    (hup : bx.Delivered t.rx (R.take C)) (alloc : BitVec 32 → Allocator) :
    ∃ r D', (t.rx.rxInterrupt alloc (~~~0#32)).1 = r ∧
      bx.Queue r R D' R.length ∧ r.dirtyRx = BitVec.ofNat 32 D' ∧
      r.curRx = BitVec.ofNat 32 R.length ∧
      (D' < R.length → r.rxSkbuff (pos numRxDesc D') = none) ∧ bx.Delivered r R := by
  obtain ⟨r, D', C', he, hqueue, hd, hc, hhead, -, -, hall, r₁, hpass, hC', hhanded, -⟩ :=
    h.queue.rxInterrupt h.dirty h.cur alloc (~~~0#32)
  have hle := h.queue.le
  have hbudget : (~~~0#32 : BitVec 32).toNat = 2 ^ 32 - 1 := rfl
  obtain rfl : C' = R.length := by
    apply hall
    have := numRxDesc_eq
    omega
  have hdelivered : bx.Delivered r₁ (R.take R.length) :=
    RxRing.RxPass.frames (P := bx.Delivered) (fun r p f _ hrepr hshow h => h.rxEntry hrepr hshow)
      hpass h.queue hC' hup
  rw [RxRing.Delivered, ← hhanded, List.take_length] at hdelivered
  exact ⟨r, D', by rw [he], hqueue, hd, hc, hhead, hdelivered⟩

/-- A ring whose refill caught up with every frame received is full: each descriptor is with the
NIC and has a mapped buffer. -/
theorem RxRing.Queue.full {bx r : RxRing} (h : bx.Queue r R R.length R.length)
    (i : Fin numRxDesc) : (r.rxDescArray i).own = true ∧ ∃ skb, r.rxSkbuff i = some skb ∧
      (r.rxDescArray i).addr = skb.dma ∧ ⟨skb.dma, r.rxBufSz⟩ ∈ r.dma.live := by
  obtain ⟨p, hp, hp', rfl⟩ := exists_pos_eq R.length i
  obtain ⟨skb, hs⟩ := h.repr.exists_skb hp hp'
  have hlive := h.repr.mem_live hs
  rw [rxMapping, ← h.repr.bufSz] at hlive
  exact ⟨h.offered p hp hp', skb, hs, h.repr.addr _ skb hs, hlive⟩

/-- **The reset task after a Tx timeout**, from the invariant. -/
theorem TrafficAt.restarted (h : TrafficAt maxSkbFrags b (t, R) q D C E F)
    (hrange : ClearsInRange t) (alloc : BitVec 32 → Allocator) :
    ∃ u, run (step maxSkbFrags) t [.txTimeout, .resetTask alloc] = some u ∧
      Restarted b R (t.rx.rxInterrupt alloc (~~~0#32)).1 u := by
  have hplace : RxQueueAt b.rx t R D C := h.rxPlace
  obtain ⟨r, D', hr, hqueue, hd, hc, hhead, hdelivered⟩ := hplace.drain h.delivered alloc
  have hdirty : t.tx.dirtyTx.toNat + numTxDesc < 2 ^ 32 := by
    have := numTxDesc_eq
    unfold ClearsInRange at hrange
    omega
  obtain ⟨hw, ⟨hskbs, hdma⟩, -⟩ := txClear_held h.dirtyTx hdirty h.window h.held
  obtain ⟨tx, htx⟩ : ∃ tx, t.tx.txClear = tx := ⟨_, rfl⟩
  rw [htx] at hw hskbs hdma
  rw [hw.buffers_eq_zero] at hskbs hdma
  rw [Multiset.map_zero] at hdma
  obtain ⟨u, hu, hends⟩ := run_txTimeout (t := t) maxSkbFrags h.running alloc hr htx
  have hle := hqueue.le
  have hroom := hqueue.room
  refine ⟨u, hu, ?_⟩
  rw [hr]
  rcases hends with ⟨heq, hrx, htx', hmask⟩ | ⟨hne, hrx, htx', htask⟩
  · obtain rfl : D' = R.length := by
      rw [hd, hc] at heq
      exact ofNat_inj hle (by have := numRxDesc_eq; omega) heq
    refine ⟨by rw [hrx]; exact hdelivered, by rw [htx']; exact hskbs, by rw [htx']; exact hdma,
      fun _ => ⟨?_, ?_, ?_, ?_, ?_, hmask⟩, fun hne => absurd heq hne⟩
    · rw [hrx, htx']
      exact ⟨rfl, rfl, rfl, rfl⟩
    · rw [hrx]
      exact hqueue.full
    · rw [hrx]
      exact hqueue.eor
    · intro i
      rw [htx']
      exact (hw.slot_empty i).2
    · rw [htx']
  · have hD' : D' < R.length := by
      apply lt_of_le_of_ne hle
      rintro rfl
      exact hne (hd.trans hc.symm)
    refine ⟨by rw [hrx]; exact hdelivered, by rw [htx']; exact hskbs, by rw [htx']; exact hdma,
      fun heq => absurd heq hne, fun _ => ⟨by rw [hrx], by rw [hrx], ?_, htask⟩⟩
    rw [hrx, hd, RxRing.entry_ofNat]
    exact hhead hD'

/-- **The reset task after a Tx timeout**: after a successful open and any traffic of buffers that
are not empty, with any budgets and allocation failures, the task hands up every error-free frame in
order, unmaps and frees every Tx buffer, and either restarts the chip on clean rings or comes
again. -/
theorem resetTask_restarts (hM : 1 ≤ maxSkbFrags) (hM' : maxSkbFrags < numTxDesc) {o : OpenOutcome}
    (hopen : (b.ndoOpen o).running = true) {es : List TrafficEvent}
    (hok : Along (trafficStep maxSkbFrags) TrafficOk (b.ndoOpen o, []) es)
    (hrun : run (trafficStep maxSkbFrags) (b.ndoOpen o, []) es = some (t, R))
    (hrange : ClearsInRange t) (alloc : BitVec 32 → Allocator) :
    ∃ u, run (step maxSkbFrags) t [.txTimeout, .resetTask alloc] = some u ∧
      Restarted b R (t.rx.rxInterrupt alloc (~~~0#32)).1 u := by
  have hinv := hok.always (I := Traffic maxSkbFrags b)
    (fun _ _ _ h hok hstep => h.step hM hok hstep) ⟨_, _, _, _, _, .of_open hM' hopen⟩
  obtain ⟨q, D, C, E, F, h⟩ := hinv.of_run hrun
  exact h.restarted hrange alloc

/-- A frame that arrives on an opened device and a buffer that is queued behind it. -/
theorem RxRing.Opened.receive_startXmit {s₀ s : Device} {r₀ : RxRing} (hopen : r₀.Opened s.rx)
    (hstart : s₀.Started s) (hawake : s.tx.queueStopped = false) (skb : SkBuff)
    (hlen : skb.len ≠ 0#32) :
    ∃ t, run (trafficStep 17) (s, []) [.receive pingFrame, .startXmit skb] =
        some (t, [pingFrame]) ∧ ClearsInRange t ∧
      Along (trafficStep 17) TrafficOk (s, []) [.receive pingFrame, .startXmit skb] := by
  obtain ⟨s₁, hreceive, htx₁⟩ : ∃ s₁, s.receive pingFrame = some s₁ ∧ s₁.tx = s.tx :=
    ⟨_, Device.receive_eq_some_iff.mpr
      ⟨hstart.rxEnb, 0, by rw [hstart.rxNic]; rfl, hopen.own 0, rfl⟩, rfl⟩
  have hstep₁ : trafficStep 17 (s, []) (.receive pingFrame) = some (s₁, [pingFrame]) := by
    simp [trafficStep, hreceive]
  have hstep₂ : trafficStep 17 (s₁, [pingFrame]) (.startXmit skb) =
      some ((s₁.startXmit 17 skb).1, [pingFrame]) := if_pos (by rw [htx₁]; exact hawake)
  refine ⟨_, by rw [run_cons hstep₁, run_cons hstep₂, run_nil], ?_, ?_⟩
  · rw [ClearsInRange, Device.startXmit, startXmit_dirtyTx, htx₁, hstart.dirtyTx]
    decide
  · intro _ _
    exact ⟨trivial, fun _ _ => ⟨hlen, trivial⟩⟩

/-- A frame that arrives and a buffer that is queued before the NIC hangs. -/
theorem resetTask_restarts_hang :
    ∃ t, run (trafficStep 17) (Device.registered.ndoOpen .plenty, [])
        [.receive pingFrame, .startXmit ⟨0x1000#64, 60#32, 0#32, 0#8⟩] = some (t, [pingFrame]) ∧
      ClearsInRange t ∧
      ∃ u, run (step 17) t [.txTimeout, .resetTask OpenOutcome.plenty.alloc] = some u ∧
        Restarted Device.registered [pingFrame]
          (t.rx.rxInterrupt OpenOutcome.plenty.alloc (~~~0#32)).1 u := by
  have hopen := Device.ndoOpen_plenty (s := Device.registered) rfl
  obtain ⟨t, hrun, hrange, hok⟩ := (Device.ndoOpen_opened hopen).receive_startXmit
    (Device.ndoOpen_started hopen) (by rw [Device.ndoOpen_tx hopen])
    ⟨0x1000#64, 60#32, 0#32, 0#8⟩ (by decide)
  exact ⟨t, hrun, hrange, resetTask_restarts (by decide) (by decide) hopen hok hrun hrange _⟩

/-- A buffer of length zero, queued on an empty ring, is still there after the reset task. -/
theorem TrafficAt.emptySkb_kept (h : TrafficAt 17 b (t, R) q D C 0 0)
    (hawake : t.tx.queueStopped = false) (hskbs : t.tx.skbs = b.tx.skbs)
    (alloc : BitVec 32 → Allocator) :
    ∃ s u, run (trafficStep 17) (t, R) [.startXmit emptySkb] = some (s, R) ∧ ClearsInRange s ∧
      run (step 17) s [.txTimeout, .resetTask alloc] = some u ∧
      (u.tx.txDescArray 0).own = true ∧ ∀ r, ¬ Restarted b R r u := by
  obtain ⟨hslots, hown, hlive⟩ := TxRing.startXmit_emptySkb h.window h.curTx h.dirtyTx
  have hstep : trafficStep 17 (t, R) (.startXmit emptySkb) =
      some ((t.startXmit 17 emptySkb).1, R) := if_pos hawake
  obtain ⟨u, hu, hends⟩ := run_txTimeout (t := (t.startXmit 17 emptySkb).1) 17
    h.running alloc rfl (TxRing.txClear_of_len_zero hslots)
  refine ⟨_, u, by rw [run_cons hstep, run_nil], ?_, hu, ?_⟩
  · rw [ClearsInRange, Device.startXmit, startXmit_dirtyTx, h.dirtyTx]
    decide
  · have hkept : (u.tx.txDescArray 0).own = true ∧
        u.tx.skbs.live = emptySkb ::ₘ b.tx.skbs.live := by
      rcases hends with ⟨-, -, htx, -⟩ | ⟨-, -, htx, -⟩
      all_goals
        rw [htx, ← hskbs]
        exact ⟨hown, hlive⟩
    refine ⟨hkept.1, ?_⟩
    intro r hrestarted
    obtain ⟨-, -, -, hfreed⟩ := hrestarted.freed
    rw [hkept.2, add_zero, ← Multiset.singleton_add, add_eq_right] at hfreed
    exact Multiset.singleton_ne_zero _ hfreed

/-- The same on a freshly opened device. -/
theorem emptySkb_not_freed :
    ∃ t u, run (trafficStep 17) (Device.registered.ndoOpen .plenty, []) [.startXmit emptySkb] =
        some (t, []) ∧ ClearsInRange t ∧
      run (step 17) t [.txTimeout, .resetTask OpenOutcome.plenty.alloc] = some u ∧
      (u.tx.txDescArray 0).own = true ∧
      ¬ Restarted Device.registered []
        (t.rx.rxInterrupt OpenOutcome.plenty.alloc (~~~0#32)).1 u := by
  have hopen := Device.ndoOpen_plenty (s := Device.registered) rfl
  have htx := Device.ndoOpen_tx hopen
  obtain ⟨t, u, ht, hrange, hu, hown, hnot⟩ :=
    (TrafficAt.of_open (show 17 < numTxDesc by decide) hopen).emptySkb_kept
      (by rw [htx]) (by rw [htx]; rfl) OpenOutcome.plenty.alloc
  exact ⟨t, u, ht, hrange, hu, hown, hnot _⟩

end Rtl8101
