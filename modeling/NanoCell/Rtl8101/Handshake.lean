import NanoCell.Rtl8101.RxQueue
import NanoCell.Rtl8101.TxQueue

/-!
# The handshake of the interrupt handler and the poll

`rtl8101_interrupt` masks the interrupts, clears the status register and schedules the poll;
`rtl8101_poll` runs the two passes and, when the receive pass stayed below its budget, completes
and unmasks. Here each register access of the handler and each stage of the poll is a step of its
own, and the NIC writes descriptors back and latches its status bits between any two of them. The
interrupt line is that of the NIC alone: the handler is entered when an enabled bit is latched.

## Main definitions

* `Handshake`: the device with the program counters of the handler and of the poll
* `handshakeStep`: the steps of the handler, of the poll, of the stack and of the NIC
* `Handshake.Control`: the invariant of the two program counters and the registers
* `Handshake.LosesNothing`: no latched descriptor is forgotten

## Main results

* `Handshake.run_poll`, `Handshake.run_handler`: the steps in one go are `rtl8101_poll` and
  `rtl8101_disable_n_clear_interrupts`
* `Control.handlerStep`, `Control.pollStep`: the two contexts keep the invariant
* `losesNothing_always`: no interleaving loses an event
-/

namespace Rtl8101

open Counter Transition

/-! ## The steps -/

/-- Where `rtl8101_interrupt` stands: before its first read of the status register, before the
write of the mask, before the second read, before the write that clears `status`, and before
`napi_schedule`. -/
inductive HandlerPc where
  | idle
  | entered
  | accepted
  | masked
  | acking (status : BitVec 16)
  | cleared
  deriving DecidableEq

/-- Where `rtl8101_poll` stands: before one of its passes, before the test of its work against
the budget, and after `napi_complete`. -/
inductive PollPc where
  | off
  | rxPass (budget : BitVec 32)
  | txPass (budget workDone : BitVec 32)
  | finish (budget workDone : BitVec 32)
  | unmask (budget workDone : BitVec 32)
  deriving DecidableEq

/-- A return of `rtl8101_poll`, and whether it called `napi_complete` and unmasked. -/
structure PollReturn where
  budget : BitVec 32
  workDone : BitVec 32
  completed : Bool
  deriving DecidableEq

/-- The device, the two contexts of the driver, and `sched` for the state of NAPI. `received` are
the frames written back, `rxLatched` counts those of them for which `RxOK` was latched, and
`rxTaken` those that the receive passes have processed; likewise for the Tx descriptors. -/
structure Handshake where
  dev : Device
  handler : HandlerPc
  sched : Bool
  poll : PollPc
  returns : List PollReturn
  received : List RxFrame
  rxLatched : ℕ
  rxTaken : ℕ
  txDone : ℕ
  txLatched : ℕ
  txTaken : ℕ

namespace Handshake

/-- A device whose handler and poll are not running. -/
def start (s : Device) : Handshake := ⟨s, .idle, false, .off, [], [], 0, 0, 0, 0, 0⟩

/-- The NIC latches bits of `IntrStatus`. -/
def latch (s : Handshake) (bits : BitVec 16) : Handshake :=
  { s with dev := { s.dev with
    chip := { s.dev.chip with intrStatus := s.dev.chip.intrStatus ||| bits } } }

/-- The next step of `rtl8101_interrupt`; it is entered when an enabled bit is latched. -/
def handlerStep (s : Handshake) : Option Handshake :=
  let chip := s.dev.chip
  match s.handler with
  | .idle =>
    if chip.intrStatus &&& chip.intrMask ≠ 0#16 then some { s with handler := .entered } else none
  | .entered =>
    if chip.intrStatus = 0xFFFF#16 ∨ chip.intrStatus = 0#16 then some { s with handler := .idle }
    else if chip.intrStatus &&& intrEnMask = 0#16 then some { s with handler := .idle }
    else if s.dev.running = false then some { s with handler := .idle }
    else some { s with handler := .accepted }
  | .accepted =>
    some { s with
      dev := { s.dev with chip := { chip with intrMask := 0#16 } }
      handler := .masked }
  -- `rtl8101_disable_n_clear_interrupts` reads the register again
  | .masked => some { s with handler := .acking chip.intrStatus }
  | .acking status =>
    some { s with dev := { s.dev with chip := chip.ackIntr status }, handler := .cleared }
  | .cleared => some { s with sched := true, handler := .idle }

/-- The kernel calls `rtl8101_poll` while NAPI is scheduled. -/
def pollStart (s : Handshake) (budget : BitVec 32) : Option Handshake :=
  if s.sched = true ∧ s.poll = .off then some { s with poll := .rxPass budget } else none

/-- The next stage of `rtl8101_poll`. -/
def pollStep (maxSkbFrags : ℕ) (s : Handshake) (alloc : BitVec 32 → Allocator) :
    Option Handshake :=
  match s.poll with
  | .off => none
  | .rxPass budget =>
    let (rx, workDone) := s.dev.rx.rxInterrupt alloc budget
    some { s with
      dev := { s.dev with rx := rx }
      rxTaken := s.rxTaken + workDone.toNat
      poll := .txPass budget workDone }
  | .txPass budget workDone =>
    let dev := s.dev.txInterrupt maxSkbFrags
    some { s with
      dev := dev
      txTaken := s.txTaken + (dev.tx.dirtyTx - s.dev.tx.dirtyTx).toNat
      poll := .finish budget workDone }
  -- `napi_complete` comes first, the interrupts are unmasked a step later
  | .finish budget workDone =>
    if workDone < budget then some { s with sched := false, poll := .unmask budget workDone }
    else some { s with poll := .off, returns := s.returns ++ [⟨budget, workDone, false⟩] }
  | .unmask budget workDone =>
    some { s with
      dev := { s.dev with chip := s.dev.chip.enableInterrupts intrEnMask }
      poll := .off
      returns := s.returns ++ [⟨budget, workDone, true⟩] }

end Handshake

/-- The NIC, the stack, the handler and the poll. -/
inductive HandshakeEvent where
  | rxWriteBack (f : RxFrame)
  | txWriteBack
  | latchRx
  | latchTx
  | latchOther (bits : BitVec 16)
  | startXmit (skb : SkBuff)
  | fetch
  | handler
  | pollStart (budget : BitVec 32)
  | poll (alloc : BitVec 32 → Allocator)

/-- One step. The NIC latches `RxOK` and `TxOK` for descriptors it has written back, and may latch
other bits at any time; the stack transmits only while the queue is not stopped. -/
def handshakeStep (maxSkbFrags : ℕ) (s : Handshake) : HandshakeEvent → Option Handshake
  | .rxWriteBack f =>
    (s.dev.receive f).map fun dev => { s with dev := dev, received := s.received ++ [f] }
  | .txWriteBack => s.dev.complete.map fun dev => { s with dev := dev, txDone := s.txDone + 1 }
  | .latchRx => some { s.latch rxOk with rxLatched := s.received.length }
  | .latchTx => some { s.latch txOk with txLatched := s.txDone }
  | .latchOther bits => some (s.latch bits)
  | .startXmit skb =>
    if s.dev.tx.queueStopped = false then
      some { s with dev := (s.dev.startXmit maxSkbFrags skb).1 }
    else none
  | .fetch => s.dev.fetch.map fun dev => { s with dev := dev }
  | .handler => s.handlerStep
  | .pollStart budget => s.pollStart budget
  | .poll alloc => s.pollStep maxSkbFrags alloc

/-- The length of a buffer does not reach the `RingEnd` bit of its descriptor. -/
def HandshakeOk (_ : Handshake) : HandshakeEvent → Prop
  | .startXmit skb => hasBits skb.len ringEnd = false
  | _ => True

/-! ## The steps in one go -/

/-- **The stages of the poll** without interruption are `rtl8101_poll`. -/
theorem Handshake.run_poll (maxSkbFrags : ℕ) {s : Handshake} (hsched : s.sched = true)
    (hoff : s.poll = .off) (alloc : BitVec 32 → Allocator) (budget : BitVec 32) :
    ∃ n, (run (handshakeStep maxSkbFrags) s
        (.pollStart budget :: List.replicate n (.poll alloc))).map
          (fun t => (t.dev, t.poll, t.returns)) =
      let (dev, workDone) := s.dev.poll maxSkbFrags alloc budget
      some (dev, .off, s.returns ++ [⟨budget, workDone, decide (workDone < budget)⟩]) := by
  rcases hrx : s.dev.rx.rxInterrupt alloc budget with ⟨rx, workDone⟩
  by_cases hlt : workDone < budget
  · refine ⟨4, ?_⟩
    simp [run, handshakeStep, pollStart, pollStep, hsched, hoff, hrx, hlt, List.replicate,
      Device.poll]
  · refine ⟨3, ?_⟩
    simp [run, handshakeStep, pollStart, pollStep, hsched, hoff, hrx, hlt, List.replicate,
      Device.poll]

/-- **The handler** without interruption disables and clears the interrupts and schedules the
poll. -/
theorem Handshake.run_handler (maxSkbFrags : ℕ) {s : Handshake} (h : s.handler = .accepted) :
    run (handshakeStep maxSkbFrags) s [.handler, .handler, .handler, .handler] = some { s with
      dev := { s.dev with chip := s.dev.chip.disableNClearInterrupts }
      handler := .idle
      sched := true } := by
  simp only [run, handshakeStep, handlerStep, h, Option.bind_some]
  rfl

/-! ## The Tx ring -/

/-- The Tx ring and its NIC, with `dirty_tx`, the descriptors given back, the descriptors fetched
and `cur_tx` at the positions `D`, `E`, `F` and `C`: between `dirty_tx` and `cur_tx` the NIC owns
the descriptors that it has not given back. -/
structure TxRingAt (maxSkbFrags : ℕ) (s : Device) (D E F C : ℕ) : Prop where
  dirty : s.tx.dirtyTx = BitVec.ofNat 32 D
  cur : s.tx.curTx = BitVec.ofNat 32 C
  order : D ≤ E ∧ E ≤ F ∧ F ≤ C
  lt : C < D + numTxDesc
  given : ∀ p, D ≤ p → p < E → (s.tx.txDescArray (pos numTxDesc p)).own = false
  queued : ∀ p, E ≤ p → p < C → (s.tx.txDescArray (pos numTxDesc p)).own = true ∧
    (s.tx.txDescArray (pos numTxDesc p)).eor = decide (p % numTxDesc + 1 = numTxDesc)
  free : ∀ p, C ≤ p → p < D + numTxDesc → (s.tx.txDescArray (pos numTxDesc p)).own = false
  fetchPos : s.chip.txNic.fetchPos = F % numTxDesc
  donePos : s.chip.txNic.donePos = E % numTxDesc
  inFlight : s.chip.txNic.inFlight = F - E
  awake : s.tx.queueStopped = false → C - D + maxSkbFrags + 1 ≤ numTxDesc

namespace TxRingAt

variable {maxSkbFrags : ℕ} {s t : Device} {D E F C : ℕ}

theorem of_open (hM : maxSkbFrags < numTxDesc) {o : OpenOutcome}
    (h : (s.ndoOpen o).running = true) : TxRingAt maxSkbFrags (s.ndoOpen o) 0 0 0 0 := by
  have hstart := Device.ndoOpen_started h
  obtain ⟨hfetch, hdone, hflight⟩ := hstart.txNic
  exact ⟨hstart.dirtyTx, hstart.curTx, ⟨le_rfl, le_rfl, le_rfl⟩, by decide,
    fun p _ hp => absurd hp (by omega), fun p _ hp => absurd hp (by omega),
    fun p _ _ => hstart.txFree _, hfetch, hdone, hflight, fun _ => by omega⟩

/-- The stack queues a buffer, or is turned away. -/
theorem startXmit (hM : 1 ≤ maxSkbFrags) (h : TxRingAt maxSkbFrags s D E F C)
    (hawake : s.tx.queueStopped = false) {skb : SkBuff} (hlen : hasBits skb.len ringEnd = false) :
    ∃ C', TxRingAt maxSkbFrags (s.startXmit maxSkbFrags skb).1 D E F C' := by
  obtain ⟨hDE, hEF, hFC⟩ := h.order
  have hlt := h.lt
  have hroom := h.awake hawake
  have hother : ∀ p, D ≤ p → p < C → pos numTxDesc p ≠ pos numTxDesc C :=
    fun p hp hp' => pos_ne hp hp' hlt
  unfold Device.startXmit
  rcases TxRing.startXmit_cases maxSkbFrags skb h.cur h.dirty (by omega) (by omega) with
      ⟨-, he⟩ | he
  · rw [he]
    exact ⟨C, { h with dirty := h.dirty, cur := h.cur, awake := fun hq => by cases hq }⟩
  · rw [he]
    refine ⟨C + 1, { h with
      dirty := h.dirty, cur := rfl, order := ⟨hDE, hEF, by omega⟩, lt := by omega
      given := ?_, queued := ?_
      free := ?_, awake := ?_ }⟩
    · intro p hp hp'
      simpa [TxRing.queued, hother p hp (by omega)] using h.given p hp hp'
    · intro p hp hp'
      by_cases hpC : p = C
      · subst hpC
        simp only [TxRing.queued, Function.update_self]
        exact ⟨TxRing.xmitWord_own _ _, xmitWord_ringEnd _ hlen⟩
      · simpa [TxRing.queued, hother p (by omega) (by omega)] using h.queued p hp (by omega)
    · intro p hp hp'
      have hne : pos numTxDesc p ≠ pos numTxDesc C := (pos_ne (d := D) (by omega) hp hp').symm
      simpa [TxRing.queued, hne] using h.free p (by omega) hp'
    · intro hq
      dsimp only at hq
      split_ifs at hq
      omega

/-- The NIC fetches the next descriptor. -/
theorem fetch (h : TxRingAt maxSkbFrags s D E F C) (hf : s.fetch = some t) :
    TxRingAt maxSkbFrags t D E (F + 1) C ∧
      ∃ nic, t = { s with chip := { s.chip with txNic := nic } } := by
  obtain ⟨hDE, hEF, hFC⟩ := h.order
  have hlt := h.lt
  obtain ⟨nic, hnic, rfl⟩ := Device.fetch_eq_some hf
  obtain ⟨i, hi, hown, rfl⟩ := TxNic.fetch_eq_some hnic
  obtain rfl : pos numTxDesc F = i := by
    rw [Fin.ext_iff, pos_val, ← hi, h.fetchPos]
  have hFC' : F < C := by
    apply lt_of_le_of_ne hFC
    rintro rfl
    rw [h.free F le_rfl hlt] at hown
    cases hown
  refine ⟨{ h with order := ⟨hDE, by omega, hFC'⟩, fetchPos := ?_, inFlight := ?_ }, _, rfl⟩
  · dsimp only
    rw [pos_val, nextPos_mod (h.queued F hEF hFC').2]
  · dsimp only
    rw [h.inFlight]
    omega

/-- The NIC gives the oldest descriptor back. -/
theorem complete (h : TxRingAt maxSkbFrags s D E F C) (hc : s.complete = some t) :
    TxRingAt maxSkbFrags t D (E + 1) F C ∧
      ∃ tx nic, t = { s with tx := tx, chip := { s.chip with txNic := nic } } := by
  obtain ⟨hDE, hEF, hFC⟩ := h.order
  have hlt := h.lt
  obtain ⟨tx, nic, hnic, rfl⟩ := Device.complete_eq_some hc
  obtain ⟨i, hi, hflight, rfl, rfl⟩ := nicComplete_eq_some hnic
  obtain rfl : pos numTxDesc E = i := by
    rw [Fin.ext_iff, pos_val, ← hi, h.donePos]
  rw [h.inFlight] at hflight
  have hother : ∀ p, E < p → p < D + numTxDesc → pos numTxDesc p ≠ pos numTxDesc E :=
    fun p hp hp' => (pos_ne hDE hp hp').symm
  refine ⟨{ h with
    order := ⟨by omega, by omega, hFC⟩, dirty := h.dirty, cur := h.cur
    given := ?_, queued := ?_, free := ?_
    donePos := ?_, inFlight := ?_, awake := h.awake }, _, _, rfl⟩
  · intro p hp hp'
    by_cases hpE : p = E
    · subst hpE; simp [TxRing.completed]
    · have hne : pos numTxDesc p ≠ pos numTxDesc E := pos_ne hp (by omega) (by omega)
      simpa [TxRing.completed, hne] using h.given p hp (by omega)
  · intro p hp hp'
    simpa [TxRing.completed, hother p (by omega) (by omega)] using h.queued p (by omega) hp'
  · intro p hp hp'
    simpa [TxRing.completed, hother p (by omega) hp'] using h.free p hp hp'
  · dsimp only
    rw [pos_val, nextPos_mod (h.queued E le_rfl (by omega)).2]
  · dsimp only
    rw [h.inFlight]
    omega

/-- **`rtl8101_tx_interrupt`** reclaims everything that was given back. -/
theorem txInterrupt (h : TxRingAt maxSkbFrags s D E F C) :
    TxRingAt maxSkbFrags (s.txInterrupt maxSkbFrags) E E F C ∧
      ((s.txInterrupt maxSkbFrags).tx.dirtyTx - s.tx.dirtyTx).toNat = E - D := by
  obtain ⟨hDE, hEF, hFC⟩ := h.order
  have hlt := h.lt
  obtain ⟨r₁, D', hpass, hDD', hD'C, hstop, he⟩ :=
    TxRing.txInterrupt_spec maxSkbFrags h.cur h.dirty (by omega) h.lt
  have hkept : ∀ p, D' ≤ p → p < D + numTxDesc →
      r₁.txDescArray (pos numTxDesc p) = s.tx.txDescArray (pos numTxDesc p) := fun p hp hp' =>
    hpass.desc_eq fun m hm hm' => pos_ne hm (by omega) hp'
  have hD'E : D' = E := by
    refine le_antisymm ?_ (not_lt.mp ?_)
    · by_cases hEC : E < C
      · exact hpass.le_of_own (h.queued E le_rfl hEC).1 hDE (by omega)
      · omega
    · intro hlt'
      have hown := hstop (by omega)
      rw [hkept D' le_rfl (by omega), h.given D' hDD' hlt'] at hown
      cases hown
  subst hD'E
  have hfree : ∀ p, C ≤ p → p < D' + numTxDesc →
      (r₁.txDescArray (pos numTxDesc p)).own = false := by
    intro p hp hp'
    by_cases hpD : p < D + numTxDesc
    · rw [hkept p (by omega) hpD]
      exact h.free p hp hpD
    · obtain ⟨m, rfl⟩ := Nat.exists_eq_add_of_le' (show numTxDesc ≤ p by omega)
      rw [pos_add_self]
      exact hpass.own (h.given m (by omega) (by omega))
  unfold Device.txInterrupt
  rw [he]
  refine ⟨{ h with
    dirty := rfl, cur := hpass.sameFrame.curTx.trans h.cur, order := ⟨le_rfl, hEF, hFC⟩
    lt := by omega, given := fun p hp hp' => absurd hp' (by omega)
    queued := ?_, free := hfree, awake := ?_ }, ?_⟩
  · intro p hp hp'
    dsimp only
    rw [hkept p hp (by omega)]
    exact h.queued p hp hp'
  · intro hq
    dsimp only at hq
    split_ifs at hq with hwake
    · omega
    · have := h.awake hq
      omega
  · dsimp only
    rw [h.dirty, toNat_ofNat_sub hDD' (by have := numTxDesc_eq; omega)]

end TxRingAt

/-! ## The two contexts -/

/-- The handler has not yet written the mask. -/
def HandlerPc.beforeMask : HandlerPc → Bool
  | .idle | .entered | .accepted => true
  | .masked | .acking _ | .cleared => false

namespace Handshake

/-- A receive pass is to come: the poll will be called, or has not reached its receive pass, or
has used up its budget and will be called again. -/
def RxPassAhead (s : Handshake) : Prop :=
  match s.poll with
  | .off => s.sched = true
  | .rxPass _ => True
  | .txPass budget workDone => ¬ workDone < budget
  | .finish budget workDone => ¬ workDone < budget
  | .unmask _ _ => False

/-- A reclaim pass is to come. -/
def TxPassAhead (s : Handshake) : Prop :=
  match s.poll with
  | .off => s.sched = true
  | .rxPass _ => True
  | .txPass _ _ => True
  | .finish budget workDone => ¬ workDone < budget
  | .unmask _ _ => False

/-- The state of NAPI at each stage of the poll, and the work against the budget. -/
def PollOk (s : Handshake) : Prop :=
  match s.poll with
  | .off => True
  | .rxPass _ => s.sched = true
  | .txPass budget workDone => s.sched = true ∧ workDone ≤ budget
  | .finish budget workDone => s.sched = true ∧ workDone ≤ budget
  | .unmask budget workDone => s.sched = false ∧ workDone < budget

/-- The invariant of the two contexts and the registers. The handler runs only while NAPI is idle;
the interrupts are masked from its write of the mask to the end of the last poll; a latched
descriptor that was not processed still shows in the status register, or a pass is to come. -/
structure Control (s : Handshake) : Prop where
  alone : s.handler ≠ .idle → s.sched = false ∧ s.poll = .off
  pollOk : s.PollOk
  mask : s.dev.chip.intrMask =
    if s.sched = false ∧ s.poll = .off ∧ s.handler.beforeMask = true then intrEnMask else 0#16
  rxLatched : s.rxLatched ≤ s.received.length
  txLatched : s.txLatched ≤ s.txDone
  rx : s.rxTaken < s.rxLatched →
    s.dev.chip.intrStatus &&& rxOk ≠ 0#16 ∨ s.handler = .cleared ∨ s.RxPassAhead
  tx : s.txTaken < s.txLatched →
    s.dev.chip.intrStatus &&& txOk ≠ 0#16 ∨ s.handler = .cleared ∨ s.TxPassAhead
  returns : ∀ r ∈ s.returns, r.workDone ≤ r.budget ∧ (r.workDone < r.budget ↔ r.completed = true)

namespace Control

variable {s t : Handshake}

theorem of_start {s : Device} (h : s.chip.intrMask = intrEnMask) : Control (start s) where
  alone h := absurd rfl h
  pollOk := trivial
  mask := h
  rxLatched := le_rfl
  txLatched := le_rfl
  rx h := absurd h (Nat.lt_irrefl _)
  tx h := absurd h (Nat.lt_irrefl _)
  returns r hr := by cases hr

theorem or_and_ne_zero (x y m : BitVec 16) (h : x &&& m ≠ 0#16) : (x ||| y) &&& m ≠ 0#16 := by
  rw [BitVec.and_comm, BitVec.and_or_distrib_left, BitVec.and_comm]
  exact fun h0 => h (BitVec.or_eq_zero_iff.mp h0).1

/-- Latching bits hides no bit that was latched before. -/
theorem latch (h : Control s) (bits : BitVec 16) : Control (s.latch bits) :=
  { h with
    rx := fun hp => (h.rx hp).imp_left (or_and_ne_zero _ _ _)
    tx := fun hp => (h.tx hp).imp_left (or_and_ne_zero _ _ _) }

/-- The bits that were just latched are set. -/
theorem latched_ne_zero (x : BitVec 16) {m : BitVec 16} (hm : m ≠ 0#16) :
    (x ||| m) &&& m ≠ 0#16 := by
  rw [BitVec.or_comm]
  exact or_and_ne_zero m x m (by rwa [BitVec.and_self])

/-- While the mask is open, NAPI is idle. -/
theorem of_mask_ne_zero (h : Control s) (hm : s.dev.chip.intrMask ≠ 0#16) :
    s.sched = false ∧ s.poll = .off := by
  rw [h.mask] at hm
  -- in every other state the mask is zero
  by_contra hno
  rw [if_neg fun hc => hno ⟨hc.1, hc.2.1⟩] at hm
  exact hm rfl

/-- The handler before its write of the mask. -/
theorem handler_entry (h : Control s) {pc : HandlerPc} (hs : s.handler.beforeMask = true)
    (hpc : pc.beforeMask = true) (halone : pc ≠ .idle → s.sched = false ∧ s.poll = .off) :
    Control { s with handler := pc } := by
  have hne : s.handler ≠ .cleared := fun he => by rw [he] at hs; cases hs
  have hmask := h.mask
  simp only [hs] at hmask
  refine { h with alone := halone, mask := ?_, rx := ?_, tx := ?_ }
  · simpa [hpc] using hmask
  · intro hp
    exact (h.rx hp).imp_right fun hr => .inr (hr.resolve_left hne)
  · intro hp
    exact (h.tx hp).imp_right fun hr => .inr (hr.resolve_left hne)

/-- **Every step of `rtl8101_interrupt` keeps the invariant.** -/
theorem handlerStep (h : Control s) (hstep : s.handlerStep = some t) : Control t := by
  unfold Handshake.handlerStep at hstep
  cases hpc : s.handler with
  -- the line is raised only while the mask is open, hence while NAPI is idle
  | idle =>
    simp only [hpc] at hstep
    split_ifs at hstep with hirq
    cases hstep
    have hm : s.dev.chip.intrMask ≠ 0#16 := fun h0 => hirq (by rw [h0, BitVec.and_zero])
    exact h.handler_entry (by rw [hpc]; rfl) rfl fun _ => h.of_mask_ne_zero hm
  | entered =>
    have hbefore : s.handler.beforeMask = true := by rw [hpc]; rfl
    have halone := h.alone (by simp [hpc])
    simp only [hpc] at hstep
    split_ifs at hstep <;> cases hstep
    · exact h.handler_entry hbefore rfl fun _ => halone
    · exact h.handler_entry hbefore rfl fun _ => halone
    · exact h.handler_entry hbefore rfl fun _ => halone
    · exact h.handler_entry hbefore rfl fun _ => halone
  | accepted =>
    simp only [hpc] at hstep
    cases hstep
    have hne : s.handler ≠ .cleared := by simp [hpc]
    exact { h with
      alone := fun _ => h.alone (by simp [hpc])
      mask := by simp [HandlerPc.beforeMask]
      rx := fun hp => (h.rx hp).imp_right fun hr => .inr (hr.resolve_left hne)
      tx := fun hp => (h.tx hp).imp_right fun hr => .inr (hr.resolve_left hne) }
  | masked =>
    simp only [hpc] at hstep
    cases hstep
    have hne : s.handler ≠ .cleared := by simp [hpc]
    have hmask := h.mask
    simp only [hpc, HandlerPc.beforeMask] at hmask
    exact { h with
      alone := fun _ => h.alone (by simp [hpc])
      mask := by simpa [HandlerPc.beforeMask] using hmask
      rx := fun hp => (h.rx hp).imp_right fun hr => .inr (hr.resolve_left hne)
      tx := fun hp => (h.tx hp).imp_right fun hr => .inr (hr.resolve_left hne) }
  | acking status =>
    simp only [hpc] at hstep
    cases hstep
    have hmask := h.mask
    simp only [hpc, HandlerPc.beforeMask] at hmask
    exact { h with
      alone := fun _ => h.alone (by simp [hpc])
      mask := by simpa [HandlerPc.beforeMask, Chip.ackIntr] using hmask
      rx := fun _ => .inr (.inl rfl)
      tx := fun _ => .inr (.inl rfl) }
  | cleared =>
    simp only [hpc] at hstep
    cases hstep
    obtain ⟨hsched, hoff⟩ := h.alone (by simp [hpc])
    have hmask := h.mask
    simp only [hpc, HandlerPc.beforeMask] at hmask
    exact { h with
      alone := fun hne => absurd rfl hne
      pollOk := by simp only [PollOk, hoff]
      mask := by simpa using hmask
      rx := fun _ => .inr (.inr (by simp only [RxPassAhead, hoff]))
      tx := fun _ => .inr (.inr (by simp only [TxPassAhead, hoff])) }

/-- While NAPI is scheduled or the poll runs, the handler does not. -/
theorem handler_idle (h : Control s) (hbusy : s.sched = true ∨ s.poll ≠ .off) :
    s.handler = .idle := by
  by_contra hne
  obtain ⟨hsched, hoff⟩ := h.alone hne
  rcases hbusy with hb | hb
  · rw [hsched] at hb
    cases hb
  · exact hb hoff

/-- While NAPI is scheduled or the poll runs, the interrupts are masked. -/
theorem mask_zero (h : Control s) (hbusy : s.sched = true ∨ s.poll ≠ .off) :
    s.dev.chip.intrMask = 0#16 := by
  rw [h.mask, if_neg]
  rintro ⟨hsched, hoff, -⟩
  rcases hbusy with hb | hb
  · rw [hsched] at hb
    cases hb
  · exact hb hoff

theorem pollStart (h : Control s) {budget : BitVec 32} (hstep : s.pollStart budget = some t) :
    Control t := by
  unfold Handshake.pollStart at hstep
  split_ifs at hstep with hready
  cases hstep
  have hidle := h.handler_idle (.inl hready.1)
  exact { h with
    alone := fun hne => absurd hidle hne
    pollOk := hready.1
    mask := by simpa using h.mask_zero (.inl hready.1)
    rx := fun _ => .inr (.inr trivial)
    tx := fun _ => .inr (.inr trivial) }

/-- The receive pass. -/
theorem rxPass (h : Control s) {budget workDone : BitVec 32} (hpc : s.poll = .rxPass budget)
    {rx : RxRing} {n : ℕ} (hle : workDone ≤ budget)
    (hall : workDone < budget → n = s.received.length) :
    Control { s with
      dev := { s.dev with rx := rx }, rxTaken := n, poll := .txPass budget workDone } := by
  have hbusy : s.sched = true ∨ s.poll ≠ .off := .inr (by simp [hpc])
  have hsched : s.sched = true := by simpa only [PollOk, hpc] using h.pollOk
  refine { h with
    alone := fun hne => absurd (h.handler_idle hbusy) hne
    pollOk := ⟨hsched, hle⟩
    mask := by simpa using h.mask_zero hbusy
    rx := fun hp => .inr (.inr ?_)
    tx := fun _ => .inr (.inr trivial) }
  intro hlt
  -- below its budget the pass took everything that was written back
  have hlatched := h.rxLatched
  have hn := hall hlt
  dsimp only at hp
  omega

/-- The reclaim pass. -/
theorem txPass (h : Control s) {budget workDone : BitVec 32}
    (hpc : s.poll = .txPass budget workDone) (dev : Device) (hchip : dev.chip = s.dev.chip)
    {n : ℕ} (hall : n = s.txDone) :
    Control { s with dev := dev, txTaken := n, poll := .finish budget workDone } := by
  have hbusy : s.sched = true ∨ s.poll ≠ .off := .inr (by simp [hpc])
  have hok := h.pollOk
  have hrx := h.rx
  simp only [PollOk, hpc] at hok
  simp only [RxPassAhead, hpc] at hrx
  refine { h with
    alone := fun hne => absurd (h.handler_idle hbusy) hne
    pollOk := hok
    mask := by simpa [hchip] using h.mask_zero hbusy
    rx := fun hp => by rw [hchip]; exact hrx hp
    tx := ?_ }
  intro hp
  have hlatched := h.txLatched
  dsimp only at hp
  omega

/-- **The end of `rtl8101_poll`**: with budget left it completes and unmasks, and what was latched
since the passes raises the next interrupt. -/
theorem pollEnd (h : Control s) {budget workDone : BitVec 32}
    (hpc : s.poll = .finish budget workDone ∨ s.poll = .unmask budget workDone)
    {maxSkbFrags : ℕ} {alloc : BitVec 32 → Allocator}
    (hstep : s.pollStep maxSkbFrags alloc = some t) : Control t := by
  have hbusy : s.sched = true ∨ s.poll ≠ .off := .inr (by rcases hpc with hpc | hpc <;> simp [hpc])
  have hidle := h.handler_idle hbusy
  have hok := h.pollOk
  have hrx := h.rx
  have htx := h.tx
  have hret := h.returns
  rcases hpc with hpc | hpc
  · simp only [PollOk, hpc] at hok
    simp only [RxPassAhead, hpc] at hrx
    simp only [TxPassAhead, hpc] at htx
    simp only [Handshake.pollStep, hpc] at hstep
    split_ifs at hstep with hlt <;> cases hstep
    · exact { h with
        alone := fun hne => absurd hidle hne
        pollOk := ⟨rfl, hlt⟩
        mask := by simpa using h.mask_zero hbusy
        rx := fun hp => (hrx hp).imp_right fun hr => hr.imp_right fun ha => ha hlt
        tx := fun hp => (htx hp).imp_right fun hr => hr.imp_right fun ha => ha hlt }
    · refine { h with
        alone := fun hne => absurd hidle hne
        pollOk := trivial
        mask := by simpa [hok.1] using h.mask_zero hbusy
        rx := fun _ => .inr (.inr hok.1)
        tx := fun _ => .inr (.inr hok.1)
        returns := ?_ }
      intro r hr
      rcases List.mem_append.mp hr with hr | hr
      · exact hret r hr
      · rw [List.mem_singleton.mp hr]
        exact ⟨hok.2, by simpa using hlt⟩
  · simp only [PollOk, hpc] at hok
    simp only [RxPassAhead, hpc] at hrx
    simp only [TxPassAhead, hpc] at htx
    simp only [Handshake.pollStep, hpc] at hstep
    cases hstep
    refine { h with
      alone := fun hne => absurd hidle hne
      pollOk := trivial
      mask := by simp [Chip.enableInterrupts, hok.1, hidle, HandlerPc.beforeMask]
      rx := fun hp => (hrx hp).imp_right fun hr => hr.imp_right False.elim
      tx := fun hp => (htx hp).imp_right fun hr => hr.imp_right False.elim
      returns := ?_ }
    intro r hr
    rcases List.mem_append.mp hr with hr | hr
    · exact hret r hr
    · rw [List.mem_singleton.mp hr]
      exact ⟨BitVec.le_of_lt hok.2, by simpa using hok.2⟩

end Control

/-! ## Runs -/

/-- No event is lost: a descriptor that was written back and latched, and that the driver has not
processed, still shows in the status register, or the handler is about to schedule the poll, or
the pass that processes it is to come. When nothing runs the interrupts are unmasked, and a poll
returns less than its budget exactly when it completed. The counts of the processed descriptors
are those of the rings: the next one of them is completed. -/
structure LosesNothing (s : Handshake) : Prop where
  rx : s.rxTaken < s.rxLatched →
    s.dev.chip.intrStatus &&& intrEnMask ≠ 0#16 ∨ s.handler = .cleared ∨ s.RxPassAhead
  tx : s.txTaken < s.txLatched →
    s.dev.chip.intrStatus &&& intrEnMask ≠ 0#16 ∨ s.handler = .cleared ∨ s.TxPassAhead
  unmasked : s.sched = false → s.poll = .off → s.handler = .idle →
    s.dev.chip.intrMask = intrEnMask
  returns : ∀ r ∈ s.returns, r.workDone ≤ r.budget ∧ (r.workDone < r.budget ↔ r.completed = true)
  rxCompleted : s.rxTaken < s.received.length →
    (s.dev.rx.rxDescArray (RxRing.entry s.dev.rx.curRx)).own = false
  txCompleted : s.txTaken < s.txDone →
    (s.dev.tx.txDescArray (TxRing.entry s.dev.tx.dirtyTx)).own = false

/-- The invariant of the rings, the NIC and the two contexts. -/
structure At (maxSkbFrags : ℕ) (b : RxRing) (s : Handshake) (D F C : ℕ) : Prop where
  rxAt : RxQueueAt b s.dev s.received D s.rxTaken
  txAt : TxRingAt maxSkbFrags s.dev s.txTaken s.txDone F C
  control : Control s

variable {maxSkbFrags : ℕ} {b : RxRing} {s t : Handshake} {D F C : ℕ}

theorem ne_zero_of_and {x m m' : BitVec 16} (h : x &&& m ≠ 0#16) (hm : m &&& m' = m) :
    x &&& m' ≠ 0#16 := by
  intro h0
  apply h
  rw [← hm, BitVec.and_comm m, ← BitVec.and_assoc, h0, BitVec.zero_and]

theorem At.losesNothing (h : At maxSkbFrags b s D F C) : LosesNothing s := by
  have hc := h.control
  refine ⟨fun hp => (hc.rx hp).imp_left fun hne => ne_zero_of_and hne (by decide),
    fun hp => (hc.tx hp).imp_left fun hne => ne_zero_of_and hne (by decide),
    ?_, hc.returns, ?_, ?_⟩
  · intro hsched hoff hidle
    rw [hc.mask, if_pos ⟨hsched, hoff, by rw [hidle]; rfl⟩]
  · intro hp
    rw [h.rxAt.cur, RxRing.entry_ofNat]
    exact (h.rxAt.queue.waiting _ _ le_rfl (List.getElem?_eq_getElem hp)).own
  · intro hp
    rw [h.txAt.dirty, TxRing.entry_ofNat]
    exact h.txAt.given _ le_rfl hp

/-- **Every stage of `rtl8101_poll` keeps the invariant.** -/
theorem At.pollStep (h : At maxSkbFrags b s D F C) {alloc : BitVec 32 → Allocator}
    (hstep : s.pollStep maxSkbFrags alloc = some t) : ∃ D, At maxSkbFrags b t D F C := by
  obtain ⟨hrx, htx, hc⟩ := h
  cases hpc : s.poll with
  | off => simp [Handshake.pollStep, hpc] at hstep
  | rxPass budget =>
    obtain ⟨r', D', C', he, hqueue, hd, hcur, hhead, hCC', hle, hall, -⟩ :=
      hrx.queue.rxInterrupt hrx.dirty hrx.cur alloc budget
    have hcount : (BitVec.ofNat 32 (C' - s.rxTaken)).toNat = C' - s.rxTaken := by
      rw [BitVec.toNat_ofNat, Nat.mod_eq_of_lt (by omega)]
    simp only [Handshake.pollStep, hpc, he, hcount, Nat.add_sub_cancel' hCC'] at hstep
    cases hstep
    refine ⟨D', ⟨hqueue, hd, hcur, hhead, hrx.nic⟩, { htx with },
      hc.rxPass hpc (BitVec.le_def.mpr (by omega)) fun hlt => hall ?_⟩
    rwa [BitVec.lt_def, hcount] at hlt
  | txPass budget workDone =>
    obtain ⟨htx', hcount⟩ := htx.txInterrupt
    have htaken : s.txTaken + (s.txDone - s.txTaken) = s.txDone :=
      Nat.add_sub_cancel' htx.order.1
    simp only [Handshake.pollStep, hpc, hcount, htaken] at hstep
    cases hstep
    exact ⟨D, { hrx with }, htx', hc.txPass hpc (s.dev.txInterrupt maxSkbFrags) rfl rfl⟩
  | finish budget workDone =>
    have hc' := hc.pollEnd (.inl hpc) hstep
    simp only [Handshake.pollStep, hpc] at hstep
    split_ifs at hstep <;> cases hstep
    · exact ⟨D, hrx, htx, hc'⟩
    · exact ⟨D, hrx, htx, hc'⟩
  | unmask budget workDone =>
    have hc' := hc.pollEnd (.inr hpc) hstep
    simp only [Handshake.pollStep, hpc] at hstep
    cases hstep
    exact ⟨D, { hrx with }, { htx with }, hc'⟩

/-- Every step of `rtl8101_interrupt` leaves the rings and the NIC's place in them. -/
theorem handlerStep_dev (hstep : s.handlerStep = some t) :
    ∃ mask status, t.dev = { s.dev with
        chip := { s.dev.chip with intrMask := mask, intrStatus := status } } ∧
      t.received = s.received ∧ t.rxTaken = s.rxTaken ∧ t.txDone = s.txDone ∧
      t.txTaken = s.txTaken := by
  unfold Handshake.handlerStep at hstep
  dsimp only at hstep
  split at hstep
  · split_ifs at hstep
    cases hstep
    exact ⟨_, _, rfl, rfl, rfl, rfl, rfl⟩
  · split_ifs at hstep <;> cases hstep <;> exact ⟨_, _, rfl, rfl, rfl, rfl, rfl⟩
  all_goals
    cases hstep
    exact ⟨_, _, rfl, rfl, rfl, rfl, rfl⟩

/-- **Every step keeps the invariant.** -/
theorem At.step (hM : 1 ≤ maxSkbFrags) (h : At maxSkbFrags b s D F C) {e : HandshakeEvent}
    (hok : HandshakeOk s e) (hstep : handshakeStep maxSkbFrags s e = some t) :
    ∃ D F C, At maxSkbFrags b t D F C := by
  obtain ⟨hrx, htx, hc⟩ := h
  cases e with
  | rxWriteBack f =>
    obtain ⟨u, hu, rfl⟩ := Option.map_eq_some_iff.mp hstep
    obtain ⟨-, i, -, -, hdev⟩ := Device.receive_eq_some_iff.mp hu
    obtain ⟨hrx', -⟩ := hrx.receive hu
    have hlatched := hc.rxLatched
    subst hdev
    refine ⟨D, F, C, hrx', { htx with }, { hc with rxLatched := ?_ }⟩
    simp only [List.length_append, List.length_singleton]
    omega
  | txWriteBack =>
    obtain ⟨u, hu, rfl⟩ := Option.map_eq_some_iff.mp hstep
    obtain ⟨htx', tx, nic, rfl⟩ := htx.complete hu
    exact ⟨D, F, C, { hrx with }, htx', { hc with txLatched := Nat.le_succ_of_le hc.txLatched }⟩
  | latchRx =>
    cases hstep
    have hc' := hc.latch rxOk
    exact ⟨D, F, C, { hrx with }, { htx with }, { hc' with
      rxLatched := le_rfl
      rx := fun _ => .inl (Control.latched_ne_zero _ (by decide)) }⟩
  | latchTx =>
    cases hstep
    have hc' := hc.latch txOk
    exact ⟨D, F, C, { hrx with }, { htx with }, { hc' with
      txLatched := le_rfl
      tx := fun _ => .inl (Control.latched_ne_zero _ (by decide)) }⟩
  | latchOther bits =>
    cases hstep
    exact ⟨D, F, C, { hrx with }, { htx with }, hc.latch bits⟩
  | startXmit skb =>
    simp only [handshakeStep] at hstep
    split_ifs at hstep with hawake
    cases hstep
    obtain ⟨C', htx'⟩ := htx.startXmit hM hawake hok
    exact ⟨D, F, C', { hrx with }, htx', { hc with }⟩
  | fetch =>
    obtain ⟨u, hu, rfl⟩ := Option.map_eq_some_iff.mp hstep
    obtain ⟨htx', nic, rfl⟩ := htx.fetch hu
    exact ⟨D, F + 1, C, { hrx with }, htx', { hc with }⟩
  | handler =>
    obtain ⟨mask, status, hdev, hR, hrt, htd, htt⟩ := handlerStep_dev hstep
    refine ⟨D, F, C, ?_, ?_, hc.handlerStep hstep⟩
    · rw [hdev, hR, hrt]
      exact { hrx with }
    · rw [hdev, htd, htt]
      exact { htx with }
  | pollStart budget =>
    have hc' := hc.pollStart hstep
    simp only [handshakeStep, Handshake.pollStart] at hstep
    split_ifs at hstep
    cases hstep
    exact ⟨D, F, C, hrx, htx, hc'⟩
  | poll alloc =>
    obtain ⟨D', h'⟩ := At.pollStep ⟨hrx, htx, hc⟩ hstep
    exact ⟨D', F, C, h'⟩

end Handshake

/-- **The handshake loses no event**: after a successful open, through every interleaving of the
NIC, the stack, the handler and the poll. -/
theorem losesNothing_always {maxSkbFrags : ℕ} (hM : 1 ≤ maxSkbFrags) (hM' : maxSkbFrags < numTxDesc)
    {s : Device} {o : OpenOutcome} (h : (s.ndoOpen o).running = true) {es : List HandshakeEvent}
    (hok : Along (handshakeStep maxSkbFrags) HandshakeOk (.start (s.ndoOpen o)) es) :
    Always (handshakeStep maxSkbFrags) Handshake.LosesNothing (.start (s.ndoOpen o)) es := by
  have hstart : Handshake.At maxSkbFrags s.rx (.start (s.ndoOpen o)) 0 0 0 :=
    ⟨.of_open h, .of_open hM' h, .of_start (Device.ndoOpen_started h).intrMask⟩
  have hinv := hok.always (I := fun t => ∃ D F C, Handshake.At maxSkbFrags s.rx t D F C)
    (fun _ _ _ ⟨_, _, _, ht⟩ hok hstep => ht.step hM hok hstep) ⟨_, _, _, hstart⟩
  exact hinv.mono fun _ ⟨_, _, _, ht⟩ => ht.losesNothing

/-- A frame is latched while the poll for the frame before it is running. -/
theorem losesNothing_always_late :
    (Device.registered.ndoOpen .plenty).running = true ∧
      Always (handshakeStep 17) Handshake.LosesNothing
        (.start (Device.registered.ndoOpen .plenty))
        [.rxWriteBack pingFrame, .latchRx, .handler, .handler, .handler, .handler, .handler,
          .handler, .pollStart 64#32, .poll (fun _ => .fail), .rxWriteBack pingFrame, .latchRx,
          .poll (fun _ => .fail), .poll (fun _ => .fail), .poll (fun _ => .fail), .handler] := by
  refine ⟨Device.ndoOpen_plenty rfl, losesNothing_always (s := Device.registered) (by decide)
    (by decide) (Device.ndoOpen_plenty rfl) ?_⟩
  simp [Along, HandshakeOk]

end Rtl8101
