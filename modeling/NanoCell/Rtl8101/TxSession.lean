import NanoCell.Rtl8101.RxWindow
import NanoCell.Rtl8101.TxWindow

/-!
# Whole sessions of the transmit path

A session lies between a successful `rtl8101_open` and the `rtl8101_close` after it. Buffers are
queued by the stack, completed by the NIC, and leave the ring through the reclaim loop or through
`rtl8101_tx_clear`, which a link-down, a reset task and the close enter. The Rx side enters only
through the answer of the reset task to `dirty_rx == cur_rx`.

The flow control is an invariant over all of these: while the carrier is off the queue is awake
only with `MAX_SKB_FRAGS` descriptors to spare; the link-up that starts the queue without looking
at the ring costs one more descriptor, and every way back to a dead carrier clears the ring.

## Main definitions

* `SessionEvent`, `sessionStep`: what happens to the transmit path of an open device
* `TxEvent`, `txStep`: sessions, opened and closed
* `SessionOk`, `TxOk`: the stack queues linear buffers that are not empty, and `rtl8101_tx_clear`
  is not entered in the last turn of the counter range
* `Session`: the invariant of an open device
* `Accounts`, `FlowControl`: what holds in every state

## Main results

* `Session.step`: every event of a session keeps the invariant
* `session_accounts`: ownership and accounting over whole sessions
* `flowControl_always`: the flow control neither overruns the ring nor loses a wake-up
-/

namespace Rtl8101

open Counter Transition TxRing

/-! ## Sessions -/

/-- What happens to the transmit path of an open device. -/
inductive SessionEvent where
  | startXmit (skb : SkBuff)
  | complete (i : Fin numTxDesc)
  | txInterrupt
  | txTimeout
  | resetTask (rxOk : Bool)
  | link (linkStatusOn : Bool)

/-- `rtl8101_reset_task`, whose receive pass answers `rxOk` to `dirty_rx == cur_rx`. -/
def Device.resetTaskTx (s : Device) (rxOk : Bool) : Device :=
  if s.running = false then s
  else ({ s with chip := s.chip.disableNClearInterrupts } : Device).resetTail rxOk

/-- The reset task is its receive pass followed by its Tx half. -/
theorem Device.resetTask_eq (s : Device) (alloc : BitVec 32 → Allocator) (h : s.running = true) :
    s.resetTask alloc =
      let rx := (s.rx.rxInterrupt alloc (~~~0#32)).1
      ({ s with rx := rx } : Device).resetTaskTx (rx.dirtyRx = rx.curRx) := by
  simp [Device.resetTask, Device.resetTaskTx, h]

/-- One event of a session: the stack transmits only while the queue is not stopped. -/
def sessionStep (maxSkbFrags : ℕ) (s : Device) : SessionEvent → Option Device
  | .startXmit skb =>
    if s.tx.queueStopped = false then some (s.startXmit maxSkbFrags skb).1 else none
  -- any descriptor may be completed, in any order: the accounts do not depend on it
  | .complete i => some { s with tx := s.tx.completed i }
  | .txInterrupt => some (s.txInterrupt maxSkbFrags)
  | .txTimeout => some s.txTimeout
  | .resetTask rxOk => some (({ s with taskPending := false } : Device).resetTaskTx rxOk)
  | .link on => some (s.checkLinkStatus on)

/-- `rtl8101_tx_clear` is entered below the last turn of the counter range. -/
def ClearsInRange (s : Device) : Prop := s.tx.dirtyTx.toNat < 2 ^ 32 - numTxDesc

/-- The stack queues linear buffers that are not empty, and no event enters `rtl8101_tx_clear`
in the last turn of the counter range. -/
def SessionOk (s : Device) : SessionEvent → Prop
  | .startXmit skb => skb.nrFrags = 0#8 ∧ skb.len ≠ 0#32
  | .resetTask _ => ClearsInRange s
  | .link on => on = false → s.carrierOk = true → ClearsInRange s
  | _ => True

/-! ## The invariant of an open device -/

/-- How much of the ring is in use, with `K` descriptors queued: a live carrier has cost at most
one descriptor beyond those kept for a fragmented buffer. -/
structure Flow (maxSkbFrags : ℕ) (s : Device) (K : ℕ) : Prop where
  full : K + maxSkbFrags ≤ numTxDesc + s.carrierOk.toNat
  awake : s.tx.queueStopped = false → K + maxSkbFrags + 1 ≤ numTxDesc + s.carrierOk.toNat
  stopped : s.carrierOk = true → s.taskPending = false → s.tx.queueStopped = true →
    numTxDesc ≤ K + maxSkbFrags

/-- The invariant of a device that is open since its Tx ring was `b`. -/
structure SessionAt (maxSkbFrags : ℕ) (b : TxRing) (s : Device) (q : ℕ → SkBuff) (D C : ℕ)
    (A S X : List SkBuff) : Prop where
  running : s.running = true
  txNull : s.tx.txDescNull = false
  rxNull : s.rx.rxDescNull = false
  dirty : s.tx.dirtyTx = BitVec.ofNat 32 D
  cur : s.tx.curTx = BitVec.ofNat 32 C
  window : Window q s.tx D C
  books : Books b s.tx (C - D) A S X
  flow : Flow maxSkbFrags s (C - D)

/-- The invariant of a session. -/
def Session (maxSkbFrags : ℕ) (b : TxRing) (s : Device) : Prop :=
  ∃ q D C A S X, SessionAt maxSkbFrags b s q D C A S X

section Steps

variable {maxSkbFrags : ℕ} {b : TxRing} {s : Device} {q : ℕ → SkBuff} {D C : ℕ}
  {A S X : List SkBuff}

/-- While the queue is awake there is room for one more buffer. -/
theorem SessionAt.room (hM : 2 ≤ maxSkbFrags) (h : SessionAt maxSkbFrags b s q D C A S X)
    (hawake : s.tx.queueStopped = false) : C + 1 < D + numTxDesc := by
  have hflow := h.flow.awake hawake
  have hle := h.window.le
  have hcarrier : s.carrierOk.toNat ≤ 1 := Bool.toNat_le _
  omega

theorem SessionAt.startXmit_eq (hM : 2 ≤ maxSkbFrags) (h : SessionAt maxSkbFrags b s q D C A S X)
    (hawake : s.tx.queueStopped = false) {skb : SkBuff} (hlinear : skb.nrFrags = 0#8) :
    s.tx.startXmit maxSkbFrags skb = ({ s.tx.queued (pos numTxDesc C) skb with
      curTx := BitVec.ofNat 32 (C + 1)
      queueStopped := if D + numTxDesc - 1 - (C + 1) < maxSkbFrags then true
        else s.tx.queueStopped }, .ok) :=
  TxRing.startXmit_eq maxSkbFrags h.cur h.dirty h.window.le (h.room hM hawake)
    h.window.slot_free.2 hlinear

theorem SessionAt.startXmit (hM : 2 ≤ maxSkbFrags) (h : SessionAt maxSkbFrags b s q D C A S X)
    (hawake : s.tx.queueStopped = false) {skb : SkBuff} (hlinear : skb.nrFrags = 0#8)
    (hlen : skb.len ≠ 0#32) :
    SessionAt maxSkbFrags b (s.startXmit maxSkbFrags skb).1 (Function.update q C skb) D (C + 1)
      (A ++ [skb]) S X := by
  have hroom := h.room hM hawake
  have hle := h.window.le
  have hflow := h.flow.awake hawake
  have hcount : C + 1 - D = C - D + 1 := by omega
  rw [Device.startXmit, h.startXmit_eq hM hawake hlinear]
  refine ⟨h.running, h.txNull, h.rxNull, h.dirty, rfl, { h.window.queued hroom hlen with }, ?_, ?_⟩
  · rw [hcount]
    exact { h.books.queued skb h.window.slot_free.1 with }
  · rw [hcount]
    refine ⟨by dsimp only; omega, ?_, ?_⟩
    · intro hq
      dsimp only at hq ⊢
      split_ifs at hq with hfew
      omega
    · intro hc _ hq
      dsimp only at hc hq
      rw [hawake] at hq
      split_ifs at hq with hfew
      omega

theorem SessionAt.complete (h : SessionAt maxSkbFrags b s q D C A S X) (i : Fin numTxDesc) :
    SessionAt maxSkbFrags b { s with tx := s.tx.completed i } q D C A S X :=
  { h with window := h.window.completed i, books := { h.books with }, flow := { h.flow with } }

theorem SessionAt.txInterrupt (h : SessionAt maxSkbFrags b s q D C A S X) :
    ∃ D' S', SessionAt maxSkbFrags b (s.txInterrupt maxSkbFrags) q D' C A S' X ∧
      (D' < C → ((s.tx.txInterrupt maxSkbFrags).txDescArray (pos numTxDesc D')).own = true) := by
  have hw := h.window
  obtain ⟨r₁, D', hpass, hDD', hD'C, hown, he⟩ :=
    txInterrupt_spec maxSkbFrags h.cur h.dirty hw.le hw.lt
  have hframe := hpass.sameFrame
  have hlt := hw.lt
  have hflow := h.flow
  refine ⟨D', S ++ (List.range' D (D' - D)).map q, ?_, by rw [he]; exact hown⟩
  rw [Device.txInterrupt, he]
  refine ⟨h.running, hframe.txDescNull.trans h.txNull, h.rxNull, rfl, hframe.curTx.trans h.cur,
    { hpass.window hw hD'C with }, { hpass.books hw h.books hD'C with }, ?_, ?_, ?_⟩
  · have := hflow.full
    dsimp only
    omega
  · intro hq
    dsimp only at hq ⊢
    split_ifs at hq with hwake
    · omega
    · have := hflow.awake hq
      omega
  · intro hc hp hq
    dsimp only at hc hp hq
    split_ifs at hq with hwake
    have := hflow.stopped hc hp hq
    by_cases hmove : D < D'
    · have hfew := fun hm => hwake ⟨hmove, hm⟩
      omega
    · omega

theorem SessionAt.txTimeout (h : SessionAt maxSkbFrags b s q D C A S X) :
    SessionAt maxSkbFrags b s.txTimeout q D C A S X :=
  { h with
    flow := { h.flow with stopped := fun _ hp => by cases hp } }

/-- The Tx ring after `rtl8101_tx_clear`, entered with the queue `stopped` or not. -/
theorem SessionAt.txClear (h : SessionAt maxSkbFrags b s q D C A S X) (hrange : ClearsInRange s)
    (stopped : Bool) :
    ∃ r, TxRing.txClear { s.tx with queueStopped := stopped } = r ∧ Window q r 0 0 ∧
      Books b r (0 - 0) A S (X ++ (List.range' D (C - D)).map q) ∧ r.curTx = BitVec.ofNat 32 0 ∧
      r.dirtyTx = BitVec.ofNat 32 0 ∧ r.queueStopped = stopped ∧ r.txDescNull = false := by
  have hlt : s.tx.dirtyTx.toNat + numTxDesc < 2 ^ 32 := by
    have := numTxDesc_eq
    unfold ClearsInRange at hrange
    omega
  obtain ⟨hw, hb, hc, hd, hq, hnull⟩ :=
    txClear_spec (r := { s.tx with queueStopped := stopped }) h.dirty hlt { h.window with }
      { h.books with }
  exact ⟨_, rfl, hw, hb, hc, hd, hq, hnull.trans h.txNull⟩

/-- A cleared ring leaves all the room there is. -/
theorem Flow.of_cleared (hM : maxSkbFrags < numTxDesc)
    (h : s.tx.queueStopped = true → s.carrierOk = true → s.taskPending = true) :
    Flow maxSkbFrags s (0 - 0) := by
  refine ⟨by omega, fun _ => by omega, ?_⟩
  intro hc hp hq
  rw [h hq hc] at hp
  cases hp

theorem SessionAt.resetTaskTx (hM : maxSkbFrags < numTxDesc)
    (h : SessionAt maxSkbFrags b s q D C A S X) (hrange : ClearsInRange s) (rxOk : Bool) :
    SessionAt maxSkbFrags b (({ s with taskPending := false } : Device).resetTaskTx rxOk) q 0 0
      A S (X ++ (List.range' D (C - D)).map q) := by
  obtain ⟨r, hr, hw, hb, hc, hd, hq, hnull⟩ := h.txClear hrange s.tx.queueStopped
  have hr' : s.tx.txClear = r := hr
  unfold Device.resetTaskTx Device.resetTail Device.txClear
  rw [if_neg (by simp [h.running])]
  dsimp only
  rw [hr']
  -- with an Rx shortage the task re-arms itself, and the chip stays as it is
  cases rxOk with
  | true => exact ⟨h.running, hnull, h.rxNull, rfl, rfl, { hw with }, { hb with },
      .of_cleared hM fun hq => by cases hq⟩
  | false => exact ⟨h.running, hnull, h.rxNull, hd, hc, hw, hb, .of_cleared hM fun _ _ => rfl⟩

/-- The link-up starts the queue without looking at the ring. -/
theorem SessionAt.linkUp (h : SessionAt maxSkbFrags b s q D C A S X) (hoff : s.carrierOk = false) :
    SessionAt maxSkbFrags b (s.checkLinkStatus true) q D C A S X := by
  have hfull := h.flow.full
  rw [hoff, Bool.toNat_false] at hfull
  rw [Device.checkLinkStatus_up hoff]
  -- `netif_start_queue` costs the one descriptor that `Flow` allows a live carrier
  refine { h with window := { h.window with }, books := { h.books with }, flow := ⟨?_, ?_, ?_⟩ }
  · show C - D + maxSkbFrags ≤ numTxDesc + 1
    omega
  · intro _
    show C - D + maxSkbFrags + 1 ≤ numTxDesc + 1
    omega
  · intro _ _ hstop
    cases hstop

/-- The link-down drops what is queued. -/
theorem SessionAt.linkDown (hM : maxSkbFrags < numTxDesc)
    (h : SessionAt maxSkbFrags b s q D C A S X) (hcarrier : s.carrierOk = true)
    (hrange : ClearsInRange s) :
    SessionAt maxSkbFrags b (s.checkLinkStatus false) q 0 0 A S
      (X ++ (List.range' D (C - D)).map q) := by
  obtain ⟨r, hr, hw, hb, -, -, -, hnull⟩ := h.txClear hrange true
  rw [Device.checkLinkStatus_down hcarrier]
  unfold Device.hwReset Device.txClear
  dsimp only
  rw [hr]
  exact ⟨h.running, hnull, h.rxNull, rfl, rfl, { hw with }, { hb with },
    .of_cleared hM fun _ hc => by cases hc⟩

theorem SessionAt.checkLinkStatus (hM : maxSkbFrags < numTxDesc)
    (h : SessionAt maxSkbFrags b s q D C A S X) (on : Bool)
    (hrange : on = false → s.carrierOk = true → ClearsInRange s) :
    Session maxSkbFrags b (s.checkLinkStatus on) := by
  by_cases heq : s.carrierOk = on
  · subst heq
    rw [Device.checkLinkStatus_same]
    exact ⟨q, D, C, A, S, X, h⟩
  · cases on with
    | true => exact ⟨_, _, _, _, _, _, h.linkUp (by simpa using heq)⟩
    | false =>
      have hcarrier : s.carrierOk = true := by simpa using heq
      exact ⟨_, _, _, _, _, _, h.linkDown hM hcarrier (hrange rfl hcarrier)⟩

/-- **Every event of a session keeps the invariant.** -/
theorem Session.step (hM : 2 ≤ maxSkbFrags) (hM' : maxSkbFrags < numTxDesc)
    (h : Session maxSkbFrags b s) {e : SessionEvent} (hok : SessionOk s e) {t : Device}
    (hstep : sessionStep maxSkbFrags s e = some t) : Session maxSkbFrags b t := by
  obtain ⟨q, D, C, A, S, X, h⟩ := h
  cases e with
  | startXmit skb =>
    simp only [sessionStep] at hstep
    split_ifs at hstep with hawake
    cases hstep
    exact ⟨_, _, _, _, _, _, h.startXmit hM hawake hok.1 hok.2⟩
  | complete i =>
    cases hstep
    exact ⟨_, _, _, _, _, _, h.complete i⟩
  | txInterrupt =>
    cases hstep
    obtain ⟨D', S', h', -⟩ := h.txInterrupt
    exact ⟨_, _, _, _, _, _, h'⟩
  | txTimeout =>
    cases hstep
    exact ⟨_, _, _, _, _, _, h.txTimeout⟩
  | resetTask rxOk =>
    cases hstep
    exact ⟨_, _, _, _, _, _, h.resetTaskTx hM' hok rxOk⟩
  | link on =>
    cases hstep
    exact h.checkLinkStatus hM' on hok

/-- **Open starts a session.** -/
theorem SessionAt.of_open (hM : maxSkbFrags < numTxDesc) {o : OpenOutcome}
    (h : (s.ndoOpen o).running = true) :
    SessionAt maxSkbFrags s.tx (s.ndoOpen o) (fun _ => default) 0 0 [] [] [] := by
  have hrx := (Device.ndoOpen_opened h).repr.null
  have htx := Device.ndoOpen_tx h
  have hbuffers : s.prepared.tx.buffers = 0 := occupied_eq_zero fun i => rfl
  refine ⟨h, by rw [htx]; rfl, hrx, by rw [htx]; rfl, by rw [htx]; rfl, ?_, ?_,
    .of_cleared hM fun hq => by rw [htx] at hq; cases hq⟩
  · rw [htx]
    exact ⟨le_rfl, by decide, fun p hp hp' => by omega, fun i _ => ⟨rfl, freshRing_own i⟩⟩
  · rw [htx]
    have hskbs := Ledger.holds_self s.tx.skbs
    have hdma := Ledger.holds_self s.tx.dma
    rw [← hbuffers] at hskbs
    rw [← Multiset.map_zero txMapping, ← hbuffers] at hdma
    refine ⟨?_, ?_, ?_, ?_, ?_, rfl, ?_, ?_, ?_, hskbs, hdma⟩ <;>
      simp [Device.prepared, Device.clearedRings, Device.initRingIndexes]

theorem Session.of_open (hM : maxSkbFrags < numTxDesc) {o : OpenOutcome}
    (h : (s.ndoOpen o).running = true) : Session maxSkbFrags s.tx (s.ndoOpen o) :=
  ⟨_, _, _, _, _, _, .of_open hM h⟩

/-! ## Ownership and accounting -/

/-- The accounts since the Tx ring was `b`: every accepted buffer was sent, was dropped or is in
the ring; `tx_bytes` is the length of what was sent; and the buffers in the ring are those between
the two indexes. -/
structure Accounts (b : TxRing) (s : Device) : Prop where
  packets : ∃ A, s.tx.accepted = b.accepted ++ A ∧
    BitVec.ofNat 64 A.length = s.tx.stats.txPackets - b.stats.txPackets +
      (s.tx.stats.txDropped - b.stats.txDropped) +
      BitVec.ofNat 64 (s.tx.curTx - s.tx.dirtyTx).toNat
  bytes : ∃ S, s.tx.sent = b.sent ++ S ∧
    BitVec.ofNat 64 S.length = s.tx.stats.txPackets - b.stats.txPackets ∧
    (S.map fun skb => skb.len.setWidth 64).sum = s.tx.stats.txBytes - b.stats.txBytes
  slots : ∀ i, ((s.tx.txSkb i).skb ≠ none ↔ InWindow numTxDesc s.tx.dirtyTx s.tx.curTx i) ∧
    ((s.tx.txSkb i).len ≠ 0#32 ↔ InWindow numTxDesc s.tx.dirtyTx s.tx.curTx i)

/-- What is left of a session when it is over: every accepted buffer was unmapped once, with the
address and length it was mapped with, and freed once. -/
structure Settled (b r : TxRing) : Prop where
  unmapped : ∃ A, r.accepted = b.accepted ++ A ∧
    r.dma.acquired = b.dma.acquired + (A : Multiset SkBuff).map txMapping ∧
    r.dma.released = b.dma.released + (A : Multiset SkBuff).map txMapping ∧
    r.skbs.released = b.skbs.released + A
  live : r.dma.live = b.dma.live ∧ r.skbs.live = b.skbs.live

theorem SessionAt.inWindow_iff (h : SessionAt maxSkbFrags b s q D C A S X) (i : Fin numTxDesc) :
    InWindow numTxDesc s.tx.dirtyTx s.tx.curTx i ↔
      ∃ p, D ≤ p ∧ p < C ∧ pos numTxDesc p = i := by
  rw [h.dirty, h.cur]
  have hlt := h.window.lt
  exact Counter.inWindow_iff numTxDesc_dvd h.window.le (by have := numTxDesc_eq; omega) i

theorem SessionAt.toNat_sub (h : SessionAt maxSkbFrags b s q D C A S X) :
    (s.tx.curTx - s.tx.dirtyTx).toNat = C - D := by
  rw [h.dirty, h.cur]
  have hlt := h.window.lt
  exact toNat_ofNat_sub h.window.le (by have := numTxDesc_eq; omega)

theorem SessionAt.accounts (h : SessionAt maxSkbFrags b s q D C A S X) : Accounts b s := by
  have hb := h.books
  refine ⟨⟨A, hb.accepted, ?_⟩, ⟨S, hb.sent, ?_, ?_⟩, ?_⟩
  · rw [h.toNat_sub, hb.count, hb.packets, hb.dropped, BitVec.ofNat_add, BitVec.ofNat_add,
      add_sub_cancel_left, add_sub_cancel_left]
  · rw [hb.packets, add_sub_cancel_left]
  · rw [hb.bytes, add_sub_cancel_left]
  · intro i
    rw [h.inWindow_iff]
    by_cases hi : ∃ p, D ≤ p ∧ p < C ∧ pos numTxDesc p = i
    · obtain ⟨p, hp, hpC, rfl⟩ := hi
      have hs := h.window.full p hp hpC
      have hin : ∃ p', D ≤ p' ∧ p' < C ∧ pos numTxDesc p' = pos numTxDesc p := ⟨p, hp, hpC, rfl⟩
      simp only [hs.info, hin, iff_true]
      exact ⟨by simp, hs.len⟩
    · obtain ⟨hempty, -⟩ := h.window.free i fun p hp hpC he => hi ⟨p, hp, hpC, he⟩
      simp [hempty, hi, RingInfo.empty]

/-- **Close settles the session.** -/
theorem SessionAt.ndoStop (h : SessionAt maxSkbFrags b s q D C A S X) (hrange : ClearsInRange s) :
    s.ndoStop.running = false ∧ s.ndoStop.tx.curTx = 0#32 ∧ s.ndoStop.tx.dirtyTx = 0#32 ∧
      Settled b s.ndoStop.tx := by
  obtain ⟨r, hr, hw, hb, hc, hd, -, -⟩ := h.txClear hrange true
  have htx : s.ndoStop.tx = { r with txDescNull := true } := by
    rw [← hr]
    unfold Device.ndoStop Device.closeDev
    rw [if_pos ⟨h.txNull, h.rxNull⟩]
    rfl
  have hrun : s.ndoStop.running = false := by
    unfold Device.ndoStop Device.closeDev
    split_ifs <;> rfl
  have hbuffers := hw.buffers_eq_zero
  obtain ⟨hskbs, hdma⟩ := And.intro hb.skbs hb.dma
  rw [hbuffers] at hskbs hdma
  obtain ⟨freed, hfreed, htaken, hlive⟩ := hskbs.balanced
  obtain ⟨unmapped, hunmapped, hmapped, hlive'⟩ := Ledger.Holds.balanced (by simpa using hdma)
  rw [htx]
  refine ⟨hrun, hc, hd, ⟨⟨A, hb.accepted, hb.mapped, ?_, ?_⟩, hlive', hlive⟩⟩
  · rw [hunmapped, add_left_cancel (hmapped.symm.trans hb.mapped)]
  · rw [hfreed, add_left_cancel (htaken.symm.trans hb.taken)]

/-- **Ownership and accounting over a whole session**: in every state between a successful open
and the close, the accounts balance, and a close settles them. -/
theorem session_accounts (hM : 2 ≤ maxSkbFrags) (hM' : maxSkbFrags < numTxDesc) {o : OpenOutcome}
    (h : (s.ndoOpen o).running = true) {es : List SessionEvent}
    (hok : Along (sessionStep maxSkbFrags) SessionOk (s.ndoOpen o) es) :
    Always (sessionStep maxSkbFrags)
      (fun t => Accounts s.tx t ∧ (ClearsInRange t → Settled s.tx t.ndoStop.tx))
      (s.ndoOpen o) es := by
  have hinv := hok.always (I := Session maxSkbFrags s.tx)
    (fun _ _ _ ht hok hstep => ht.step hM hM' hok hstep) (Session.of_open hM' h)
  apply hinv.mono
  intro t ht
  obtain ⟨q, D, C, A, S, X, ht⟩ := ht
  exact ⟨ht.accounts, fun hrange => (ht.ndoStop hrange).2.2.2⟩

/-- A session that is reset once and then sends one buffer. -/
theorem session_accounts_reset :
    (Device.registered.ndoOpen .plenty).running = true ∧
      Always (sessionStep 17)
        (fun t => Accounts Device.registered.tx t ∧
          (ClearsInRange t → Settled Device.registered.tx t.ndoStop.tx))
        (Device.registered.ndoOpen .plenty)
        [.resetTask true, .startXmit ⟨0x1000#64, 60#32, 0#32, 0#8⟩, .complete 0, .txInterrupt] := by
  have hopen := Device.ndoOpen_plenty (s := Device.registered) rfl
  have hrange : ClearsInRange (Device.registered.ndoOpen .plenty) := by
    rw [ClearsInRange, (Device.ndoOpen_started hopen).dirtyTx]
    decide
  refine ⟨hopen, session_accounts (by decide) (by decide) hopen fun _ _ => ⟨hrange, ?_⟩⟩
  intro _ _
  exact ⟨⟨rfl, by decide⟩, fun _ _ => ⟨trivial, fun _ _ => ⟨trivial, trivial⟩⟩⟩

/-! ## Flow control -/

/-- The events of the transmit path, with the sessions opened and closed. -/
inductive TxEvent where
  | openDev (o : OpenOutcome)
  | closeDev
  | session (e : SessionEvent)

/-- The reset task may run while the device is closed. -/
def SessionEvent.anytime : SessionEvent → Bool
  | .resetTask _ => true
  | _ => false

/-- One event of the transmit path. -/
def txStep (maxSkbFrags : ℕ) (s : Device) : TxEvent → Option Device
  | .openDev o => if s.running then none else some (s.ndoOpen o)
  | .closeDev => if s.running then some s.ndoStop else none
  | .session e => if s.running || e.anytime then sessionStep maxSkbFrags s e else none

/-- `SessionOk`, for an open device and for its close. -/
def TxOk (s : Device) : TxEvent → Prop
  | .openDev _ => True
  | .closeDev => ClearsInRange s
  | .session e => s.running = true → SessionOk s e

/-- The invariant of the transmit path: a session, or an empty ring. -/
def TxInv (maxSkbFrags : ℕ) (s : Device) : Prop :=
  (∃ b, Session maxSkbFrags b s) ∨ s.running = false ∧ s.tx.curTx = s.tx.dirtyTx

/-- What the flow control guarantees. The ring is never full, so that `TX_BUFFS_AVAIL` does not
wrap; while the queue is awake a linear buffer is accepted; and while the queue of a live device
is stopped, descriptors are outstanding whose completion will wake it. -/
structure FlowControl (maxSkbFrags : ℕ) (s : Device) : Prop where
  room : (s.tx.curTx - s.tx.dirtyTx).toNat ≤ numTxDesc - 1
  avail : s.tx.txBuffsAvail.toNat = numTxDesc - 1 - (s.tx.curTx - s.tx.dirtyTx).toNat
  accepts : s.running = true → s.tx.queueStopped = false → ∀ skb, skb.nrFrags = 0#8 →
    (s.startXmit maxSkbFrags skb).2 = .ok
  wakes : s.running = true → s.carrierOk = true → s.taskPending = false →
    s.tx.queueStopped = true → s.tx.txBuffsAvail.toNat < maxSkbFrags ∧
      s.tx.curTx ≠ s.tx.dirtyTx ∧
      ((∀ i, InWindow numTxDesc s.tx.dirtyTx s.tx.curTx i → (s.tx.txDescArray i).own = false) →
        (s.txInterrupt maxSkbFrags).tx.queueStopped = false)

/-- Once every outstanding descriptor is completed, `rtl8101_tx_interrupt` wakes the queue. -/
theorem SessionAt.wakes (hM' : maxSkbFrags < numTxDesc) (h : SessionAt maxSkbFrags b s q D C A S X)
    (hlt : D < C) (hdone : ∀ i, InWindow numTxDesc s.tx.dirtyTx s.tx.curTx i →
      (s.tx.txDescArray i).own = false) :
    (s.txInterrupt maxSkbFrags).tx.queueStopped = false := by
  have hown : ∀ i, (s.tx.txDescArray i).own = false := by
    intro i
    by_cases hi : InWindow numTxDesc s.tx.dirtyTx s.tx.curTx i
    · exact hdone i hi
    · refine (h.window.free i fun p hp hpC he => hi ?_).2
      exact (h.inWindow_iff i).mpr ⟨p, hp, hpC, he⟩
  obtain ⟨r₁, D', hpass, hDD', hD'C, hstop, he⟩ :=
    txInterrupt_spec maxSkbFrags h.cur h.dirty h.window.le h.window.lt
  obtain rfl : D' = C := by
    by_contra hne
    have := hstop (by omega)
    rw [hpass.own (hown _)] at this
    cases this
  rw [Device.txInterrupt, he]
  simp only
  rw [if_pos ⟨hlt, by omega⟩]

theorem SessionAt.flowControl (hM : 2 ≤ maxSkbFrags) (hM' : maxSkbFrags < numTxDesc)
    (h : SessionAt maxSkbFrags b s q D C A S X) : FlowControl maxSkbFrags s := by
  have hlt := h.window.lt
  have hle := h.window.le
  have havail := txBuffsAvail_ofNat h.cur h.dirty hle hlt
  refine ⟨?_, ?_, ?_, fun _ hc hp hq => ⟨?_, ?_, ?_⟩⟩
  · rw [h.toNat_sub]; omega
  · rw [havail, h.toNat_sub]; omega
  · intro _ hawake skb hlinear
    rw [Device.startXmit, h.startXmit_eq hM hawake hlinear]
  · have := h.flow.stopped hc hp hq
    rw [havail]; omega
  · have hK := h.flow.stopped hc hp hq
    intro he
    have := h.toNat_sub
    rw [he, BitVec.sub_self, BitVec.toNat_zero] at this
    omega
  · have hK := h.flow.stopped hc hp hq
    exact h.wakes hM' (by omega)

/-- A closed device has an empty ring. -/
theorem flowControl_of_closed (hrun : s.running = false) (heq : s.tx.curTx = s.tx.dirtyTx) :
    FlowControl maxSkbFrags s := by
  have havail : s.tx.txBuffsAvail = BitVec.ofNat 32 (numTxDesc - 1) := by
    rw [TxRing.txBuffsAvail, heq, add_sub_cancel_left]
    decide
  have hopen : ¬ s.running = true := by simp [hrun]
  refine ⟨?_, ?_, fun h => absurd h hopen, fun h => absurd h hopen⟩
  · rw [heq, BitVec.sub_self]
    exact Nat.zero_le _
  · rw [havail, heq, BitVec.sub_self]
    decide

theorem TxInv.flowControl (hM : 2 ≤ maxSkbFrags) (hM' : maxSkbFrags < numTxDesc)
    (h : TxInv maxSkbFrags s) : FlowControl maxSkbFrags s := by
  rcases h with ⟨b, q, D, C, A, S, X, h⟩ | ⟨hrun, heq⟩
  · exact h.flowControl hM hM'
  · exact flowControl_of_closed hrun heq

/-- Whether an open succeeds or fails, the Tx ring it leaves is empty. -/
theorem ndoOpen_indexes (o : OpenOutcome) (h : s.tx.curTx = s.tx.dirtyTx) :
    (s.ndoOpen o).tx.curTx = (s.ndoOpen o).tx.dirtyTx := by
  rcases Device.ndoOpen_cases s o with ⟨tx, rx, c, he, hidx⟩ | ⟨-, he⟩ | ⟨-, he⟩
  · rw [he]; exact hidx h
  · rw [he]; rfl
  · rw [he]; rfl

/-- **Every event keeps the invariant of the transmit path.** -/
theorem TxInv.step (hM : 2 ≤ maxSkbFrags) (hM' : maxSkbFrags < numTxDesc)
    (h : TxInv maxSkbFrags s) {e : TxEvent} (hok : TxOk s e) {t : Device}
    (hstep : txStep maxSkbFrags s e = some t) : TxInv maxSkbFrags t := by
  cases e with
  | openDev o =>
    simp only [txStep] at hstep
    split_ifs at hstep with hrun
    cases hstep
    rcases h with ⟨b, q, D, C, A, S, X, h⟩ | ⟨-, heq⟩
    · exact absurd h.running hrun
    · cases hopen : (s.ndoOpen o).running with
      | true => exact .inl ⟨s.tx, .of_open hM' hopen⟩
      | false => exact .inr ⟨hopen, ndoOpen_indexes o heq⟩
  | closeDev =>
    simp only [txStep] at hstep
    split_ifs at hstep with hrun
    cases hstep
    rcases h with ⟨b, q, D, C, A, S, X, h⟩ | ⟨hclosed, -⟩
    · obtain ⟨hstop, hc, hd, -⟩ := h.ndoStop hok
      exact .inr ⟨hstop, hc.trans hd.symm⟩
    · rw [hclosed] at hrun; cases hrun
  | session e =>
    simp only [txStep] at hstep
    split_ifs at hstep with hguard
    rcases h with ⟨b, h⟩ | ⟨hrun, heq⟩
    · have hrun : s.running = true := by
        obtain ⟨q, D, C, A, S, X, h⟩ := h
        exact h.running
      exact .inl ⟨b, h.step hM hM' (hok hrun) hstep⟩
    · rw [hrun, Bool.false_or] at hguard
      cases e with
      | resetTask rxOk =>
        cases hstep
        simp only [Device.resetTaskTx, hrun, if_true]
        exact .inr ⟨rfl, heq⟩
      | startXmit | complete | txInterrupt | txTimeout | link => cases hguard

/-- **Flow control**: through sessions of any length, opened and closed any number of times, the
ring does not overrun, an awake queue accepts, and a stopped queue will be woken. -/
theorem flowControl_always (hM : 2 ≤ maxSkbFrags) (hM' : maxSkbFrags < numTxDesc)
    {es : List TxEvent} (hok : Along (txStep maxSkbFrags) TxOk Device.registered es) :
    Always (txStep maxSkbFrags) (FlowControl maxSkbFrags) Device.registered es := by
  have hinv := hok.always (I := TxInv maxSkbFrags)
    (fun _ _ _ ht hok hstep => ht.step hM hM' hok hstep) (.inr ⟨rfl, rfl⟩)
  exact hinv.mono fun t ht => ht.flowControl hM hM'

/-- A device that is opened, gets a link and queues one buffer. -/
theorem flowControl_always_first :
    Always (txStep 17) (FlowControl 17) Device.registered
      [.openDev .plenty, .session (.link true),
        .session (.startXmit ⟨0x1000#64, 60#32, 0#32, 0#8⟩)] := by
  refine flowControl_always (by decide) (by decide) fun _ _ => ⟨trivial, fun _ _ => ⟨?_, ?_⟩⟩
  · exact fun _ h => by cases h
  · exact fun _ _ => ⟨fun _ => ⟨rfl, by decide⟩, trivial⟩

/-! ## Buffers of length zero

`rtl8101_tx_clear` takes a slot with `len == 0` for an empty one. -/

/-- `rtl8101_tx_clear` of a ring without a length does nothing to the slots. -/
theorem TxRing.txClear_of_len_zero {r : TxRing} (h : ∀ i, (r.txSkb i).len = 0#32) :
    r.txClear = { r with curTx := 0#32, dirtyTx := 0#32 } := by
  have hfrom : ∀ stop i, txClearFrom stop r i = r := by
    intro stop i
    fun_induction txClearFrom stop r i with
    | case1 r i hlt ih =>
      have hentry : r.txClearEntry (entry i) = r := by
        unfold txClearEntry
        rw [if_neg (not_not.mpr (h _))]
      rw [hentry] at ih ⊢
      exact ih h
    | case2 r i hlt => rfl
  rw [txClear, hfrom]

/-- An empty buffer. -/
def emptySkb : SkBuff := ⟨0x1000#64, 0#32, 0#32, 0#8⟩

/-- An empty buffer that is queued on an empty ring takes a descriptor, but leaves no length. -/
theorem TxRing.startXmit_emptySkb {r : TxRing} (hw : Window q r 0 0)
    (hcur : r.curTx = BitVec.ofNat 32 0) (hdirty : r.dirtyTx = BitVec.ofNat 32 0) :
    (∀ i, ((r.startXmit 17 emptySkb).1.txSkb i).len = 0#32) ∧
      ((r.startXmit 17 emptySkb).1.txDescArray 0).own = true ∧
      (r.startXmit 17 emptySkb).1.skbs.live = emptySkb ::ₘ r.skbs.live := by
  have he := TxRing.startXmit_eq 17 hcur hdirty le_rfl (by decide) hw.slot_free.2
    (show emptySkb.nrFrags = 0#8 from rfl)
  rw [he]
  refine ⟨?_, xmitWord_own _ _, rfl⟩
  intro i
  by_cases hi : i = pos numTxDesc 0
  · subst hi; simp [queued, emptySkb]
  · simp only [queued, Function.update_of_ne hi]
    exact congrArg RingInfo.len (hw.slot_empty i).1

/-- A buffer of length zero, queued on an empty ring, survives a link flap with its descriptor
owned by the NIC: the next buffer is refused although the queue is awake. -/
theorem emptySkb_flap {b : TxRing} (h : SessionAt 17 b s q 0 0 A S X)
    (hoff : s.carrierOk = false) :
    ∃ t, run (sessionStep 17) s
        [.link true, .startXmit emptySkb, .link false, .link true] = some t ∧
      t.running = true ∧ t.tx.queueStopped = false ∧ (t.startXmit 17 emptySkb).2 = .busy := by
  have hstep₁ : sessionStep 17 s (.link true) = some { s.hwInit with carrierOk := true } :=
    congrArg some (Device.checkLinkStatus_up hoff)
  obtain ⟨s₁, hs₁⟩ : ∃ s₁ : Device, s₁ = { s.hwInit with carrierOk := true } := ⟨_, rfl⟩
  rw [← hs₁] at hstep₁
  obtain ⟨s₂, hstep₂, hcarrier₂, hrun₂, hslots₂, hown₂⟩ : ∃ s₂,
      sessionStep 17 s₁ (.startXmit emptySkb) = some s₂ ∧ s₂.carrierOk = true ∧
      s₂.running = true ∧ (∀ i, (s₂.tx.txSkb i).len = 0#32) ∧ (s₂.tx.txDescArray 0).own = true := by
    have hw : Window q s₁.tx 0 0 := by rw [hs₁]; exact { h.window with }
    have hawake : s₁.tx.queueStopped = false := by rw [hs₁]; rfl
    obtain ⟨hslots, hown, -⟩ := TxRing.startXmit_emptySkb hw
      (by rw [hs₁]; exact h.cur) (by rw [hs₁]; exact h.dirty)
    exact ⟨_, if_pos hawake, by rw [hs₁]; rfl, by rw [hs₁]; exact h.running, hslots, hown⟩
  obtain ⟨s₃, hstep₃, hcarrier₃, hrun₃, hcur₃, hown₃⟩ : ∃ s₃,
      sessionStep 17 s₂ (.link false) = some s₃ ∧ s₃.carrierOk = false ∧ s₃.running = true ∧
      s₃.tx.curTx = 0#32 ∧ (s₃.tx.txDescArray 0).own = true := by
    refine ⟨_, congrArg some (Device.checkLinkStatus_down hcarrier₂), rfl, hrun₂, rfl, ?_⟩
    have hclear := txClear_of_len_zero (r := { s₂.tx with queueStopped := true }) hslots₂
    show ((TxRing.txClear { s₂.tx with queueStopped := true }).txDescArray 0).own = true
    rw [hclear]
    exact hown₂
  have hstep₄ : sessionStep 17 s₃ (.link true) = some { s₃.hwInit with carrierOk := true } :=
    congrArg some (Device.checkLinkStatus_up hcarrier₃)
  refine ⟨{ s₃.hwInit with carrierOk := true }, ?_, hrun₃, rfl, ?_⟩
  · rw [run_cons hstep₁, run_cons hstep₂, run_cons hstep₃, run_cons hstep₄, run_nil]
  · have hentry : entry s₃.tx.curTx = 0 := by rw [hcur₃]; rfl
    simp [Device.startXmit, TxRing.startXmit, Device.hwInit, hentry, hown₃, emptySkb, errStop]

theorem sessionStep_running {e : SessionEvent} {t : Device}
    (h : sessionStep maxSkbFrags s e = some t) : t.running = s.running := by
  cases e with
  | startXmit skb =>
    simp only [sessionStep] at h
    split_ifs at h
    cases h
    rfl
  | complete i => cases h; rfl
  | txInterrupt => cases h; rfl
  | txTimeout => cases h; rfl
  | resetTask rxOk =>
    cases h
    unfold Device.resetTaskTx Device.resetTail
    dsimp only
    split_ifs <;> rfl
  | link on =>
    cases h
    unfold Device.checkLinkStatus
    split_ifs <;> rfl

/-- A run of a session, as a run of the transmit path. -/
theorem run_session {t : Device} {es : List SessionEvent} (hrun : s.running = true)
    (h : run (sessionStep maxSkbFrags) s es = some t) :
    run (txStep maxSkbFrags) s (es.map .session) = some t := by
  induction es generalizing s with
  | nil => exact h
  | cons e es ih =>
    obtain ⟨u, hu, hrest⟩ := Option.bind_eq_some_iff.mp h
    have hstep : txStep maxSkbFrags s (.session e) = some u := by simp [txStep, hrun, hu]
    rw [List.map_cons, run_cons hstep]
    exact ih ((sessionStep_running hu).trans hrun) hrest

/-- An empty buffer, queued on a freshly opened device whose link then flaps. -/
theorem emptySkb_busy :
    ∃ t, run (txStep 17) Device.registered [.openDev .plenty, .session (.link true),
        .session (.startXmit emptySkb), .session (.link false), .session (.link true)] = some t ∧
      t.running = true ∧ t.tx.queueStopped = false ∧ emptySkb.nrFrags = 0#8 ∧
      (t.startXmit 17 emptySkb).2 = .busy := by
  have hopen := Device.ndoOpen_plenty (s := Device.registered) rfl
  have hoff := (Device.ndoOpen_started hopen).carrierOk
  obtain ⟨t, ht, hrun, hawake, hbusy⟩ := emptySkb_flap (.of_open (by decide) hopen) hoff
  have hstep : txStep 17 Device.registered (.openDev .plenty) =
      some (Device.registered.ndoOpen .plenty) := rfl
  exact ⟨t, (run_cons hstep _).trans (run_session hopen ht), hrun, hawake, rfl, hbusy⟩

end Steps

end Rtl8101
