import NanoCell.Lib.BoundedQueue
import NanoCell.Rtl8101.TxQueue

/-!
# The transmit path as a service

Between two restarts of the chip the Tx ring with its driver and the NIC is a bounded queue: the
stack's buffers arrive, the NIC serves them, and the reclaim returns the places of all that were
served. There are `NUM_TX_DESC - MAX_SKB_FRAGS` places, since the queue is stopped exactly when they
are all taken; the other descriptors are never used for linear buffers. The NIC can always go on, so
that nothing stays in the ring and the queue does not stay stopped.

## Main definitions

* `QueueEvent.toQueue`: the stack, the NIC and the reclaim, as arrivals and services
* `Sends`: what the Tx ring shows of the queue
* `drain`, `Drains`: the NIC goes on to the end, and the driver reclaims

## Main results

* `sends_run`: every run of the stack, the NIC and the reclaim is one of the bounded queue
* `drains_always`: from every state the NIC can send what was accepted, and then everything is
  freed and the queue is awake
-/

namespace Rtl8101

open Counter Transition TxRing

/-- The stack's buffers arrive, the NIC serves one when it gives its descriptor back, and the
reclaim returns the places of those served. -/
def QueueEvent.toQueue : QueueEvent → BoundedQueue.Event SkBuff
  | .startXmit skb => .arrive skb
  | .fetch => .serve 0 False
  | .complete => .serve 1 False
  | .txInterrupt => .serve 0 True

/-- What the Tx ring and the NIC show of the bounded queue `q` of the buffers accepted. -/
structure Sends (maxSkbFrags : ℕ) (s : TxRing × TxNic) (q : BoundedQueue SkBuff) : Prop where
  items : q.items = s.1.accepted
  served : q.served = s.2.released
  returned : q.returned + (s.1.curTx - s.1.dirtyTx).toNat = q.items.length
  full : s.1.queueStopped = true ↔ q.items.length = q.returned + (numTxDesc - maxSkbFrags)

/-- The NIC fetches every buffer that waits and gives back every descriptor, and the driver
reclaims. -/
def drain (s : TxRing × TxNic) : List QueueEvent :=
  List.replicate (s.1.accepted.length - s.2.fetched.length) .fetch ++
    (List.replicate (s.1.accepted.length - s.2.released) .complete ++ [.txInterrupt])

/-- The NIC can go on to the end. Then it has sent what was accepted since the ring `b`, every
buffer is freed and every mapping returned, and the queue is awake. -/
def Drains (maxSkbFrags : ℕ) (b : TxRing) (s : TxRing × TxNic) : Prop :=
  ∃ u, run (queueStep maxSkbFrags) s (drain s) = some u ∧ u.1.accepted = s.1.accepted ∧
    (u.2.fetched.map fun f => (f.desc.addr, txLenField f.desc.opts1)) =
      (s.1.accepted.map fun skb => (skb.dma, skb.len)) ∧
    b.skbs.Holds u.1.skbs 0 ∧ b.dma.Holds u.1.dma 0 ∧ u.1.curTx = u.1.dirtyTx ∧
    u.1.queueStopped = false

section Steps

variable {maxSkbFrags : ℕ} {b : TxRing} {s : TxRing × TxNic} {q : ℕ → SkBuff} {D E F C : ℕ}

theorem queueStep_startXmit {r : TxRing} {nic : TxNic} {skb : SkBuff}
    (h : r.queueStopped = false) :
    queueStep maxSkbFrags (r, nic) (.startXmit skb) =
      some ((r.startXmit maxSkbFrags skb).1, nic) := if_pos h

/-- The reclaim gets to the oldest descriptor that the NIC has not given back, and wakes the queue
when enough of them are free. -/
theorem QueueAt.txInterrupt_given (h : QueueAt maxSkbFrags b s q D E F C) :
    QueueAt maxSkbFrags b (s.1.txInterrupt maxSkbFrags, s.2) q E E F C ∧
      ((s.1.txInterrupt maxSkbFrags).queueStopped = true →
        s.1.queueStopped = true ∧ D = E ∨ numTxDesc ≤ C - E + maxSkbFrags) := by
  have hlt := h.window.lt
  have hn := numTxDesc_eq
  obtain ⟨hDE, hEF, hFC⟩ := h.order
  obtain ⟨D', h'⟩ := h.txInterrupt
  obtain ⟨hD'E, -, -⟩ := h'.order
  have hlt' := h'.window.lt
  obtain ⟨r₁, D'', -, hDD'', hD''C, hstop, he⟩ :=
    txInterrupt_spec maxSkbFrags h.cur h.dirty h.window.le hlt
  have hindex : BitVec.ofNat 32 D' = BitVec.ofNat 32 D'' := by
    rw [← h'.dirty, he]
  obtain rfl : D' = D'' := by
    rcases Nat.le_total D' D'' with hle | hle
    · exact ofNat_inj hle (by omega) hindex
    · exact (ofNat_inj hle (by omega) hindex.symm).symm
  -- what was given back does not stop it
  obtain rfl : D' = E := by
    by_contra hne
    have hgiven := h'.given D' le_rfl (by omega)
    dsimp only at hgiven
    rw [he] at hgiven
    rw [hstop (by omega)] at hgiven
    cases hgiven
  refine ⟨h', ?_⟩
  rw [he]
  dsimp only
  intro hstopped
  split_ifs at hstopped with hwake
  by_cases hmove : D < D'
  · right
    omega
  · left
    exact ⟨hstopped, by omega⟩

/-- The NIC can fetch a buffer that waits. -/
theorem QueueAt.exists_fetch (h : QueueAt maxSkbFrags b s q D E F C) (hlt : F < C) :
    ∃ nic, s.2.fetch s.1 = some nic ∧ QueueAt maxSkbFrags b (s.1, nic) q D E (F + 1) C := by
  have hpos : s.2.fetchPos < numTxDesc := by
    rw [h.fetchPos]
    exact Nat.mod_lt _ (by decide)
  have hown : (s.1.txDescArray ⟨s.2.fetchPos, hpos⟩).own = true := by
    rw [show (⟨s.2.fetchPos, hpos⟩ : Fin numTxDesc) = pos numTxDesc F from Fin.ext h.fetchPos,
      h.queued F h.order.2.1 hlt]
    exact txDesc_own q F
  have hf : ∃ nic, s.2.fetch s.1 = some nic := by
    simp only [TxNic.fetch, dif_pos hpos, if_pos hown]
    exact ⟨_, rfl⟩
  obtain ⟨nic, hf⟩ := hf
  exact ⟨nic, hf, h.fetch hf⟩

/-- The NIC can give back a descriptor that it has fetched. -/
theorem QueueAt.exists_complete (h : QueueAt maxSkbFrags b s q D E F C) (hlt : E < F) :
    ∃ t, nicComplete s.1 s.2 = some t ∧ QueueAt maxSkbFrags b t q D (E + 1) F C ∧
      t.1.queueStopped = s.1.queueStopped := by
  have hpos : s.2.donePos < numTxDesc := by
    rw [h.donePos]
    exact Nat.mod_lt _ (by decide)
  have hflight : s.2.inFlight ≠ 0 := by
    rw [h.inFlight]
    omega
  have hc : ∃ t, nicComplete s.1 s.2 = some t := by
    simp only [nicComplete, dif_pos hpos, if_neg hflight]
    exact ⟨_, rfl⟩
  obtain ⟨⟨r', nic'⟩, hc⟩ := hc
  obtain ⟨i, -, -, rfl, -⟩ := nicComplete_eq_some hc
  exact ⟨_, hc, h.complete hc, rfl⟩

theorem QueueAt.run_fetches (n : ℕ) (h : QueueAt maxSkbFrags b s q D E F C) (hn : F + n ≤ C) :
    ∃ nic, run (queueStep maxSkbFrags) s (List.replicate n .fetch) = some (s.1, nic) ∧
      QueueAt maxSkbFrags b (s.1, nic) q D E (F + n) C := by
  induction n generalizing s F with
  | zero => exact ⟨s.2, rfl, h⟩
  | succ n ih =>
    obtain ⟨nic, hf, h'⟩ := h.exists_fetch (by omega)
    obtain ⟨nic', hrun, h''⟩ := ih h' (by omega)
    have hstep : queueStep maxSkbFrags s .fetch = some (s.1, nic) :=
      Option.map_eq_some_iff.mpr ⟨nic, hf, rfl⟩
    refine ⟨nic', ?_, ?_⟩
    · rw [List.replicate_succ, run_cons hstep, hrun]
    · rwa [show F + (n + 1) = F + 1 + n by omega]

theorem QueueAt.run_completes (n : ℕ) (h : QueueAt maxSkbFrags b s q D E F C) (hn : E + n ≤ F) :
    ∃ t, run (queueStep maxSkbFrags) s (List.replicate n .complete) = some t ∧
      QueueAt maxSkbFrags b t q D (E + n) F C ∧ t.1.queueStopped = s.1.queueStopped := by
  induction n generalizing s E with
  | zero => exact ⟨s, rfl, h, rfl⟩
  | succ n ih =>
    obtain ⟨t, hc, h', hstopped⟩ := h.exists_complete (by omega)
    obtain ⟨u, hrun, h'', hstopped'⟩ := ih h' (by omega)
    have hstep : queueStep maxSkbFrags s .complete = some t := hc
    refine ⟨u, ?_, ?_, hstopped'.trans hstopped⟩
    · rw [List.replicate_succ, run_cons hstep, hrun]
    · rwa [show E + (n + 1) = E + 1 + n by omega]

end Steps

/-! ## The bounded queue -/

/-- Driver and NIC stand for the bounded queue `q`: the queue is stopped only when its places are
taken. -/
structure TxServiceAt (maxSkbFrags : ℕ) (b : TxRing) (s : TxRing × TxNic)
    (q : BoundedQueue SkBuff) : Prop where
  ring : ∃ bufs F, QueueAt maxSkbFrags b s bufs q.returned q.served F q.items.length
  items : q.items = s.1.accepted
  stopped : s.1.queueStopped = true → numTxDesc ≤ q.items.length - q.returned + maxSkbFrags

section Service

variable {maxSkbFrags : ℕ} {b : TxRing} {s t : TxRing × TxNic} {q : BoundedQueue SkBuff}

/-- **A step of the transmit path** is one of the bounded queue. -/
theorem TxServiceAt.step (hM : 1 ≤ maxSkbFrags) (h : TxServiceAt maxSkbFrags b s q)
    {e : QueueEvent} (hok : QueueOk s e) (hstep : queueStep maxSkbFrags s e = some t) :
    ∃ q', BoundedQueue.Step (numTxDesc - maxSkbFrags) q e.toQueue q' ∧
      TxServiceAt maxSkbFrags b t q' := by
  obtain ⟨bufs, F, hring⟩ := h.ring
  obtain ⟨hDE, hEF, hFC⟩ := hring.order
  have hreach : q.reach 0 = q.served := by
    rw [BoundedQueue.reach]
    omega
  cases e with
  | startXmit skb =>
    simp only [queueStep] at hstep
    split_ifs at hstep with hawake
    cases hstep
    obtain ⟨hlinear, hlen, hlen'⟩ := hok
    have hflow := hring.awake hawake
    have he := TxRing.startXmit_eq maxSkbFrags hring.cur hring.dirty hring.window.le (by omega)
      hring.window.slot_free.2 hlinear
    refine ⟨_, .arrive skb (by omega), ⟨Function.update bufs q.items.length skb, F, ?_⟩, ?_, ?_⟩
    · rw [List.length_append, List.length_singleton]
      exact hring.startXmit hM hawake hlinear hlen hlen'
    · rw [he, h.items]
      rfl
    · rw [he]
      dsimp only
      intro hstopped
      rw [List.length_append, List.length_singleton]
      split_ifs at hstopped with hfew
      · omega
      · rw [hawake] at hstopped
        cases hstopped
  | fetch =>
    obtain ⟨nic, hf, rfl⟩ := Option.map_eq_some_iff.mp hstep
    refine ⟨_, .serve 0 False q.returned le_rfl (by omega) False.elim, ⟨bufs, F + 1, ?_⟩, h.items,
      h.stopped⟩
    dsimp only
    rw [hreach]
    exact hring.fetch hf
  | complete =>
    have hring' := hring.complete hstep
    obtain ⟨-, hEF', -⟩ := hring'.order
    have hreach' : q.reach 1 = q.served + 1 := by
      rw [BoundedQueue.reach]
      omega
    obtain ⟨r', nic'⟩ := t
    obtain ⟨i, -, -, rfl, -⟩ := nicComplete_eq_some hstep
    refine ⟨_, .serve 1 False q.returned le_rfl (by omega) False.elim, ⟨bufs, F, ?_⟩, h.items,
      h.stopped⟩
    dsimp only
    rw [hreach']
    exact hring'
  | txInterrupt =>
    cases hstep
    obtain ⟨hring', hstopped⟩ := hring.txInterrupt_given
    have haccepted := hring'.books.accepted.trans hring.books.accepted.symm
    refine ⟨_, .serve 0 True q.served hDE (by omega) (fun _ => hreach.symm), ⟨bufs, F, ?_⟩,
      h.items.trans haccepted.symm, ?_⟩
    · dsimp only
      rw [hreach]
      exact hring'
    · intro hq
      rcases hstopped hq with ⟨hold, hD⟩ | hfull
      · have := h.stopped hold
        dsimp only
        omega
      · exact hfull

theorem TxServiceAt.of_idle (hM : maxSkbFrags < numTxDesc) {r : TxRing} (h : r.Idle)
    (hawake : r.queueStopped = false) : TxServiceAt maxSkbFrags r (r, .start) .empty := by
  refine ⟨⟨_, _, .of_idle hM h⟩, h.accepted.symm, ?_⟩
  intro hstopped
  rw [hawake] at hstopped
  cases hstopped

theorem TxServiceAt.sends (h : TxServiceAt maxSkbFrags b s q)
    (hcounters : q.Ok (numTxDesc - maxSkbFrags)) : Sends maxSkbFrags s q := by
  have hroom := hcounters.room
  obtain ⟨bufs, F, hring⟩ := h.ring
  obtain ⟨hDE, hEF, hFC⟩ := hring.order
  have hlt := hring.window.lt
  have hn := numTxDesc_eq
  refine ⟨h.items, hring.released.symm, ?_, ?_⟩
  · rw [hring.cur, hring.dirty, toNat_ofNat_sub hring.window.le (by omega)]
    omega
  · constructor
    · intro hstopped
      have := h.stopped hstopped
      omega
    · intro hfull
      by_contra hno
      have := hring.awake (Bool.eq_false_iff.mpr hno)
      omega

theorem TxServiceAt.drains (hM : maxSkbFrags < numTxDesc) (hb : b.accepted = [])
    (h : TxServiceAt maxSkbFrags b s q) : Drains maxSkbFrags b s := by
  obtain ⟨bufs, F, hring⟩ := h.ring
  obtain ⟨-, hEF, hFC⟩ := hring.order
  have hfetches : s.1.accepted.length - s.2.fetched.length = q.items.length - F := by
    rw [← h.items, hring.fetched, List.length_map, List.length_range]
  have hcompletes : s.1.accepted.length - s.2.released = q.items.length - q.served := by
    rw [← h.items, hring.released]
  obtain ⟨nic, hrun, hfetched⟩ := hring.run_fetches (q.items.length - F) (by omega)
  rw [Nat.add_sub_cancel' hFC] at hfetched
  obtain ⟨t, hrun', hdone, hstopped⟩ :=
    hfetched.run_completes (q.items.length - q.served) (by omega)
  rw [Nat.add_sub_cancel' (hEF.trans hFC)] at hdone
  obtain ⟨hempty, hwoken⟩ := hdone.txInterrupt_given
  have haccepted : (t.1.txInterrupt maxSkbFrags).accepted = s.1.accepted :=
    hempty.books.accepted.trans hring.books.accepted.symm
  have hbuffers := hempty.window.buffers_eq_zero
  refine ⟨(t.1.txInterrupt maxSkbFrags, t.2), ?_, haccepted, ?_, ?_, ?_, ?_, ?_⟩
  · rw [drain, hfetches, hcompletes, run_append, hrun, Option.bind_some, run_append, hrun']
    rfl
  · have hpre := (hempty.fifo hb).inOrder
    rw [haccepted] at hpre
    refine hpre.eq_of_length ?_
    rw [List.length_map, List.length_map, hempty.fetched, List.length_map, List.length_range,
      h.items]
  · have hskbs := hempty.books.skbs
    rwa [hbuffers] at hskbs
  · have hdma := hempty.books.dma
    rwa [hbuffers, Multiset.map_zero] at hdma
  · exact hempty.cur.trans hempty.dirty.symm
  · rw [Bool.eq_false_iff]
    intro hq
    rcases hwoken hq with ⟨hold, hD⟩ | hfull
    · have := h.stopped (hstopped ▸ hold)
      omega
    · omega

/-- **The transmit path is a bounded queue**: from an empty ring and a NIC at descriptor 0, every
run of the stack, the NIC and the reclaim is a run of the queue over `NUM_TX_DESC - MAX_SKB_FRAGS`
places, which is stopped exactly while they are all taken. -/
theorem sends_run (hM : 1 ≤ maxSkbFrags) (hM' : maxSkbFrags < numTxDesc) {r : TxRing}
    (hidle : r.Idle) (hawake : r.queueStopped = false) {es : List QueueEvent}
    (hok : Along (queueStep maxSkbFrags) QueueOk (r, .start) es)
    (hrun : run (queueStep maxSkbFrags) (r, .start) es = some t) :
    ∃ q, Steps (BoundedQueue.Step (numTxDesc - maxSkbFrags)) .empty
        (es.map QueueEvent.toQueue) q ∧ Sends maxSkbFrags t q := by
  obtain ⟨q, hsteps, hq⟩ := run_simulates (R := TxServiceAt maxSkbFrags r)
    (f := QueueEvent.toQueue) (fun _ _ _ _ hR hok hstep => hR.step hM hok hstep) hok
    (.of_idle hM' hidle hawake) hrun
  exact ⟨q, hsteps, hq.sends (BoundedQueue.steps_ok hsteps BoundedQueue.ok_empty)⟩

/-- Two buffers are queued; the NIC sends both, and the driver reclaims one of them before the other
has been given back. -/
theorem sends_run_two :
    let skb : SkBuff := ⟨0x1000#64, 60#32, 0#32, 0#8⟩
    let skb' : SkBuff := ⟨0x2000#64, 1514#32, 0#32, 0#8⟩
    let es : List QueueEvent :=
      [.startXmit skb, .startXmit skb', .fetch, .fetch, .complete, .txInterrupt, .complete]
    Device.registered.tx.Idle ∧
      Along (queueStep 17) QueueOk (Device.registered.tx, .start) es ∧
      ∃ t, run (queueStep 17) (Device.registered.tx, .start) es = some t ∧
        ∃ q, Steps (BoundedQueue.Step (numTxDesc - 17)) .empty (es.map QueueEvent.toQueue) q ∧
          Sends 17 t q := by
  intro skb skb' es
  have hidle : Device.registered.tx.Idle := ⟨rfl, rfl, fun _ => ⟨rfl, Desc.own_zero⟩, rfl⟩
  have hok : Along (queueStep 17) QueueOk (Device.registered.tx, .start) es :=
    fun _ _ => ⟨⟨rfl, by decide, by decide⟩, fun _ _ => ⟨⟨rfl, by decide, by decide⟩,
      fun _ _ => ⟨trivial, fun _ _ => ⟨trivial, fun _ _ => ⟨trivial, fun _ _ => ⟨trivial,
        fun _ _ => ⟨trivial, trivial⟩⟩⟩⟩⟩⟩⟩
  have hrun : ∃ t, run (queueStep 17) (Device.registered.tx, .start) es = some t := by
    have h₀ : QueueAt 17 Device.registered.tx (Device.registered.tx, .start) _ 0 0 0 0 :=
      .of_idle (by decide) hidle
    have h₁ := h₀.startXmit (by decide) rfl (show skb.nrFrags = 0#8 from rfl) (by decide)
      (by decide)
    have hawake : (Device.registered.tx.startXmit 17 skb).1.queueStopped = false := by decide
    have h₂ := h₁.startXmit (by decide) hawake (show skb'.nrFrags = 0#8 from rfl) (by decide)
      (by decide)
    obtain ⟨nic, hfetches, h₃⟩ := h₂.run_fetches 2 (by decide)
    obtain ⟨t, ht, h₄, -⟩ := h₃.exists_complete (by decide)
    obtain ⟨h₅, -⟩ := h₄.txInterrupt_given
    obtain ⟨u, hu, -⟩ := h₅.exists_complete (by decide)
    have hreclaim : queueStep 17 t .txInterrupt = some (t.1.txInterrupt 17, t.2) := rfl
    have hes : es = [.startXmit skb, .startXmit skb'] ++ (List.replicate 2 .fetch ++
        [.complete, .txInterrupt, .complete]) := rfl
    refine ⟨u, ?_⟩
    rw [hes, run_append, run_cons (queueStep_startXmit rfl), run_cons (queueStep_startXmit hawake),
      run, Option.bind_some, run_append, hfetches, Option.bind_some, run_cons ht,
      run_cons hreclaim, run_cons hu, run]
  obtain ⟨t, ht⟩ := hrun
  exact ⟨hidle, hok, t, ht, sends_run (by decide) (by decide) hidle rfl hok ht⟩

/-- **Nothing stays in the ring**: in every state of every run of the stack, the NIC and the
reclaim, the NIC can send what was accepted and not sent yet, and then one pass of the reclaim
empties the ring. -/
theorem drains_always (hM : 1 ≤ maxSkbFrags) (hM' : maxSkbFrags < numTxDesc) {r : TxRing}
    (hidle : r.Idle) (hawake : r.queueStopped = false) {es : List QueueEvent}
    (hok : Along (queueStep maxSkbFrags) QueueOk (r, .start) es) :
    Always (queueStep maxSkbFrags) (Drains maxSkbFrags r) (r, .start) es := by
  have hinv := hok.always (I := fun s => ∃ q, TxServiceAt maxSkbFrags r s q)
    (fun _ _ _ ⟨_, hs⟩ hok hstep => (hs.step hM hok hstep).imp fun _ h => h.2)
    ⟨_, .of_idle hM' hidle hawake⟩
  exact hinv.mono fun _ ⟨_, hs⟩ => hs.drains hM' hidle.accepted

/-- Two buffers are queued, and the NIC has fetched one of them. -/
theorem drains_always_two :
    Device.registered.tx.Idle ∧
      Always (queueStep 17) (Drains 17 Device.registered.tx) (Device.registered.tx, .start)
        [.startXmit ⟨0x1000#64, 60#32, 0#32, 0#8⟩, .startXmit ⟨0x2000#64, 1514#32, 0#32, 0#8⟩,
          .fetch] := by
  have hidle : Device.registered.tx.Idle := ⟨rfl, rfl, fun _ => ⟨rfl, Desc.own_zero⟩, rfl⟩
  refine ⟨hidle, drains_always (by decide) (by decide) hidle rfl
    fun _ _ => ⟨?_, fun _ _ => ⟨?_, ?_⟩⟩⟩
  · exact ⟨rfl, by decide, by decide⟩
  · exact ⟨rfl, by decide, by decide⟩
  · exact fun _ _ => ⟨trivial, trivial⟩

end Service

end Rtl8101
