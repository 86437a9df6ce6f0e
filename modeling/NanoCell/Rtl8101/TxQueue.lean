import NanoCell.Rtl8101.TxWindow

/-!
# The Tx ring as a queue

Between two restarts of the chip the Tx ring is a first-in first-out queue from the stack to the
NIC. The NIC takes descriptors in ring order while they are its own, and gives them back in the
same order; the driver reclaims only what was given back. Four positions move through the ring:
`dirty_tx`, the oldest descriptor that the NIC has not given back, the one it fetches next, and
`cur_tx`, in this order and less than one turn apart.

## Main definitions

* `QueueEvent`, `queueStep`: the stack, the reclaim and the two actions of the NIC
* `txDesc q p`: the descriptor of the buffer at the position `p`
* `QueueAt`: the joint invariant of driver and NIC
* `Fifo`: what the NIC has fetched, and what the driver still holds

## Main results

* `QueueAt.step`: every event keeps the invariant
* `fifo_always`: the Tx ring refines a queue
-/

namespace Rtl8101

open Counter Transition TxRing

/-! ## Driver and NIC -/

/-- The stack queues a buffer, the NIC fetches a descriptor or gives one back, the driver
reclaims. -/
inductive QueueEvent where
  | startXmit (skb : SkBuff)
  | fetch
  | complete
  | txInterrupt

/-- One event; the stack transmits only while the queue is not stopped. -/
def queueStep (maxSkbFrags : ℕ) (s : TxRing × TxNic) : QueueEvent → Option (TxRing × TxNic)
  | .startXmit skb =>
    if s.1.queueStopped = false then some ((s.1.startXmit maxSkbFrags skb).1, s.2) else none
  | .fetch => (s.2.fetch s.1).map fun nic => (s.1, nic)
  | .complete => nicComplete s.1 s.2
  | .txInterrupt => some (s.1.txInterrupt maxSkbFrags, s.2)

/-- The stack queues linear buffers of at most an Ethernet frame. -/
def QueueOk (_ : TxRing × TxNic) : QueueEvent → Prop
  | .startXmit skb => skb.nrFrags = 0#8 ∧ 1 ≤ skb.len.toNat ∧ skb.len.toNat ≤ 1514
  | _ => True

/-- The NIC after a reset, before its first descriptor. -/
def TxNic.start : TxNic := ⟨0, 0, 0, [], 0⟩

/-! ## The descriptor words -/

theorem xmitWord_firstFrag (i : Fin numTxDesc) (len : BitVec 32) :
    hasBits (xmitWord i len) firstFrag = true := by
  simp [xmitWord, hasBits_or, hasBits_self isFlag_firstFrag]

/-- `RingEnd` is set on the last descriptor only, unless the length reaches up to it. -/
theorem xmitWord_ringEnd (i : Fin numTxDesc) {len : BitVec 32}
    (hno : hasBits len ringEnd = false) :
    hasBits (xmitWord i len) ringEnd = decide ((i : ℕ) + 1 = numTxDesc) := by
  have hi : ((i : ℕ) + 1) % numTxDesc = 0 ↔ (i : ℕ) + 1 = numTxDesc := by
    have := i.isLt
    constructor
    · intro h
      by_contra hne
      rw [Nat.mod_eq_of_lt (by omega)] at h
      omega
    · intro h
      rw [h, Nat.mod_self]
  simp only [xmitWord, hasBits_or, hno, hasBits_descOwn_ringEnd, hasBits_firstFrag_ringEnd,
    hasBits_lastFrag_ringEnd, Bool.false_or]
  by_cases h : (i : ℕ) + 1 = numTxDesc
  · rw [if_pos (hi.mpr h), decide_eq_true h, hasBits_self isFlag_ringEnd]
  · rw [if_neg fun hm => h (hi.mp hm), decide_eq_false h]
    rfl

theorem xmitWord_eor (i : Fin numTxDesc) {len : BitVec 32} (hlen : len.toNat < 2 ^ 14) :
    hasBits (xmitWord i len) ringEnd = decide ((i : ℕ) + 1 = numTxDesc) :=
  xmitWord_ringEnd i (hasBits_ringEnd_of_lt hlen)

/-- The length field is the length of the buffer. -/
theorem txLenField_xmitWord (i : Fin numTxDesc) {len : BitVec 32} (hlen : len.toNat < 2 ^ 14) :
    txLenField (xmitWord i len) = len := by
  have hself : txLenField len = len := txLenField_of_lt (hlen.trans (by decide))
  have hend : txLenField (if ((i : ℕ) + 1) % numTxDesc = 0 then ringEnd else 0#32) = 0#32 := by
    split_ifs
    · exact txLenField_ringEnd
    · rfl
  simp [xmitWord, txLenField_or, hself, hend]

/-- The descriptor of the buffer at the position `p`, as `rtl8101_start_xmit` writes it. -/
def txDesc (q : ℕ → SkBuff) (p : ℕ) : Desc :=
  ⟨xmitWord (pos numTxDesc p) (q p).len, 0#32, (q p).dma⟩

/-- The NIC moves from one position to the next. -/
theorem nextPos_txDesc {q : ℕ → SkBuff} {p : ℕ} (hlen : (q p).len.toNat < 2 ^ 14) :
    nextPos (p % numTxDesc) (txDesc q p) = (p + 1) % numTxDesc :=
  nextPos_mod (xmitWord_eor (pos numTxDesc p) hlen)

/-! ## The joint invariant -/

/-- The invariant of driver and NIC since the ring `b`, with `dirty_tx`, the descriptors given
back, the descriptors fetched and `cur_tx` at the positions `D`, `E`, `F` and `C`. -/
structure QueueAt (maxSkbFrags : ℕ) (b : TxRing) (s : TxRing × TxNic) (q : ℕ → SkBuff)
    (D E F C : ℕ) : Prop where
  dirty : s.1.dirtyTx = BitVec.ofNat 32 D
  cur : s.1.curTx = BitVec.ofNat 32 C
  order : D ≤ E ∧ E ≤ F ∧ F ≤ C
  window : Window q s.1 D C
  books : Books b s.1 (C - D) ((List.range C).map q) ((List.range D).map q) []
  lens : ∀ p < C, (q p).len.toNat < 2 ^ 14
  /-- What the NIC has not given back is as the driver wrote it. -/
  queued : ∀ p, E ≤ p → p < C → s.1.txDescArray (pos numTxDesc p) = txDesc q p
  /-- What the NIC has given back and the driver has not reclaimed. -/
  given : ∀ p, D ≤ p → p < E → (s.1.txDescArray (pos numTxDesc p)).own = false
  fetchPos : s.2.fetchPos = F % numTxDesc
  donePos : s.2.donePos = E % numTxDesc
  inFlight : s.2.inFlight = F - E
  released : s.2.released = E
  fetched : s.2.fetched = (List.range F).map fun p => ⟨p % numTxDesc, txDesc q p⟩
  awake : s.1.queueStopped = false → C - D + maxSkbFrags + 1 ≤ numTxDesc

variable {maxSkbFrags : ℕ} {b : TxRing} {s : TxRing × TxNic} {q : ℕ → SkBuff} {D E F C : ℕ}

theorem txDesc_own (q : ℕ → SkBuff) (p : ℕ) : (txDesc q p).own = true := xmitWord_own _ _

theorem txDesc_update {p C : ℕ} (h : p < C) (skb : SkBuff) :
    txDesc (Function.update q C skb) p = txDesc q p := by
  simp [txDesc, show p ≠ C by omega]

theorem map_range_update (q : ℕ → SkBuff) {n C : ℕ} (h : n ≤ C) (skb : SkBuff) :
    (List.range n).map (Function.update q C skb) = (List.range n).map q := by
  apply List.map_congr_left
  intro p hp
  have := List.mem_range.mp hp
  simp [show p ≠ C by omega]

/-- A buffer is queued behind the others. -/
theorem QueueAt.startXmit (hM : 1 ≤ maxSkbFrags) (h : QueueAt maxSkbFrags b s q D E F C)
    (hawake : s.1.queueStopped = false) {skb : SkBuff} (hlinear : skb.nrFrags = 0#8)
    (hlen : 1 ≤ skb.len.toNat) (hlen' : skb.len.toNat ≤ 1514) :
    QueueAt maxSkbFrags b ((s.1.startXmit maxSkbFrags skb).1, s.2) (Function.update q C skb)
      D E F (C + 1) := by
  obtain ⟨hDE, hEF, hFC⟩ := h.order
  have hflow := h.awake hawake
  have hroom : C + 1 < D + numTxDesc := by omega
  have hne : skb.len ≠ 0#32 := by
    rintro h0
    rw [h0] at hlen
    simp at hlen
  have hother : ∀ p, D ≤ p → p < C → pos numTxDesc p ≠ pos numTxDesc C :=
    fun p hp hpC => pos_ne hp hpC h.window.lt
  rw [TxRing.startXmit_eq maxSkbFrags h.cur h.dirty h.window.le hroom h.window.slot_free.2 hlinear]
  refine { h with
    dirty := h.dirty, cur := rfl, order := ⟨hDE, hEF, by omega⟩
    window := { h.window.queued hroom hne with }
    books := ?_, lens := ?_, queued := ?_, given := ?_, fetched := ?_, awake := ?_ }
  · have hb := h.books.queued skb h.window.slot_free.1
    rw [List.range_succ, List.map_append, map_range_update q le_rfl, map_range_update q (by omega),
      show C + 1 - D = C - D + 1 by omega]
    simp only [List.map_cons, List.map_nil, Function.update_self]
    exact { hb with }
  · intro p hp
    by_cases hpC : p = C
    · subst hpC
      simp only [Function.update_self]
      omega
    · simpa [hpC] using h.lens p (by omega)
  · intro p hp hpC
    by_cases hpe : p = C
    · subst hpe
      simp [TxRing.queued, txDesc]
    · rw [txDesc_update (by omega)]
      simpa [TxRing.queued, hother p (by omega) (by omega)] using h.queued p hp (by omega)
  · intro p hp hpE
    simpa [TxRing.queued, hother p hp (by omega)] using h.given p hp hpE
  · rw [h.fetched]
    apply List.map_congr_left
    intro p hp
    have := List.mem_range.mp hp
    rw [txDesc_update (by omega)]
  · intro hq
    dsimp only at hq
    split_ifs at hq with hfew
    omega

/-- The NIC fetches the buffer at its position, which is the next one. -/
theorem QueueAt.fetch (h : QueueAt maxSkbFrags b s q D E F C) {nic : TxNic}
    (hf : s.2.fetch s.1 = some nic) : QueueAt maxSkbFrags b (s.1, nic) q D E (F + 1) C := by
  obtain ⟨hDE, hEF, hFC⟩ := h.order
  obtain ⟨i, hi, hown, rfl⟩ := TxNic.fetch_eq_some hf
  obtain rfl : pos numTxDesc F = i := by
    rw [Fin.ext_iff, pos_val, ← hi, h.fetchPos]
  have hlt : F < C := by
    apply lt_of_le_of_ne hFC
    rintro rfl
    rw [h.window.slot_free.2] at hown
    cases hown
  have hdesc := h.queued F hEF hlt
  refine { h with
    order := ⟨hDE, by omega, hlt⟩, fetchPos := ?_, inFlight := ?_, fetched := ?_ }
  · dsimp only
    rw [hdesc, pos_val, nextPos_txDesc (h.lens F hlt)]
  · dsimp only
    rw [h.inFlight]
    omega
  · dsimp only
    rw [h.fetched, List.range_succ, List.map_append, hdesc, pos_val]
    rfl

/-- The NIC gives the oldest descriptor back. -/
theorem QueueAt.complete (h : QueueAt maxSkbFrags b s q D E F C) {t : TxRing × TxNic}
    (hc : nicComplete s.1 s.2 = some t) : QueueAt maxSkbFrags b t q D (E + 1) F C := by
  obtain ⟨hDE, hEF, hFC⟩ := h.order
  obtain ⟨r', nic'⟩ := t
  obtain ⟨i, hi, hflight, rfl, rfl⟩ := nicComplete_eq_some hc
  obtain rfl : pos numTxDesc E = i := by
    rw [Fin.ext_iff, pos_val, ← hi, h.donePos]
  rw [h.inFlight] at hflight
  have hlt := h.window.lt
  -- the descriptor is still as it was fetched: the driver writes only free ones
  have hdesc := h.queued E le_rfl (by omega)
  refine { h with
    dirty := h.dirty, cur := h.cur, order := ⟨by omega, by omega, hFC⟩
    window := h.window.completed _, books := { h.books with }
    queued := ?_, given := ?_
    donePos := ?_, inFlight := ?_, released := congrArg (· + 1) h.released, awake := h.awake }
  · intro p hp hpC
    have hne : pos numTxDesc p ≠ pos numTxDesc E :=
      (pos_ne (d := E) le_rfl (by omega) (by omega)).symm
    simpa [TxRing.completed, hne] using h.queued p (by omega) hpC
  · intro p hp hpE
    by_cases hpe : p = E
    · subst hpe; simp [TxRing.completed]
    · have hne : pos numTxDesc p ≠ pos numTxDesc E := pos_ne hp (by omega) (by omega)
      simpa [TxRing.completed, hne] using h.given p hp (by omega)
  · dsimp only
    rw [hdesc, pos_val, nextPos_txDesc (h.lens E (by omega))]
  · dsimp only
    rw [h.inFlight]
    omega

/-- The driver reclaims what was given back, and no more. -/
theorem QueueAt.txInterrupt (h : QueueAt maxSkbFrags b s q D E F C) :
    ∃ D', QueueAt maxSkbFrags b (s.1.txInterrupt maxSkbFrags, s.2) q D' E F C := by
  obtain ⟨hDE, hEF, hFC⟩ := h.order
  have hlt := h.window.lt
  obtain ⟨r₁, D', hpass, hDD', hD'C, -, he⟩ :=
    txInterrupt_spec maxSkbFrags h.cur h.dirty h.window.le h.window.lt
  have hD'E : D' ≤ E := by
    by_cases hEC : E < C
    · refine hpass.le_of_own ?_ hDE (by omega)
      rw [h.queued E le_rfl hEC]
      exact txDesc_own q E
    · omega
  have hkept : ∀ p, D' ≤ p → p < C →
      r₁.txDescArray (pos numTxDesc p) = s.1.txDescArray (pos numTxDesc p) := fun p hp hpC =>
    hpass.desc_eq fun m hm hm' => pos_ne hm (by omega) (by omega)
  have hrange : (List.range D).map q ++ (List.range' D (D' - D)).map q = (List.range D').map q := by
    rw [← List.map_append, List.range_eq_range', List.range_eq_range',
      show List.range' D (D' - D) = List.range' (0 + 1 * D) (D' - D) by simp,
      List.range'_append, Nat.add_sub_cancel' hDD']
  have hbooks := hpass.books h.window h.books hD'C
  rw [hrange] at hbooks
  rw [he]
  refine ⟨D', { h with
    dirty := rfl, cur := hpass.sameFrame.curTx.trans h.cur, order := ⟨hD'E, hEF, hFC⟩
    window := { hpass.window h.window hD'C with }, books := { hbooks with }
    queued := fun p hp hpC => (hkept p (by omega) hpC).trans (h.queued p hp hpC)
    given := ?_, awake := ?_ }⟩
  · intro p hp hpE
    exact (congrArg Desc.own (hkept p hp (by omega))).trans (h.given p (by omega) hpE)
  · intro hq
    dsimp only at hq
    split_ifs at hq with hwake
    · omega
    · have := h.awake hq
      omega

/-- **Every event keeps the joint invariant.** -/
theorem QueueAt.step (hM : 1 ≤ maxSkbFrags) (h : QueueAt maxSkbFrags b s q D E F C)
    {e : QueueEvent} (hok : QueueOk s e) {t : TxRing × TxNic}
    (hstep : queueStep maxSkbFrags s e = some t) :
    ∃ q D E F C, QueueAt maxSkbFrags b t q D E F C := by
  cases e with
  | startXmit skb =>
    simp only [queueStep] at hstep
    split_ifs at hstep with hawake
    cases hstep
    exact ⟨_, _, _, _, _, h.startXmit hM hawake hok.1 hok.2.1 hok.2.2⟩
  | fetch =>
    obtain ⟨nic, hf, rfl⟩ := Option.map_eq_some_iff.mp hstep
    exact ⟨_, _, _, _, _, h.fetch hf⟩
  | complete => exact ⟨_, _, _, _, _, h.complete hstep⟩
  | txInterrupt =>
    cases hstep
    obtain ⟨D', h'⟩ := h.txInterrupt
    exact ⟨_, _, _, _, _, h'⟩

/-! ## First in, first out -/

/-- A ring without buffers, both indexes at zero, whose log of accepted buffers starts here. -/
structure TxRing.Idle (r : TxRing) : Prop where
  curTx : r.curTx = 0#32
  dirtyTx : r.dirtyTx = 0#32
  slots : ∀ i, r.txSkb i = .empty ∧ (r.txDescArray i).own = false
  accepted : r.accepted = []

/-- The queue since the ring `b`. What the NIC fetched is the beginning of what was accepted, as
pairs of address and length; every fetched descriptor is a whole packet, and the last one of the
ring carries `RingEnd`; a buffer is held until the NIC has given its descriptor back, and only
such buffers were freed. -/
structure Fifo (b : TxRing) (s : TxRing × TxNic) : Prop where
  inOrder : (s.2.fetched.map fun f => (f.desc.addr, txLenField f.desc.opts1)) <+:
    s.1.accepted.map fun skb => (skb.dma, skb.len)
  words : ∀ f ∈ s.2.fetched, hasBits f.desc.opts1 firstFrag = true ∧
    hasBits f.desc.opts1 lastFrag = true ∧ f.desc.eor = decide (f.index = numTxDesc - 1)
  held : ∀ p skb, s.1.accepted[p]? = some skb → s.2.released ≤ p →
    s.1.txSkb (pos numTxDesc p) = ⟨some skb, skb.len⟩
  freed : ∃ d ≤ s.2.released, s.1.skbs.released = b.skbs.released + (s.1.accepted.take d)

theorem QueueAt.of_idle (hM : maxSkbFrags < numTxDesc) {r : TxRing} (h : r.Idle) :
    QueueAt maxSkbFrags r (r, .start) (fun _ => default) 0 0 0 0 := by
  have hbuffers : r.buffers = 0 := occupied_eq_zero fun i => by rw [(h.slots i).1]; rfl
  refine ⟨h.dirtyTx, h.curTx, ⟨le_rfl, le_rfl, le_rfl⟩,
    ⟨le_rfl, by decide, fun p _ hp => by omega, fun i _ => h.slots i⟩, ?_,
    fun p hp => by omega, fun p _ hp => by omega, fun p _ hp => by omega, rfl, rfl, rfl, rfl, rfl,
    fun _ => by omega⟩
  refine ⟨?_, ?_, ?_, ?_, ?_, rfl, ?_, ?_, ?_, ?_, ?_⟩
  case refine_9 => rw [hbuffers]; exact Ledger.holds_self _
  case refine_10 => rw [hbuffers, Multiset.map_zero]; exact Ledger.holds_self _
  all_goals simp

theorem QueueAt.fifo (h : QueueAt maxSkbFrags b s q D E F C) (hb : b.accepted = []) :
    Fifo b s := by
  obtain ⟨hDE, hEF, hFC⟩ := h.order
  have hacc : s.1.accepted = (List.range C).map q := by rw [h.books.accepted, hb, List.nil_append]
  refine ⟨?_, ?_, ?_, D, by rw [h.released]; exact hDE, ?_⟩
  · have hfetched : (s.2.fetched.map fun f => (f.desc.addr, txLenField f.desc.opts1)) =
        (List.range F).map fun p => ((q p).dma, (q p).len) := by
      rw [h.fetched, List.map_map]
      apply List.map_congr_left
      intro p hp
      have hp' := List.mem_range.mp hp
      simp [txDesc, txLenField_xmitWord _ (h.lens p (by omega))]
    have hprefix : List.range F <+: List.range C := by
      rw [← Nat.add_sub_cancel' hFC, List.range_add]
      exact List.prefix_append _ _
    rw [hfetched, hacc, List.map_map]
    exact hprefix.map _
  · intro f hf
    rw [h.fetched] at hf
    obtain ⟨p, hp, rfl⟩ := List.mem_map.mp hf
    have hp' := List.mem_range.mp hp
    refine ⟨xmitWord_firstFrag _ _, xmitWord_lastFrag _ _, ?_⟩
    have heor : (txDesc q p).eor = decide (p % numTxDesc + 1 = numTxDesc) :=
      xmitWord_eor (pos numTxDesc p) (h.lens p (by omega))
    rw [heor, decide_eq_decide]
    show p % numTxDesc + 1 = numTxDesc ↔ p % numTxDesc = numTxDesc - 1
    have := numTxDesc_eq
    omega
  · intro p skb hp hrel
    rw [hacc] at hp
    obtain ⟨hp', rfl⟩ := List.getElem?_eq_some_iff.mp hp
    simp only [List.length_map, List.length_range] at hp'
    rw [h.released] at hrel
    simpa using (h.window.full p (by omega) hp').info
  · rw [h.books.freed, hacc, ← List.map_take, List.take_range, Nat.min_eq_left (by omega)]
    simp

/-- **The Tx ring refines a queue**: from an empty ring and a NIC at descriptor 0, through any
interleaving of the stack, the NIC and the reclaim. -/
theorem fifo_always (hM : 1 ≤ maxSkbFrags) (hM' : maxSkbFrags < numTxDesc) {r : TxRing}
    (hidle : r.Idle) {es : List QueueEvent}
    (hok : Along (queueStep maxSkbFrags) QueueOk (r, .start) es) :
    Always (queueStep maxSkbFrags) (Fifo r) (r, .start) es := by
  have hinv := hok.always (I := fun s => ∃ q D E F C, QueueAt maxSkbFrags r s q D E F C)
    (fun _ _ _ ⟨_, _, _, _, _, ht⟩ hok hstep => ht.step hM hok hstep)
    ⟨_, _, _, _, _, .of_idle hM' hidle⟩
  exact hinv.mono fun _ ⟨_, _, _, _, _, ht⟩ => ht.fifo hidle.accepted

/-- Two buffers are queued, and the first one is sent and reclaimed. -/
theorem fifo_always_two :
    Device.registered.tx.Idle ∧
      Always (queueStep 17) (Fifo Device.registered.tx) (Device.registered.tx, .start)
        [.startXmit ⟨0x1000#64, 60#32, 0#32, 0#8⟩, .startXmit ⟨0x2000#64, 1514#32, 0#32, 0#8⟩,
          .fetch, .complete, .txInterrupt] := by
  have hidle : Device.registered.tx.Idle := ⟨rfl, rfl, fun _ => ⟨rfl, Desc.own_zero⟩, rfl⟩
  refine ⟨hidle, fifo_always (by decide) (by decide) hidle fun _ _ => ⟨?_, fun _ _ => ⟨?_, ?_⟩⟩⟩
  · exact ⟨rfl, by decide, by decide⟩
  · exact ⟨rfl, by decide, by decide⟩
  · exact fun _ _ => ⟨trivial, fun _ _ => ⟨trivial, fun _ _ => ⟨trivial, trivial⟩⟩⟩

end Rtl8101
