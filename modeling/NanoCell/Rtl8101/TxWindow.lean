import Mathlib.Tactic.Abel
import NanoCell.Rtl8101.Device

/-!
# The window of queued Tx buffers

Between `dirty_tx` and `cur_tx` lie the buffers that were queued and not reclaimed. Queueing a
buffer moves the upper end of the window; reclaiming it and dropping it move the lower end. Each
of the two ways out releases what was mapped and frees what was taken, and counts the buffer as
sent or as dropped.

## Main definitions

* `TxRing.Slot info d skb`: an entry of the ring holds the buffer `skb`
* `TxRing.Window q r D C`: the ring `r` holds the buffers `q p` for `p` in `[D, C)`, and nothing
  else
* `TxRing.Books b r K A S X`: what happened since the ring `b`: the buffers `A` were accepted, `S`
  of them sent, `X` dropped, and `K` are in the ring
* `TxRing.Held b r`: what was taken since the ring `b` and not given back is in the ring

## Main results

* `TxRing.startXmit_eq`: `rtl8101_start_xmit` on positions
* `Window.queued`, `Books.queued`, `Held.queued`: one buffer enters
* `Window.vacated`, `Held.vacated`, `Books.txReclaim`, `Books.txClearEntry`: one buffer leaves
* `TxPass.window`, `TxPass.books`, `TxPass.held`: the reclaim loop
* `TxRing.txClear_induct`: the rule for the loop of `rtl8101_tx_clear`
* `TxRing.txClear_spec`, `TxRing.txClear_held`: it drops the buffers in the ring
-/

namespace Rtl8101

open Counter

/-- The mapping of a Tx buffer. -/
def txMapping (skb : SkBuff) : Mapping := ⟨skb.dma, skb.len⟩

namespace TxRing

/-- The buffers in the ring. -/
def buffers (r : TxRing) : Multiset SkBuff := occupied fun i => (r.txSkb i).skb

/-- An entry of `tx_skb` and its descriptor, while the buffer `skb` is queued there. -/
structure Slot (info : RingInfo) (d : Desc) (skb : SkBuff) : Prop where
  info : info = ⟨some skb, skb.len⟩
  len : skb.len ≠ 0#32
  addr : d.addr = skb.dma
  last : hasBits d.opts1 lastFrag = true

/-- The ring holds the buffers `q p` at the positions `p` of `[D, C)`, and nothing else. -/
structure Window (q : ℕ → SkBuff) (r : TxRing) (D C : ℕ) : Prop where
  le : D ≤ C
  lt : C < D + numTxDesc
  full : ∀ p, D ≤ p → p < C →
    Slot (r.txSkb (pos numTxDesc p)) (r.txDescArray (pos numTxDesc p)) (q p)
  free : ∀ i, (∀ p, D ≤ p → p < C → pos numTxDesc p ≠ i) →
    r.txSkb i = .empty ∧ (r.txDescArray i).own = false

/-- The books since the ring `b`: the buffers `A` were accepted, of which `S` were sent, `X` were
dropped and `K` are in the ring. -/
structure Books (b r : TxRing) (K : ℕ) (A S X : List SkBuff) : Prop where
  accepted : r.accepted = b.accepted ++ A
  sent : r.sent = b.sent ++ S
  packets : r.stats.txPackets = b.stats.txPackets + BitVec.ofNat 64 S.length
  bytes : r.stats.txBytes = b.stats.txBytes + (S.map fun skb => skb.len.setWidth 64).sum
  dropped : r.stats.txDropped = b.stats.txDropped + BitVec.ofNat 64 X.length
  /-- Every accepted buffer is in one of three places. -/
  count : A.length = S.length + X.length + K
  taken : r.skbs.acquired = b.skbs.acquired + A
  mapped : r.dma.acquired = b.dma.acquired + (A : Multiset SkBuff).map txMapping
  freed : r.skbs.released = b.skbs.released + (S + X)
  skbs : b.skbs.Holds r.skbs r.buffers
  dma : b.dma.Holds r.dma (r.buffers.map txMapping)

/-- Since the ring `b` the buffers and the mappings taken and not given back are those in the
ring. -/
structure Held (b r : TxRing) : Prop where
  skbs : b.skbs.Holds r.skbs r.buffers
  dma : b.dma.Holds r.dma (r.buffers.map txMapping)

variable {q : ℕ → SkBuff} {b r r' : TxRing} {D C K : ℕ} {A S X : List SkBuff}

theorem Books.held (h : Books b r K A S X) : Held b r := ⟨h.skbs, h.dma⟩

/-- An empty window is an empty ring. -/
theorem Window.slot_empty (h : Window q r D D) (i : Fin numTxDesc) :
    r.txSkb i = .empty ∧ (r.txDescArray i).own = false :=
  h.free i fun _ hp hp' => absurd (hp.trans_lt hp') (lt_irrefl D)

theorem Window.buffers_eq_zero (h : Window q r D D) : r.buffers = 0 :=
  occupied_eq_zero fun i => by rw [(h.slot_empty i).1]; rfl

/-! ## A buffer enters the ring -/

/-- The ring after the buffer `skb` was stored at the entry `i`. -/
def queued (r : TxRing) (i : Fin numTxDesc) (skb : SkBuff) : TxRing :=
  { r with
    txSkb := Function.update r.txSkb i ⟨some skb, skb.len⟩
    dma := r.dma.acquire (txMapping skb)
    skbs := r.skbs.acquire skb
    accepted := r.accepted ++ [skb]
    txDescArray := Function.update r.txDescArray i ⟨xmitWord i skb.len, 0#32, skb.dma⟩ }

theorem xmitWord_own (i : Fin numTxDesc) (len : BitVec 32) :
    hasBits (xmitWord i len) descOwn = true := by
  simp [xmitWord, hasBits_or, hasBits_self isFlag_descOwn]

theorem xmitWord_lastFrag (i : Fin numTxDesc) (len : BitVec 32) :
    hasBits (xmitWord i len) lastFrag = true := by
  simp [xmitWord, hasBits_or, hasBits_self isFlag_lastFrag]

/-- **`rtl8101_start_xmit`**, on the positions `C` and `D` behind `cur_tx` and `dirty_tx`: it gives
up when the buffer has too many fragments or the descriptor is with the NIC; else the buffer is
queued, and the queue is stopped when fewer than `MAX_SKB_FRAGS` descriptors are left. -/
theorem startXmit_cases (maxSkbFrags : ℕ) (skb : SkBuff) (hcur : r.curTx = BitVec.ofNat 32 C)
    (hdirty : r.dirtyTx = BitVec.ofNat 32 D) (hDC : D ≤ C) (hroom : C + 1 < D + numTxDesc) :
    (skb.nrFrags ≠ 0#8 ∨ (r.txDescArray (pos numTxDesc C)).own = true) ∧
        r.startXmit maxSkbFrags skb = r.errStop ∨
      r.startXmit maxSkbFrags skb = ({ r.queued (pos numTxDesc C) skb with
        curTx := BitVec.ofNat 32 (C + 1)
        queueStopped := if D + numTxDesc - 1 - (C + 1) < maxSkbFrags then true
          else r.queueStopped }, .ok) := by
  have hentry : entry r.curTx = pos numTxDesc C := by rw [hcur, entry_ofNat]
  have hnext : r.curTx + 1#32 = BitVec.ofNat 32 (C + 1) := by rw [hcur, ofNat_succ]
  have havail : ({ r.queued (pos numTxDesc C) skb with curTx := BitVec.ofNat 32 (C + 1) } :
      TxRing).txBuffsAvail.toNat = D + numTxDesc - 1 - (C + 1) :=
    txBuffsAvail_ofNat rfl hdirty (by omega) hroom
  simp only [queued, txMapping] at havail
  by_cases hfrags : r.txBuffsAvail.toNat < skb.nrFrags.toNat
  · refine .inl ⟨.inl ?_, by simp [startXmit, hfrags]⟩
    rintro h0
    rw [h0] at hfrags
    exact absurd hfrags (Nat.not_lt_zero _)
  cases hown : (r.txDescArray (pos numTxDesc C)).own with
  | true => exact .inl ⟨.inr rfl, by simp [startXmit, hfrags, hentry, hown]⟩
  | false =>
    right
    simp only [startXmit, hentry, hown, hfrags, hnext, if_false, Bool.false_eq_true, queued,
      txMapping]
    rw [havail]
    -- under the lock the second look finds what the first one found
    by_cases hfew : D + numTxDesc - 1 - (C + 1) < maxSkbFrags
    · simp [hfew, Nat.not_le.mpr hfew]
    · simp [hfew]

/-- With a free descriptor a linear buffer is queued. -/
theorem startXmit_eq (maxSkbFrags : ℕ) {skb : SkBuff} (hcur : r.curTx = BitVec.ofNat 32 C)
    (hdirty : r.dirtyTx = BitVec.ofNat 32 D) (hDC : D ≤ C) (hroom : C + 1 < D + numTxDesc)
    (hfree : (r.txDescArray (pos numTxDesc C)).own = false) (hlinear : skb.nrFrags = 0#8) :
    r.startXmit maxSkbFrags skb = ({ r.queued (pos numTxDesc C) skb with
      curTx := BitVec.ofNat 32 (C + 1)
      queueStopped := if D + numTxDesc - 1 - (C + 1) < maxSkbFrags then true
        else r.queueStopped }, .ok) := by
  rcases startXmit_cases maxSkbFrags skb hcur hdirty hDC hroom with ⟨hbad, -⟩ | he
  · rw [hfree] at hbad
    simp [hlinear] at hbad
  · exact he

theorem Window.slot_free (h : Window q r D C) :
    r.txSkb (pos numTxDesc C) = .empty ∧ (r.txDescArray (pos numTxDesc C)).own = false :=
  h.free _ fun _ hp hpC => pos_ne hp hpC h.lt

theorem Window.queued (h : Window q r D C) (hroom : C + 1 < D + numTxDesc) {skb : SkBuff}
    (hlen : skb.len ≠ 0#32) :
    Window (Function.update q C skb) (r.queued (pos numTxDesc C) skb) D (C + 1) := by
  have hle := h.le
  refine ⟨by omega, hroom, ?_, ?_⟩
  · intro p hp hpC
    by_cases hpe : p = C
    · subst hpe
      simp only [TxRing.queued, Function.update_self]
      exact ⟨rfl, hlen, rfl, xmitWord_lastFrag _ _⟩
    · have hne : pos numTxDesc p ≠ pos numTxDesc C := pos_ne hp (by omega) h.lt
      simpa [TxRing.queued, hne, hpe] using h.full p hp (by omega)
  · intro i hi
    have hne : i ≠ pos numTxDesc C := (hi C hle (by omega)).symm
    simpa [TxRing.queued, hne] using h.free i fun p hp hpC => hi p hp (by omega)

theorem buffers_queued {i : Fin numTxDesc} {skb : SkBuff} (h : r.txSkb i = .empty) :
    (r.queued i skb).buffers = skb ::ₘ r.buffers := by
  have hupd : (fun j => ((r.queued i skb).txSkb j).skb) =
      Function.update (fun j => (r.txSkb j).skb) i (some skb) := by
    funext j
    by_cases hj : j = i
    · subst hj; simp [queued]
    · simp [queued, hj]
  rw [buffers, hupd, occupied_update_some (by rw [h]; rfl)]
  rfl

theorem Held.queued (h : Held b r) {i : Fin numTxDesc} (skb : SkBuff)
    (hempty : r.txSkb i = .empty) : Held b (r.queued i skb) := by
  constructor
  · rw [buffers_queued hempty]
    exact h.skbs.acquire skb
  · rw [buffers_queued hempty, Multiset.map_cons]
    exact h.dma.acquire (txMapping skb)

theorem Books.queued (h : Books b r K A S X) {i : Fin numTxDesc} (skb : SkBuff)
    (hempty : r.txSkb i = .empty) : Books b (r.queued i skb) (K + 1) (A ++ [skb]) S X where
  accepted := by simp [TxRing.queued, h.accepted]
  sent := h.sent
  packets := h.packets
  bytes := h.bytes
  dropped := h.dropped
  count := by simp [h.count]; omega
  taken := by
    simp only [TxRing.queued, Ledger.acquire, h.taken, ← Multiset.coe_add,
      Multiset.coe_singleton]
    rw [← Multiset.singleton_add, add_comm, add_assoc]
  mapped := by
    simp only [TxRing.queued, Ledger.acquire, h.mapped, ← Multiset.coe_add,
      Multiset.coe_singleton, Multiset.map_add, Multiset.map_singleton]
    rw [← Multiset.singleton_add, add_comm, add_assoc]
  freed := h.freed
  skbs := (h.held.queued skb hempty).skbs
  dma := (h.held.queued skb hempty).dma

/-! ## A buffer leaves the ring -/

/-- The ring after the buffer `skb` at the entry `i` was unmapped and freed. -/
def vacated (r : TxRing) (i : Fin numTxDesc) (skb : SkBuff) : TxRing :=
  { r with
    dma := r.dma.release (txMapping skb)
    skbs := r.skbs.release skb
    ownedUnmaps := if (r.txDescArray i).own then r.ownedUnmaps + 1 else r.ownedUnmaps
    txDescArray := Function.update r.txDescArray i .zero
    txSkb := Function.update r.txSkb i .empty }

theorem unmap_free_eq {i : Fin numTxDesc} {skb : SkBuff}
    (h : Slot (r.txSkb i) (r.txDescArray i) skb) :
    (r.unmapTxSkb i).freeTxSkb i = r.vacated i skb := by
  simp only [unmapTxSkb, freeTxSkb, Function.update_self, h.info, h.addr, vacated, txMapping,
    Function.update_idem]
  rfl

/-- The reclaim loop counts the buffer as sent. -/
theorem txReclaim_eq {i : Fin numTxDesc} {skb : SkBuff}
    (h : Slot (r.txSkb i) (r.txDescArray i) skb) :
    r.txReclaim i = { r.vacated i skb with
      stats := { r.stats with
        txBytes := r.stats.txBytes + skb.len.setWidth 64
        txPackets := r.stats.txPackets + 1 }
      sent := r.sent ++ [skb] } := by
  unfold txReclaim
  dsimp only
  have hfree := unmap_free_eq (r := { r with
    stats := { r.stats with
      txBytes := r.stats.txBytes + (r.txSkb i).len.setWidth 64
      txPackets := r.stats.txPackets + 1 }
    sent := r.sent ++ (r.txSkb i).skb.toList }) h
  rw [if_pos h.last, hfree]
  simp [vacated, h.info]

/-- The clearing loop counts the buffer as dropped. -/
theorem txClearEntry_eq {i : Fin numTxDesc} {skb : SkBuff}
    (h : Slot (r.txSkb i) (r.txDescArray i) skb) :
    r.txClearEntry i = { r.vacated i skb with
      stats := { r.stats with txDropped := r.stats.txDropped + 1 } } := by
  unfold txClearEntry
  rw [if_pos (by rw [h.info]; exact h.len), unmap_free_eq h]
  rfl

theorem txClearEntry_empty {i : Fin numTxDesc} (h : r.txSkb i = .empty) : r.txClearEntry i = r := by
  unfold txClearEntry
  rw [if_neg (by rw [h]; simp [RingInfo.empty])]

theorem Window.vacated (h : Window q r D C) (hlt : D < C) :
    Window q (r.vacated (pos numTxDesc D) (q D)) (D + 1) C := by
  have hle := h.le
  have hlt' := h.lt
  refine ⟨by omega, by omega, ?_, ?_⟩
  · intro p hp hpC
    have hne : pos numTxDesc p ≠ pos numTxDesc D :=
      (pos_ne (d := D) le_rfl (by omega) (by omega)).symm
    simpa [TxRing.vacated, hne] using h.full p (by omega) hpC
  · intro i hi
    by_cases hiD : i = pos numTxDesc D
    · subst hiD
      simp [TxRing.vacated]
    · simp only [TxRing.vacated, Function.update_of_ne hiD]
      apply h.free i
      intro p hp hpC
      by_cases hpD : p = D
      · rw [hpD]; exact Ne.symm hiD
      · exact hi p (by omega) hpC

theorem buffers_vacated {i : Fin numTxDesc} {skb : SkBuff}
    (h : Slot (r.txSkb i) (r.txDescArray i) skb) :
    r.buffers = skb ::ₘ (r.vacated i skb).buffers := by
  have hupd : (fun j => ((r.vacated i skb).txSkb j).skb) =
      Function.update (fun j => (r.txSkb j).skb) i none := by
    funext j
    by_cases hj : j = i
    · subst hj; simp [vacated, RingInfo.empty]
    · simp [vacated, hj]
  rw [buffers, buffers, hupd, occupied_update_none (a := skb) (by rw [h.info])]

/-- The ledgers after a buffer left the ring, whichever way it left. -/
theorem Held.vacated (h : Held b r) {i : Fin numTxDesc} {skb : SkBuff}
    (hs : Slot (r.txSkb i) (r.txDescArray i) skb) : Held b (r.vacated i skb) := by
  obtain ⟨hskbs, hdma⟩ := h
  rw [buffers_vacated hs] at hskbs hdma
  rw [Multiset.map_cons] at hdma
  exact ⟨hskbs.release, hdma.release⟩

theorem Books.txReclaim (h : Books b r (K + 1) A S X) {i : Fin numTxDesc} {skb : SkBuff}
    (hs : Slot (r.txSkb i) (r.txDescArray i) skb) :
    Books b (r.txReclaim i) K A (S ++ [skb]) X := by
  rw [txReclaim_eq hs]
  obtain ⟨hskbs, hdma⟩ := h.held.vacated hs
  refine { h with
    sent := ?_, packets := ?_, bytes := ?_, count := ?_, freed := ?_, skbs := hskbs, dma := hdma }
  · simp [h.sent]
  · simp only [h.packets, List.length_append, List.length_singleton, BitVec.ofNat_add,
      BitVec.add_assoc]
    rfl
  · simp [h.bytes, BitVec.add_assoc]
  · simp [h.count]; omega
  · show skb ::ₘ r.skbs.released = _
    rw [h.freed, ← Multiset.coe_add, Multiset.coe_singleton, ← Multiset.singleton_add]
    abel

theorem Books.txClearEntry (h : Books b r (K + 1) A S X) {i : Fin numTxDesc} {skb : SkBuff}
    (hs : Slot (r.txSkb i) (r.txDescArray i) skb) :
    Books b (r.txClearEntry i) K A S (X ++ [skb]) := by
  rw [txClearEntry_eq hs]
  obtain ⟨hskbs, hdma⟩ := h.held.vacated hs
  refine { h with dropped := ?_, count := ?_, freed := ?_, skbs := hskbs, dma := hdma }
  · simp only [h.dropped, List.length_append, List.length_singleton, BitVec.ofNat_add,
      BitVec.add_assoc]
    rfl
  · simp [h.count]; omega
  · show skb ::ₘ r.skbs.released = _
    rw [h.freed, ← Multiset.coe_add X, Multiset.coe_singleton, ← Multiset.singleton_add]
    abel

/-! ## The NIC is done with a descriptor -/

theorem Window.completed (h : Window q r D C) (i : Fin numTxDesc) :
    Window q (r.completed i) D C := by
  refine { h with full := ?_, free := ?_ }
  · intro p hp hpC
    have hs := h.full p hp hpC
    by_cases hip : pos numTxDesc p = i
    · subst hip
      refine ⟨hs.info, hs.len, ?_, ?_⟩
      · simpa [TxRing.completed] using hs.addr
      · simpa [TxRing.completed, Desc.release_flag isFlag_lastFrag (by decide)] using hs.last
    · simpa [TxRing.completed, hip] using hs
  · intro j hj
    obtain ⟨hempty, hown⟩ := h.free j hj
    refine ⟨hempty, ?_⟩
    by_cases hji : j = i
    · subst hji; simp [TxRing.completed]
    · simpa [TxRing.completed, hji] using hown

/-! ## The loops -/

theorem freeTxSkb_desc (i : Fin numTxDesc) : (r.freeTxSkb i).txDescArray = r.txDescArray := by
  unfold freeTxSkb
  split <;> rfl

theorem txReclaim_desc (i : Fin numTxDesc) :
    (r.txReclaim i).txDescArray = Function.update r.txDescArray i .zero := by
  unfold txReclaim
  dsimp only
  split
  · rw [freeTxSkb_desc]; rfl
  · rfl

/-- The reclaim loop gives nothing to the NIC. -/
theorem TxPass.own {p p' : ℕ} (hpass : TxPass r p r' p') {i : Fin numTxDesc}
    (h : (r.txDescArray i).own = false) : (r'.txDescArray i).own = false := by
  induction hpass with
  | done r p => exact h
  | @next r r' p p' hown hrest ih =>
    apply ih
    rw [txReclaim_desc]
    by_cases hip : i = pos numTxDesc p
    · subst hip; simp
    · simpa [hip] using h

/-- The reclaim loop stops at a descriptor that the NIC owns. -/
theorem TxPass.le_of_own {p p' m : ℕ} (hpass : TxPass r p r' p')
    (hown : (r.txDescArray (pos numTxDesc m)).own = true) (hp : p ≤ m) (hm : m < p + numTxDesc) :
    p' ≤ m := by
  induction hpass with
  | done r p => exact hp
  | @next r r' p p' hfree hrest ih =>
    have hpm : p < m := by
      apply lt_of_le_of_ne hp
      rintro rfl
      rw [hfree] at hown
      cases hown
    refine ih ?_ (by omega) (by omega)
    rw [txReclaim_desc, Function.update_of_ne (pos_ne (d := p) le_rfl hpm hm).symm]
    exact hown

/-- The reclaim loop writes the descriptors it passes only. -/
theorem TxPass.desc_eq {p p' : ℕ} (hpass : TxPass r p r' p') {i : Fin numTxDesc}
    (h : ∀ m, p ≤ m → m < p' → pos numTxDesc m ≠ i) : r'.txDescArray i = r.txDescArray i := by
  induction hpass with
  | done r p => rfl
  | @next r r' p p' hfree hrest ih =>
    have hp := hrest.le
    rw [ih fun m hm hm' => h m (by omega) hm', txReclaim_desc,
      Function.update_of_ne (h p le_rfl (by omega)).symm]

/-- **The reclaim loop** moves the lower end of the window. -/
theorem TxPass.window {p p' : ℕ} (hpass : TxPass r p r' p') (h : Window q r p C) (hle : p' ≤ C) :
    Window q r' p' C := by
  induction hpass with
  | done r p => exact h
  | @next r r' p p' hown hrest ih =>
    have hp := hrest.le
    refine ih ?_ hle
    rw [txReclaim_eq (h.full p le_rfl (by omega))]
    exact { h.vacated (by omega) with }

theorem range_sub_cons {p m : ℕ} (h : p < m) :
    List.range' p (m - p) = p :: List.range' (p + 1) (m - (p + 1)) := by
  rw [show m - p = m - (p + 1) + 1 by omega, List.range'_succ]

/-- The reclaim loop sends the buffers it passes, in order. -/
theorem TxPass.books {p p' : ℕ} (hpass : TxPass r p r' p') (hw : Window q r p C)
    (h : Books b r (C - p) A S X) (hle : p' ≤ C) :
    Books b r' (C - p') A (S ++ (List.range' p (p' - p)).map q) X := by
  induction hpass generalizing S with
  | done r p => simpa using h
  | @next r r' p p' hown hrest ih =>
    have hp := hrest.le
    have hs := hw.full p le_rfl (by omega)
    have hw' : Window q (r.txReclaim (pos numTxDesc p)) (p + 1) C := by
      rw [txReclaim_eq hs]
      exact { hw.vacated (by omega) with }
    have h' : Books b r (C - (p + 1) + 1) A S X := by
      rwa [show C - (p + 1) + 1 = C - p by omega]
    have hb := ih hw' (h'.txReclaim hs) hle
    rwa [List.append_assoc, List.singleton_append, ← List.map_cons, ← range_sub_cons hp] at hb

theorem TxPass.held {p p' : ℕ} (hpass : TxPass r p r' p') (hw : Window q r p C) (h : Held b r)
    (hle : p' ≤ C) : Held b r' := by
  induction hpass with
  | done r p => exact h
  | @next r r' p p' hown hrest ih =>
    have hp := hrest.le
    have hs := hw.full p le_rfl (by omega)
    refine ih ?_ ?_ hle
    · rw [txReclaim_eq hs]
      exact { hw.vacated (by omega) with }
    · rw [txReclaim_eq hs]
      exact { h.vacated hs with }

/-- Clearing a ring without buffers does nothing. -/
theorem foldl_txClearEntry_empty (h : ∀ i, r.txSkb i = .empty) (l : List ℕ) :
    l.foldl (fun r p => r.txClearEntry (pos numTxDesc p)) r = r := by
  induction l with
  | nil => rfl
  | cons p l ih => rw [List.foldl_cons, txClearEntry_empty (h _), ih]

/-- **The clearing loop**, over enough positions, drops the buffers in the ring one after the other:
what each of them adds is added for all. -/
theorem foldl_txClearEntry {P : TxRing → ℕ → Prop}
    (hstep : ∀ r p, p < C →
      Slot (r.txSkb (pos numTxDesc p)) (r.txDescArray (pos numTxDesc p)) (q p) →
      P r p → P (r.txClearEntry (pos numTxDesc p)) (p + 1)) (m : ℕ) :
    ∀ (r : TxRing) (p : ℕ), Window q r p C → P r p → C ≤ p + m →
      Window q ((List.range' p m).foldl (fun r p => r.txClearEntry (pos numTxDesc p)) r) C C ∧
        P ((List.range' p m).foldl (fun r p => r.txClearEntry (pos numTxDesc p)) r) C := by
  induction m with
  | zero =>
    intro r p hw h hC
    obtain rfl : p = C := by have := hw.le; omega
    exact ⟨hw, h⟩
  | succ m ih =>
    intro r p hw h hC
    by_cases hlt : p < C
    · have hs := hw.full p le_rfl hlt
      have hw' : Window q (r.txClearEntry (pos numTxDesc p)) (p + 1) C := by
        rw [txClearEntry_eq hs]
        exact { hw.vacated hlt with }
      exact ih _ (p + 1) hw' (hstep r p hlt hs h) (by omega)
    · obtain rfl : p = C := by have := hw.le; omega
      rw [foldl_txClearEntry_empty fun i => (hw.free i fun p hp hpC => by omega).1]
      exact ⟨hw, h⟩

theorem foldl_txClearEntry_sameFrame (l : List ℕ) (r : TxRing) :
    SameFrame r (l.foldl (fun r p => r.txClearEntry (pos numTxDesc p)) r) := by
  induction l generalizing r with
  | nil => exact .refl r
  | cons p l ih => exact (txClearEntry_sameFrame r _).trans (ih _)

/-- An empty window may be placed anywhere. -/
theorem Window.of_empty (h : Window q r D D) (q' : ℕ → SkBuff) (E : ℕ) : Window q' r E E :=
  ⟨le_rfl, by have := numTxDesc_eq; omega, fun p hp hpE => by omega,
    fun i _ => h.slot_empty i⟩

/-- The clearing loop runs over residues: it may be started at any position of its slot. -/
theorem foldl_txClearEntry_congr {c d : ℕ} (h : pos numTxDesc c = pos numTxDesc d) (m : ℕ)
    (r : TxRing) : (List.range' c m).foldl (fun r p => r.txClearEntry (pos numTxDesc p)) r =
      (List.range' d m).foldl (fun r p => r.txClearEntry (pos numTxDesc p)) r := by
  have hpos : ∀ k, pos numTxDesc (c + k) = pos numTxDesc (d + k) := by
    intro k
    rw [pos_eq_iff] at h ⊢
    rw [Nat.add_mod, h, ← Nat.add_mod]
  simp only [List.range'_eq_map_range, List.foldl_map, hpos]

/-- **`rtl8101_tx_clear`**, entered below the end of the counter range, runs the clearing loop over
the buffers in the ring and zeroes the indexes. -/
theorem txClear_induct {P : TxRing → ℕ → Prop}
    (hstep : ∀ r p, p < C →
      Slot (r.txSkb (pos numTxDesc p)) (r.txDescArray (pos numTxDesc p)) (q p) →
      P r p → P (r.txClearEntry (pos numTxDesc p)) (p + 1))
    (hdirty : r.dirtyTx = BitVec.ofNat 32 D) (hrange : r.dirtyTx.toNat + numTxDesc < 2 ^ 32)
    (hw : Window q r D C) (h : P r D) :
    ∃ r', Window q r' C C ∧ P r' C ∧ SameFrame r r' ∧
      r.txClear = { r' with curTx := 0#32, dirtyTx := 0#32 } := by
  -- the loop starts at the counter, not at the position it truncates
  have hpos : pos numTxDesc r.dirtyTx.toNat = pos numTxDesc D := by
    rw [hdirty, ← slot_eq_pos, slot_ofNat numTxDesc_dvd]
  have hlt := hw.lt
  obtain ⟨r', hr'⟩ : ∃ r', (List.range' r.dirtyTx.toNat numTxDesc).foldl
    (fun r p => r.txClearEntry (pos numTxDesc p)) r = r' := ⟨_, rfl⟩
  have hfold := (foldl_txClearEntry_congr hpos numTxDesc r).symm.trans hr'
  obtain ⟨hw', h'⟩ := foldl_txClearEntry hstep numTxDesc r D hw h (by omega)
  have hframe := foldl_txClearEntry_sameFrame (List.range' D numTxDesc) r
  rw [hfold] at hw' h' hframe
  exact ⟨r', hw', h', hframe, by rw [txClear_eq hrange, hr']⟩

/-- What `rtl8101_tx_clear` drops is counted. -/
theorem txClear_spec (hdirty : r.dirtyTx = BitVec.ofNat 32 D)
    (hrange : r.dirtyTx.toNat + numTxDesc < 2 ^ 32) (hw : Window q r D C)
    (h : Books b r (C - D) A S X) :
    Window q r.txClear 0 0 ∧ Books b r.txClear 0 A S (X ++ (List.range' D (C - D)).map q) ∧
      r.txClear.curTx = 0#32 ∧ r.txClear.dirtyTx = 0#32 ∧
      r.txClear.queueStopped = r.queueStopped ∧ r.txClear.txDescNull = r.txDescNull := by
  have hstart : Books b r (C - D) A S (X ++ (List.range' D (D - D)).map q) := by simpa using h
  obtain ⟨r', hw', h', hframe, he⟩ := txClear_induct
    (P := fun r p => D ≤ p ∧ Books b r (C - p) A S (X ++ (List.range' D (p - D)).map q))
    (fun r p hp hs ⟨hle, h⟩ => by
      have h' : Books b r (C - (p + 1) + 1) A S (X ++ (List.range' D (p - D)).map q) := by
        rwa [show C - (p + 1) + 1 = C - p by omega]
      have hdrop := h'.txClearEntry hs
      rw [List.append_assoc] at hdrop
      have hlast : List.range' D (p + 1 - D) = List.range' D (p - D) ++ [p] := by
        rw [show p + 1 - D = p - D + 1 by omega, List.range'_concat, one_mul,
          Nat.add_sub_cancel' hle]
      rw [hlast, List.map_append]
      exact ⟨by omega, hdrop⟩)
    hdirty hrange hw ⟨le_rfl, hstart⟩
  have hbooks := h'.2
  rw [Nat.sub_self] at hbooks
  rw [he]
  exact ⟨{ hw'.of_empty q 0 with }, { hbooks with }, rfl, rfl, hframe.queueStopped,
    hframe.txDescNull⟩

/-- What `rtl8101_tx_clear` drops is given back. -/
theorem txClear_held (hdirty : r.dirtyTx = BitVec.ofNat 32 D)
    (hrange : r.dirtyTx.toNat + numTxDesc < 2 ^ 32) (hw : Window q r D C) (h : Held b r) :
    Window q r.txClear 0 0 ∧ Held b r.txClear ∧ r.txClear.txDescNull = r.txDescNull := by
  obtain ⟨r', hw', h', hframe, he⟩ := txClear_induct (P := fun r _ => Held b r)
    (fun r p hp hs h => by
      rw [txClearEntry_eq hs]
      exact { h.vacated hs with })
    hdirty hrange hw h
  rw [he]
  exact ⟨{ hw'.of_empty q 0 with }, { h' with }, hframe.txDescNull⟩

end TxRing

end Rtl8101
