import NanoCell.Rtl8101.RxWindow
import NanoCell.Rtl8101.TxSession

/-!
# Restarting the chip

`rtl8101_hw_init` restarts the chip at descriptor 0 of both rings, and is called by the open, the
reset task and a link-up. The first two zero the indexes of the driver on the way. The link-up
does not: it relies on nothing having moved since the open or the last link-down.

The reset task clears the Tx ring without looking at `DescOwn`: it relies on the chip being off
since the Tx timeout that scheduled it. A link-up or an open in between starts it again.

## Main definitions

* `AlignedInits`: at every return of `rtl8101_hw_init` the driver is at descriptor 0, as the NIC is
* `LinkUpAligned`, `QuietWhileDown`: when a link-up starts aligned
* `SafeReset`, `NoRestartWhilePending`: when a reset task takes nothing from the NIC

## Main results

* `alignedInits_iff`: driver and NIC agree at every restart exactly when every link-up finds the
  indexes aligned; they do when both rings rest while the carrier is off
* `stolen_iff`: no buffer is taken from a running NIC exactly when every reset task is safe; it is
  when nothing restarts the chip while the task is pending
-/

namespace Rtl8101

open Counter Transition TxRing

variable {maxSkbFrags : ℕ} {s t : Device} {e : Event}

/-! ## The indexes at a restart -/

/-- The next descriptors of the driver are those at which a reset NIC continues. -/
def InitSnapshot.Aligned (i : InitSnapshot) : Prop :=
  i.curRx.toNat % numRxDesc = 0 ∧ i.curTx.toNat % numTxDesc = 0 ∧
    i.dirtyTx.toNat % numTxDesc = 0

/-- At every return of `rtl8101_hw_init` so far, driver and NIC agreed on their position. -/
def AlignedInits (s : Device) : Prop := ∀ i ∈ s.hwInits, i.Aligned

/-- The indexes that `rtl8101_hw_init` would return with. -/
def Device.snapshot (s : Device) : InitSnapshot := ⟨s.rx.curRx, s.tx.curTx, s.tx.dirtyTx⟩

/-- A link-up that takes effect finds both rings at a whole number of turns. -/
def LinkUpAligned (s : Device) : Event → Prop
  | .linkTimer on => on = true → s.carrierOk = false → s.snapshot.Aligned
  | _ => True

/-- While the carrier is off, no receive pass finds a completed descriptor and nothing is
queued. -/
def QuietWhileDown (s : Device) : Event → Prop
  | .poll _ budget => s.carrierOk = false →
    budget = 0#32 ∨ (s.rx.rxDescArray (RxRing.entry s.rx.curRx)).own = true
  | .resetTask _ => s.carrierOk = false →
    (s.rx.rxDescArray (RxRing.entry s.rx.curRx)).own = true
  | .startXmit _ => s.carrierOk = true
  | _ => True

theorem aligned_zero : (⟨0#32, 0#32, 0#32⟩ : InitSnapshot).Aligned := by
  refine ⟨?_, ?_, ?_⟩ <;> decide

theorem Device.filled_curRx (s : Device) (o : OpenOutcome) : (s.filled o).rx.curRx = 0#32 :=
  (RxRing.rxFill_sameFrame _ _ _ _).curRx

theorem Device.ndoStop_hwInits (s : Device) : s.ndoStop.hwInits = s.hwInits := by
  unfold Device.ndoStop Device.closeDev Device.freeTxRing Device.freeRxRing Device.txClear
    Device.hwReset
  split_ifs <;> rfl

/-- The close turns the transmitter off before it clears the ring. -/
theorem Device.ndoStop_stolen (s : Device) : s.ndoStop.stolen = s.stolen := by
  unfold Device.ndoStop Device.closeDev Device.freeTxRing Device.freeRxRing Device.txClear
    Device.hwReset
  split_ifs <;> rfl

/-- The reset task either restarts the chip with zeroed indexes, or leaves it alone. -/
theorem Device.resetTask_hwInits (s : Device) (alloc : BitVec 32 → Allocator) :
    (s.resetTask alloc).hwInits = s.hwInits ∨
      (s.resetTask alloc).hwInits = s.hwInits ++ [⟨0#32, 0#32, 0#32⟩] := by
  unfold Device.resetTask
  split_ifs with hrun
  · exact .inl rfl
  · unfold Device.resetTail
    dsimp only
    split_ifs
    · exact .inr rfl
    · exact .inl rfl

/-- The restarts of one event: with zeroed indexes, but for the link-up. -/
theorem step_hwInits (h : step maxSkbFrags s e = some t) :
    t.hwInits = s.hwInits ∨ t.hwInits = s.hwInits ++ [⟨0#32, 0#32, 0#32⟩] ∨
      e = .linkTimer true ∧ s.carrierOk = false ∧ t.hwInits = s.hwInits ++ [s.snapshot] := by
  cases step_inv h with
  -- a failed `request_irq` comes after `rtl8101_hw_init`, and counts as a restart too
  | openDev o =>
    rcases Device.ndoOpen_cases s o with ⟨tx, rx, c, he, -⟩ | ⟨-, he⟩ | ⟨-, he⟩
    · rw [he]; exact .inl rfl
    · rw [he]
      refine .inr (.inl ?_)
      show s.hwInits ++ [⟨(s.filled o).rx.curRx, 0#32, 0#32⟩] = _
      rw [Device.filled_curRx]
    · rw [he]
      refine .inr (.inl ?_)
      show s.hwInits ++ [⟨(s.filled o).rx.curRx, 0#32, 0#32⟩] = _
      rw [Device.filled_curRx]
  | closeDev => exact .inl s.ndoStop_hwInits
  | poll alloc budget =>
    obtain ⟨mask, stolen, he⟩ := s.poll_eq maxSkbFrags alloc budget
    rw [he]
    exact .inl rfl
  | resetTask alloc =>
    rcases Device.resetTask_hwInits { s with taskPending := false } alloc with he | he
    · exact .inl he
    · exact .inr (.inl he)
  -- the only restart that takes the indexes as they are
  | linkTimer on =>
    unfold Device.checkLinkStatus
    split_ifs with hne hon
    · subst hon
      exact .inr (.inr ⟨rfl, by simpa using hne, rfl⟩)
    · exact .inl rfl
    · exact .inl rfl
  | receive | fetch | complete | startXmit | txTimeout => exact .inl rfl

theorem alignedInits_step (h : AlignedInits s) (hok : LinkUpAligned s e)
    (hstep : step maxSkbFrags s e = some t) : AlignedInits t := by
  intro i hi
  rcases step_hwInits hstep with he | he | ⟨rfl, hoff, he⟩
  · exact h i (he ▸ hi)
  · rcases List.mem_append.mp (he ▸ hi) with hi | hi
    · exact h i hi
    · rw [List.mem_singleton.mp hi]; exact aligned_zero
  · rcases List.mem_append.mp (he ▸ hi) with hi | hi
    · exact h i hi
    · rw [List.mem_singleton.mp hi]; exact hok rfl hoff

theorem not_alignedInits_step (hok : ¬ LinkUpAligned s e)
    (hstep : step maxSkbFrags s e = some t) : ¬ AlignedInits t := by
  cases step_inv hstep with
  | linkTimer on =>
    simp only [LinkUpAligned, Classical.not_imp] at hok
    obtain ⟨rfl, hoff, hbad⟩ := hok
    rw [Device.checkLinkStatus_up hoff]
    exact fun hall => hbad (hall _ (List.mem_append_right _ (List.mem_singleton.mpr rfl)))
  | _ => exact absurd trivial hok

/-- The invariant of a device that rests while its carrier is off. -/
structure Resting (s : Device) : Prop where
  timer : s.linkTimer = true → s.running = true
  rings : s.running = true → s.tx.txDescNull = false ∧ s.rx.rxDescNull = false
  zero : s.running = true → s.carrierOk = false →
    s.rx.curRx = 0#32 ∧ s.tx.curTx = 0#32 ∧ s.tx.dirtyTx = 0#32

theorem Resting.of_closed (hrun : s.running = false) (htimer : s.linkTimer = false) :
    Resting s := by
  refine ⟨?_, ?_, ?_⟩
  · intro h
    rw [htimer] at h; cases h
  · intro h
    rw [hrun] at h; cases h
  · intro h
    rw [hrun] at h; cases h

theorem Resting.ndoOpen (h : Resting s) (hrun : ¬ s.running = true) (o : OpenOutcome) :
    Resting (s.ndoOpen o) := by
  have hoff : s.linkTimer = false := by simpa using fun ht => hrun (h.timer ht)
  rcases Device.ndoOpen_cases s o with ⟨tx, rx, c, he, -⟩ | ⟨-, he⟩ | ⟨-, he⟩
  · rw [he]; exact .of_closed rfl hoff
  · rw [he]; exact .of_closed rfl hoff
  · rw [he]
    refine ⟨fun _ => rfl, fun _ => ⟨rfl, ?_⟩, fun _ _ => ⟨s.filled_curRx o, rfl, rfl⟩⟩
    exact (RxRing.rxFill_sameFrame _ _ _ _).rxDescNull

theorem Resting.ndoStop (h : Resting s) (hrun : s.running = true) : Resting s.ndoStop := by
  unfold Device.ndoStop Device.closeDev
  rw [if_pos (h.rings hrun)]
  exact .of_closed rfl rfl

theorem Resting.poll (h : Resting s) (hrun : s.running = true) {alloc : BitVec 32 → Allocator}
    {budget : BitVec 32} (hok : QuietWhileDown s (.poll alloc budget)) :
    Resting (s.poll maxSkbFrags alloc budget).1 := by
  obtain ⟨htx, hrx⟩ := h.rings hrun
  obtain ⟨mask, stolen, he⟩ := s.poll_eq maxSkbFrags alloc budget
  rw [he]
  refine ⟨fun _ => hrun, fun _ => ⟨?_, ?_⟩, ?_⟩
  · exact (txInterrupt_txDescNull maxSkbFrags s.tx).trans htx
  · exact (s.rx.rxInterrupt_rxDescNull alloc budget).trans hrx
  · intro _ hoff
    have hoff' : s.carrierOk = false := hoff
    obtain ⟨hcur, hct, hdt⟩ := h.zero hrun hoff'
    dsimp only
    rw [RxRing.rxInterrupt_curRx_of_own alloc _ (hok hoff'),
      txInterrupt_of_eq maxSkbFrags (hct.trans hdt.symm)]
    exact ⟨hcur, hct, hdt⟩

theorem Resting.resetTask (h : Resting s) {alloc : BitVec 32 → Allocator}
    (hok : QuietWhileDown s (.resetTask alloc)) :
    Resting (({ s with taskPending := false } : Device).resetTask alloc) := by
  unfold Device.resetTask
  split_ifs with hrun
  · exact { h with }
  · have hrun' : s.running = true := by simpa using hrun
    obtain ⟨htx, hrx⟩ := h.rings hrun'
    have hnull := (s.rx.rxInterrupt_rxDescNull alloc (~~~0#32)).trans hrx
    unfold Device.resetTail
    dsimp only
    split_ifs
    · exact ⟨fun _ => hrun', fun _ => ⟨(txClear_txDescNull _).trans htx, hnull⟩,
        fun _ _ => ⟨rfl, rfl, rfl⟩⟩
    · refine ⟨fun _ => hrun', fun _ => ⟨(txClear_txDescNull _).trans htx, hnull⟩, ?_⟩
      intro _ hoff
      have hoff' : s.carrierOk = false := hoff
      have hcur := RxRing.rxInterrupt_curRx_of_own alloc (~~~0#32) (.inr (hok hoff'))
      exact ⟨hcur.trans (h.zero hrun' hoff').1, rfl, rfl⟩

theorem Resting.checkLinkStatus (h : Resting s) (hrun : s.running = true) (on : Bool) :
    Resting (s.checkLinkStatus on) := by
  obtain ⟨htx, hrx⟩ := h.rings hrun
  unfold Device.checkLinkStatus
  split_ifs with hne hon
  · exact ⟨fun _ => hrun, fun _ => ⟨htx, hrx⟩, fun _ hoff => by cases hoff⟩
  · exact ⟨fun _ => hrun, fun _ => ⟨(txClear_txDescNull _).trans htx, hrx⟩,
      fun _ _ => ⟨rfl, rfl, rfl⟩⟩
  · exact h

theorem Resting.step (h : Resting s) (hok : QuietWhileDown s e)
    (hstep : step maxSkbFrags s e = some t) : Resting t := by
  cases step_inv hstep with
  | openDev o hrun => exact h.ndoOpen (by simp [hrun]) o
  | closeDev hrun => exact h.ndoStop hrun
  | poll alloc budget hrun => exact h.poll hrun hok
  | startXmit skb _ _ =>
    have hon : s.carrierOk = true := hok
    have hnull := startXmit_txDescNull maxSkbFrags s.tx skb
    refine ⟨h.timer, fun hr => ⟨hnull.trans (h.rings hr).1, (h.rings hr).2⟩, ?_⟩
    intro _ hoff
    exact absurd (hoff.symm.trans hon) (by decide)
  | resetTask alloc => exact h.resetTask hok
  | linkTimer on htimer => exact h.checkLinkStatus (h.timer htimer) on
  | receive | fetch | complete | txTimeout => exact { h with }

/-- **Restarts**: in every run driver and NIC agree at each return of `rtl8101_hw_init` exactly
when every link-up that takes effect finds both rings at a whole number of turns. This holds when
both rings rest while the carrier is off. -/
theorem alignedInits_iff (maxSkbFrags : ℕ) (es : List Event) :
    (Always (step maxSkbFrags) AlignedInits Device.registered es ↔
        Along (step maxSkbFrags) LinkUpAligned Device.registered es) ∧
      (Along (step maxSkbFrags) QuietWhileDown Device.registered es →
        Along (step maxSkbFrags) LinkUpAligned Device.registered es) := by
  refine ⟨always_iff_along (J := AlignedInits) (fun _ h => h)
    (fun _ _ _ h hok hstep => alignedInits_step h hok hstep)
    (fun _ _ _ _ hok hstep => not_alignedInits_step hok hstep) (fun i hi => by cases hi) es, ?_⟩
  intro hquiet
  refine hquiet.imp (I := Resting) (fun _ _ _ h hok hstep => h.step hok hstep) ?_
    (.of_closed rfl rfl)
  intro s e t h _ hstep
  cases step_inv hstep with
  | linkTimer on htimer =>
    intro _ hoff
    obtain ⟨hcur, hct, hdt⟩ := h.zero (h.timer htimer) hoff
    rw [Device.snapshot, hcur, hct, hdt]
    exact aligned_zero
  | _ => trivial

/-- The run of a device whose link comes up right after the open. -/
theorem alignedInits_iff_up :
    (Always (step 17) AlignedInits Device.registered [.openDev .plenty, .linkTimer true] ↔
        Along (step 17) LinkUpAligned Device.registered [.openDev .plenty, .linkTimer true]) ∧
      (Along (step 17) QuietWhileDown Device.registered [.openDev .plenty, .linkTimer true] →
        Along (step 17) LinkUpAligned Device.registered [.openDev .plenty, .linkTimer true]) :=
  alignedInits_iff 17 _

/-- On a device without a carrier, one frame that arrives and is polled before the link-up makes
the chip restart one descriptor behind the driver. -/
theorem RxRing.Opened.receive_linkUp {s₀ : Device} {r₀ : RxRing} (hopen : r₀.Opened s.rx)
    (hstart : s₀.Started s) (hoff : s.carrierOk = false) (alloc : BitVec 32 → Allocator) :
    ∃ t, run (step 17) s [.receive pingFrame, .poll alloc 1#32, .linkTimer true] = some t ∧
      ⟨1#32, 0#32, 0#32⟩ ∈ t.hwInits := by
  obtain ⟨s₁, hstep₁, hs₁⟩ : ∃ s₁, step 17 s (.receive pingFrame) = some s₁ ∧ s₁ = { s with
      rx := s.rx.stored 0 pingFrame
      chip := { s.chip with rxNic := ⟨nextPos 0 (s.rx.rxDescArray 0)⟩ } } :=
    ⟨_, Device.receive_eq_some_iff.mpr
      ⟨hstart.rxEnb, 0, by rw [hstart.rxNic]; rfl, hopen.own 0, rfl⟩, rfl⟩
  have hcur : (s₁.rx.rxInterrupt alloc 1#32).1.curRx = 1#32 := by
    rw [hs₁]
    exact RxRing.rxInterrupt_one alloc hopen.repr.null hopen.curRx hopen.dirtyRx
      (s.rx.stored_own 0 pingFrame)
  have htx : s₁.tx.txInterrupt 17 = s.tx := by
    rw [hs₁]
    exact txInterrupt_of_eq 17 (hstart.curTx.trans hstart.dirtyTx.symm)
  obtain ⟨mask, stolen, hpoll⟩ := s₁.poll_eq 17 alloc 1#32
  have hstep₂ : step 17 s₁ (.poll alloc 1#32) = some (s₁.poll 17 alloc 1#32).1 :=
    if_pos (by rw [hs₁]; exact hstart.running)
  rw [hpoll, htx] at hstep₂
  obtain ⟨s₂, hs₂⟩ : ∃ s₂, s₂ = ({ s₁ with
      rx := (s₁.rx.rxInterrupt alloc 1#32).1, tx := s.tx
      chip := { s₁.chip with intrMask := mask }, stolen := stolen } : Device) := ⟨_, rfl⟩
  rw [← hs₂] at hstep₂
  have hoff₂ : s₂.carrierOk = false := by rw [hs₂, hs₁]; exact hoff
  have hstep₃ : step 17 s₂ (.linkTimer true) = some { s₂.hwInit with carrierOk := true } := by
    rw [← Device.checkLinkStatus_up hoff₂]
    exact if_pos (by rw [hs₂, hs₁]; exact hstart.linkTimer)
  refine ⟨_, by rw [run_cons hstep₁, run_cons hstep₂, run_cons hstep₃, run_nil], ?_⟩
  have hsnap : s₂.snapshot = ⟨1#32, 0#32, 0#32⟩ := by
    rw [Device.snapshot, hs₂]
    dsimp only
    rw [hcur, hstart.curTx, hstart.dirtyTx]
  exact List.mem_append_right _ (List.mem_singleton.mpr hsnap.symm)

/-- A frame that arrives and is polled between the open and the first tick of the link timer. -/
theorem linkUp_misaligned :
    ∃ t, run (step 17) Device.registered [.openDev .plenty, .receive pingFrame,
        .poll OpenOutcome.plenty.alloc 1#32, .linkTimer true] = some t ∧
      ⟨1#32, 0#32, 0#32⟩ ∈ t.hwInits ∧ ¬ AlignedInits t := by
  have hrun := Device.ndoOpen_plenty (s := Device.registered) rfl
  have hstart := Device.ndoOpen_started hrun
  have hstep : step 17 Device.registered (.openDev .plenty) =
      some (Device.registered.ndoOpen .plenty) := rfl
  obtain ⟨t, ht, hmem⟩ :=
    (Device.ndoOpen_opened hrun).receive_linkUp hstart hstart.carrierOk OpenOutcome.plenty.alloc
  refine ⟨t, (run_cons hstep _).trans ht, hmem, ?_⟩
  intro h
  exact absurd (h _ hmem).1 (by decide)

/-! ## Buffers taken from the NIC -/

namespace TxRing

variable {r r' : TxRing}

/-- The entry `i` holds a buffer that the NIC owns. -/
def WithNic (r : TxRing) (i : Fin numTxDesc) : Prop :=
  (r.txSkb i).len ≠ 0#32 ∧ (r.txDescArray i).own = true

theorem freeTxSkb_ownedUnmaps (r : TxRing) (i : Fin numTxDesc) :
    (r.freeTxSkb i).ownedUnmaps = r.ownedUnmaps := by
  unfold freeTxSkb
  split <;> rfl

/-- The reclaim loop takes nothing from the NIC. -/
theorem TxPass.ownedUnmaps {p p' : ℕ} (hpass : TxPass r p r' p') :
    r'.ownedUnmaps = r.ownedUnmaps := by
  induction hpass with
  | done r p => rfl
  | @next r r' p p' hown _ ih =>
    rw [ih]
    unfold txReclaim
    dsimp only
    split
    · rw [freeTxSkb_ownedUnmaps]; simp [unmapTxSkb, hown]
    · simp [unmapTxSkb, hown]

theorem txInterrupt_ownedUnmaps (maxSkbFrags : ℕ) (r : TxRing) :
    (r.txInterrupt maxSkbFrags).ownedUnmaps = r.ownedUnmaps := by
  obtain ⟨r', q, he, hpass, -⟩ := txLoop_txPass (r.curTx - r.dirtyTx).toNat r r.dirtyTx.toNat
  rw [BitVec.ofNat_toNat, BitVec.setWidth_eq] at he
  unfold txInterrupt wakeQueue
  rw [he]
  dsimp only
  split_ifs <;> exact hpass.ownedUnmaps

/-- One turn of the clearing loop takes a buffer from the NIC if its entry holds such a one. -/
theorem txClearEntry_ownedUnmaps (r : TxRing) (i : Fin numTxDesc) :
    r.ownedUnmaps ≤ (r.txClearEntry i).ownedUnmaps ∧
      (r.ownedUnmaps < (r.txClearEntry i).ownedUnmaps ↔ r.WithNic i) := by
  unfold txClearEntry WithNic
  by_cases hlen : (r.txSkb i).len = 0#32
  · simp [hlen]
  · rw [if_pos hlen]
    dsimp only
    rw [freeTxSkb_ownedUnmaps]
    cases hown : (r.txDescArray i).own <;> simp [unmapTxSkb, hown, hlen]

theorem unmap_free_slots (r : TxRing) (i : Fin numTxDesc) :
    (((r.unmapTxSkb i).freeTxSkb i).txSkb i).len = 0#32 ∧
      ∀ j ≠ i, ((r.unmapTxSkb i).freeTxSkb i).txSkb j = r.txSkb j ∧
        ((r.unmapTxSkb i).freeTxSkb i).txDescArray j = r.txDescArray j := by
  unfold freeTxSkb
  split
  · exact ⟨by simp [unmapTxSkb], fun j hj => by simp [unmapTxSkb, hj]⟩
  · exact ⟨by simp [unmapTxSkb], fun j hj => by simp [unmapTxSkb, hj]⟩

/-- One turn of the clearing loop vacates its entry and no other. -/
theorem txClearEntry_withNic_iff (r : TxRing) (i j : Fin numTxDesc) :
    (r.txClearEntry i).WithNic j ↔ j ≠ i ∧ r.WithNic j := by
  unfold txClearEntry
  split_ifs with hlen
  · obtain ⟨hself, hother⟩ := unmap_free_slots r i
    by_cases hj : j = i
    · subst hj
      simp [WithNic, hself]
    · simp [WithNic, hother j hj, hj]
  · constructor
    · exact fun h => ⟨fun hj => h.1 (by simpa [hj] using hlen), h⟩
    · exact fun h => h.2

/-- Over a list of positions, the clearing loop takes a buffer from the NIC exactly when one of
their entries holds such a one. -/
theorem foldl_txClearEntry_ownedUnmaps (l : List ℕ) : ∀ r : TxRing,
    r.ownedUnmaps ≤
        (l.foldl (fun r p => r.txClearEntry (pos numTxDesc p)) r).ownedUnmaps ∧
      (r.ownedUnmaps < (l.foldl (fun r p => r.txClearEntry (pos numTxDesc p)) r).ownedUnmaps ↔
        ∃ p ∈ l, r.WithNic (pos numTxDesc p)) := by
  -- the entries still to come are judged in the ring as it was at the start
  induction l with
  | nil => simp
  | cons p l ih =>
    intro r
    obtain ⟨hle, hlt⟩ := ih (r.txClearEntry (pos numTxDesc p))
    obtain ⟨hle₁, hlt₁⟩ := txClearEntry_ownedUnmaps r (pos numTxDesc p)
    rw [List.foldl_cons]
    refine ⟨hle₁.trans hle, ?_⟩
    simp only [List.mem_cons, exists_eq_or_imp]
    by_cases hp : r.WithNic (pos numTxDesc p)
    · exact ⟨fun _ => .inl hp, fun _ => (hlt₁.mpr hp).trans_le hle⟩
    · have heq : (r.txClearEntry (pos numTxDesc p)).ownedUnmaps = r.ownedUnmaps :=
        le_antisymm (not_lt.mp fun h => hp (hlt₁.mp h)) hle₁
      rw [← heq, hlt]
      simp only [txClearEntry_withNic_iff, hp, false_or]
      constructor
      · rintro ⟨p', hp', -, hw⟩
        exact ⟨p', hp', hw⟩
      · rintro ⟨p', hp', hw⟩
        exact ⟨p', hp', fun he => hp (he ▸ hw), hw⟩

/-- **`rtl8101_tx_clear` takes a buffer from the NIC** exactly when its loop runs and some entry
holds such a one. -/
theorem txClear_ownedUnmaps (r : TxRing) :
    r.ownedUnmaps ≤ r.txClear.ownedUnmaps ∧ (r.ownedUnmaps < r.txClear.ownedUnmaps ↔
      r.dirtyTx.toNat + numTxDesc < 2 ^ 32 ∧ ∃ i, r.WithNic i) := by
  -- when the bound of the loop wraps, it is below `dirty_tx` and no turn is taken
  by_cases hrange : r.dirtyTx.toNat + numTxDesc < 2 ^ 32
  · obtain ⟨hle, hlt⟩ :=
      foldl_txClearEntry_ownedUnmaps (List.range' r.dirtyTx.toNat numTxDesc) r
    obtain ⟨r', hr'⟩ : ∃ r', (List.range' r.dirtyTx.toNat numTxDesc).foldl
      (fun r p => r.txClearEntry (pos numTxDesc p)) r = r' := ⟨_, rfl⟩
    rw [hr'] at hle hlt
    rw [txClear_eq hrange, hr']
    refine ⟨hle, hlt.trans ⟨fun ⟨p, _, hw⟩ => ⟨hrange, _, hw⟩, ?_⟩⟩
    rintro ⟨_, i, hw⟩
    obtain ⟨p, hp, hp', rfl⟩ := exists_pos_eq r.dirtyTx.toNat i
    exact ⟨p, List.mem_range'_1.mpr ⟨hp, hp'⟩, hw⟩
  · rw [txClear_of_wrap (by omega)]
    exact ⟨le_rfl, ⟨fun h => absurd h (lt_irrefl _), fun h => absurd h.1 hrange⟩⟩

end TxRing

/-- A reset task on a running transmitter finds no buffer that the NIC owns, or does not get to
it. -/
def SafeReset (s : Device) : Event → Prop
  | .resetTask _ => s.running = true → s.chip.txEnb = true →
    s.tx.dirtyTx.toNat + numTxDesc < 2 ^ 32 → ∀ i, ¬ s.tx.WithNic i
  | _ => True

/-- Neither a link-up nor an open restarts the chip while a reset task is pending. -/
def NoRestartWhilePending (s : Device) : Event → Prop
  | .openDev _ => s.taskPending = false
  | .linkTimer on => on = true → s.carrierOk = false → s.taskPending = false
  | _ => True

theorem Device.txInterrupt_stolen (maxSkbFrags : ℕ) (s : Device) :
    (s.txInterrupt maxSkbFrags).stolen = s.stolen := by
  simp [Device.txInterrupt, txInterrupt_ownedUnmaps]

theorem Device.resetTail_stolen (s : Device) (rxOk : Bool) :
    (s.resetTail rxOk).stolen = s.txClear.stolen := by
  cases rxOk <;> rfl

/-- What the reset task takes from the NIC. -/
theorem Device.resetTask_stolen (s : Device) (alloc : BitVec 32 → Allocator)
    (hrun : s.running = true) : (s.resetTask alloc).stolen =
      s.stolen + if s.chip.txEnb then s.tx.txClear.ownedUnmaps - s.tx.ownedUnmaps else 0 := by
  unfold Device.resetTask
  rw [if_neg (by simp [hrun])]
  rw [Device.resetTail_stolen]
  rfl

/-- Only the reset task takes buffers from a running NIC. -/
theorem step_stolen (h : step maxSkbFrags s e = some t) :
    t.stolen = s.stolen ∨ (∃ alloc, e = .resetTask alloc) ∧ s.running = true ∧
      t.stolen = s.stolen +
        if s.chip.txEnb then s.tx.txClear.ownedUnmaps - s.tx.ownedUnmaps else 0 := by
  cases step_inv h with
  | openDev o =>
    rcases Device.ndoOpen_cases s o with ⟨tx, rx, c, he, -⟩ | ⟨-, he⟩ | ⟨-, he⟩ <;>
      rw [he] <;> exact .inl rfl
  | closeDev => exact .inl s.ndoStop_stolen
  | poll alloc budget =>
    have hkept := Device.txInterrupt_stolen maxSkbFrags
      { s with rx := (s.rx.rxInterrupt alloc budget).1 }
    left
    unfold Device.poll
    dsimp only
    split_ifs
    · exact hkept
    · exact hkept
  | resetTask alloc =>
    by_cases hrun : s.running = true
    · exact .inr ⟨⟨alloc, rfl⟩, hrun, Device.resetTask_stolen _ alloc hrun⟩
    · exact .inl (by simp [Device.resetTask, hrun])
  | linkTimer on =>
    left
    unfold Device.checkLinkStatus
    split_ifs <;> rfl
  | receive | fetch | complete | startXmit | txTimeout => exact .inl rfl

theorem stolen_step (h : s.stolen = 0) (hok : SafeReset s e)
    (hstep : step maxSkbFrags s e = some t) : t.stolen = 0 := by
  rcases step_stolen hstep with he | ⟨⟨alloc, rfl⟩, hrun, he⟩
  · rw [he, h]
  · rw [he, h]
    split_ifs with hen
    · obtain ⟨-, hlt⟩ := txClear_ownedUnmaps s.tx
      have hno : ¬ s.tx.ownedUnmaps < s.tx.txClear.ownedUnmaps := by
        intro hless
        obtain ⟨hrange, i, hi⟩ := hlt.mp hless
        exact hok hrun hen hrange i hi
      omega
    · rfl

theorem not_stolen_step (hok : ¬ SafeReset s e) (hstep : step maxSkbFrags s e = some t) :
    t.stolen ≠ 0 := by
  cases step_inv hstep with
  | resetTask alloc =>
    simp only [SafeReset, Classical.not_imp, not_forall, not_not] at hok
    obtain ⟨hrun, hen, hrange, i, hi⟩ := hok
    have hless := (txClear_ownedUnmaps s.tx).2.mpr ⟨hrange, i, hi⟩
    have he := Device.resetTask_stolen { s with taskPending := false } alloc hrun
    rw [if_pos hen] at he
    rw [he]
    dsimp only
    omega
  | _ => exact absurd trivial hok

/-- While a reset task is pending the transmitter is off. -/
theorem pending_step (h : s.taskPending = true → s.chip.txEnb = false)
    (hok : NoRestartWhilePending s e) (hstep : step maxSkbFrags s e = some t) :
    t.taskPending = true → t.chip.txEnb = false := by
  cases step_inv hstep with
  | openDev o =>
    have hidle : s.taskPending = false := hok
    intro hp
    have hkept : (s.ndoOpen o).taskPending = s.taskPending := by
      rcases Device.ndoOpen_cases s o with ⟨tx, rx, c, he, -⟩ | ⟨-, he⟩ | ⟨-, he⟩ <;>
        rw [he] <;> rfl
    rw [hkept, hidle] at hp
    cases hp
  | closeDev =>
    unfold Device.ndoStop Device.closeDev
    split_ifs
    · exact fun _ => rfl
    · exact h
  | poll alloc budget =>
    obtain ⟨mask, stolen, he⟩ := s.poll_eq maxSkbFrags alloc budget
    rw [he]
    exact h
  | txTimeout => exact fun _ => rfl
  | resetTask alloc hp =>
    unfold Device.resetTask
    split_ifs
    · exact fun hp' => by cases hp'
    · unfold Device.resetTail
      dsimp only
      split_ifs
      · exact fun hp' => by cases hp'
      · exact fun _ => h hp
  | linkTimer on =>
    unfold Device.checkLinkStatus
    split_ifs with hne hon
    · intro hp
      have hidle := hok hon (by simpa [hon] using hne)
      exact absurd (hp.symm.trans hidle) (by decide)
    · exact fun _ => rfl
    · exact h
  | receive | fetch | complete | startXmit => exact h

/-- **Buffers of a running NIC**: in every run no buffer is taken from a descriptor that the NIC
owns while its transmitter is enabled, exactly when every reset task is safe. This holds when
neither a link-up nor an open restarts the chip while a reset task is pending. -/
theorem stolen_iff (maxSkbFrags : ℕ) (es : List Event) :
    (Always (step maxSkbFrags) (fun t => t.stolen = 0) Device.registered es ↔
        Along (step maxSkbFrags) SafeReset Device.registered es) ∧
      (Along (step maxSkbFrags) NoRestartWhilePending Device.registered es →
        Along (step maxSkbFrags) SafeReset Device.registered es) := by
  refine ⟨always_iff_along (J := fun t => t.stolen = 0) (fun _ h => h)
    (fun _ _ _ h hok hstep => stolen_step h hok hstep)
    (fun _ _ _ _ hok hstep => not_stolen_step hok hstep) rfl es, ?_⟩
  intro hcalm
  refine hcalm.imp (I := fun t => t.taskPending = true → t.chip.txEnb = false)
    (fun _ _ _ h hok hstep => pending_step h hok hstep) ?_ (fun h => by cases h)
  intro s e t h _ hstep
  cases step_inv hstep with
  | resetTask alloc hp =>
    intro _ hen
    exact absurd (hen.symm.trans (h hp)) (by decide)
  | _ => trivial

/-- The run of a device that times out once. -/
theorem stolen_iff_timeout :
    (Always (step 17) (fun t => t.stolen = 0) Device.registered
          [.openDev .plenty, .txTimeout, .resetTask OpenOutcome.plenty.alloc] ↔
        Along (step 17) SafeReset Device.registered
          [.openDev .plenty, .txTimeout, .resetTask OpenOutcome.plenty.alloc]) ∧
      (Along (step 17) NoRestartWhilePending Device.registered
          [.openDev .plenty, .txTimeout, .resetTask OpenOutcome.plenty.alloc] →
        Along (step 17) SafeReset Device.registered
          [.openDev .plenty, .txTimeout, .resetTask OpenOutcome.plenty.alloc]) :=
  stolen_iff 17 _

/-- A buffer of 60 bytes. -/
def pingSkb : SkBuff := ⟨0x1000#64, 60#32, 0#32, 0#8⟩

/-- The stack queues buffers that the NIC does not send, until the queue is stopped. -/
theorem SessionAt.fill {b : TxRing} {S X : List SkBuff} (m : ℕ) :
    ∀ {s : Device} {q : ℕ → SkBuff} {k : ℕ} {A : List SkBuff},
      SessionAt 17 b s q 0 k A S X → k + m = 1007 → s.tx.queueStopped = decide (1007 ≤ k) →
      ∃ tx q A, run (step 17) s (List.replicate m (.startXmit pingSkb)) = some { s with tx := tx } ∧
        SessionAt 17 b { s with tx := tx } q 0 1007 A S X ∧ tx.queueStopped = true := by
  -- over the number of buffers still to queue; the last one stops the queue
  induction m with
  | zero =>
    intro s q k A h hk hq
    obtain rfl : k = 1007 := by omega
    exact ⟨s.tx, q, A, rfl, h, hq⟩
  | succ m ih =>
    intro s q k A h hk hq
    have hawake : s.tx.queueStopped = false := by
      rw [hq]
      exact decide_eq_false (by omega)
    have h' := h.startXmit (by decide) hawake (show pingSkb.nrFrags = 0#8 from rfl) (by decide)
    have hstep : step 17 s (.startXmit pingSkb) = some (s.startXmit 17 pingSkb).1 :=
      if_pos ⟨h.running, hawake⟩
    have hq' : (s.startXmit 17 pingSkb).1.tx.queueStopped = decide (1007 ≤ k + 1) := by
      rw [Device.startXmit, h.startXmit_eq (by decide) hawake rfl, hawake]
      have := numTxDesc_eq
      by_cases hlast : 1007 ≤ k + 1
      · simp only [hlast, decide_true]
        exact if_pos (by omega)
      · simp only [hlast, decide_false]
        exact if_neg (by omega)
    obtain ⟨tx, q', A', hrun, hs, hstop⟩ := ih h' (by omega) hq'
    exact ⟨tx, q', A', (run_cons hstep _).trans hrun, hs, hstop⟩

/-- The Tx timeout of a full queue, a link flap before its reset task, and one more buffer: the
task takes the buffer from the running NIC. -/
theorem SessionAt.timeout_flap {b : TxRing} {q : ℕ → SkBuff} {k : ℕ} {A S X : List SkBuff}
    (h : SessionAt 17 b s q 0 k A S X) (hcarrier : s.carrierOk = true)
    (htimer : s.linkTimer = true) (alloc : BitVec 32 → Allocator) :
    ∃ t, run (step 17) s [.txTimeout, .linkTimer false, .linkTimer true, .startXmit pingSkb,
      .resetTask alloc] = some t ∧ t.stolen ≠ 0 := by
  have hrange : ClearsInRange s.txTimeout := by
    show s.tx.dirtyTx.toNat < _
    rw [h.dirty]
    decide
  have hstep₁ : step 17 s .txTimeout = some s.txTimeout := if_pos h.running
  obtain ⟨s₂, hs₂⟩ : ∃ s₂, s.txTimeout.checkLinkStatus false = s₂ := ⟨_, rfl⟩
  have hstep₂ : step 17 s.txTimeout (.linkTimer false) = some s₂ := by
    rw [← hs₂]
    exact if_pos htimer
  have h₂ := h.txTimeout.linkDown (by decide) hcarrier hrange
  have hkept₂ : s₂.carrierOk = false ∧ s₂.linkTimer = true ∧ s₂.taskPending = true := by
    rw [← hs₂, Device.checkLinkStatus_down (s := s.txTimeout) hcarrier]
    exact ⟨rfl, htimer, rfl⟩
  rw [hs₂] at h₂
  obtain ⟨s₃, hs₃⟩ : ∃ s₃, s₂.checkLinkStatus true = s₃ := ⟨_, rfl⟩
  have hstep₃ : step 17 s₂ (.linkTimer true) = some s₃ := by
    rw [← hs₃]
    exact if_pos hkept₂.2.1
  have h₃ := h₂.linkUp hkept₂.1
  have hkept₃ : s₃.tx.queueStopped = false ∧ s₃.chip.txEnb = true ∧ s₃.taskPending = true := by
    rw [← hs₃, Device.checkLinkStatus_up hkept₂.1]
    exact ⟨rfl, rfl, hkept₂.2.2⟩
  rw [hs₃] at h₃
  obtain ⟨hawake, hen, hpending⟩ := hkept₃
  have he := h₃.startXmit_eq (by decide) hawake (show pingSkb.nrFrags = 0#8 from rfl)
  obtain ⟨s₄, hs₄⟩ : ∃ s₄, (s₃.startXmit 17 pingSkb).1 = s₄ := ⟨_, rfl⟩
  have hstep₄ : step 17 s₃ (.startXmit pingSkb) = some s₄ := by
    rw [← hs₄]
    exact if_pos ⟨h₃.running, hawake⟩
  have hkept₄ : s₄.running = true ∧ s₄.chip.txEnb = true ∧ s₄.taskPending = true := by
    rw [← hs₄]
    exact ⟨h₃.running, hen, hpending⟩
  have hwith : s₄.tx.WithNic (pos numTxDesc 0) ∧ s₄.tx.dirtyTx = 0#32 := by
    rw [← hs₄, Device.startXmit, he]
    refine ⟨⟨?_, ?_⟩, h₃.dirty⟩
    · simp [queued, pingSkb]
    · simpa [queued, Desc.own] using xmitWord_own _ _
  have hunsafe : ¬ SafeReset s₄ (.resetTask alloc) := fun hsafe =>
    hsafe hkept₄.1 hkept₄.2.1 (by rw [hwith.2]; decide) _ hwith.1
  obtain ⟨s₅, hstep₅⟩ : ∃ s₅, step 17 s₄ (.resetTask alloc) = some s₅ := ⟨_, if_pos hkept₄.2.2⟩
  refine ⟨s₅, ?_, not_stolen_step hunsafe hstep₅⟩
  rw [run_cons hstep₁, run_cons hstep₂, run_cons hstep₃, run_cons hstep₄, run_cons hstep₅, run_nil]

/-- A device without a carrier gets a link and a full queue; the NIC hangs, and the link flaps
between the Tx timeout and its reset task. -/
theorem SessionAt.hang {s₀ : Device} {b : TxRing} {q : ℕ → SkBuff} {A S X : List SkBuff}
    (h : SessionAt 17 b s q 0 0 A S X) (hstart : s₀.Started s) (hoff : s.carrierOk = false)
    (alloc : BitVec 32 → Allocator) :
    ∃ t, run (step 17) s ([.linkTimer true] ++ List.replicate 1007 (.startXmit pingSkb) ++
        [.txTimeout, .linkTimer false, .linkTimer true, .startXmit pingSkb, .resetTask alloc]) =
          some t ∧ t.stolen ≠ 0 := by
  have hstep : step 17 s (.linkTimer true) = some (s.checkLinkStatus true) :=
    if_pos hstart.linkTimer
  have hup : (s.checkLinkStatus true).tx.queueStopped = false ∧
      (s.checkLinkStatus true).carrierOk = true ∧ (s.checkLinkStatus true).linkTimer = true := by
    rw [Device.checkLinkStatus_up hoff]
    exact ⟨rfl, rfl, hstart.linkTimer⟩
  obtain ⟨tx, q', A', hfill, hfull, -⟩ := (h.linkUp hoff).fill 1007 rfl hup.1
  obtain ⟨t, ht, hstolen⟩ := hfull.timeout_flap hup.2.1 hup.2.2 alloc
  refine ⟨t, ?_, hstolen⟩
  rw [run_append, run_append, run_cons hstep, run_nil, Option.bind_some, hfill,
    Option.bind_some, ht]

/-- The same, on a freshly opened device. -/
theorem resetTask_steals :
    ∃ t, run (step 17) Device.registered (.openDev .plenty :: ([.linkTimer true] ++
        List.replicate 1007 (.startXmit pingSkb) ++ [.txTimeout, .linkTimer false,
        .linkTimer true, .startXmit pingSkb, .resetTask OpenOutcome.plenty.alloc])) = some t ∧
      t.stolen ≠ 0 := by
  have hopen := Device.ndoOpen_plenty (s := Device.registered) rfl
  have hstart := Device.ndoOpen_started hopen
  have hstep : step 17 Device.registered (.openDev .plenty) =
      some (Device.registered.ndoOpen .plenty) := rfl
  obtain ⟨t, ht, hstolen⟩ := (SessionAt.of_open (show 17 < numTxDesc by decide) hopen).hang
    hstart hstart.carrierOk OpenOutcome.plenty.alloc
  exact ⟨t, (run_cons hstep _).trans ht, hstolen⟩

end Rtl8101
