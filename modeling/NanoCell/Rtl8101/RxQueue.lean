import NanoCell.Rtl8101.RxWindow

/-!
# The Rx ring is a queue

The NIC stores frames into the descriptors in ring order, and the driver hands them up in the
order of its index `cur_rx`. Read on positions, the driver has processed the first `C` of the
frames received, and the next ones stand in the descriptors from `C` on, up to the first one that
the NIC still owns. Errors, empty slots and late refills do not disturb this: a descriptor without
a buffer is never with the NIC, and no descriptor goes back to the NIC before it was processed.

## Main definitions

* `RxRing.Shows r i f`: the descriptor `i` holds the completed frame `f`
* `RxRing.Tally b r fs`: since the ring `b`, exactly the frames `fs` were handed up and counted
* `RxRing.Queue b r R D C`: the joint invariant of the driver and the NIC, of which `R` were
  received
* `FrameEvent`, `frameStep`: receptions and polls, with the list of the frames received
* `RxRing.Refines`: the ring stands for a queue of which some frames were delivered

## Main results

* `RxPass.queue`, `FillRun.queue`, `Queue.stored`: the receive pass, the refill and a reception
* `RxPass.frames`: what every turn of the receive loop adds for its frame, the pass adds for all
* `Queue.rxInterrupt`: a poll below its budget leaves no frame behind
* `refines_always`: the ring refines a queue along every run of receptions and polls
-/

namespace Rtl8101

open Counter Transition

namespace RxRing

/-! ## What the driver reports -/

/-- Since the ring `b`, exactly the frames `fs` were processed: the good ones were handed up in
this order and counted with their lengths, the others counted as errors. -/
structure Tally (b r : RxRing) (fs : List RxFrame) : Prop where
  handedUp : r.handedUp.map Packet.data =
    b.handedUp.map Packet.data ++ fs.filterMap RxFrame.payload?
  packets : r.stats.rxPackets =
    b.stats.rxPackets + BitVec.ofNat 64 (fs.filterMap RxFrame.payload?).length
  bytes : r.stats.rxBytes =
    b.stats.rxBytes + BitVec.ofNat 64 ((fs.filterMap RxFrame.payload?).map List.length).sum
  errors : r.stats.rxErrors = b.stats.rxErrors + BitVec.ofNat 64 (fs.countP RxFrame.errored)

/-- The descriptor `i` is completed and its buffer holds the frame `f`. -/
structure Shows (r : RxRing) (i : Fin numRxDesc) (f : RxFrame) : Prop where
  own : (r.rxDescArray i).own = false
  rxRes : hasBits (r.rxDescArray i).opts1 rxRes = f.errored
  len : lenField (r.rxDescArray i).opts1 = lenField f.status
  data : ∃ skb, r.rxSkbuff i = some skb ∧ r.mem skb.dma = f.bytes

variable {b r r' : RxRing} {fs R : List RxFrame} {f : RxFrame} {i : Fin numRxDesc}
  {D C p q : ℕ}

/-- A frame stays where it is while nobody touches its descriptor and its buffer. -/
theorem Shows.congr (h : r.Shows i f) (hdesc : r'.rxDescArray i = r.rxDescArray i)
    (hslot : r'.rxSkbuff i = r.rxSkbuff i) (hmem : r'.mem = r.mem) : r'.Shows i f := by
  obtain ⟨hown, hres, hlen, hdata⟩ := h
  rw [← hdesc] at hown hres hlen
  rw [← hslot, ← hmem] at hdata
  exact ⟨hown, hres, hlen, hdata⟩

theorem Tally.nil (hup : r.handedUp = b.handedUp) (hstats : r.stats = b.stats) :
    Tally b r [] := by
  constructor <;> simp [hup, hstats]

/-- An errored frame is counted. -/
theorem Tally.rxError (h : Tally b r fs) (hf : f.errored = true) (status : BitVec 32) :
    Tally b (r.rxError i status) (fs ++ [f]) := by
  have hpay : f.payload? = none := by simp [RxFrame.payload?, hf]
  refine ⟨?_, ?_, ?_, ?_⟩
  · simpa [RxRing.rxError, hpay] using h.handedUp
  · simpa [RxRing.rxError, hpay] using h.packets
  · simpa [RxRing.rxError, hpay] using h.bytes
  · rw [List.countP_append, BitVec.ofNat_add, ← BitVec.add_assoc, ← h.errors]
    simp [RxRing.rxError, hf]

/-- The packet size of a good frame: the CRC is taken off, and nothing wraps. -/
theorem pktSize_toNat {status : BitVec 32} {n : ℕ} (hlen : (lenField status).toNat = n)
    (h4 : 4 ≤ n) : (lenField status - 4#32).toNat = n - 4 := by
  have h4' : (4#32).toNat = 4 := rfl
  rw [BitVec.toNat_sub_of_le (BitVec.le_def.mpr (by omega)), hlen, h4']

theorem pktSize_signExtend {status : BitVec 32} {n : ℕ} (hlen : (lenField status).toNat = n)
    (h4 : 4 ≤ n) : (lenField status - 4#32).signExtend 64 = BitVec.ofNat 64 (n - 4) := by
  have hsize := pktSize_toNat hlen h4
  have hlt : n < 2 ^ 14 := by
    rw [← hlen, lenField_toNat]
    exact Nat.mod_lt _ (by decide)
  have hmsb : (lenField status - 4#32).msb = false := by
    rw [BitVec.msb_eq_false_iff_two_mul_lt]
    omega
  rw [BitVec.signExtend_eq_setWidth_of_msb_false hmsb]
  apply BitVec.eq_of_toNat_eq
  rw [BitVec.toNat_setWidth, BitVec.toNat_ofNat, hsize]

/-- A good frame is handed up, its bytes without the CRC. -/
theorem Tally.rxGood {l₀ : Ledger Mapping} {f₀ : List Fault} (h : Tally b r fs)
    (hrepr : Repr l₀ f₀ r D p) (hshow : r.Shows i f) (hwf : f.WellFormed)
    (hf : f.errored = false) :
    Tally b (r.rxGood i (r.rxDescArray i).opts1) (fs ++ [f]) := by
  obtain ⟨skb, hs, hmem⟩ := hshow.data
  obtain ⟨hlen, h4, -⟩ := hwf.resolve_left (by simp [hf])
  have hpay : f.payload? = some (f.bytes.take (f.bytes.length - 4)) := by
    simp [RxFrame.payload?, hf]
  rw [hrepr.rxGood_eq hs, hshow.len]
  refine ⟨?_, ?_, ?_, ?_⟩
  · simp [h.handedUp, hpay, hmem, pktSize_toNat hlen h4]
  · dsimp only
    rw [h.packets, BitVec.add_assoc]
    simp [hpay, BitVec.ofNat_add]
  · dsimp only
    rw [h.bytes, pktSize_signExtend hlen h4, BitVec.add_assoc, ← BitVec.ofNat_add]
    simp [hpay]
  · simpa [hf] using h.errors

/-- One turn of the receive loop reports the frame of its descriptor. -/
theorem Tally.rxEntry {l₀ : Ledger Mapping} {f₀ : List Fault} (h : Tally b r fs)
    (hrepr : Repr l₀ f₀ r D p) (hshow : r.Shows i f) (hwf : f.WellFormed) :
    Tally b (r.rxEntry i) (fs ++ [f]) := by
  unfold RxRing.rxEntry
  dsimp only
  split
  · next herr =>
    rw [hshow.rxRes] at herr
    exact h.rxError herr _
  · next hgood =>
    rw [hshow.rxRes, Bool.not_eq_true] at hgood
    exact h.rxGood hrepr hshow hwf hgood

/-- The reports are read off the packets handed up and the counters. -/
theorem Tally.congr (h : Tally b r fs) (hup : r'.handedUp = r.handedUp)
    (hstats : r'.stats = r.stats) : Tally b r' fs := by
  obtain ⟨hhanded, hpackets, hbytes, herrors⟩ := h
  rw [← hup] at hhanded
  rw [← hstats] at hpackets hbytes herrors
  exact ⟨hhanded, hpackets, hbytes, herrors⟩

/-! ## The joint invariant -/

/-- The invariant of the driver and the NIC since the ring `b`, `R` being the frames received:
the driver has processed the first `C` of them and has refilled up to `D`. From `C` on the frames
wait in the ring, and behind them every descriptor is offered to the NIC; a descriptor that was
processed and not reached by the refill is with the NIC only if it kept its buffer. -/
structure Queue (b r : RxRing) (R : List RxFrame) (D C : ℕ) : Prop where
  repr : Repr b.dma b.faults r D C
  le : D ≤ C
  done : C ≤ R.length
  room : R.length ≤ D + numRxDesc
  eor : ∀ i, (r.rxDescArray i).eor = decide ((i : ℕ) + 1 = numRxDesc)
  waiting : ∀ p f, C ≤ p → R[p]? = some f → r.Shows (pos numRxDesc p) f
  offered : ∀ p, R.length ≤ p → p < D + numRxDesc →
    (r.rxDescArray (pos numRxDesc p)).own = true
  passed : ∀ p, D ≤ p → p < C →
    (r.rxDescArray (pos numRxDesc p)).own = (r.rxSkbuff (pos numRxDesc p)).isSome

theorem Queue.lt_length (h : Queue b r R D C) (hlt : C < D + numRxDesc)
    (hown : (r.rxDescArray (pos numRxDesc C)).own = false) : C < R.length := by
  by_contra hge
  rw [h.offered C (by omega) hlt] at hown
  cases hown

/-- A descriptor that the NIC owns ends the frames that wait. -/
theorem Queue.eq_length (h : Queue b r R D C)
    (hown : (r.rxDescArray (pos numRxDesc C)).own = true) : C = R.length := by
  refine le_antisymm h.done (not_lt.mp ?_)
  intro hlt
  rw [(h.waiting C _ le_rfl (List.getElem?_eq_getElem hlt)).own] at hown
  cases hown

/-- **One turn of the receive loop** processes the frame at the position `C`. -/
theorem Queue.rxEntry (h : Queue b r R D C) (hlt : C < D + numRxDesc)
    (hown : (r.rxDescArray (pos numRxDesc C)).own = false) :
    Queue b (r.rxEntry (pos numRxDesc C)) R D (C + 1) := by
  have hle := h.le
  have hroom := h.room
  have hC := h.lt_length hlt hown
  have hget : R[C]? = some R[C] := List.getElem?_eq_getElem hC
  have hshow := h.waiting C _ le_rfl hget
  have hnext : ∀ p, C < p → p < D + numRxDesc → pos numRxDesc p ≠ pos numRxDesc C :=
    fun p hp hp' => (pos_ne hle hp hp').symm
  have hprev : ∀ p, D ≤ p → p < C → pos numRxDesc p ≠ pos numRxDesc C :=
    fun p hp hp' => pos_ne hp hp' hlt
  obtain ⟨skb, hs, -⟩ := hshow.data
  have hrepr := h.repr.rxEntry hle hlt
  revert hrepr
  unfold RxRing.rxEntry
  dsimp only
  split
  · intro hrepr
    refine ⟨hrepr, by omega, hC, hroom, ?_, ?_, ?_, ?_⟩
    · intro j
      rw [← h.eor j]
      by_cases hj : j = pos numRxDesc C
      · subst hj
        simp only [RxRing.rxError, Function.update_self]
        exact Desc.markToAsic_eor _ (h.repr.bufSz ▸ rxBufSize_ringEnd)
      · simp [RxRing.rxError, hj]
    · intro p f hp hf
      have hpR := (List.getElem?_eq_some_iff.mp hf).1
      refine (h.waiting p f (by omega) hf).congr ?_ rfl rfl
      simp [RxRing.rxError, hnext p (by omega) (by omega)]
    · intro p hp hp'
      simpa [RxRing.rxError, hnext p (by omega) hp'] using h.offered p hp hp'
    · intro p hp hp'
      by_cases hpC : p = C
      · subst hpC
        simp [RxRing.rxError, hs]
      · simpa [RxRing.rxError, hprev p hp (by omega)] using h.passed p hp (by omega)
  · rw [h.repr.rxGood_eq hs]
    intro hrepr
    refine ⟨hrepr, by omega, hC, hroom, h.eor, ?_, h.offered, ?_⟩
    · intro p f hp hf
      have hpR := (List.getElem?_eq_some_iff.mp hf).1
      refine (h.waiting p f (by omega) hf).congr rfl ?_ rfl
      simp [hnext p (by omega) (by omega)]
    · intro p hp hp'
      by_cases hpC : p = C
      · subst hpC
        simpa using hown
      · simpa [hprev p hp (by omega)] using h.passed p hp (by omega)

/-- **The receive pass** processes frames from the head of the queue. -/
theorem RxPass.queue (hpass : RxPass r p r' q) (h : Queue b r R D p)
    (hq : q ≤ D + numRxDesc) : Queue b r' R D q := by
  induction hpass with
  | done r p => exact h
  | @next r r' p q hown hrest ih =>
    have hpq := hrest.le
    exact ih (h.rxEntry (by omega) hown) hq

/-- **The frames of a receive pass**: what every frame adds to the reports of the driver, the pass
adds for each of its frames in turn. -/
theorem RxPass.frames {P : RxRing → List RxFrame → Prop}
    (hstep : ∀ r p f, f ∈ R → Repr b.dma b.faults r D p → r.Shows (pos numRxDesc p) f →
      P r (R.take p) → P (r.rxEntry (pos numRxDesc p)) (R.take p ++ [f]))
    (hpass : RxPass r p r' q) (h : Queue b r R D p) (hq : q ≤ D + numRxDesc)
    (hP : P r (R.take p)) : P r' (R.take q) := by
  induction hpass with
  | done r p => exact hP
  | @next r r' p q hown hrest ih =>
    have hpq := hrest.le
    have hp := h.lt_length (by omega) hown
    have hget : R[p]? = some R[p] := List.getElem?_eq_getElem hp
    have hshow := h.waiting p _ le_rfl hget
    refine ih (h.rxEntry (by omega) hown) hq ?_
    rw [List.take_add_one, hget]
    exact hstep r p _ (List.getElem_mem hp) h.repr hshow hP

/-- A slot with a buffer is left behind: its descriptor is with the NIC already. -/
theorem Queue.skip (h : Queue b r R D C) (hlt : D < C) {skb : SkBuff}
    (hs : r.rxSkbuff (pos numRxDesc D) = some skb) : Queue b r R (D + 1) C := by
  have hroom := h.room
  have hskip : FillRun (fun _ => .fail) r D r (D + 1) := .skip hs (.done r (D + 1))
  refine { h with
    repr := hskip.repr h.repr
    le := hlt, room := by omega
    offered := ?_, passed := fun p hp hp' => h.passed p (by omega) hp' }
  intro p hp hp'
  by_cases hpD : p = D + numRxDesc
  · rw [hpD, pos_add_self, h.passed D le_rfl hlt, hs]
    rfl
  · exact h.offered p hp (by omega)

/-- An empty slot gets a buffer, and its descriptor goes to the NIC. -/
theorem Queue.alloc (h : Queue b r R D C) (hlt : D < C) {a : Allocator}
    (hs : r.rxSkbuff (pos numRxDesc D) = none)
    (ha : allocRxSkb a r (pos numRxDesc D) = some r') : Queue b r' R (D + 1) C := by
  have hroom := h.room
  have hother : ∀ p, D < p → p < D + numRxDesc → pos numRxDesc p ≠ pos numRxDesc D :=
    fun p hp hp' => (pos_ne le_rfl hp hp').symm
  have hrepr := h.repr.alloc hs ha
  obtain ⟨m, -, rfl⟩ := allocRxSkb_eq_some ha
  refine ⟨hrepr, hlt, h.done, by omega, ?_, ?_, ?_, ?_⟩
  · intro j
    rw [← h.eor j]
    by_cases hj : j = pos numRxDesc D
    · subst hj
      simp only [Function.update_self]
      exact Desc.mapToAsic_eor _ _ (h.repr.bufSz ▸ rxBufSize_ringEnd)
    · simp [hj]
  · intro p f hp hf
    have hpR := (List.getElem?_eq_some_iff.mp hf).1
    have hne := hother p (by omega) (by omega)
    exact (h.waiting p f hp hf).congr (by simp [hne]) (by simp [hne]) rfl
  · intro p hp hp'
    by_cases hpD : p = D + numRxDesc
    · rw [hpD, pos_add_self]
      simp
    · have hdone := h.done
      simpa [hother p (by omega) (by omega)] using h.offered p hp (by omega)
  · intro p hp hp'
    have hdone := h.done
    simpa [hother p (by omega) (by omega)] using h.passed p (by omega) hp'

/-- **The refill** moves the lower end of the window. -/
theorem FillRun.queue {alloc : BitVec 32 → Allocator} (hrun : FillRun alloc r p r' q)
    (h : Queue b r R p C) (hq : q ≤ C) : Queue b r' R q C := by
  induction hrun with
  | done r p => exact h
  | skip hs hrest ih =>
    have hpq := hrest.le
    exact ih (h.skip (by omega) hs) hq
  | fill hs ha hrest ih =>
    have hpq := hrest.le
    exact ih (h.alloc (by omega) hs ha) hq

/-- The NIC finds a descriptor of its own only in front of the refill. -/
theorem Queue.lt_room (h : Queue b r R D C) (hhead : D < C → r.rxSkbuff (pos numRxDesc D) = none)
    (hown : (r.rxDescArray (pos numRxDesc R.length)).own = true) :
    R.length < D + numRxDesc := by
  apply lt_of_le_of_ne h.room
  intro he
  rw [he, pos_add_self] at hown
  have hle := h.le
  have hdone := h.done
  have hn := numRxDesc_eq
  by_cases hDC : D < C
  · rw [h.passed D le_rfl hDC, hhead hDC] at hown
    cases hown
  · obtain rfl : D = C := by omega
    rw [(h.waiting D R[D] le_rfl (List.getElem?_eq_getElem (by omega))).own] at hown
    cases hown

/-- **A reception** puts a frame behind those that wait. -/
theorem Queue.stored (h : Queue b r R D C) (hlt : R.length < D + numRxDesc) (f : RxFrame) :
    Queue b (r.stored (pos numRxDesc R.length) f) (R ++ [f]) D C := by
  have hle := h.le
  have hdone := h.done
  obtain ⟨skb, hs⟩ := h.repr.exists_skb hdone hlt
  have haddr := h.repr.addr _ _ hs
  refine ⟨{ h.repr with
      addr := fun j skb hj => (r.stored_addr _ j f).trans (h.repr.addr j skb hj) },
    hle, by simp; omega, by simp; omega, fun j => (r.stored_eor _ j f).trans (h.eor j),
    ?_, ?_, ?_⟩
  · intro p g hp hg
    by_cases hpR : p = R.length
    · subst hpR
      rw [List.getElem?_append_right le_rfl, Nat.sub_self] at hg
      cases hg
      refine ⟨r.stored_own _ f, r.stored_rxRes _ f, ?_, skb, hs, ?_⟩
      · simp [RxRing.stored, RxFrame.writeBack_lenField]
      · simp [RxRing.stored, haddr]
    · have hp' := (List.getElem?_eq_some_iff.mp hg).1
      rw [List.length_append, List.length_singleton] at hp'
      rw [List.getElem?_append_left (by omega)] at hg
      obtain ⟨hown, hres, hlen, skb', hs', hmem⟩ := h.waiting p g hp hg
      have hne : pos numRxDesc p ≠ pos numRxDesc R.length :=
        pos_ne (d := D) (by omega) (by omega) hlt
      have hdma : skb'.dma ≠ skb.dma := fun he => hne (h.repr.distinct _ _ _ _ hs' hs he)
      refine ⟨?_, ?_, ?_, skb', hs', ?_⟩
      · simpa [RxRing.stored, hne] using hown
      · simpa [RxRing.stored, hne] using hres
      · simpa [RxRing.stored, hne] using hlen
      · simpa [RxRing.stored, haddr, hdma] using hmem
  · intro p hp hp'
    rw [List.length_append, List.length_singleton] at hp
    have hne : pos numRxDesc p ≠ pos numRxDesc R.length :=
      (pos_ne (d := D) (by omega) (by omega) hp').symm
    simpa [RxRing.stored, hne] using h.offered p (by omega) hp'
  · intro p hp hp'
    have hne : pos numRxDesc p ≠ pos numRxDesc R.length := pos_ne hp (by omega) hlt
    simpa [RxRing.stored, hne] using h.passed p hp hp'

/-- **`rtl8101_rx_interrupt`** processes frames from the head of the queue, all of them if it
stays below its budget, and reports what its receive pass reports. -/
theorem Queue.rxInterrupt (h : Queue b r R D C) (hd : r.dirtyRx = BitVec.ofNat 32 D)
    (hc : r.curRx = BitVec.ofNat 32 C) (alloc : BitVec 32 → Allocator) (budget : BitVec 32) :
    ∃ r' D' C', r.rxInterrupt alloc budget = (r', BitVec.ofNat 32 (C' - C)) ∧
      Queue b r' R D' C' ∧ r'.dirtyRx = BitVec.ofNat 32 D' ∧ r'.curRx = BitVec.ofNat 32 C' ∧
      (D' < C' → r'.rxSkbuff (pos numRxDesc D') = none) ∧ C ≤ C' ∧ C' - C ≤ budget.toNat ∧
      (C' - C < budget.toNat → C' = R.length) ∧
      ∃ r₁, RxPass r C r₁ C' ∧ C' ≤ D + numRxDesc ∧ r'.handedUp = r₁.handedUp ∧
        r'.stats = r₁.stats := by
  have hdone := h.done
  have hroom := h.room
  obtain ⟨r₁, r₂, C', D', hpass, hCC', hC'D, hbudget, hstop, hrun, hDD', hD'C', hhead, he⟩ :=
    rxInterrupt_spec alloc h.repr.null hc hd h.le (by omega) budget
  have h₁ := RxPass.queue hpass h hC'D
  have h₁' : Queue b { r₁ with curRx := BitVec.ofNat 32 C' } R D C' :=
    { h₁ with
      repr := { h₁.repr with }
      waiting := fun p f hp hf => (h₁.waiting p f hp hf).congr rfl rfl rfl }
  have h₂ := FillRun.queue hrun h₁' hD'C'
  have h₂' : Queue b { r₂ with dirtyRx := BitVec.ofNat 32 D' } R D' C' :=
    { h₂ with
      repr := { h₂.repr with }
      waiting := fun p f hp hf => (h₂.waiting p f hp hf).congr rfl rfl rfl }
  refine ⟨_, D', C', he, h₂', rfl, hrun.sameFrame.curRx, fun hlt => (hhead hlt).1, hCC', hbudget,
    ?_, r₁, hpass, hC'D, hrun.traces.1, hrun.traces.2⟩
  intro hlt
  have hle := h₁.done
  by_cases hend : C' = D + numRxDesc
  · omega
  · exact h₁.eq_length (hstop (by omega) hlt)

/-! ## Clearing the ring -/

/-- Every buffer is mapped at the address of its descriptor, wherever the empty slots are. -/
structure Mapped (l₀ : Ledger Mapping) (f₀ : List Fault) (r : RxRing) : Prop where
  bufSz : r.rxBufSz = rxBufSize
  addr : ∀ i skb, r.rxSkbuff i = some skb → (r.rxDescArray i).addr = skb.dma
  holds : l₀.Holds r.dma r.mappings
  faults : r.faults = f₀

variable {l₀ : Ledger Mapping} {f₀ : List Fault}

theorem Repr.mapped (h : Repr l₀ f₀ r D C) : Mapped l₀ f₀ r := ⟨h.bufSz, h.addr, h.holds, h.faults⟩

/-- One turn of the clearing loop empties its slot. -/
theorem rxClearEntry_rxSkbuff (r : RxRing) (i : Fin numRxDesc) :
    (r.rxClearEntry i).rxSkbuff = Function.update r.rxSkbuff i none := by
  unfold RxRing.rxClearEntry
  cases hs : r.rxSkbuff i with
  | none => exact (Function.update_eq_self_iff.mpr hs.symm).symm
  | some skb => rfl

/-- What every turn of the clearing loop keeps, `rtl8101_rx_clear` keeps. -/
theorem rxClear_induct {P : RxRing → Prop} (hstep : ∀ r i, P r → P (r.rxClearEntry i))
    (h : P r) : P r.rxClear := by
  have hfold : ∀ (l : List (Fin numRxDesc)) (r : RxRing), P r → P (l.foldl rxClearEntry r) := by
    intro l
    induction l with
    | nil => exact fun r h => h
    | cons i l ih => exact fun r h => ih _ (hstep r i h)
  rw [RxRing.rxClear]
  exact hfold _ r h

/-- `rtl8101_rx_clear` empties every slot. -/
theorem rxClear_rxSkbuff (r : RxRing) (j : Fin numRxDesc) : r.rxClear.rxSkbuff j = none := by
  -- over the entries cleared so far: they are empty and stay so
  have hfold : ∀ (l : List (Fin numRxDesc)) (r : RxRing), (r.rxSkbuff j = none ∨ j ∈ l) →
      (l.foldl rxClearEntry r).rxSkbuff j = none := by
    intro l
    induction l with
    | nil => exact fun r h => h.resolve_right (by simp)
    | cons i l ih =>
      intro r h
      refine ih _ ?_
      rw [rxClearEntry_rxSkbuff]
      by_cases hji : j = i
      · subst hji; simp
      · simpa [hji] using h
  rw [RxRing.rxClear]
  exact hfold _ r (.inr (List.mem_finRange j))

theorem Mapped.rxClearEntry (h : Mapped l₀ f₀ r) (i : Fin numRxDesc) :
    Mapped l₀ f₀ (r.rxClearEntry i) := by
  unfold RxRing.rxClearEntry
  cases hs : r.rxSkbuff i with
  | none => exact h
  | some skb =>
    have hm : (⟨(r.rxDescArray i).addr, r.rxBufSz⟩ : Mapping) = rxMapping skb := by
      rw [h.addr i skb hs, h.bufSz, rxMapping]
    have hlive : rxMapping skb ∈ r.dma.live :=
      h.holds.mem_live (mem_occupied_of (i := i) (by rw [hs]; rfl))
    have hholds := h.holds
    rw [mappings_update_none hs] at hholds
    simp only [freeRxSkb, pciUnmapSingle, hm, hlive, if_true]
    refine ⟨h.bufSz, ?_, hholds.release, h.faults⟩
    intro j skb' hj
    by_cases hji : j = i
    · subst hji; simp at hj
    · simpa [hji] using h.addr j skb' (by simpa [hji] using hj)

/-- **`rtl8101_rx_clear`** unmaps what the ring holds. -/
theorem Mapped.rxClear (h : Mapped l₀ f₀ r) :
    l₀.Holds r.rxClear.dma 0 ∧ r.rxClear.faults = f₀ := by
  have hmapped : Mapped l₀ f₀ r.rxClear := rxClear_induct (fun _ i h => h.rxClearEntry i) h
  have hzero : r.rxClear.mappings = 0 := occupied_eq_zero fun i => by
    rw [rxClear_rxSkbuff]
    rfl
  refine ⟨?_, hmapped.faults⟩
  rw [← hzero]
  exact hmapped.holds

/-! ## Refinement -/

/-- The descriptors from `cur_rx` up to the window of the empty slots. -/
def ahead (r : RxRing) : ℕ := numRxDesc - (r.curRx - r.dirtyRx).toNat

/-- The ring stands for the queue of the frames `R`, of which the first `n` were delivered since
the ring `b`. The others are the completed descriptors from `cur_rx` on, which the NIC's own
follow, and the mappings taken and not returned are those of the buffers in the ring. -/
structure Refines (b r : RxRing) (R : List RxFrame) (n : ℕ) : Prop where
  le : n ≤ R.length
  curRx : r.curRx = BitVec.ofNat 32 n
  tally : Tally b r (R.take n)
  room : R.length - n ≤ r.ahead
  completed : ∀ k f, R[n + k]? = some f → r.Shows (entry (r.curRx + BitVec.ofNat 32 k)) f
  offered : ∀ k < r.ahead, R.length ≤ n + k →
    (r.rxDescArray (entry (r.curRx + BitVec.ofNat 32 k))).own = true
  mapped : b.dma.Holds r.dma r.mappings
  faults : r.faults = b.faults

theorem Queue.refines (h : Queue b r R D C) (hd : r.dirtyRx = BitVec.ofNat 32 D)
    (hc : r.curRx = BitVec.ofNat 32 C) (ht : Tally b r (R.take C)) : Refines b r R C := by
  have hle := h.le
  have hdone := h.done
  have hroom := h.room
  have hahead : r.ahead = numRxDesc - (C - D) := by
    rw [ahead, hc, hd, toNat_ofNat_sub hle (by have := numRxDesc_eq; omega)]
  have hentry : ∀ k, entry (r.curRx + BitVec.ofNat 32 k) = pos numRxDesc (C + k) := fun k => by
    rw [hc, ← BitVec.ofNat_add, entry_ofNat]
  refine ⟨hdone, hc, ht, by omega, ?_, ?_, h.repr.holds,
    h.repr.faults⟩
  · intro k f hf
    rw [hentry]
    exact h.waiting _ f (by omega) hf
  · intro k hk hR
    rw [hentry]
    exact h.offered _ hR (by omega)

end RxRing

/-! ## Runs -/

/-- What happens to the receive path while the link is stable. -/
inductive FrameEvent where
  | receive (f : RxFrame)
  | poll (alloc : BitVec 32 → Allocator) (budget : BitVec 32)

/-- One event, with the list of the frames received. -/
def frameStep (maxSkbFrags : ℕ) (s : Device × List RxFrame) :
    FrameEvent → Option (Device × List RxFrame)
  | .receive f => (s.1.receive f).map fun t => (t, s.2 ++ [f])
  | .poll alloc budget => some ((s.1.poll maxSkbFrags alloc budget).1, s.2)

/-- The NIC reports an error, or a length that fits its buffer. -/
def FrameOk (_ : Device × List RxFrame) : FrameEvent → Prop
  | .receive f => f.WellFormed
  | .poll _ _ => True

/-- The invariant of a device whose NIC has received the frames `R`, with `dirty_rx` and `cur_rx`
at the positions `D` and `C`. -/
structure RxQueueAt (b : RxRing) (s : Device) (R : List RxFrame) (D C : ℕ) : Prop where
  queue : b.Queue s.rx R D C
  dirty : s.rx.dirtyRx = BitVec.ofNat 32 D
  cur : s.rx.curRx = BitVec.ofNat 32 C
  head : D < C → s.rx.rxSkbuff (pos numRxDesc D) = none
  nic : s.chip.rxNic.pos = R.length % numRxDesc

/-- The invariant with the reports of the driver, for a NIC that reports well-formed frames. -/
structure FramesAt (b : RxRing) (s : Device × List RxFrame) (D C : ℕ) : Prop where
  place : RxQueueAt b s.1 s.2 D C
  wellFormed : ∀ f ∈ s.2, f.WellFormed
  tally : b.Tally s.1.rx (s.2.take C)
  txRing : s.1.tx.txDescNull = false

variable {b : RxRing} {s t : Device × List RxFrame} {D C : ℕ}

theorem RxQueueAt.receive {s u : Device} {R : List RxFrame} (h : RxQueueAt b s R D C)
    {f : RxFrame} (hu : s.receive f = some u) :
    RxQueueAt b u (R ++ [f]) D C ∧ u.tx = s.tx ∧ u.chip = { s.chip with rxNic := u.chip.rxNic } ∧
      u.rx.handedUp = s.rx.handedUp ∧ u.rx.stats = s.rx.stats := by
  obtain ⟨-, i, hpos, hown, rfl⟩ := Device.receive_eq_some_iff.mp hu
  -- the NIC has gone round the ring once for each `NUM_RX_DESC` frames
  obtain rfl : pos numRxDesc R.length = i := by
    rw [Fin.ext_iff, pos_val, ← hpos, h.nic]
  have hlt := h.queue.lt_room h.head hown
  refine ⟨{ h with queue := h.queue.stored hlt f, dirty := h.dirty, cur := h.cur, nic := ?_ },
    rfl, rfl, rfl, rfl⟩
  -- `RingEnd` on the last descriptor keeps the NIC in step
  dsimp only
  rw [List.length_append, List.length_singleton, pos_val, nextPos_mod (h.queue.eor _)]

theorem FramesAt.receive (h : FramesAt b s D C) {f : RxFrame} (hwf : f.WellFormed) {u : Device}
    (hu : s.1.receive f = some u) : FramesAt b (u, s.2 ++ [f]) D C := by
  obtain ⟨h', htx, -, hup, hstats⟩ := h.place.receive hu
  refine ⟨h', ?_, ?_, by rw [htx]; exact h.txRing⟩
  · intro g hg
    rcases List.mem_append.mp hg with hg | hg
    · exact h.wellFormed g hg
    · rw [List.mem_singleton.mp hg]
      exact hwf
  · dsimp only
    rw [List.take_append_of_le_length h.place.queue.done]
    exact h.tally.congr hup hstats

theorem FramesAt.poll (h : FramesAt b s D C) (maxSkbFrags : ℕ) (alloc : BitVec 32 → Allocator)
    (budget : BitVec 32) :
    ∃ D C, FramesAt b ((s.1.poll maxSkbFrags alloc budget).1, s.2) D C := by
  obtain ⟨r', D', C', he, hqueue, hd, hc, hhead, -, -, -, r₁, hpass, hC', hup, hstats⟩ :=
    h.place.queue.rxInterrupt h.place.dirty h.place.cur alloc budget
  have htally : b.Tally r₁ (s.2.take C') :=
    RxRing.RxPass.frames (P := b.Tally)
      (fun r p f hf hrepr hshow ht => ht.rxEntry hrepr hshow (h.wellFormed f hf))
      hpass h.place.queue hC' h.tally
  obtain ⟨mask, stolen, hp⟩ := s.1.poll_eq maxSkbFrags alloc budget
  rw [he] at hp
  rw [hp]
  exact ⟨D', C', ⟨hqueue, hd, hc, hhead, h.place.nic⟩, h.wellFormed, htally.congr hup hstats,
    (TxRing.txInterrupt_txDescNull _ _).trans h.txRing⟩

/-- **Every event keeps the joint invariant.** -/
theorem FramesAt.step (h : FramesAt b s D C) {maxSkbFrags : ℕ} {e : FrameEvent}
    (hok : FrameOk s e) (hstep : frameStep maxSkbFrags s e = some t) :
    ∃ D C, FramesAt b t D C := by
  cases e with
  | receive f =>
    obtain ⟨u, hu, rfl⟩ := Option.map_eq_some_iff.mp hstep
    exact ⟨D, C, h.receive hok hu⟩
  | poll alloc budget =>
    cases hstep
    exact h.poll maxSkbFrags alloc budget

theorem RxQueueAt.of_open {s : Device} {o : OpenOutcome} (h : (s.ndoOpen o).running = true) :
    RxQueueAt s.rx (s.ndoOpen o) [] 0 0 := by
  have hopen := Device.ndoOpen_opened h
  have hstart := Device.ndoOpen_started h
  exact ⟨⟨hopen.repr, le_rfl, le_rfl, by simp, hopen.eor, fun p f _ hf => by simp at hf,
    fun p _ _ => hopen.own _, fun p _ hp => absurd hp (by omega)⟩, hopen.dirtyRx, hopen.curRx,
    fun h => absurd h (by omega), by rw [hstart.rxNic]; rfl⟩

theorem FramesAt.of_open {s : Device} {o : OpenOutcome} (h : (s.ndoOpen o).running = true) :
    FramesAt s.rx (s.ndoOpen o, []) 0 0 := by
  have hopen := Device.ndoOpen_opened h
  exact ⟨.of_open h, fun f hf => by simp at hf, .nil hopen.handedUp hopen.stats,
    (Device.ndoOpen_started h).txDescNull⟩

/-- Close clears the Rx ring. -/
theorem Device.ndoStop_rx {s : Device} (htx : s.tx.txDescNull = false)
    (hrx : s.rx.rxDescNull = false) :
    s.ndoStop.rx = { s.rx.rxClear with rxDescNull := true } := by
  obtain ⟨r', hr'⟩ : ∃ r', s.rx.rxClear = r' := ⟨_, rfl⟩
  unfold Device.ndoStop Device.closeDev
  rw [if_pos ⟨htx, hrx⟩, hr']
  simp only [Device.freeTxRing, Device.freeRxRing, Device.txClear, Device.hwReset, hr']

/-- What the receive path owes to the stack and to the mappings, since the ring `b`: the ring
stands for the queue of the frames received, and a close at this point returns every mapping that
was taken, once. -/
structure Delivers (b : RxRing) (s : Device × List RxFrame) : Prop where
  refines : ∃ n, b.Refines s.1.rx s.2 n
  closed : b.dma.Holds s.1.ndoStop.rx.dma 0
  closedFaults : s.1.ndoStop.rx.faults = b.faults

theorem FramesAt.delivers (h : FramesAt b s D C) : Delivers b s := by
  have hqueue := h.place.queue
  obtain ⟨hdma, hfaults⟩ := hqueue.repr.mapped.rxClear
  have hstop := Device.ndoStop_rx h.txRing hqueue.repr.null
  generalize s.1.rx.rxClear = r' at hdma hfaults hstop
  refine ⟨⟨C, hqueue.refines h.place.dirty h.place.cur h.tally⟩, ?_, ?_⟩
  · rw [hstop]
    exact hdma
  · rw [hstop]
    exact hfaults

/-- **The Rx ring refines a queue**: after a successful open, through receptions and polls in any
order, with any budgets and any allocation failures. -/
theorem refines_always (maxSkbFrags : ℕ) {s : Device} {o : OpenOutcome}
    (h : (s.ndoOpen o).running = true) {es : List FrameEvent}
    (hok : Along (frameStep maxSkbFrags) FrameOk (s.ndoOpen o, []) es) :
    Always (frameStep maxSkbFrags) (Delivers s.rx) (s.ndoOpen o, []) es := by
  have hinv := hok.always (I := fun t => ∃ D C, FramesAt s.rx t D C)
    (fun _ _ _ ⟨_, _, ht⟩ hok hstep => ht.step hok hstep) ⟨_, _, .of_open h⟩
  exact hinv.mono fun _ ⟨_, _, ht⟩ => ht.delivers

/-- A frame arrives and is handed up, its buffer is not replaced, and another one arrives. -/
theorem refines_always_shortage :
    (Device.registered.ndoOpen .plenty).running = true ∧
      Always (frameStep 17) (Delivers Device.registered.rx)
        (Device.registered.ndoOpen .plenty, [])
        [.receive pingFrame, .poll (fun _ => .fail) 64#32, .receive pingFrame] := by
  have hping : pingFrame.WellFormed := by decide
  refine ⟨Device.ndoOpen_plenty rfl, refines_always (s := Device.registered) 17
    (Device.ndoOpen_plenty rfl) fun _ _ => ⟨hping, fun _ _ => ⟨trivial, fun _ _ => ⟨hping, ?_⟩⟩⟩⟩
  trivial

end Rtl8101
