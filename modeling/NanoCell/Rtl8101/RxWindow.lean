import NanoCell.Rtl8101.Device

/-!
# The window of empty Rx slots

Between `dirty_rx` and `cur_rx` lie the descriptors that were processed and not refilled. The
receive path relies on every empty slot lying in that window: outside of it a completed
descriptor has a buffer, whose mapping is live. The receive pass and the refill keep this, and so
does every operation but one: a link-down sets both indexes to zero, whatever the slots hold.

## Main definitions

* `RxRing.Repr l₀ f₀ r D C`: the empty slots of `r` lie in the window of positions `[D, C)`, and
  every buffer is mapped at the address of its descriptor
* `RxRing.Windowed l₀ f₀ r`: the invariant between two operations
* `RxEvent`, `rxStep`: receptions, polls, reset tasks and link changes of an open device
* `RxRing.WellWindowed`: what the receive path relies on

## Main results

* `RxPass.repr`, `FillRun.repr`: the two loops move the two ends of the window
* `Windowed.rxInterrupt`: `rtl8101_rx_interrupt` keeps the invariant
* `wellWindowed_iff`: along a run the invariant holds exactly when every link-down finds the ring
  full
-/

namespace Rtl8101

open Counter Transition

/-- The mapping of an Rx buffer. -/
def rxMapping (skb : SkBuff) : Mapping := ⟨skb.dma, rxBufSize⟩

namespace RxRing

/-- The mappings of the buffers in the ring. -/
def mappings (r : RxRing) : Multiset Mapping := occupied fun i => (r.rxSkbuff i).map rxMapping

/-- The empty slots lie in the window of positions `[D, C)`, and every buffer is mapped at the
address of its descriptor. `l₀` and `f₀` are the mappings and the faults before the device was
opened. -/
structure Repr (l₀ : Ledger Mapping) (f₀ : List Fault) (r : RxRing) (D C : ℕ) : Prop where
  null : r.rxDescNull = false
  bufSz : r.rxBufSz = rxBufSize
  empty : ∀ i, r.rxSkbuff i = none → ∃ p, D ≤ p ∧ p < C ∧ pos numRxDesc p = i
  addr : ∀ i skb, r.rxSkbuff i = some skb → (r.rxDescArray i).addr = skb.dma
  distinct : ∀ i j skb skb', r.rxSkbuff i = some skb → r.rxSkbuff j = some skb' →
    skb.dma = skb'.dma → i = j
  holds : l₀.Holds r.dma r.mappings
  faults : r.faults = f₀

variable {l₀ : Ledger Mapping} {f₀ : List Fault} {r r' : RxRing} {D C p q : ℕ}

theorem Repr.exists_skb (h : Repr l₀ f₀ r D C) (hC : C ≤ p) (hp : p < D + numRxDesc) :
    ∃ skb, r.rxSkbuff (pos numRxDesc p) = some skb := by
  cases hs : r.rxSkbuff (pos numRxDesc p) with
  | some skb => exact ⟨skb, rfl⟩
  | none =>
    obtain ⟨q, hq, hqC, he⟩ := h.empty _ hs
    exact absurd he (pos_ne hq (by omega) hp)

/-- A window without positions may be placed anywhere: no slot is empty. -/
theorem Repr.of_full (h : Repr l₀ f₀ r D D) (E : ℕ) : Repr l₀ f₀ r E E :=
  { h with
    empty := fun i hi => by
      obtain ⟨p, hp, hp', -⟩ := h.empty i hi
      omega }

theorem Repr.mem_live (h : Repr l₀ f₀ r D C) {i : Fin numRxDesc} {skb : SkBuff}
    (hs : r.rxSkbuff i = some skb) : rxMapping skb ∈ r.dma.live :=
  h.holds.mem_live (mem_occupied_of (i := i) (by rw [hs]; rfl))

theorem mappings_update_none {i : Fin numRxDesc} {skb : SkBuff} (hs : r.rxSkbuff i = some skb) :
    r.mappings = rxMapping skb ::ₘ
      occupied fun j => (Function.update r.rxSkbuff i none j).map rxMapping := by
  have hupd : (fun j => (Function.update r.rxSkbuff i none j).map rxMapping) =
      Function.update (fun j => (r.rxSkbuff j).map rxMapping) i none := by
    funext j
    by_cases hj : j = i
    · subst hj; simp
    · simp [hj]
  rw [hupd, occupied_update_none (a := rxMapping skb) (by simp [hs])]
  rfl

theorem mappings_update_some {i : Fin numRxDesc} (hs : r.rxSkbuff i = none) (skb : SkBuff) :
    (occupied fun j => (Function.update r.rxSkbuff i (some skb) j).map rxMapping) =
      rxMapping skb ::ₘ r.mappings := by
  have hupd : (fun j => (Function.update r.rxSkbuff i (some skb) j).map rxMapping) =
      Function.update (fun j => (r.rxSkbuff j).map rxMapping) i (some (rxMapping skb)) := by
    funext j
    by_cases hj : j = i
    · subst hj; simp
    · simp [hj]
  rw [hupd, occupied_update_some (by simp [hs])]
  rfl

/-! ## The receive pass -/

/-- The error branch recycles the descriptor and its buffer. -/
theorem Repr.rxError (h : Repr l₀ f₀ r D p) (i : Fin numRxDesc) (status : BitVec 32) :
    Repr l₀ f₀ (r.rxError i status) D (p + 1) where
  null := h.null
  bufSz := h.bufSz
  empty j hj := by
    obtain ⟨q, hq, hq', he⟩ := h.empty j hj
    exact ⟨q, hq, by omega, he⟩
  addr j skb hj := by
    have ha := h.addr j skb hj
    by_cases hji : j = i
    · subst hji; simpa [RxRing.rxError] using ha
    · simpa [RxRing.rxError, hji] using ha
  distinct := h.distinct
  holds := h.holds
  faults := h.faults

/-- The good-packet branch finds a buffer with a live mapping. -/
theorem Repr.rxGood_eq (h : Repr l₀ f₀ r D p) {i : Fin numRxDesc} {skb : SkBuff}
    (hs : r.rxSkbuff i = some skb) (status : BitVec 32) :
    r.rxGood i status = { r with
      dma := r.dma.release (rxMapping skb)
      rxSkbuff := Function.update r.rxSkbuff i none
      skbs := r.skbs.release skb
      handedUp := r.handedUp ++ [⟨skb.put (lenField status - 4#32),
        (r.mem skb.dma).take (lenField status - 4#32).toNat⟩]
      stats := { r.stats with
        rxBytes := r.stats.rxBytes + (lenField status - 4#32).signExtend 64
        rxPackets := r.stats.rxPackets + 1 } } := by
  have hm : (⟨(r.rxDescArray i).addr, r.rxBufSz⟩ : Mapping) = rxMapping skb := by
    rw [h.addr i skb hs, h.bufSz, rxMapping]
  simp only [rxGood, pciUnmapSingle, hm, hs, h.mem_live hs, if_true]

/-- The good-packet branch empties its slot, which the window then includes. -/
theorem Repr.rxGood (h : Repr l₀ f₀ r D p) {skb : SkBuff} (hD : D ≤ p)
    (hs : r.rxSkbuff (pos numRxDesc p) = some skb) (status : BitVec 32) :
    Repr l₀ f₀ (r.rxGood (pos numRxDesc p) status) D (p + 1) := by
  rw [h.rxGood_eq hs]
  refine ⟨h.null, h.bufSz, ?_, ?_, ?_, ?_, h.faults⟩
  · intro j hj
    by_cases hji : j = pos numRxDesc p
    · exact ⟨p, hD, by omega, hji.symm⟩
    · obtain ⟨q, hq, hq', he⟩ := h.empty j (by simpa [hji] using hj)
      exact ⟨q, hq, by omega, he⟩
  · intro j skb' hj
    by_cases hji : j = pos numRxDesc p
    · subst hji; simp at hj
    · exact h.addr j skb' (by simpa [hji] using hj)
  · intro j k skb₁ skb₂ hj hk
    by_cases hjp : j = pos numRxDesc p
    · subst hjp; simp at hj
    by_cases hkp : k = pos numRxDesc p
    · subst hkp; simp at hk
    exact h.distinct j k skb₁ skb₂ (by simpa [hjp] using hj) (by simpa [hkp] using hk)
  · have hh := h.holds
    rw [mappings_update_none hs] at hh
    exact hh.release

theorem Repr.rxEntry (h : Repr l₀ f₀ r D p) (hD : D ≤ p) (hp : p < D + numRxDesc) :
    Repr l₀ f₀ (r.rxEntry (pos numRxDesc p)) D (p + 1) := by
  obtain ⟨skb, hs⟩ := h.exists_skb le_rfl hp
  unfold RxRing.rxEntry
  dsimp only
  split
  · exact h.rxError _ _
  · exact h.rxGood hD hs _

/-- **The receive pass** moves the upper end of the window. -/
theorem RxPass.repr (hpass : RxPass r p r' q) (h : Repr l₀ f₀ r D p) (hD : D ≤ p)
    (hq : q ≤ D + numRxDesc) : Repr l₀ f₀ r' D q := by
  -- the window stays below a full turn, so every descriptor of the pass has its buffer
  induction hpass with
  | done r p => exact h
  | @next r r' p q hown hrest ih =>
    have hpq := hrest.le
    exact ih (h.rxEntry hD (by omega)) (by omega) hq

/-! ## The refill -/

theorem allocRxSkb_eq_some {a : Allocator} {i : Fin numRxDesc}
    (h : allocRxSkb a r i = some r') :
    ∃ m, a.outcome r.dma.live = some m ∧ r' = { r with
      skbs := r.skbs.acquire ((devAllocSkb m (r.rxBufSz + rtkRxAlign)).reserve rtkRxAlign)
      rxSkbuff := Function.update r.rxSkbuff i
        (some ((devAllocSkb m (r.rxBufSz + rtkRxAlign)).reserve rtkRxAlign))
      dma := r.dma.acquire ⟨m, r.rxBufSz⟩
      rxDescArray := Function.update r.rxDescArray i
        ((r.rxDescArray i).mapToAsic m r.rxBufSz) } := by
  unfold allocRxSkb at h
  split at h
  · cases h
  · next m hm =>
    cases h
    exact ⟨m, hm, rfl⟩

theorem Repr.alloc (h : Repr l₀ f₀ r p C) {a : Allocator}
    (hs : r.rxSkbuff (pos numRxDesc p) = none)
    (ha : allocRxSkb a r (pos numRxDesc p) = some r') : Repr l₀ f₀ r' (p + 1) C := by
  obtain ⟨m, hm, rfl⟩ := allocRxSkb_eq_some ha
  -- the new address differs from those of the other buffers, which are all mapped
  have hfresh : ∀ j skb, r.rxSkbuff j = some skb → skb.dma ≠ m := fun j skb hj =>
    a.fresh _ m hm (rxMapping skb) (h.mem_live hj)
  refine ⟨h.null, h.bufSz, ?_, ?_, ?_, ?_, h.faults⟩
  · intro j hj
    by_cases hjp : j = pos numRxDesc p
    · subst hjp; simp at hj
    · obtain ⟨q, hq, hqC, he⟩ := h.empty j (by simpa [hjp] using hj)
      have hne : q ≠ p := by rintro rfl; exact hjp he.symm
      exact ⟨q, by omega, hqC, he⟩
  · intro j skb hj
    by_cases hjp : j = pos numRxDesc p
    · subst hjp
      simp only [Function.update_self, Option.some.injEq] at hj
      subst hj
      simp [devAllocSkb, SkBuff.reserve]
    · simpa [hjp] using h.addr j skb (by simpa [hjp] using hj)
  · intro j k skb₁ skb₂ hj hk he
    by_cases hjp : j = pos numRxDesc p <;> by_cases hkp : k = pos numRxDesc p
    · rw [hjp, hkp]
    · subst hjp
      simp only [Function.update_self, Option.some.injEq] at hj
      subst hj
      exact absurd he.symm (hfresh k skb₂ (by simpa [hkp] using hk))
    · subst hkp
      simp only [Function.update_self, Option.some.injEq] at hk
      subst hk
      exact absurd he (hfresh j skb₁ (by simpa [hjp] using hj))
    · exact h.distinct j k skb₁ skb₂ (by simpa [hjp] using hj) (by simpa [hkp] using hk) he
  · have hh := h.holds.acquire ⟨m, r.rxBufSz⟩
    unfold mappings
    rw [mappings_update_some hs]
    rw [h.bufSz] at hh ⊢
    exact hh

/-- **The refill** moves the lower end of the window. -/
theorem FillRun.repr {alloc : BitVec 32 → Allocator} (hrun : FillRun alloc r p r' q)
    (h : Repr l₀ f₀ r p C) : Repr l₀ f₀ r' q C := by
  induction hrun with
  | done r p => exact h
  | @skip r r' p q skb hs _ ih =>
    refine ih { h with empty := ?_ }
    intro i hi
    obtain ⟨u, hu, huC, he⟩ := h.empty i hi
    have hne : u ≠ p := by
      rintro rfl
      rw [← he, hs] at hi
      cases hi
    exact ⟨u, by omega, huC, he⟩
  | fill hs ha _ ih => exact ih (h.alloc hs ha)

/-! ## The invariant between two operations -/

/-- The two indexes delimit the window of the empty slots, and the refill left off at an empty
slot. -/
def Windowed (l₀ : Ledger Mapping) (f₀ : List Fault) (r : RxRing) : Prop :=
  ∃ D C, r.dirtyRx = BitVec.ofNat 32 D ∧ r.curRx = BitVec.ofNat 32 C ∧ D ≤ C ∧
    C ≤ D + numRxDesc ∧ Repr l₀ f₀ r D C ∧ (D < C → r.rxSkbuff (pos numRxDesc D) = none)

/-- **`rtl8101_rx_interrupt` keeps the window**, for every budget and every outcome of its
allocations. -/
theorem Windowed.rxInterrupt (h : Windowed l₀ f₀ r) (alloc : BitVec 32 → Allocator)
    (budget : BitVec 32) : Windowed l₀ f₀ (r.rxInterrupt alloc budget).1 := by
  obtain ⟨D, C, hd, hc, hDC, hCD, hrepr, -⟩ := h
  obtain ⟨r₁, r₂, C', D', hpass, hCC', hC'D, -, -, hrun, hDD', hD'C', hstop, he⟩ :=
    rxInterrupt_spec alloc hrepr.null hc hd hDC hCD budget
  have h₁ := hpass.repr hrepr hDC hC'D
  have h₂ : Repr l₀ f₀ r₂ D' C' := hrun.repr { h₁ with }
  rw [he]
  exact ⟨D', C', rfl, hrun.sameFrame.curRx, hD'C', by omega, { h₂ with },
    fun hlt => (hstop hlt).1⟩

/-- Storing a frame changes a status word and the contents of a buffer. -/
theorem Windowed.stored (h : Windowed l₀ f₀ r) (i : Fin numRxDesc) (f : RxFrame) :
    Windowed l₀ f₀ (r.stored i f) := by
  obtain ⟨D, C, hd, hc, hDC, hCD, hrepr, hhead⟩ := h
  exact ⟨D, C, hd, hc, hDC, hCD,
    { hrepr with addr := fun j skb hj => (r.stored_addr i j f).trans (hrepr.addr j skb hj) }, hhead⟩

/-- Zeroing the indexes keeps the window exactly when it is empty. -/
theorem Windowed.reset (h : Windowed l₀ f₀ r) (heq : r.dirtyRx = r.curRx) :
    Windowed l₀ f₀ { r with dirtyRx := 0#32, curRx := 0#32 } := by
  obtain ⟨D, C, hd, hc, hDC, hCD, hrepr, -⟩ := h
  rw [hd, hc] at heq
  obtain rfl : D = C := ofNat_inj hDC (by have := numRxDesc_eq; omega) heq
  exact ⟨0, 0, rfl, rfl, le_rfl, by omega, { hrepr.of_full 0 with }, fun h => absurd h (by omega)⟩

/-! ## Filling an empty ring -/

/-- In a ring without buffers every slot is empty, and the window is one whole turn. -/
theorem Repr.of_empty (hnull : r.rxDescNull = false) (hsz : r.rxBufSz = rxBufSize)
    (hempty : ∀ i, r.rxSkbuff i = none) : Repr r.dma r.faults r 0 numRxDesc := by
  refine ⟨hnull, hsz, ?_, ?_, ?_, ?_, rfl⟩
  · intro i _
    obtain ⟨p, hp, hp', he⟩ := exists_pos_eq 0 i
    exact ⟨p, hp, by omega, he⟩
  · intro i skb hi
    rw [hempty i] at hi; cases hi
  · intro i j skb skb' hi
    rw [hempty i] at hi; cases hi
  · have hzero : r.mappings = 0 := occupied_eq_zero fun i => by rw [hempty i]; rfl
    rw [hzero]
    exact Ledger.holds_self _

/-- **The refill of an empty ring** gets to some position `q`, and all the way exactly when it
returns `NUM_RX_DESC`. -/
theorem rxFill_empty (alloc : BitVec 32 → Allocator) (r : RxRing) :
    ∃ q ≤ numRxDesc,
      FillRun alloc r 0 (rxFill alloc r 0#32 (BitVec.ofNat 32 numRxDesc)).1 q ∧
      ((rxFill alloc r 0#32 (BitVec.ofNat 32 numRxDesc)).2 = BitVec.ofNat 32 numRxDesc ↔
        q = numRxDesc) := by
  obtain ⟨r', q, he, hrun, hq, -⟩ := rxFill_spec alloc r 0 numRxDesc (by omega) (by decide)
  rw [show BitVec.ofNat 32 0 = 0#32 from rfl] at he
  rw [he]
  refine ⟨q, hq, hrun, ?_, ?_⟩
  · intro hfull
    exact ofNat_inj (w := 32) hq (by have := numRxDesc_eq; omega) (by simpa using hfull)
  · rintro rfl
    rfl

/-- The Rx ring of a freshly opened device: every slot holds a buffer. -/
theorem rxFill_fresh {alloc : BitVec 32 → Allocator} (hnull : r.rxDescNull = false)
    (hsz : r.rxBufSz = rxBufSize) (hempty : ∀ i, r.rxSkbuff i = none)
    (hfull : (rxFill alloc r 0#32 (BitVec.ofNat 32 numRxDesc)).2 = BitVec.ofNat 32 numRxDesc) :
    FillRun alloc r 0 (rxFill alloc r 0#32 (BitVec.ofNat 32 numRxDesc)).1 numRxDesc ∧
      Repr r.dma r.faults (rxFill alloc r 0#32 (BitVec.ofNat 32 numRxDesc)).1
        numRxDesc numRxDesc := by
  obtain ⟨q, -, hrun, hend⟩ := rxFill_empty alloc r
  obtain rfl := hend.mp hfull
  exact ⟨hrun, hrun.repr (.of_empty hnull hsz hempty)⟩

/-- A refill leaves every buffer with the NIC. -/
theorem FillRun.own {alloc : BitVec 32 → Allocator} (hrun : FillRun alloc r p r' q)
    (h : ∀ i skb, r.rxSkbuff i = some skb → (r.rxDescArray i).own = true) :
    ∀ i skb, r'.rxSkbuff i = some skb → (r'.rxDescArray i).own = true := by
  induction hrun with
  | done r p => exact h
  | skip _ _ ih => exact ih h
  | @fill r r₁ r' p q hs ha _ ih =>
    apply ih
    intro i skb hi
    obtain ⟨m, -, rfl⟩ := allocRxSkb_eq_some ha
    by_cases hip : i = pos numRxDesc p
    · subst hip; simp
    · simpa [hip] using h i skb (by simpa [hip] using hi)

/-- A refill keeps the `RingEnd` bits. -/
theorem FillRun.eor {alloc : BitVec 32 → Allocator} (hrun : FillRun alloc r p r' q)
    (hsz : r.rxBufSz = rxBufSize) (i : Fin numRxDesc) :
    (r'.rxDescArray i).eor = (r.rxDescArray i).eor := by
  induction hrun with
  | done r p => rfl
  | skip _ _ ih => exact ih hsz
  | @fill r r₁ r' p q hs ha _ ih =>
    obtain ⟨m, -, rfl⟩ := allocRxSkb_eq_some ha
    rw [ih hsz]
    by_cases hip : i = pos numRxDesc p
    · subst hip
      simp only [Function.update_self]
      exact Desc.mapToAsic_eor _ _ (hsz ▸ rxBufSize_ringEnd)
    · simp [hip]

/-- A refill hands nothing up and counts nothing. -/
theorem FillRun.traces {alloc : BitVec 32 → Allocator} (hrun : FillRun alloc r p r' q) :
    r'.handedUp = r.handedUp ∧ r'.stats = r.stats := by
  induction hrun with
  | done r p => exact ⟨rfl, rfl⟩
  | skip _ _ ih => exact ih
  | fill _ ha _ ih =>
    obtain ⟨m, -, rfl⟩ := allocRxSkb_eq_some ha
    exact ih

/-- The Rx ring `r` as an open leaves it that found the ring `r₀`: every slot holds a buffer,
every descriptor is with the NIC, and the last one carries `RingEnd`. -/
structure Opened (r₀ r : RxRing) : Prop where
  curRx : r.curRx = 0#32
  dirtyRx : r.dirtyRx = 0#32
  repr : Repr r₀.dma r₀.faults r 0 0
  own : ∀ i, (r.rxDescArray i).own = true
  eor : ∀ i, (r.rxDescArray i).eor = decide ((i : ℕ) + 1 = numRxDesc)
  handedUp : r.handedUp = r₀.handedUp
  stats : r.stats = r₀.stats

end RxRing

/-- An open that finds memory for everything, and maps the buffer of the index `cur` at `cur`. -/
def OpenOutcome.plenty : OpenOutcome := ⟨true, true, fun cur => .atAddr (cur.setWidth 64), 0⟩

namespace Device

variable {s : Device} {o : OpenOutcome}

/-- **A successful open** leaves a full Rx ring. -/
theorem ndoOpen_opened (h : (s.ndoOpen o).running = true) :
    RxRing.Opened s.rx (s.ndoOpen o).rx := by
  obtain ⟨hfill, he⟩ := ndoOpen_eq h
  obtain ⟨hrun, hrepr⟩ := RxRing.rxFill_fresh (r := s.prepared.rx) rfl rfl (fun _ => rfl) hfill
  have hrx : (s.ndoOpen o).rx = (s.filled o).rx := by rw [he]; rfl
  have hfull := hrepr.of_full 0
  rw [hrx]
  refine ⟨hrun.sameFrame.curRx, hrun.sameFrame.dirtyRx, hfull, ?_, ?_,
    hrun.traces.1, hrun.traces.2⟩
  · intro i
    obtain ⟨p, hp, hp', rfl⟩ := exists_pos_eq 0 i
    obtain ⟨skb, hs⟩ := hfull.exists_skb hp hp'
    exact hrun.own (fun i skb hi => by cases hi) _ skb hs
  · intro i
    exact (hrun.eor rfl i).trans (freshRing_eor i)

/-- The addresses that `OpenOutcome.plenty` hands out. -/
theorem fillRun_plenty {r r' : RxRing} {p q : ℕ}
    (hrun : RxRing.FillRun OpenOutcome.plenty.alloc r p r' q)
    (h : ∀ m ∈ r.dma.live, m.addr.toNat < p) : ∀ m ∈ r'.dma.live, m.addr.toNat < q := by
  induction hrun with
  | done r p => exact h
  | skip _ _ ih => exact ih fun m hm => Nat.lt_succ_of_lt (h m hm)
  | @fill r r₁ r' p q hs ha _ ih =>
    obtain ⟨a, hout, rfl⟩ := RxRing.allocRxSkb_eq_some ha
    apply ih
    intro m hm
    rcases Multiset.mem_cons.mp hm with rfl | hm
    · simp only [OpenOutcome.plenty, Allocator.atAddr] at hout
      split_ifs at hout
      cases hout
      have := Nat.mod_le p (2 ^ 32)
      simp only [BitVec.toNat_setWidth, BitVec.toNat_ofNat]
      omega
    · exact Nat.lt_succ_of_lt (h m hm)

/-- With nothing mapped before, `OpenOutcome.plenty` fills the ring. -/
theorem fills_plenty (h : s.rx.dma.live = 0) : s.Fills .plenty := by
  obtain ⟨r', q, he, hrun, hq, hstop⟩ :=
    RxRing.rxFill_spec OpenOutcome.plenty.alloc s.prepared.rx 0 numRxDesc
      (by omega) (by decide)
  have hlive := fillRun_plenty hrun fun m hm => by
    rw [show s.prepared.rx.dma.live = 0 from h] at hm
    simp at hm
  -- the refill cannot stop early: the address of the index `q` is not in use
  have hall : q = numRxDesc := by
    by_contra hne
    obtain ⟨-, hnone⟩ := hstop (by omega)
    simp only [OpenOutcome.plenty, Allocator.atAddr] at hnone
    split_ifs at hnone with hused
    push Not at hused
    obtain ⟨m, hm, ha⟩ := hused
    have hlt := hlive m hm
    have hq' : q < 2 ^ 32 := by have := numRxDesc_eq; omega
    rw [ha, BitVec.toNat_setWidth, BitVec.toNat_ofNat] at hlt
    omega
  rw [Fills, show (0#32) = BitVec.ofNat 32 0 from rfl, he, hall]
  rfl

/-- With nothing mapped before, `OpenOutcome.plenty` opens the device. -/
theorem ndoOpen_plenty (h : s.rx.dma.live = 0) : (s.ndoOpen .plenty).running = true :=
  ndoOpen_running rfl rfl (fills_plenty h) le_rfl

end Device

/-! ## Runs -/

/-- What happens to the receive path of an open device. -/
inductive RxEvent where
  | receive (f : RxFrame)
  | poll (alloc : BitVec 32 → Allocator) (budget : BitVec 32)
  | resetTask (alloc : BitVec 32 → Allocator)
  | link (linkStatusOn : Bool)

/-- One event of the receive path, in any order. -/
def rxStep (maxSkbFrags : ℕ) (s : Device) : RxEvent → Option Device
  | .receive f => s.receive f
  | .poll alloc budget => some (s.poll maxSkbFrags alloc budget).1
  | .resetTask alloc => some (s.resetTask alloc)
  | .link on => some (s.checkLinkStatus on)

/-- What the receive path relies on: the window has at most `NUM_RX_DESC` positions, every empty
slot lies in it, and since `f₀` the good-packet branch found a buffer with a live mapping each
time it was taken. -/
structure RxRing.WellWindowed (f₀ : List Fault) (r : RxRing) : Prop where
  size : (r.curRx - r.dirtyRx).toNat ≤ numRxDesc
  empty : ∀ i, r.rxSkbuff i = none → InWindow numRxDesc r.dirtyRx r.curRx i
  faults : r.faults = f₀

/-- A link-down finds every slot refilled. -/
def FullAtLinkDown (s : Device) : RxEvent → Prop
  | .link on => on = false → s.carrierOk = true → s.rx.dirtyRx = s.rx.curRx
  | _ => True

section Runs

variable {l₀ : Ledger Mapping} {f₀ : List Fault} {s t : Device}

theorem RxRing.Windowed.wellWindowed {r : RxRing} (h : r.Windowed l₀ f₀) : r.WellWindowed f₀ := by
  obtain ⟨D, C, hd, hc, hDC, hCD, hrepr, -⟩ := h
  have hlt : C - D < 2 ^ 32 := by have := numRxDesc_eq; omega
  refine ⟨?_, ?_, hrepr.faults⟩
  · rw [hd, hc, toNat_ofNat_sub hDC hlt]
    omega
  · intro i hi
    rw [hd, hc, inWindow_iff numRxDesc_dvd hDC hlt]
    exact hrepr.empty i hi

/-- The Rx ring after a reset task: a receive pass, and the indexes zeroed if it refilled every
slot. -/
theorem Device.resetTask_rx (alloc : BitVec 32 → Allocator) (hrun : s.running = true) :
    (s.resetTask alloc).rx =
      let r := (s.rx.rxInterrupt alloc (~~~0#32)).1
      if r.dirtyRx = r.curRx then { r with dirtyRx := 0#32, curRx := 0#32 } else r := by
  unfold Device.resetTask
  rw [if_neg (by simp [hrun])]
  simp only [Device.resetTail, Device.txClear, decide_eq_true_eq]
  split_ifs <;> rfl

/-- A link-down zeroes the indexes of the Rx ring and leaves its slots. -/
theorem Device.checkLinkStatus_down_rx (hcarrier : s.carrierOk = true) :
    (s.checkLinkStatus false).rx = { s.rx with dirtyRx := 0#32, curRx := 0#32 } := by
  rw [Device.checkLinkStatus_down hcarrier]
  rfl

theorem windowed_step {maxSkbFrags : ℕ} {e : RxEvent} (h : s.rx.Windowed l₀ f₀)
    (hok : FullAtLinkDown s e) (hstep : rxStep maxSkbFrags s e = some t) :
    t.rx.Windowed l₀ f₀ := by
  cases e with
  | receive f =>
    obtain ⟨-, i, -, -, rfl⟩ := Device.receive_eq_some_iff.mp hstep
    exact h.stored i f
  | poll alloc budget =>
    cases hstep
    rw [Device.poll_rx]
    exact h.rxInterrupt alloc budget
  | resetTask alloc =>
    cases hstep
    cases hrun : s.running with
    | false => simpa [Device.resetTask, hrun] using h
    | true =>
      have hpass := h.rxInterrupt alloc (~~~0#32)
      rw [Device.resetTask_rx alloc hrun]
      dsimp only
      split_ifs with heq
      · exact hpass.reset heq
      · exact hpass
  | link on =>
    cases hstep
    by_cases hdown : on = false ∧ s.carrierOk = true
    · obtain ⟨rfl, hcarrier⟩ := hdown
      rw [Device.checkLinkStatus_down_rx hcarrier]
      exact h.reset (hok rfl hcarrier)
    · unfold Device.checkLinkStatus
      split_ifs with hne hon
      · exact h
      · exact absurd ⟨by simpa using hon, by simpa [hon] using hne⟩ hdown
      · exact h

/-- A link-down that finds an empty slot leaves it outside of the window. -/
theorem not_wellWindowed_step {maxSkbFrags : ℕ} {e : RxEvent} (h : s.rx.Windowed l₀ f₀)
    (hok : ¬ FullAtLinkDown s e) (hstep : rxStep maxSkbFrags s e = some t) :
    ¬ t.rx.WellWindowed f₀ := by
  cases e with
  | receive f => exact absurd trivial hok
  | poll alloc budget => exact absurd trivial hok
  | resetTask alloc => exact absurd trivial hok
  | link on =>
    simp only [FullAtLinkDown, Classical.not_imp] at hok
    obtain ⟨rfl, hcarrier, hne⟩ := hok
    cases hstep
    obtain ⟨D, C, hd, hc, hDC, -, -, hhead⟩ := h
    have hlt : D < C := by
      apply lt_of_le_of_ne hDC
      rintro rfl
      exact hne (hd.trans hc.symm)
    rw [Device.checkLinkStatus_down_rx hcarrier]
    intro hwell
    obtain ⟨k, hk, -⟩ := hwell.empty _ (hhead hlt)
    simp at hk

/-- **The window along a run**: after a successful open, through receptions, polls, reset tasks
and link changes in any order, the empty slots lie in the window exactly as long as every
link-down finds the ring full. -/
theorem wellWindowed_iff (maxSkbFrags : ℕ) {o : OpenOutcome} (h : (s.ndoOpen o).running = true)
    (es : List RxEvent) :
    Always (rxStep maxSkbFrags) (fun t => t.rx.WellWindowed s.rx.faults) (s.ndoOpen o) es ↔
      Along (rxStep maxSkbFrags) FullAtLinkDown (s.ndoOpen o) es := by
  have hopen := Device.ndoOpen_opened h
  have hstart : (s.ndoOpen o).rx.Windowed s.rx.dma s.rx.faults :=
    ⟨0, 0, hopen.dirtyRx, hopen.curRx, le_rfl, by omega, hopen.repr, fun h => absurd h (by omega)⟩
  exact always_iff_along (J := fun t => t.rx.Windowed s.rx.dma s.rx.faults)
    (fun _ ht => ht.wellWindowed) (fun _ _ _ ht hok hstep => windowed_step ht hok hstep)
    (fun _ _ _ ht hok hstep => not_wellWindowed_step ht hok hstep) hstart es

/-- The run of a device that is opened, and whose link comes up and goes down again. -/
theorem wellWindowed_iff_flap :
    (Device.registered.ndoOpen .plenty).running = true ∧
      (Always (rxStep 17) (fun t => t.rx.WellWindowed [])
          (Device.registered.ndoOpen .plenty) [.link true, .link false] ↔
        Along (rxStep 17) FullAtLinkDown
          (Device.registered.ndoOpen .plenty) [.link true, .link false]) :=
  ⟨Device.ndoOpen_plenty rfl,
    wellWindowed_iff (s := Device.registered) 17 (Device.ndoOpen_plenty rfl) _⟩

/-- A refill of one slot that gets no memory. -/
theorem RxRing.rxFill_fail {r : RxRing} (hslot : r.rxSkbuff 0 = none) :
    r.rxFill (fun _ => .fail) 0#32 1#32 = (r, 0#32) := by
  rw [rxFill, rxFillFrom, if_neg (by decide), show entry 0#32 = 0 from rfl, hslot]
  simp [allocRxSkb, Allocator.fail]

/-- A poll of one descriptor that gets no memory for a new buffer. -/
theorem RxRing.rxInterrupt_fail {r : RxRing} (hnull : r.rxDescNull = false)
    (hc : r.curRx = 0#32) (hd : r.dirtyRx = 0#32) (hown : (r.rxDescArray 0).own = false)
    (hslot : (r.rxEntry 0).rxSkbuff 0 = none) :
    (r.rxInterrupt (fun _ => .fail) 1#32).1 = { r.rxEntry 0 with curRx := 1#32 } := by
  have hd' : (r.rxEntry 0).dirtyRx = 0#32 := (rxEntry_sameFrame r 0).dirtyRx.trans hd
  have hpass : rxLoop (1#32).toNat r 0#32 = (r.rxEntry 0, 1#32) := by
    simp [rxLoop, show entry 0#32 = 0 from rfl, hown]
  have hleft : ¬ BitVec.ofNat 32 numRxDesc - 0#32 ≤ 1#32 := by decide
  have hfill := rxFill_fail (r := { r.rxEntry 0 with curRx := 1#32 }) hslot
  simp only [hd'] at hfill
  simp only [rxInterrupt, hc, hd, hnull, hleft, if_false, hpass, hd', hfill,
    Bool.false_eq_true, BitVec.add_zero]

/-- The good-packet branch leaves its slot empty and its descriptor as it was. -/
theorem RxRing.rxEntry_good {r : RxRing} {i : Fin numRxDesc}
    (h : hasBits (r.rxDescArray i).opts1 rxRes = false) :
    (r.rxEntry i).rxSkbuff i = none ∧ (r.rxEntry i).rxDescArray = r.rxDescArray ∧
      (r.rxSkbuff i = none → .nullSkb i ∈ (r.rxEntry i).faults) := by
  simp only [RxRing.rxEntry, h, RxRing.rxGood, RxRing.pciUnmapSingle, Bool.false_eq_true, if_false]
  cases hs : r.rxSkbuff i with
  | none => exact ⟨hs, rfl, fun _ => by simp⟩
  | some skb => exact ⟨by simp, rfl, fun h => by cases h⟩

/-- One frame of 64 bytes. -/
def pingFrame : RxFrame := ⟨64#32, List.replicate 64 0#8⟩

/-- A poll of one descriptor that was completed moves by one. -/
theorem RxRing.rxInterrupt_one {r : RxRing} (alloc : BitVec 32 → Allocator)
    (hnull : r.rxDescNull = false) (hc : r.curRx = 0#32) (hd : r.dirtyRx = 0#32)
    (hown : (r.rxDescArray (pos numRxDesc 0)).own = false) :
    (r.rxInterrupt alloc 1#32).1.curRx = 1#32 := by
  obtain ⟨r₁, r₂, C', D', hpass, -, -, hC', hstop, hrun, -, -, -, he⟩ :=
    rxInterrupt_spec alloc (C := 0) (D := 0) hnull hc hd le_rfl (by omega) 1#32
  have hone : C' = 1 := by
    have hbudget : (1#32).toNat = 1 := rfl
    by_contra hne
    obtain rfl : C' = 0 := by omega
    cases hpass with
    | done =>
      have := hstop (by decide) (by decide)
      rw [hown] at this
      cases this
    | next _ hrest => exact absurd hrest.le (by omega)
  rw [he]
  subst hone
  exact hrun.sameFrame.curRx

/-- An allocation failure followed by a link flap, on an opened device: the slot of the lost
buffer leaves the window, and the next poll dereferences it. -/
theorem RxRing.Opened.shortage_flap {r₀ : RxRing} (hopen : r₀.Opened s.rx)
    (hoff : s.carrierOk = false) :
    ∃ t u, run (rxStep 17) s
        [.link true, .receive pingFrame, .poll (fun _ => .fail) 1#32, .link false] = some t ∧
      t.rx.rxSkbuff 0 = none ∧ ¬ InWindow numRxDesc t.rx.dirtyRx t.rx.curRx 0 ∧
      rxStep 17 t (.poll (fun _ => .fail) 1#32) = some u ∧ .nullSkb 0 ∈ u.rx.faults := by
  obtain ⟨s₂, hs₂, hrx₂, hcarrier₂⟩ : ∃ s₂, (s.checkLinkStatus true).receive pingFrame = some s₂ ∧
      s₂.rx = s.rx.stored 0 pingFrame ∧ s₂.carrierOk = true := by
    rw [Device.checkLinkStatus_up hoff]
    exact ⟨_, Device.receive_eq_some_iff.mpr ⟨rfl, 0, rfl, hopen.own 0, rfl⟩, rfl, rfl⟩
  have hgood : hasBits ((s.rx.stored 0 pingFrame).rxDescArray 0).opts1 rxRes = false := by
    rw [RxRing.stored_rxRes]
    decide
  obtain ⟨hslot, hdesc, -⟩ := RxRing.rxEntry_good hgood
  have hnull : ((s.rx.stored 0 pingFrame).rxEntry 0).rxDescNull = false :=
    (RxRing.rxEntry_sameFrame _ 0).rxDescNull.trans hopen.repr.null
  generalize hs₃ : (s₂.poll 17 (fun _ => .fail) 1#32).1 = s₃
  have hrx₃ : s₃.rx = { (s.rx.stored 0 pingFrame).rxEntry 0 with curRx := 1#32 } := by
    rw [← hs₃, Device.poll_rx, hrx₂]
    exact RxRing.rxInterrupt_fail hopen.repr.null hopen.curRx hopen.dirtyRx
      (RxRing.stored_own _ _ _) hslot
  have hcarrier₃ : s₃.carrierOk = true := by rw [← hs₃, Device.poll_carrierOk, hcarrier₂]
  have hs₄ := Device.checkLinkStatus_down_rx hcarrier₃
  rw [hrx₃] at hs₄
  generalize hs₄' : s₃.checkLinkStatus false = s₄ at hs₄
  have hnone : s₄.rx.rxSkbuff 0 = none := by rw [hs₄]; exact hslot
  have hgood₄ : hasBits (s₄.rx.rxDescArray 0).opts1 rxRes = false := by
    rw [hs₄, hdesc]; exact hgood
  have hown₄ : (s₄.rx.rxDescArray 0).own = false := by
    rw [hs₄, hdesc]; exact RxRing.stored_own _ _ _
  obtain ⟨hslot₄, -, hfault⟩ := RxRing.rxEntry_good hgood₄
  refine ⟨s₄, _, ?_, hnone, ?_, rfl, ?_⟩
  · simp only [run, rxStep, Option.bind_some, hs₂, hs₃, hs₄']
  · rw [hs₄]
    rintro ⟨k, hk, -⟩
    simp at hk
  · rw [Device.poll_rx, RxRing.rxInterrupt_fail (by rw [hs₄]; exact hnull) (by rw [hs₄])
      (by rw [hs₄]) hown₄ hslot₄]
    exact hfault hnone

/-- A freshly opened device that loses a buffer to an allocation failure and then its link. -/
theorem linkDown_empty_slot :
    ∃ t u, run (rxStep 17) (Device.registered.ndoOpen .plenty)
        [.link true, .receive pingFrame, .poll (fun _ => .fail) 1#32, .link false] = some t ∧
      (Device.registered.ndoOpen .plenty).running = true ∧ t.rx.rxSkbuff 0 = none ∧
      ¬ InWindow numRxDesc t.rx.dirtyRx t.rx.curRx 0 ∧
      rxStep 17 t (.poll (fun _ => .fail) 1#32) = some u ∧ .nullSkb 0 ∈ u.rx.faults := by
  have hrun := Device.ndoOpen_plenty (s := Device.registered) rfl
  have hoff := (Device.ndoOpen_started hrun).carrierOk
  obtain ⟨t, u, ht, hnull, hout, hu, hfault⟩ := (Device.ndoOpen_opened hrun).shortage_flap hoff
  exact ⟨t, u, ht, hrun, hnull, hout, hu, hfault⟩

end Runs

end Rtl8101
