import NanoCell.Rtl8101.Setup

/-!
# The accounts of the receive path

What the driver takes from the kernel for its receive path over the whole life of a registered
device: the two rings, a buffer for each slot of the Rx ring, and the mapping of each buffer. All
three are balanced by every operation but one, the open that fails in `request_irq`, which frees the
rings with a buffer and a mapping in every slot. The books hold in every state, also where the
indexes of the Rx ring went wrong; those of the mappings hold until the first fault of the driver.

## Main definitions

* `RxRing.Backed`: the slots of the Rx ring and their descriptors agree
* `irqFailures`: what a step adds to the number of opens that failed in `request_irq`
* `Accounted k s`: the books after `k` such opens
* `LandsInBuffer`: the frame of a reception is stored into the buffer of its slot

## Main results

* `RxRing.rxInterrupt_induct`: what every turn of a receive pass keeps, the pass keeps
* `accounted_always`: the books balance along every run
* `landsInBuffer_always`: along every run, a frame for an open device is stored into the mapping of
  the buffer that its slot holds, until the first fault
-/

namespace Rtl8101

open Counter Transition

namespace RxRing

variable {r r' : RxRing} {p q : ℕ}

/-! ## Receive passes -/

theorem RxPass.induct {P : RxRing → Prop}
    (hentry : ∀ r i, (r.rxDescArray i).own = false → P r → P (r.rxEntry i))
    (hpass : RxPass r p r' q) (h : P r) : P r' := by
  induction hpass with
  | done r p => exact h
  | next hown _ ih => exact ih (hentry _ _ hown h)

/-- What every turn of the receive loop and every refill keeps, a receive pass keeps. -/
theorem rxInterrupt_induct {P : RxRing → Prop}
    (hentry : ∀ r i, (r.rxDescArray i).own = false → P r → P (r.rxEntry i))
    (hfill : ∀ alloc r p r' q, FillRun alloc r p r' q → P r → P r')
    (hidx : ∀ r c d, P r → P { r with curRx := c, dirtyRx := d })
    (h : P r) (alloc : BitVec 32 → Allocator) (budget : BitVec 32) :
    P (r.rxInterrupt alloc budget).1 := by
  rcases rxInterrupt_cases alloc r budget with
    he | ⟨n, -, r₁, cur, r₂, delta, p, q, hloop, hrun, he⟩
  · rwa [he]
  · obtain ⟨r₁', c', hloop', hpass, -⟩ := rxLoop_rxPass n r r.curRx.toNat
    rw [BitVec.ofNat_toNat, BitVec.setWidth_eq, hloop] at hloop'
    cases hloop'
    have h₁ : P r₁ := hpass.induct hentry h
    have h₂ : P r₂ := hfill _ _ _ _ _ hrun (hidx r₁ _ r₁.dirtyRx h₁)
    rw [he]
    exact hidx r₂ r₂.curRx delta h₂

/-! ## The buffers -/

theorem Stocked.rxEntry {l₀ : Ledger SkBuff} (h : Stocked l₀ r) (i : Fin numRxDesc) :
    Stocked l₀ (r.rxEntry i) := by
  unfold RxRing.rxEntry
  dsimp only
  split_ifs
  · exact h
  · unfold RxRing.rxGood
    dsimp only
    cases hs : r.rxSkbuff i with
    -- the slot was empty: the buffer that is missing is no buffer of the ledger
    | none =>
      simp only [pciUnmapSingle, hs]
      exact h
    | some skb =>
      unfold Stocked at h
      rw [← occupied_update_none hs] at h
      simpa [pciUnmapSingle, hs, Stocked] using h.release

/-! ## The mappings -/

/-- The descriptor of a slot: that of a buffer has its address, and when it is with the NIC also the
size; that of an empty slot is not with the NIC, and shows no error. -/
def SlotOk (slot : Option SkBuff) (d : Desc) : Prop :=
  match slot with
  | none => d.own = false ∧ hasBits d.opts1 rxRes = false
  | some skb => d.addr = skb.dma ∧ (d.own = true → lenField d.opts1 = rxBufSize)

/-- The slots and their descriptors agree, and since `d₀` the mappings are those of the buffers. -/
structure Backed (d₀ : Ledger Mapping) (r : RxRing) : Prop where
  bufSz : r.rxBufSz = rxBufSize
  slot : ∀ i, SlotOk (r.rxSkbuff i) (r.rxDescArray i)
  holds : d₀.Holds r.dma r.mappings

variable {d₀ : Ledger Mapping}

theorem Backed.addr (h : Backed d₀ r) {i : Fin numRxDesc} {skb : SkBuff}
    (hs : r.rxSkbuff i = some skb) : (r.rxDescArray i).addr = skb.dma := by
  have hslot := h.slot i
  rw [hs] at hslot
  exact hslot.1

theorem Backed.mapped (h : Backed d₀ r) : Mapped d₀ r.faults r :=
  ⟨h.bufSz, fun _ _ hs => h.addr hs, h.holds, rfl⟩

theorem Backed.mem_live (h : Backed d₀ r) {i : Fin numRxDesc} {skb : SkBuff}
    (hs : r.rxSkbuff i = some skb) : rxMapping skb ∈ r.dma.live :=
  h.holds.mem_live (mem_occupied_of (i := i) (by rw [hs]; rfl))

/-- A descriptor that shows an error is that of a buffer, which it offers again. -/
theorem Backed.rxError (h : Backed d₀ r) {i : Fin numRxDesc}
    (hres : hasBits (r.rxDescArray i).opts1 rxRes = true) (status : BitVec 32) :
    Backed d₀ (r.rxError i status) := by
  refine ⟨h.bufSz, ?_, h.holds⟩
  intro j
  have hslot := h.slot j
  by_cases hji : j = i
  · subst hji
    unfold RxRing.rxError
    dsimp only
    rw [Function.update_self]
    cases hs : r.rxSkbuff j with
    | none =>
      rw [hs] at hslot
      rw [hslot.2] at hres
      cases hres
    | some skb =>
      refine ⟨h.addr hs, fun _ => ?_⟩
      rw [Desc.markToAsic_lenField, h.bufSz]
      decide
  · simpa [RxRing.rxError, hji] using hslot

/-- Faults are not taken back. -/
theorem faults_of_rxGood {i : Fin numRxDesc} {status : BitVec 32}
    (h : (r.rxGood i status).faults = []) : r.faults = [] := by
  unfold RxRing.rxGood at h
  dsimp only at h
  cases hs : r.rxSkbuff i with
  | none => simp [pciUnmapSingle, hs] at h
  | some skb =>
    simp only [pciUnmapSingle, hs] at h
    split_ifs at h
    · exact h
    · simp at h

theorem faults_of_rxClear (h : r.rxClear.faults = []) : r.faults = [] := by
  refine rxClear_induct (P := fun r' => r'.faults = [] → r.faults = []) ?_ id h
  intro r' i hkept hfaults
  apply hkept
  unfold rxClearEntry at hfaults
  cases hs : r'.rxSkbuff i with
  | none => simpa [hs] using hfaults
  | some skb =>
    simp only [hs, freeRxSkb, pciUnmapSingle] at hfaults
    split_ifs at hfaults
    · exact hfaults
    · simp at hfaults

/-- A good packet empties its slot, or is a fault. -/
theorem Backed.rxGood (h : Backed d₀ r) {i : Fin numRxDesc}
    (hown : (r.rxDescArray i).own = false)
    (hres : hasBits (r.rxDescArray i).opts1 rxRes = false) (status : BitVec 32)
    (hfaults : (r.rxGood i status).faults = []) : Backed d₀ (r.rxGood i status) := by
  unfold RxRing.rxGood at hfaults ⊢
  dsimp only at hfaults ⊢
  cases hs : r.rxSkbuff i with
  | none => simp [pciUnmapSingle, hs] at hfaults
  | some skb =>
    have hm : (⟨(r.rxDescArray i).addr, r.rxBufSz⟩ : Mapping) = rxMapping skb := by
      rw [h.addr hs, h.bufSz, rxMapping]
    have hholds := h.holds
    rw [mappings_update_none hs] at hholds
    simp only [pciUnmapSingle, hm, h.mem_live hs, if_true, hs] at hfaults ⊢
    refine ⟨h.bufSz, ?_, hholds.release⟩
    intro j
    by_cases hji : j = i
    · subst hji
      simpa [SlotOk] using ⟨hown, hres⟩
    · simpa [hji] using h.slot j

/-- From the ring `r` to the ring `r'` no buffer was gained or lost, and until the first fault no
mapping. -/
structure Carries (r r' : RxRing) : Prop where
  stocked : ∀ l₀, Stocked l₀ r → Stocked l₀ r'
  faults : r'.faults = [] → r.faults = []
  backed : ∀ d₀, r'.faults = [] → Backed d₀ r → Backed d₀ r'

theorem Carries.refl (r : RxRing) : Carries r r := ⟨fun _ h => h, id, fun _ _ h => h⟩

theorem Carries.trans {r₁ r₂ r₃ : RxRing} (h : Carries r₁ r₂) (h' : Carries r₂ r₃) :
    Carries r₁ r₃ :=
  ⟨fun l₀ hl => h'.stocked l₀ (h.stocked l₀ hl), fun hno => h.faults (h'.faults hno),
    fun d₀ hno hd => h'.backed d₀ hno (h.backed d₀ (h'.faults hno) hd)⟩

/-- The indexes are not looked at. -/
theorem carries_indexes (r : RxRing) (c d : BitVec 32) :
    Carries r { r with curRx := c, dirtyRx := d } :=
  ⟨fun _ h => h, id, fun _ _ h => ⟨h.bufSz, h.slot, h.holds⟩⟩

theorem rxEntry_carries {i : Fin numRxDesc} (hown : (r.rxDescArray i).own = false) :
    Carries r (r.rxEntry i) := by
  have hstocked : ∀ l₀, Stocked l₀ r → Stocked l₀ (r.rxEntry i) := fun _ h => h.rxEntry i
  unfold RxRing.rxEntry at hstocked ⊢
  dsimp only at hstocked ⊢
  cases hres : hasBits (r.rxDescArray i).opts1 rxRes with
  | true =>
    rw [hres, if_pos rfl] at hstocked
    rw [if_pos rfl]
    exact ⟨hstocked, id, fun _ _ h => h.rxError hres _⟩
  | false =>
    rw [hres, if_neg Bool.false_ne_true] at hstocked
    rw [if_neg Bool.false_ne_true]
    exact ⟨hstocked, faults_of_rxGood, fun _ hno h => h.rxGood hown hres _ hno⟩

/-- A new buffer in an empty slot is offered to the NIC. -/
theorem allocRxSkb_carries {a : Allocator} {i : Fin numRxDesc} (hs : r.rxSkbuff i = none)
    (ha : allocRxSkb a r i = some r') : Carries r r' := by
  obtain ⟨m, -, rfl⟩ := allocRxSkb_eq_some ha
  refine ⟨?_, id, ?_⟩
  · intro l₀ h
    unfold Stocked
    rw [occupied_update_some hs]
    exact Ledger.Holds.acquire h _
  · rintro d₀ - h
    refine ⟨h.bufSz, ?_, ?_⟩
    · intro j
      by_cases hji : j = i
      · subst hji
        simp only [Function.update_self]
        refine ⟨rfl, fun _ => ?_⟩
        rw [Desc.mapToAsic, Desc.markToAsic_lenField, h.bufSz]
        decide
      · simpa [hji] using h.slot j
    · unfold mappings
      rw [mappings_update_some hs, h.bufSz]
      exact h.holds.acquire _

theorem FillRun.carries {alloc : BitVec 32 → Allocator} (hrun : FillRun alloc r p r' q) :
    Carries r r' := by
  induction hrun with
  | done r p => exact .refl r
  | skip _ _ ih => exact ih
  | fill hs ha _ ih => exact (allocRxSkb_carries hs ha).trans ih

theorem rxInterrupt_carries (r : RxRing) (alloc : BitVec 32 → Allocator) (budget : BitVec 32) :
    Carries r (r.rxInterrupt alloc budget).1 :=
  rxInterrupt_induct (P := Carries r) (fun _ _ hown h => h.trans (rxEntry_carries hown))
    (fun _ _ _ _ _ hrun h => h.trans hrun.carries)
    (fun r' c d h => h.trans (carries_indexes r' c d)) (.refl r) alloc budget

/-- The NIC stores a frame into a descriptor that it owns. -/
theorem Backed.stored (h : Backed d₀ r) {i : Fin numRxDesc} (hown : (r.rxDescArray i).own = true)
    (f : RxFrame) : Backed d₀ (r.stored i f) := by
  refine ⟨h.bufSz, ?_, h.holds⟩
  intro j
  have hslot := h.slot j
  by_cases hji : j = i
  · subst hji
    cases hs : r.rxSkbuff j with
    | none =>
      rw [hs] at hslot
      rw [hslot.1] at hown
      cases hown
    | some skb =>
      have hskb : (r.stored j f).rxSkbuff j = some skb := hs
      rw [hskb]
      refine ⟨(r.stored_addr j j f).trans (h.addr hs), fun hno => ?_⟩
      rw [r.stored_own j f] at hno
      cases hno
  · simpa [RxRing.stored, hji] using hslot

theorem stored_carries {i : Fin numRxDesc} (hown : (r.rxDescArray i).own = true) (f : RxFrame) :
    Carries r (r.stored i f) := ⟨fun _ h => h, id, fun _ _ h => h.stored hown f⟩

/-- What the NIC owns is a buffer: its descriptor has the address and the size of its mapping. -/
theorem Backed.offers (h : Backed d₀ r) {i : Fin numRxDesc} (hown : (r.rxDescArray i).own = true) :
    ∃ skb, r.rxSkbuff i = some skb ∧ (r.rxDescArray i).addr = skb.dma ∧
      lenField (r.rxDescArray i).opts1 = rxBufSize ∧ rxMapping skb ∈ r.dma.live := by
  have hslot := h.slot i
  cases hs : r.rxSkbuff i with
  | none =>
    rw [hs] at hslot
    rw [hslot.1] at hown
    cases hown
  | some skb =>
    rw [hs] at hslot
    exact ⟨skb, rfl, hslot.1, hslot.2 hown, h.mem_live hs⟩

theorem FillRun.faults {alloc : BitVec 32 → Allocator} (hrun : FillRun alloc r p r' q) :
    r'.faults = r.faults := by
  induction hrun with
  | done r p => rfl
  | skip _ _ ih => exact ih
  | fill _ ha _ ih =>
    obtain ⟨m, -, rfl⟩ := allocRxSkb_eq_some ha
    exact ih

end RxRing

/-! ## The books -/

section Lost

variable {α : Type} {l l' : Ledger α} {k : ℕ} {held : Multiset α}

/-- Of everything acquired one for each slot is still live from each of `k` failed opens, and
nothing else. -/
def Lost (k : ℕ) (l : Ledger α) : Prop :=
  ∃ lost : Multiset α, lost.card = numRxDesc * k ∧ Ledger.empty.Holds l lost

theorem Lost.empty : Lost 0 (Ledger.empty : Ledger α) := ⟨0, rfl, Ledger.holds_self _⟩

theorem Lost.balanced (h : Lost k l) (h' : l.Holds l' 0) : Lost k l' := by
  obtain ⟨lost, hcard, hheld⟩ := h
  exact ⟨lost, hcard, by simpa using hheld.trans h'⟩

/-- A failed open leaves one more for each slot. -/
theorem Lost.succ (h : Lost k l) (h' : l.Holds l' held) (hcard : held.card = numRxDesc) :
    Lost (k + 1) l' := by
  obtain ⟨lost, hlost, hheld⟩ := h
  refine ⟨lost + held, ?_, hheld.trans h'⟩
  rw [Multiset.card_add, hlost, hcard, Nat.mul_succ]

end Lost

/-- The books after `k` failed opens: on a closed device nothing is held; on an open one both rings,
the buffers in the slots and their mappings, since the ledgers that the open found. -/
inductive RxBooks (k : ℕ) (s : Device) : Prop
  | closed : s.running = false → Lost k s.rx.skbs → (s.rx.faults = [] → Lost k s.rx.dma) →
      Ledger.empty.Holds s.coherent 0 → RxBooks k s
  | opened (l₀ : Ledger SkBuff) (d₀ : Ledger Mapping) : s.running = true → Lost k l₀ →
      s.rx.Stocked l₀ → (s.rx.faults = [] → Lost k d₀ ∧ s.rx.Backed d₀) →
      Ledger.empty.Holds s.coherent {.rx, .tx} → RxBooks k s

namespace Device

variable {s s₀ t : Device} {o : OpenOutcome} {k : ℕ}

theorem initBuffers_kept (h : (s.initBuffers o).2 = 0) :
    (s.initBuffers o).1.rx.rxBufSz = s.rx.rxBufSz ∧
      (s.initBuffers o).1.rx.faults = s.rx.faults := by
  rcases initBuffers_cases o s with ⟨tx, rx, c, he, -⟩ | ⟨-, he⟩
  · rw [he] at h
    exact absurd (show enomem = 0 from h) (by decide)
  · obtain ⟨p, q, hrun⟩ := RxRing.rxFill_fillRun o.alloc s.clearedRings.rx 0#32
      (BitVec.ofNat 32 numRxDesc)
    rw [he]
    exact ⟨hrun.sameFrame.rxBufSz, hrun.faults⟩

theorem SetUp.backed (h : SetUp s₀ s) (hsz : s.rx.rxBufSz = rxBufSize) :
    s.rx.Backed s₀.rx.dma := by
  refine ⟨hsz, ?_, h.dma⟩
  intro i
  obtain ⟨skb, hs, -, hsize, haddr, -⟩ := h.rxSlot i
  rw [hs]
  exact ⟨haddr, fun _ => hsize.trans hsz⟩

theorem SetUp.card_slots (h : SetUp s₀ s) : (occupied s.rx.rxSkbuff).card = numRxDesc ∧
    s.rx.mappings.card = numRxDesc := by
  refine ⟨card_occupied fun i => ?_, card_occupied fun i => ?_⟩
  · obtain ⟨skb, hs, -⟩ := h.rxSlot i
    exact ⟨skb, hs⟩
  · obtain ⟨skb, hs, -⟩ := h.rxSlot i
    exact ⟨rxMapping skb, by rw [hs]; rfl⟩

end Device

/-- What a step adds to the number of opens that failed in `request_irq`. -/
def irqFailures (s : Device) : Event → ℕ
  | .openDev o => if (s.opening.initBuffers o).2 = 0 ∧ o.irq < 0 then 1 else 0
  | _ => 0

variable {maxSkbFrags k : ℕ} {s t : Device} {e : Event}

theorem RxBooks.ndoOpen (h : RxBooks k s) (hmatch : RingsMatch s) (hclosed : s.running = false)
    (o : OpenOutcome) : RxBooks (k + irqFailures s (.openDev o)) (s.ndoOpen o) := by
  cases h with
  | opened l₀ d₀ hrun => simp [hrun] at hclosed
  | closed _ hskbs hdma hrings =>
    have hends := hmatch.opening_allOrNothing hclosed o
    have hkept := Device.initBuffers_kept (s := s.opening) (o := o)
    have hrunning := s.opening.initBuffers_running o
    rcases he : s.opening.initBuffers o with ⟨s', ret⟩
    have hcount : irqFailures s (.openDev o) = if ret = 0 ∧ o.irq < 0 then 1 else 0 := by
      unfold irqFailures
      dsimp only
      rw [he]
    rw [he] at hends hkept hrunning
    rw [Device.ndoOpen_of_initBuffers he, hcount]
    rcases hends with ⟨hret, hup⟩ | ⟨hret, hback⟩
    · obtain rfl : ret = 0 := hret
      obtain ⟨hsz, hfaults⟩ := hkept rfl
      obtain ⟨hcard, hcard'⟩ := hup.card_slots
      have hrings' := hrings.trans hup.coherent
      rw [zero_add] at hrings'
      rw [if_neg (lt_irrefl _)]
      by_cases hirq : o.irq < 0
      · rw [if_pos hirq, if_pos ⟨rfl, hirq⟩]
        refine .closed rfl (hskbs.succ hup.skbs hcard) (fun hno => ?_) hrings'.release.release
        exact (hdma (hfaults ▸ hno)).succ hup.dma hcard'
      · rw [if_neg hirq, if_neg fun hno => hirq hno.2]
        refine .opened s.rx.skbs s.rx.dma hrunning hskbs hup.skbs (fun hno => ?_) hrings'
        exact ⟨hdma (hfaults ▸ hno), hup.backed hsz⟩
    · obtain rfl : ret = enomem := hret
      have hfailed : ¬ (enomem = 0 ∧ o.irq < 0) := fun hno => absurd hno.1 (by decide)
      rw [if_neg hfailed, if_pos (by decide)]
      refine .closed rfl (hskbs.balanced hback.skbs) (fun hno => ?_) ?_
      · exact (hdma (hback.faults ▸ hno)).balanced hback.dma
      · simpa using hrings.trans hback.coherent

theorem RxBooks.ndoStop (h : RxBooks k s) (hmatch : RingsMatch s) (hrun : s.running = true) :
    RxBooks k s.ndoStop := by
  cases h with
  | closed hclosed => simp [hclosed] at hrun
  | opened l₀ d₀ _ hlost hstocked hbacked hrings =>
    have htx : s.tx.txDescNull = false := by rw [hmatch.tx, hrun]; rfl
    have hrx : s.rx.rxDescNull = false := by rw [hmatch.rx, hrun]; rfl
    have hstop := Device.ndoStop_rx htx hrx
    have hskbs := hstocked.rxClear
    have hdma : s.rx.rxClear.faults = [] → Lost k s.rx.rxClear.dma := by
      intro hno
      obtain ⟨hlost', hback⟩ := hbacked (RxRing.faults_of_rxClear hno)
      exact hlost'.balanced hback.mapped.rxClear.1
    have hcoherent : s.ndoStop.coherent = (s.coherent.release .rx).release .tx := by
      unfold Device.ndoStop Device.closeDev
      rw [if_pos ⟨htx, hrx⟩]
      simp only [Device.freeTxRing, Device.freeRxRing, Device.txClear, Device.hwReset]
    have hrunning : s.ndoStop.running = false := by
      unfold Device.ndoStop Device.closeDev
      rw [if_pos ⟨htx, hrx⟩]
      simp only [Device.freeTxRing, Device.freeRxRing, Device.txClear, Device.hwReset]
    generalize s.rx.rxClear = rx at hstop hskbs hdma
    refine .closed hrunning ?_ ?_ ?_
    · rw [hstop]
      exact hlost.balanced hskbs
    · rw [hstop]
      exact hdma
    · rw [hcoherent]
      exact hrings.release.release

/-- A step that opens or closes nothing. -/
theorem RxBooks.carry (h : RxBooks k s) (hrunning : t.running = s.running)
    (hcoherent : t.coherent = s.coherent) (hopen : s.running = true → s.rx.Carries t.rx)
    (hclosed : s.running = false → t.rx.skbs = s.rx.skbs ∧ t.rx.dma = s.rx.dma ∧
      t.rx.faults = s.rx.faults) : RxBooks k t := by
  cases h with
  | closed hrun hskbs hdma hrings =>
    obtain ⟨hs, hd, hf⟩ := hclosed hrun
    exact .closed (hrunning.trans hrun) (hs ▸ hskbs) (by rw [hd, hf]; exact hdma)
      (hcoherent ▸ hrings)
  | opened l₀ d₀ hrun hlost hstocked hbacked hrings =>
    obtain ⟨hs, hf, hb⟩ := hopen hrun
    refine .opened l₀ d₀ (hrunning.trans hrun) hlost (hs l₀ hstocked) (fun hno => ?_)
      (hcoherent ▸ hrings)
    obtain ⟨hlost', hback⟩ := hbacked (hf hno)
    exact ⟨hlost', hb d₀ hno hback⟩

theorem RxBooks.same (h : RxBooks k s) (hrunning : t.running = s.running)
    (hcoherent : t.coherent = s.coherent) (hrx : t.rx = s.rx) : RxBooks k t :=
  h.carry hrunning hcoherent (fun _ => hrx ▸ .refl s.rx) fun _ => hrx ▸ ⟨rfl, rfl, rfl⟩

theorem RxBooks.resetTask (h : RxBooks k s) (alloc : BitVec 32 → Allocator) :
    RxBooks k (s.resetTask alloc) := by
  unfold Device.resetTask Device.resetTail
  by_cases hrun : s.running = false
  · rw [if_pos hrun]
    exact h
  · have hpass := RxRing.rxInterrupt_carries s.rx alloc (~~~0#32)
    rw [if_neg hrun]
    dsimp only
    split_ifs
    · exact h.carry rfl rfl (fun _ => hpass.trans (RxRing.carries_indexes _ _ _))
        fun hno => absurd hno hrun
    · exact h.carry rfl rfl (fun _ => hpass) fun hno => absurd hno hrun

theorem RxBooks.step (h : RxBooks k s) (hmatch : RingsMatch s)
    (hstep : step maxSkbFrags s e = some t) : RxBooks (k + irqFailures s e) t := by
  cases e with
  | openDev o =>
    cases step_inv hstep with
    | openDev _ hclosed => exact h.ndoOpen hmatch hclosed o
  | closeDev =>
    cases step_inv hstep with
    | closeDev hrun => exact h.ndoStop hmatch hrun
  | receive f =>
    obtain ⟨-, i, -, hown, rfl⟩ := Device.receive_eq_some_iff.mp hstep
    exact h.carry rfl rfl (fun _ => RxRing.stored_carries hown f) fun _ => ⟨rfl, rfl, rfl⟩
  | poll alloc budget =>
    cases step_inv hstep with
    | poll _ _ hrun =>
      obtain ⟨mask, stolen, he⟩ := s.poll_eq maxSkbFrags alloc budget
      rw [he]
      exact h.carry rfl rfl (fun _ => RxRing.rxInterrupt_carries s.rx alloc budget)
        fun hno => absurd hrun (by simp [hno])
  | resetTask alloc =>
    cases step_inv hstep with
    | resetTask _ hpending =>
      have hcleared : RxBooks k { s with taskPending := false } := h.same rfl rfl rfl
      exact hcleared.resetTask alloc
  | linkTimer on =>
    cases step_inv hstep with
    | linkTimer _ htimer =>
      unfold Device.checkLinkStatus
      split_ifs
      · exact h.same rfl rfl rfl
      · exact h.carry rfl rfl (fun _ => RxRing.carries_indexes s.rx _ _) fun _ => ⟨rfl, rfl, rfl⟩
      · exact h
  | fetch => cases step_inv hstep with | fetch nic => exact h.same rfl rfl rfl
  | complete => cases step_inv hstep with | complete i nic => exact h.same rfl rfl rfl
  | startXmit skb => cases step_inv hstep with | startXmit _ _ _ => exact h.same rfl rfl rfl
  | txTimeout => cases step_inv hstep with | txTimeout _ => exact h.same rfl rfl rfl

/-- The books that the driver owes after `k` opens that failed in `request_irq`: every ring, buffer
and mapping was released exactly once, but those of the open device, and a buffer and a mapping for
each slot from each of the failed opens. -/
structure Accounted (k : ℕ) (s : Device) : Prop where
  rings : Ledger.empty.Holds s.coherent (if s.running then {.rx, .tx} else 0)
  skbs : ∃ lost : Multiset SkBuff, lost.card = numRxDesc * k ∧ Ledger.empty.Holds s.rx.skbs
    (lost + if s.running then occupied s.rx.rxSkbuff else 0)
  dma : s.rx.faults = [] → ∃ lost : Multiset Mapping, lost.card = numRxDesc * k ∧
    Ledger.empty.Holds s.rx.dma (lost + if s.running then s.rx.mappings else 0)

theorem RxBooks.accounted (h : RxBooks k s) : Accounted k s := by
  cases h with
  | closed hrun hskbs hdma hrings =>
    obtain ⟨lost, hcard, hheld⟩ := hskbs
    refine ⟨by simpa [hrun] using hrings, ⟨lost, hcard, by simpa [hrun] using hheld⟩, fun hno => ?_⟩
    obtain ⟨lost', hcard', hheld'⟩ := hdma hno
    exact ⟨lost', hcard', by simpa [hrun] using hheld'⟩
  | opened l₀ d₀ hrun hlost hstocked hbacked hrings =>
    obtain ⟨lost, hcard, hheld⟩ := hlost
    refine ⟨by simpa [hrun] using hrings, ⟨lost, hcard, ?_⟩, fun hno => ?_⟩
    · rw [if_pos hrun]
      exact hheld.trans hstocked
    · obtain ⟨⟨lost', hcard', hheld'⟩, hback⟩ := hbacked hno
      refine ⟨lost', hcard', ?_⟩
      rw [if_pos hrun]
      exact hheld'.trans hback.holds

theorem RxBooks.registered : RxBooks 0 Device.registered :=
  .closed rfl .empty (fun _ => .empty) (Ledger.holds_self _)

/-- **The accounts of the receive path** balance along every run of a registered device, the number
of opens that failed in `request_irq` being counted along. -/
theorem accounted_always (maxSkbFrags : ℕ) (es : List Event) :
    Always (counted (step maxSkbFrags) irqFailures) (fun x => Accounted x.2 x.1)
      (Device.registered, 0) es := by
  have hbooks : Always (counted (step maxSkbFrags) irqFailures)
      (fun x => RingsMatch x.1 ∧ RxBooks x.2 x.1) (Device.registered, 0) es := by
    refine always_counted (I := fun k s => RingsMatch s ∧ RxBooks k s) ?_
      ⟨⟨rfl, rfl⟩, .registered⟩ es
    rintro k s e t ⟨hmatch, hbooks⟩ hstep
    exact ⟨hmatch.step hstep, hbooks.step hmatch hstep⟩
  exact hbooks.mono fun x h => h.2.accounted

/-! ## Where the NIC writes -/

/-- A frame received by an open device, before the first fault of the driver, is stored into the
live mapping of the buffer in the slot that the NIC has reached, which its descriptor offers with
the size of that mapping. -/
def LandsInBuffer (s : Device) (e : Event) : Prop :=
  ∀ f, e = .receive f → s.running = true → s.rx.faults = [] →
    ∃ (i : Fin numRxDesc) (skb : SkBuff), s.chip.rxNic.pos = i ∧ s.rx.rxSkbuff i = some skb ∧
      (s.rx.rxDescArray i).addr = skb.dma ∧ lenField (s.rx.rxDescArray i).opts1 = rxBufSize ∧
      ⟨skb.dma, rxBufSize⟩ ∈ s.rx.dma.live

/-- **The NIC writes into buffers only**, along every run of a registered device: whatever was
opened, closed and reset before, a descriptor that the NIC finds its own is that of a buffer. -/
theorem landsInBuffer_always (maxSkbFrags : ℕ) (es : List Event) :
    Along (step maxSkbFrags) LandsInBuffer Device.registered es := by
  refine along_of_step (I := fun s => RingsMatch s ∧ ∃ k, RxBooks k s) ?_ ?_
    ⟨⟨rfl, rfl⟩, 0, .registered⟩ es
  · rintro s e t ⟨hmatch, k, hbooks⟩ hstep
    exact ⟨hmatch.step hstep, _, hbooks.step hmatch hstep⟩
  · rintro s e t ⟨-, k, hbooks⟩ hstep f rfl hrun hfaults
    obtain ⟨-, i, hpos, hown, -⟩ := Device.receive_eq_some_iff.mp hstep
    cases hbooks with
    | closed hclosed => simp [hrun] at hclosed
    | opened l₀ d₀ _ _ _ hbacked _ =>
      obtain ⟨skb, hs, haddr, hsize, hlive⟩ := (hbacked hfaults).2.offers hown
      exact ⟨i, skb, hpos, hs, haddr, hsize, hlive⟩

end Rtl8101
