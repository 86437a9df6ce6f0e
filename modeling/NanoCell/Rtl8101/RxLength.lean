import NanoCell.Rtl8101.RxQueue

/-!
# The length of a received packet

The receive loop takes the length of a packet from the descriptor, subtracts the four bytes of the
CRC as an `int`, and passes the difference to `skb_put` and to `rx_bytes`. Nothing in the loop
compares it with the buffer: the driver relies on `RxMaxSize`, which `rtl8101_hw_init` sets to
`rx_buf_sz`, and on the NIC to report shorter and longer frames as errors. With such lengths every
`skb_put` stays in the room its buffer was allocated with; one byte less or more and it does not.

## Main definitions

* `RxRing.Fresh`: the buffers of the ring are as `rtl8101_alloc_rx_skb` left them
* `RxRing.Fits`: the lengths of the completed descriptors fit their buffers
* `RxRing.Extended r r' new`: the packets `new` were handed up within their buffers, and counted

## Main results

* `rxEntry_extended`, `rxLoop_extended`: one turn of the receive loop, and the whole loop
* `FillRun.fresh`: the refill adds fresh buffers only
* `rxInterrupt_extended`: `rtl8101_rx_interrupt`, for every ring, budget and allocation outcome
-/

namespace Rtl8101

open Counter

namespace RxRing

/-- The buffers of the ring are as `rtl8101_alloc_rx_skb` left them: nothing is in them yet, and
there is room for `rx_buf_sz` bytes. -/
def Fresh (r : RxRing) : Prop :=
  ∀ i skb, r.rxSkbuff i = some skb → skb.len = 0#32 ∧ skb.tailroom = r.rxBufSz

/-- Without the CRC, the length of every completed descriptor without an error fits the buffer. -/
def Fits (r : RxRing) : Prop :=
  ∀ i skb, r.rxSkbuff i = some skb → (r.rxDescArray i).own = false →
    hasBits (r.rxDescArray i).opts1 rxRes = false →
    4 ≤ (lenField (r.rxDescArray i).opts1).toNat ∧
      (lenField (r.rxDescArray i).opts1).toNat ≤ r.rxBufSz.toNat + 4

/-- Between `r` and `r'` the packets `new` were handed up: each was extended by at most the room of
its buffer, and `rx_bytes` grew by their lengths. -/
structure Extended (r r' : RxRing) (new : List Packet) : Prop where
  handedUp : r'.handedUp = r.handedUp ++ new
  room : ∀ p ∈ new, p.skb.len.toNat ≤ r.rxBufSz.toNat ∧
    p.skb.len.toNat + p.skb.tailroom.toNat = r.rxBufSz.toNat
  bytes : r'.stats.rxBytes =
    r.stats.rxBytes + BitVec.ofNat 64 (new.map fun p => p.skb.len.toNat).sum

variable {r r' r'' : RxRing} {new new' : List Packet} {i : Fin numRxDesc}

theorem Extended.nil (hup : r'.handedUp = r.handedUp)
    (hbytes : r'.stats.rxBytes = r.stats.rxBytes) : Extended r r' [] := by
  refine ⟨by simpa using hup, ?_, by simpa using hbytes⟩
  intro p hp
  cases hp

theorem Extended.trans (h : Extended r r' new) (h' : Extended r' r'' new')
    (hsz : r'.rxBufSz = r.rxBufSz) : Extended r r'' (new ++ new') := by
  refine ⟨by rw [h'.handedUp, h.handedUp, List.append_assoc], ?_, ?_⟩
  · intro p hp
    rcases List.mem_append.mp hp with hp | hp
    · exact h.room p hp
    · exact hsz ▸ h'.room p hp
  · rw [h'.bytes, h.bytes, List.map_append, List.sum_append, BitVec.ofNat_add, BitVec.add_assoc]

/-! ## The receive loop -/

/-- `skb_put` of a fresh buffer, with a length that fits. -/
theorem put_room {skb : SkBuff} {sz status : BitVec 32} (hlen : skb.len = 0#32)
    (hroom : skb.tailroom = sz) (h4 : 4 ≤ (lenField status).toNat)
    (hsz : (lenField status).toNat ≤ sz.toNat + 4) :
    (skb.put (lenField status - 4#32)).len.toNat = (lenField status).toNat - 4 ∧
      (skb.put (lenField status - 4#32)).len.toNat ≤ sz.toNat ∧
      (skb.put (lenField status - 4#32)).len.toNat +
        (skb.put (lenField status - 4#32)).tailroom.toNat = sz.toNat := by
  have hsize : (lenField status - 4#32).toNat = (lenField status).toNat - 4 :=
    pktSize_toNat rfl h4
  have hput : (skb.put (lenField status - 4#32)).len.toNat = (lenField status).toNat - 4 := by
    rw [SkBuff.put, hlen, BitVec.zero_add, hsize]
  have hrest : (skb.put (lenField status - 4#32)).tailroom.toNat =
      sz.toNat - ((lenField status).toNat - 4) := by
    rw [SkBuff.put, hroom, BitVec.toNat_sub_of_le (BitVec.le_def.mpr (by omega)), hsize]
  exact ⟨hput, by omega, by omega⟩

/-- **One turn of the receive loop.** -/
theorem rxEntry_extended (hfresh : r.Fresh) (hfits : r.Fits)
    (hown : (r.rxDescArray i).own = false) :
    (∃ new, Extended r (r.rxEntry i) new) ∧ (r.rxEntry i).Fresh ∧ (r.rxEntry i).Fits := by
  unfold rxEntry
  dsimp only
  split
  · refine ⟨⟨[], .nil rfl rfl⟩, hfresh, ?_⟩
    intro j skb hs hown' hres
    by_cases hj : j = i
    · subst hj
      simp [rxError] at hown'
    · simp only [rxError, Function.update_of_ne hj] at hown' hres ⊢
      exact hfits j skb hs hown' hres
  · next hres =>
    rw [Bool.not_eq_true] at hres
    unfold rxGood pciUnmapSingle
    dsimp only
    cases hs : r.rxSkbuff i with
    | none => exact ⟨⟨[], .nil rfl rfl⟩, hfresh, hfits⟩
    | some skb =>
      obtain ⟨hlen, hroom⟩ := hfresh i skb hs
      obtain ⟨h4, hsz⟩ := hfits i skb hs hown hres
      obtain ⟨hput, hle, hsum⟩ := put_room hlen hroom h4 hsz
      have hother : ∀ j skb', Function.update r.rxSkbuff i none j = some skb' →
          r.rxSkbuff j = some skb' := by
        intro j skb' hj
        by_cases hji : j = i
        · subst hji; simp at hj
        · simpa [hji] using hj
      refine ⟨⟨_, rfl, ?_, ?_⟩, ?_, ?_⟩
      · intro p hp
        rw [List.mem_singleton.mp hp]
        exact ⟨hle, hsum⟩
      · simp only [List.map_cons, List.map_nil, List.sum_singleton]
        rw [hput, pktSize_signExtend rfl h4]
      · intro j skb' hj
        exact hfresh j skb' (hother j skb' hj)
      · intro j skb' hj
        exact hfits j skb' (hother j skb' hj)

/-- **The receive loop**, with any number of turns from any index. -/
theorem rxLoop_extended (n : ℕ) : ∀ (r : RxRing) (cur : BitVec 32), r.Fresh → r.Fits →
    ∃ new, Extended r (rxLoop n r cur).1 new ∧ (rxLoop n r cur).1.Fresh := by
  induction n with
  | zero => exact fun r cur hfresh _ => ⟨[], .nil rfl rfl, hfresh⟩
  | succ n ih =>
    intro r cur hfresh hfits
    rw [rxLoop]
    cases hown : (r.rxDescArray (entry cur)).own with
    | true => exact ⟨[], .nil rfl rfl, hfresh⟩
    | false =>
      obtain ⟨⟨new, hnew⟩, hfresh', hfits'⟩ := rxEntry_extended hfresh hfits hown
      obtain ⟨new', hnew', hfresh''⟩ := ih (r.rxEntry (entry cur)) (cur + 1#32) hfresh' hfits'
      exact ⟨new ++ new', hnew.trans hnew' (rxEntry_sameFrame r _).rxBufSz, hfresh''⟩

/-! ## The refill -/

/-- The refill adds fresh buffers only. -/
theorem FillRun.fresh {alloc : BitVec 32 → Allocator} {p q : ℕ} (hrun : FillRun alloc r p r' q)
    (h : r.Fresh) : r'.Fresh := by
  induction hrun with
  | done r p => exact h
  | skip _ _ ih => exact ih h
  | @fill r r₁ r' p q hs ha _ ih =>
    obtain ⟨m, -, rfl⟩ := allocRxSkb_eq_some ha
    apply ih
    intro j skb hj
    by_cases hjp : j = pos numRxDesc p
    · subst hjp
      simp only [Function.update_self, Option.some.injEq] at hj
      subst hj
      -- `RTK_RX_ALIGN` is added to the size and reserved again
      exact ⟨rfl, BitVec.add_sub_cancel _ _⟩
    · exact h j skb (by simpa [hjp] using hj)

/-- **`rtl8101_rx_interrupt`**, for every ring, budget and outcome of its allocations: if the
lengths of the completed descriptors fit, every packet was extended within the room of its buffer,
`rx_bytes` grew by the sum of the lengths, and the buffers left in the ring are fresh again. -/
theorem rxInterrupt_extended (hfresh : r.Fresh) (hfits : r.Fits) (alloc : BitVec 32 → Allocator)
    (budget : BitVec 32) :
    (∃ new, Extended r (r.rxInterrupt alloc budget).1 new) ∧
      (r.rxInterrupt alloc budget).1.Fresh := by
  rcases rxInterrupt_cases alloc r budget with
    he | ⟨n, -, r₁, cur, r₂, delta, p, q, hloop, hrun, he⟩
  · rw [he]
    exact ⟨⟨[], .nil rfl rfl⟩, hfresh⟩
  · obtain ⟨new, hnew, hfresh₁⟩ := rxLoop_extended n r r.curRx hfresh hfits
    rw [hloop] at hnew hfresh₁
    obtain ⟨hup, hstats⟩ := hrun.traces
    rw [he]
    refine ⟨⟨new, hup.trans hnew.handedUp, hnew.room, ?_⟩, hrun.fresh hfresh₁⟩
    exact (congrArg RxStats.rxBytes hstats).trans hnew.bytes

/-- A ring whose first descriptor was completed with the word `status`. -/
def oneReceived (status : BitVec 32) : RxRing where
  curRx := 0#32
  dirtyRx := 0#32
  rxDescNull := false
  rxDescArray := Function.update (fun _ => .zero) 0 ⟨status, 0#32, 0x1000#64⟩
  rxSkbuff := Function.update (fun _ => none) 0 (some ⟨0x1000#64, 0#32, rxBufSize, 0#8⟩)
  rxBufSz := rxBufSize
  stats := ⟨0, 0, 0, 0, 0⟩
  mem := fun _ => []
  dma := Ledger.empty.acquire ⟨0x1000#64, rxBufSize⟩
  skbs := Ledger.empty.acquire ⟨0x1000#64, 0#32, rxBufSize, 0#8⟩
  handedUp := []
  faults := []

theorem oneReceived_skb {status : BitVec 32} {skb : SkBuff}
    (h : (oneReceived status).rxSkbuff i = some skb) :
    i = 0 ∧ skb = ⟨0x1000#64, 0#32, rxBufSize, 0#8⟩ := by
  by_cases hi : i = 0
  · subst hi
    simp only [oneReceived, Function.update_self, Option.some.injEq] at h
    exact ⟨rfl, h.symm⟩
  · simp [oneReceived, hi] at h

theorem oneReceived_fresh (status : BitVec 32) : (oneReceived status).Fresh := by
  intro i skb h
  obtain ⟨-, rfl⟩ := oneReceived_skb h
  exact ⟨rfl, rfl⟩

/-- A packet of 60 bytes behind which no new buffer is found. -/
theorem rxInterrupt_extended_ping :
    (oneReceived 64#32).Fresh ∧ (oneReceived 64#32).Fits ∧
      ∃ new, Extended (oneReceived 64#32)
        ((oneReceived 64#32).rxInterrupt (fun _ => .fail) 64#32).1 new := by
  have hfits : (oneReceived 64#32).Fits := by
    intro i skb h _ _
    obtain ⟨rfl, -⟩ := oneReceived_skb h
    decide
  exact ⟨oneReceived_fresh _, hfits,
    (rxInterrupt_extended (oneReceived_fresh _) hfits _ _).1⟩

/-- A poll of a ring with one completed descriptor hands its buffer up, whatever its length. -/
theorem oneReceived_rxInterrupt (status : BitVec 32) (hown : hasBits status descOwn = false)
    (hres : hasBits status rxRes = false) :
    ((oneReceived status).rxInterrupt (fun _ => .fail) 1#32).1.handedUp.map
        (fun p => p.skb.len) = [lenField status - 4#32] ∧
      ((oneReceived status).rxInterrupt (fun _ => .fail) 1#32).1.stats.rxBytes =
        (lenField status - 4#32).signExtend 64 := by
  have hown' : ((oneReceived status).rxDescArray 0).own = false := hown
  have hres' : hasBits ((oneReceived status).rxDescArray 0).opts1 rxRes = false := hres
  rw [rxInterrupt_fail rfl rfl rfl hown' (rxEntry_good hres').1]
  simp only [rxEntry, hres', rxGood, pciUnmapSingle, Bool.false_eq_true, if_false]
  simp [oneReceived, SkBuff.put]

/-- A length of 3 bytes extends the buffer by `2 ^ 32 - 1` and takes one from `rx_bytes`; a length
of `rx_buf_sz + 5` bytes extends it by one byte more than it has room for. -/
theorem length_trusted :
    ((oneReceived 3#32).rxInterrupt (fun _ => .fail) 1#32).1.handedUp.map
        (fun p => p.skb.len) = [0xFFFFFFFF#32] ∧
      ((oneReceived 3#32).rxInterrupt (fun _ => .fail) 1#32).1.stats.rxBytes =
        0xFFFFFFFFFFFFFFFF#64 ∧
      ((oneReceived 1528#32).rxInterrupt (fun _ => .fail) 1#32).1.handedUp.map
        (fun p => p.skb.len) = [1524#32] ∧
      (∀ status ∈ [3#32, 1528#32], (oneReceived status).Fresh ∧
        ¬ ∃ new, Extended (oneReceived status)
          ((oneReceived status).rxInterrupt (fun _ => .fail) 1#32).1 new) := by
  have hshort := oneReceived_rxInterrupt 3#32 (by decide) (by decide)
  have hlong := oneReceived_rxInterrupt 1528#32 (by decide) (by decide)
  refine ⟨hshort.1, hshort.2, hlong.1, ?_⟩
  intro status hmem
  refine ⟨oneReceived_fresh status, ?_⟩
  rintro ⟨new, hnew⟩
  have hroom : ∀ len, (new.map fun p => p.skb.len) = [len] → len.toNat ≤ rxBufSize.toNat := by
    intro len hlen
    obtain ⟨p, rfl, hp⟩ := List.map_eq_singleton_iff.mp hlen
    exact hp ▸ (hnew.room p (List.mem_singleton.mpr rfl)).1
  have hup : ((oneReceived status).rxInterrupt (fun _ => .fail) 1#32).1.handedUp = new :=
    hnew.handedUp
  rw [← hup] at hroom
  rcases List.mem_pair.mp hmem with rfl | rfl
  · exact absurd (hroom _ hshort.1) (by decide)
  · exact absurd (hroom _ hlong.1) (by decide)

end RxRing

end Rtl8101
