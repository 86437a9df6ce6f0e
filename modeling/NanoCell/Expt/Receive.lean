import NanoCell.Expt.Driver

/-!
# Readers of the expt DMA driver

The packet, its size and its descriptor belong to the device, the offset to each open file. Two
things go wrong between them. The read that gives the descriptor back sets `RX_PKT_SIZE` in the
length field without clearing the length that the NIC reported, so that the NIC may be offered
more than the buffer holds. And it resets the offset of its own file only, so that another file
keeps an offset that belongs to a packet of the past.

## Main definitions

* `Files`, `filesStep`: the device with its open files, and a record of what was read
* `Files.Bounded`: nothing leaves the buffer
* `Files.Whole`: no packet is given back unread, and no reader is given a mixture of packets
* `FullRecycle`, `FreshOffset`: the reads that do no harm

## Main results

* `bounded_iff`: the bounds hold along a run exactly when every packet given back was empty or
  filled the buffer
* `whole_always`: packets are read whole along a run whose reads start at the beginning of the
  packet or continue in it
-/

namespace Expt

open Rtl8101 (RxFrame descOwn lenField lenField_or)
open Transition

/-! ## Open files -/

/-- A packet given back to the NIC: its size, and the bytes of it that had been returned to some
reader. -/
structure Recycled where
  size : ℕ
  served : List ℕ
  deriving DecidableEq

/-- The device and its open files, which are numbered; `offs i` is the offset of the file `i` if
it is open. The rest is a record of the run: the copies made, as offset and length; the number of
packets offered so far; the bytes of the current packet returned to some reader; for each file the
packet in which its offset was last advanced, and the packets of the data returned to it since its
last end of a packet; and the packets given back. -/
structure Files where
  dev : DevPriv
  offs : ℕ → Option ℕ
  copies : List (ℕ × ℕ)
  packet : ℕ
  served : List ℕ
  advanced : ℕ → ℕ
  chunks : ℕ → List ℕ
  recycled : List Recycled

/-- What happens to the device. -/
inductive FilesEvent where
  | receive (f : RxFrame)
  | latchOther (bits : BitVec 16)
  | intr
  | openFile (i : ℕ)
  | closeFile (i : ℕ)
  | read (i len : ℕ) (fault : Bool)

namespace Files

/-- The device after its set-up, no file open. -/
def start (s : DevPriv) : Files := ⟨s, fun _ => none, [], 0, [], fun _ => 0, fun _ => [], []⟩

/-- One read, and its record. -/
def read (s : Files) (i off len : ℕ) (fault : Bool) : Files :=
  let (dev, off', result) := s.dev.exptRead off len fault
  let t := { s with dev := dev, offs := Function.update s.offs i (some off') }
  match result with
  | .eagain => t
  | .efault => { t with copies := s.copies ++ [(off, min len (s.dev.rxPktSize - off))] }
  | .endOfPacket =>
    { t with
      chunks := Function.update s.chunks i []
      recycled := s.recycled ++ [⟨s.dev.rxPktSize, s.served⟩] }
  | .data bytes =>
    let t := { t with copies := s.copies ++ [(off, bytes.length)] }
    if bytes = [] then t
    else
      { t with
        served := s.served ++ List.range' off bytes.length
        advanced := Function.update s.advanced i s.packet
        chunks := Function.update s.chunks i (s.chunks i ++ [s.packet]) }

/-- The interrupt handler, and its record: a packet is offered when `RX_OK` is latched. -/
def intr (s : Files) : Files :=
  { s with
    dev := s.dev.exptPciIntrHandler.1
    packet := if s.dev.RxPending then s.packet + 1 else s.packet
    served := if s.dev.RxPending then [] else s.served }

end Files

/-- One event; a file is opened at offset 0, and its offset moves by reads alone. -/
def filesStep (s : Files) : FilesEvent → Option Files
  | .receive f => (s.dev.nicReceive f).map fun dev => { s with dev := dev }
  | .latchOther bits => some { s with dev := s.dev.latchOther bits }
  | .intr => some s.intr
  | .openFile i =>
    if s.offs i = none then
      some { s with
        offs := Function.update s.offs i (some 0)
        chunks := Function.update s.chunks i [] }
    else none
  -- the number of a closed file may be used again
  | .closeFile i =>
    if s.offs i = none then none else some { s with offs := Function.update s.offs i none }
  | .read i len fault => (s.offs i).map fun off => s.read i off len fault

namespace Files

/-- The ends of a read, with its record. -/
theorem read_cases (s : Files) (i off len : ℕ) (fault : Bool) :
    (s.dev.pktRxAvail = 0 ∧
        s.read i off len fault = { s with offs := Function.update s.offs i (some off) }) ∨
      (s.dev.pktRxAvail ≠ 0 ∧ s.dev.rxPktSize ≤ off ∧ s.read i off len fault = { s with
        dev := s.dev.recycle
        offs := Function.update s.offs i (some 0)
        chunks := Function.update s.chunks i []
        recycled := s.recycled ++ [⟨s.dev.rxPktSize, s.served⟩] }) ∨
      (s.dev.pktRxAvail ≠ 0 ∧ off < s.dev.rxPktSize ∧
        ∃ n ≤ s.dev.rxPktSize - off, s.read i off len fault = { s with
          offs := Function.update s.offs i (some off)
          copies := s.copies ++ [(off, n)] }) ∨
      s.dev.pktRxAvail ≠ 0 ∧ off < s.dev.rxPktSize ∧
        ∃ n ≤ s.dev.rxPktSize - off, n ≠ 0 ∧ s.read i off len fault = { s with
          offs := Function.update s.offs i (some (off + n))
          copies := s.copies ++ [(off, n)]
          served := s.served ++ List.range' off n
          advanced := Function.update s.advanced i s.packet
          chunks := Function.update s.chunks i (s.chunks i ++ [s.packet]) } := by
  unfold read
  rcases s.dev.exptRead_cases off len fault with
      ⟨havail, he⟩ | ⟨havail, hend, he⟩ | ⟨havail, hlt, he⟩ | ⟨havail, hlt, he⟩
  · exact .inl ⟨havail, by rw [he]⟩
  · exact .inr (.inl ⟨havail, hend, by rw [he]⟩)
  · exact .inr (.inr (.inl ⟨havail, hlt, _, min_le_right _ _, by rw [he]⟩))
  · have hmin := min_le_right len (s.dev.rxPktSize - off)
    generalize min len (s.dev.rxPktSize - off) = n at he hmin
    rw [he]
    by_cases hn : n = 0
    · refine .inr (.inr (.inl ⟨havail, hlt, n, hmin, ?_⟩))
      simp [hn]
    · refine .inr (.inr (.inr ⟨havail, hlt, n, hmin, hn, ?_⟩))
      simp [hn]

/-! ## Bounds -/

/-- Nothing leaves the `RX_PKT_SIZE` bytes of `pkt_rx`: the size that the NIC is offered, the size
of the packet, and the copies to the readers. -/
structure Bounded (s : Files) : Prop where
  offered : s.dev.descRx.own = true → (lenField s.dev.descRx.opts1).toNat ≤ pktSize
  size : s.dev.rxPktSize ≤ pktSize
  copies : ∀ c ∈ s.copies, c.1 + c.2 ≤ pktSize

/-- The bounds, with that of the length field whoever owns the descriptor. -/
structure InBuffer (s : Files) : Prop where
  field : (lenField s.dev.descRx.opts1).toNat ≤ pktSize
  size : s.dev.rxPktSize ≤ pktSize
  copies : ∀ c ∈ s.copies, c.1 + c.2 ≤ pktSize

theorem InBuffer.bounded {s : Files} (h : InBuffer s) : Bounded s :=
  ⟨fun _ => h.field, h.size, h.copies⟩

end Files

/-- A read that gives the descriptor back finds the length field of a packet that was empty or
filled the buffer. -/
def FullRecycle (s : Files) : FilesEvent → Prop
  | .read i _ _ => ∀ off ∈ s.offs i, s.dev.pktRxAvail ≠ 0 → s.dev.rxPktSize ≤ off →
    (lenField s.dev.descRx.opts1).toNat = 0 ∨ (lenField s.dev.descRx.opts1).toNat = pktSize
  | _ => True

instance (s : Files) : ∀ e, Decidable (FullRecycle s e)
  | .read i _ _ => inferInstanceAs (Decidable (∀ off ∈ s.offs i, _ → _ → _ ∨ _))
  | .receive _ | .latchOther _ | .intr | .openFile _ | .closeFile _ => isTrue trivial

/-- **The length field after the recycling**: the old one, with the bit of `RX_PKT_SIZE` set. -/
theorem DevPriv.recycle_lenField {s : DevPriv}
    (h : (lenField s.descRx.opts1).toNat ≤ pktSize) :
    (lenField s.recycle.descRx.opts1).toNat =
      if (lenField s.descRx.opts1).toNat = pktSize then pktSize
      else (lenField s.descRx.opts1).toNat + pktSize := by
  have hfield : lenField s.recycle.descRx.opts1 = lenField s.descRx.opts1 ||| 256#32 := by
    simp only [recycle, hwEnableIntr, lenField_or, Rtl8101.lenField_descOwn,
      show lenField (BitVec.ofNat 32 pktSize) = 256#32 from rfl, BitVec.or_zero]
  have hsz : pktSize = 256 := rfl
  rw [hfield, BitVec.toNat_or, show (256#32).toNat = 256 from rfl]
  split_ifs with heq
  · rw [heq]
    decide
  -- below `RX_PKT_SIZE` the old length and the new bit do not overlap
  · have hlt : (lenField s.descRx.opts1).toNat < 2 ^ 8 := by omega
    have hor := Nat.two_pow_add_eq_or_of_lt hlt 1
    rw [show 2 ^ 8 * 1 = 256 from rfl] at hor
    rw [Nat.or_comm]
    omega

theorem DevPriv.recycle_own (s : DevPriv) : s.recycle.descRx.own = true := by
  simp [recycle, hwEnableIntr, Rtl8101.Desc.own, Rtl8101.hasBits_or,
    Rtl8101.hasBits_self Rtl8101.isFlag_descOwn]

namespace Files

variable {s t : Files} {e : FilesEvent}

/-- A reception leaves the length field within what the NIC was offered. -/
theorem InBuffer.receive (h : InBuffer s) {f : RxFrame} {dev : DevPriv}
    (hdev : s.dev.nicReceive f = some dev) : InBuffer { s with dev := dev } := by
  unfold DevPriv.nicReceive at hdev
  split_ifs at hdev with hok
  cases hdev
  refine ⟨?_, h.size, h.copies⟩
  dsimp only
  rw [RxFrame.writeBack_lenField]
  exact (BitVec.le_def.mp hok.2.1).trans h.field

theorem InBuffer.intr (h : InBuffer s) : InBuffer s.intr := by
  obtain ⟨hdesc, -, hsame, hnew⟩ := s.dev.exptPciIntrHandler_rx
  refine ⟨?_, ?_, h.copies⟩
  · simp only [Files.intr, hdesc]
    exact h.field
  · by_cases hrx : s.dev.RxPending
    · simp only [Files.intr, (hnew hrx).1]
      exact h.field
    · simp only [Files.intr, (hsame hrx).1]
      exact h.size

theorem InBuffer.copied (h : InBuffer s) {off n : ℕ} (hlt : off < s.dev.rxPktSize)
    (hn : n ≤ s.dev.rxPktSize - off) :
    ∀ c ∈ s.copies ++ [(off, n)], c.1 + c.2 ≤ pktSize := by
  intro c hc
  rcases List.mem_append.mp hc with hc | hc
  · exact h.copies c hc
  · have hsize := h.size
    rw [List.mem_singleton.mp hc]
    dsimp only
    omega

theorem InBuffer.step (h : InBuffer s) (hok : FullRecycle s e) (hstep : filesStep s e = some t) :
    InBuffer t := by
  cases e with
  | receive f =>
    obtain ⟨dev, hdev, rfl⟩ := Option.map_eq_some_iff.mp hstep
    exact h.receive hdev
  | latchOther bits =>
    cases hstep
    exact { h with }
  | intr =>
    cases hstep
    exact h.intr
  | openFile i =>
    simp only [filesStep] at hstep
    split_ifs at hstep
    cases hstep
    exact { h with }
  | closeFile i =>
    simp only [filesStep] at hstep
    split_ifs at hstep
    cases hstep
    exact { h with }
  | read i len fault =>
    obtain ⟨off, hoff, rfl⟩ := Option.map_eq_some_iff.mp hstep
    rcases s.read_cases i off len fault with
        ⟨-, he⟩ | ⟨havail, hend, he⟩ | ⟨-, hlt, n, hn, he⟩ | ⟨-, hlt, n, hn, -, he⟩
    · rw [he]
      exact { h with }
    · rw [he]
      refine ⟨?_, h.size, h.copies⟩
      dsimp only
      rw [DevPriv.recycle_lenField h.field]
      rcases hok off hoff havail hend with h0 | hfull
      · rw [h0]
        split_ifs <;> simp
      · rw [if_pos hfull]
    · rw [he]
      exact { h with copies := h.copied hlt hn }
    · rw [he]
      exact { h with copies := h.copied hlt hn }

/-- Any other recycling offers the NIC more than the buffer. -/
theorem InBuffer.not_bounded_step (h : InBuffer s) (hok : ¬ FullRecycle s e)
    (hstep : filesStep s e = some t) : ¬ Bounded t := by
  cases e with
  | receive f => exact absurd trivial hok
  | latchOther bits => exact absurd trivial hok
  | intr => exact absurd trivial hok
  | openFile i => exact absurd trivial hok
  | closeFile i => exact absurd trivial hok
  | read i len fault =>
    simp only [FullRecycle, Classical.not_forall, not_or] at hok
    obtain ⟨off, hoff, havail, hend, hne, hne'⟩ := hok
    rw [Option.mem_def] at hoff
    simp only [filesStep, hoff, Option.map_some, Option.some.injEq] at hstep
    subst hstep
    intro hb
    rcases s.read_cases i off len fault with ⟨h0, -⟩ | ⟨-, -, he⟩ | ⟨-, hlt, -⟩ | ⟨-, hlt, -⟩
    · exact havail h0
    · have hoffered := hb.offered
      rw [he] at hoffered
      have hle := hoffered (DevPriv.recycle_own _)
      rw [DevPriv.recycle_lenField h.field, if_neg hne'] at hle
      omega
    · omega
    · omega

end Files

/-- **The bounds along a run**: after the set-up, through receptions by a NIC that stays within
the size it is offered, interrupts, and reads of any lengths through any files, nothing leaves the
buffer exactly as long as every packet given back was empty or filled it. -/
theorem bounded_iff {s : DevPriv} (hsize : s.rxPktSize ≤ pktSize) (phyPktRx : BitVec 64)
    (es : List FilesEvent) :
    Always filesStep Files.Bounded (.start (s.setupBuffers phyPktRx)) es ↔
      Along filesStep FullRecycle (.start (s.setupBuffers phyPktRx)) es := by
  have hstart : Files.InBuffer (.start (s.setupBuffers phyPktRx)) :=
    ⟨show (lenField (descOwn ||| Rtl8101.ringEnd ||| BitVec.ofNat 32 pktSize)).toNat ≤ pktSize
      by decide, hsize, fun c hc => by cases hc⟩
  exact always_iff_along (J := Files.InBuffer) (fun _ h => h.bounded)
    (fun _ _ _ h hok hstep => h.step hok hstep)
    (fun _ _ _ h hok hstep => h.not_bounded_step hok hstep) hstart es

/-- A frame of `n` bytes. -/
def testFrame (n : ℕ) : RxFrame := ⟨BitVec.ofNat 32 n, List.replicate n 0xAB#8⟩

/-- A packet that fills the buffer is read and given back. -/
theorem bounded_iff_full :
    DevPriv.loaded.rxPktSize ≤ pktSize ∧
      (Always filesStep Files.Bounded (.start (DevPriv.loaded.setupBuffers 0x1000#64))
          [.openFile 0, .receive (testFrame 256), .intr, .read 0 256 false, .read 0 256 false] ↔
        Along filesStep FullRecycle (.start (DevPriv.loaded.setupBuffers 0x1000#64))
          [.openFile 0, .receive (testFrame 256), .intr, .read 0 256 false, .read 0 256 false]) :=
  ⟨by decide, bounded_iff (s := DevPriv.loaded) (by decide) _ _⟩

/-- After a packet of 60 bytes the NIC is offered 316 bytes; it fills 300 of them, and the reader
is given what lies behind the buffer. -/
theorem shortPacket_overflow :
    let es : List FilesEvent := [.openFile 0, .receive (testFrame 60), .intr, .read 0 60 false,
      .read 0 60 false]
    let fs : List FilesEvent := es ++ [.receive (testFrame 300), .intr, .read 0 300 false]
    ((run filesStep (.start (DevPriv.loaded.setupBuffers 0x1000#64)) es).map fun t =>
        (t.dev.descRx.own, lenField t.dev.descRx.opts1)) = some (true, 316#32) ∧
      ((run filesStep (.start (DevPriv.loaded.setupBuffers 0x1000#64)) fs).map fun t =>
        (t.dev.rxPktSize, t.copies)) = some (300, [(0, 60), (0, 300)]) ∧
      ¬ Always filesStep Files.Bounded (.start (DevPriv.loaded.setupBuffers 0x1000#64)) fs := by
  intro es fs
  have hfs : ((run filesStep (.start (DevPriv.loaded.setupBuffers 0x1000#64)) fs).map fun t =>
      (t.dev.rxPktSize, t.copies)) = some (300, [(0, 60), (0, 300)]) := by decide +kernel
  refine ⟨by decide, hfs, ?_⟩
  intro h
  obtain ⟨t, ht, he⟩ := Option.map_eq_some_iff.mp hfs
  have hsize := (h.of_run ht).size
  rw [(Prod.mk.inj he).1] at hsize
  exact absurd hsize (by decide)

/-! ## Whole packets -/

/-- A read of an available packet starts at the beginning, or continues from an offset that was
reached in the same packet. -/
def FreshOffset (s : Files) : FilesEvent → Prop
  | .read i _ _ => ∀ off ∈ s.offs i, s.dev.pktRxAvail ≠ 0 → off = 0 ∨ s.advanced i = s.packet
  | _ => True

instance (s : Files) : ∀ e, Decidable (FreshOffset s e)
  | .read i _ _ => inferInstanceAs (Decidable (∀ off ∈ s.offs i, _ → _ ∨ _))
  | .receive _ | .latchOther _ | .intr | .openFile _ | .closeFile _ => isTrue trivial

namespace Files

/-- A file that was advanced in the current packet has read it from the beginning; the data
returned to a file is of the packet in which it was last advanced. -/
structure Tracked (s : Files) : Prop where
  advanced : ∀ i, s.advanced i ≤ s.packet
  covered : ∀ i off, s.offs i = some off → s.advanced i = s.packet → ∀ k < off, k ∈ s.served
  chunks : ∀ i, ∀ a ∈ s.chunks i, a = s.advanced i
  fresh : ∀ i, s.offs i = some 0 → s.chunks i = []
  recycled : ∀ c ∈ s.recycled, ∀ k < c.size, k ∈ c.served

variable {s t : Files} {e : FilesEvent}

/-- A new packet makes every offset stale. -/
theorem Tracked.intr (h : Tracked s) : Tracked s.intr := by
  by_cases hrx : s.dev.RxPending
  · refine { h with advanced := ?_, covered := ?_ }
    · intro i
      have := h.advanced i
      simp only [Files.intr, hrx, if_true]
      omega
    · intro i off hoff hadv
      have := h.advanced i
      simp only [Files.intr, hrx, if_true] at hadv
      omega
  · simp only [Files.intr, hrx, if_false]
    exact { h with }

/-- A read that leaves its offset and returns nothing. -/
theorem Tracked.unmoved (h : Tracked s) {i off : ℕ} (hoff : s.offs i = some off) {dev : DevPriv}
    {copies : List (ℕ × ℕ)} :
    Tracked { s with
      dev := dev, offs := Function.update s.offs i (some off), copies := copies } := by
  rw [← hoff, Function.update_eq_self]
  exact { h with }

/-- **A read that returns data** continues in the packet, or begins it. -/
theorem Tracked.advance (h : Tracked s) {i off n : ℕ} (hoff : s.offs i = some off) (hn : n ≠ 0)
    (hfresh : off = 0 ∨ s.advanced i = s.packet) {copies : List (ℕ × ℕ)} :
    Tracked { s with
      offs := Function.update s.offs i (some (off + n))
      copies := copies
      served := s.served ++ List.range' off n
      advanced := Function.update s.advanced i s.packet
      chunks := Function.update s.chunks i (s.chunks i ++ [s.packet]) } := by
  refine ⟨?_, ?_, ?_, ?_, h.recycled⟩
  · intro j
    by_cases hji : j = i
    · subst hji; simp
    · simpa [hji] using h.advanced j
  · intro j o hj hadv k hk
    dsimp only at hj hadv ⊢
    by_cases hji : j = i
    · subst hji
      simp only [Function.update_self, Option.some.injEq] at hj
      subst hj
      by_cases hk' : k < off
      · refine List.mem_append_left _ (h.covered j off hoff ?_ k hk')
        exact hfresh.resolve_left (by omega)
      · refine List.mem_append_right _ (List.mem_range'_1.mpr ⟨by omega, by omega⟩)
    · rw [Function.update_of_ne hji] at hj hadv
      exact List.mem_append_left _ (h.covered j o hj hadv k hk)
  · intro j a ha
    dsimp only at ha ⊢
    by_cases hji : j = i
    · subst hji
      simp only [Function.update_self, List.mem_append, List.mem_singleton] at ha ⊢
      rcases ha with ha | ha
      · rcases hfresh with rfl | hadv
        · rw [h.fresh j hoff] at ha
          cases ha
        · exact (h.chunks j a ha).trans hadv
      · exact ha
    · rw [Function.update_of_ne hji] at ha ⊢
      exact h.chunks j a ha
  · intro j hj
    dsimp only at hj ⊢
    by_cases hji : j = i
    · subst hji
      simp only [Function.update_self, Option.some.injEq] at hj
      omega
    · rw [Function.update_of_ne hji] at hj ⊢
      exact h.fresh j hj

/-- A file whose offset becomes 0 has been returned nothing of a packet yet. -/
theorem Tracked.rewind (h : Tracked s) (i : ℕ) (dev : DevPriv) :
    Tracked { s with
      dev := dev
      offs := Function.update s.offs i (some 0)
      chunks := Function.update s.chunks i [] } := by
  refine ⟨h.advanced, ?_, ?_, ?_, h.recycled⟩
  · intro j off hj hadv k hk
    by_cases hji : j = i
    · subst hji
      simp only [Function.update_self, Option.some.injEq] at hj
      omega
    · exact h.covered j off (by simpa [hji] using hj) hadv k hk
  · intro j a ha
    by_cases hji : j = i
    · subst hji; simp at ha
    · exact h.chunks j a (by simpa [hji] using ha)
  · intro j hj
    by_cases hji : j = i
    · subst hji; simp
    · simpa [hji] using h.fresh j (by simpa [hji] using hj)

theorem Tracked.closeFile (h : Tracked s) (i : ℕ) :
    Tracked { s with offs := Function.update s.offs i none } := by
  have hopen : ∀ j off, Function.update s.offs i none j = some off → s.offs j = some off := by
    intro j off hj
    by_cases hji : j = i
    · subst hji; simp at hj
    · simpa [hji] using hj
  exact { h with
    covered := fun j off hj => h.covered j off (hopen j off hj)
    fresh := fun j hj => h.fresh j (hopen j 0 hj) }

/-- **The end of a packet**: the reader has come from the beginning of it. -/
theorem Tracked.endOfPacket (h : Tracked s) {i off : ℕ} (hoff : s.offs i = some off)
    (hend : s.dev.rxPktSize ≤ off) (hfresh : off = 0 ∨ s.advanced i = s.packet) {dev : DevPriv} :
    Tracked { s with
      dev := dev
      offs := Function.update s.offs i (some 0)
      chunks := Function.update s.chunks i []
      recycled := s.recycled ++ [⟨s.dev.rxPktSize, s.served⟩] } := by
  refine { h.rewind i dev with recycled := ?_ }
  intro c hc k hk
  rcases List.mem_append.mp hc with hc | hc
  · exact h.recycled c hc k hk
  · rw [List.mem_singleton.mp hc] at hk ⊢
    dsimp only at hk ⊢
    exact h.covered i off hoff (hfresh.resolve_left (by omega)) k (by omega)

theorem Tracked.step (h : Tracked s) (hok : FreshOffset s e) (hstep : filesStep s e = some t) :
    Tracked t := by
  cases e with
  | receive f =>
    obtain ⟨dev, -, rfl⟩ := Option.map_eq_some_iff.mp hstep
    exact { h with }
  | latchOther bits =>
    cases hstep
    exact { h with }
  | intr =>
    cases hstep
    exact h.intr
  | openFile i =>
    simp only [filesStep] at hstep
    split_ifs at hstep
    cases hstep
    exact h.rewind i _
  | closeFile i =>
    simp only [filesStep] at hstep
    split_ifs at hstep
    cases hstep
    exact h.closeFile i
  | read i len fault =>
    obtain ⟨off, hoff, rfl⟩ := Option.map_eq_some_iff.mp hstep
    rcases s.read_cases i off len fault with
        ⟨-, he⟩ | ⟨havail, hend, he⟩ | ⟨-, hlt, n, hn, he⟩ | ⟨havail, hlt, n, hn, hne, he⟩
    · rw [he]
      exact h.unmoved hoff
    · rw [he]
      exact h.endOfPacket hoff hend (hok off hoff havail)
    · rw [he]
      exact h.unmoved hoff
    · rw [he]
      exact h.advance hoff hne (hok off hoff havail)

end Files

end Expt
