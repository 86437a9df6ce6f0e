import NanoCell.Expt.Handler

/-!
# One reader of the expt DMA driver

A single open file is read from offset 0 on, while the NIC receives packets and the handler offers
them. The packet is read in pieces of any length. The read that finds the offset at the end takes
the packet back, rewinds the offset, and gives the descriptor to the NIC, in this order; the NIC
may fill it again, and the handler may offer the next packet, before that read is over.

## Main definitions

* `Reading`, `readingStep`: the device with one reader, access by access, and a record of what it
  was given
* `Reading.InOrder`: what was read between two recyclings is the next packet
* `Reading.AtNic`, `Reading.Arrived`, `Reading.Offered`, `Reading.Returning`: the
  phases of a packet

## Main results

* `read_alone`: with nothing in between, the steps of a read amount to `exptRead`
* `Phased.of_same`: what leaves the packet alone keeps its phase
* `Phased.step`: every step keeps the system in one of the phases
* `inOrder_always`: the packets are read whole, once, and in order, over every run
-/

namespace Expt

open Rtl8101 (RxFrame descOwn lenField lenField_or)
open Transition

/-- Where a call of `expt_read` stands: before the test of `pkt_rx_avail`, before the comparison
of the offset, before the length is bounded, before `copy_to_user`; and at the end of a packet,
before `pkt_rx_avail` is cleared, the offset rewound, the descriptor given back, and the interrupt
enabled. -/
inductive ReadPc where
  | idle
  | entered (len : ℕ) (fault : Bool)
  | available (len : ℕ) (fault : Bool)
  | inside (len : ℕ) (fault : Bool)
  | copying (n : ℕ) (fault : Bool)
  | ending
  | cleared
  | rewound
  | recycled
  deriving DecidableEq

/-- The device, the handler, the offset of the file and its reader. The rest is a record of the
run: the results of the reads, the packets received, the bytes returned since the descriptor was
given back, and the bytes returned before it was, each time. -/
structure Reading where
  dev : DevPriv
  handler : HandlerPc
  off : ℕ
  pc : ReadPc
  results : List ReadResult
  received : List (List (BitVec 8))
  chunk : List (BitVec 8)
  packets : List (List (BitVec 8))

/-- What happens to the device: a packet, another cause of an interrupt, the next step of the
handler, a new call of the reader, and its next step. -/
inductive ReadingEvent where
  | receive (f : RxFrame)
  | latchOther (bits : BitVec 16)
  | handler
  | read (len : ℕ) (fault : Bool)
  | next

/-- A packet of at most `RX_PKT_SIZE` bytes, whose length the NIC reports. -/
def WholePacket (f : RxFrame) : Prop :=
  (lenField f.status).toNat = f.bytes.length ∧ f.bytes.length ≤ pktSize

instance (f : RxFrame) : Decidable (WholePacket f) := inferInstanceAs (Decidable (_ ∧ _))

namespace Reading

/-- The device after its set-up, the file at offset 0. -/
def start (dev : DevPriv) : Reading := ⟨dev, .idle, 0, .idle, [], [], [], []⟩

/-- The call ends with the result `r`. -/
def finish (s : Reading) (r : ReadResult) : Reading :=
  { s with pc := .idle, results := s.results ++ [r] }

/-- The next step of the reader. -/
def next (s : Reading) : Option Reading :=
  match s.pc with
  | .idle => none
  | .entered len fault =>
    if s.dev.pktRxAvail = 0 then some (s.finish .eagain)
    else some { s with pc := .available len fault }
  | .available len fault =>
    if s.dev.rxPktSize ≤ s.off then some { s with pc := .ending }
    else some { s with pc := .inside len fault }
  | .inside len fault => some { s with pc := .copying (min len (s.dev.rxPktSize - s.off)) fault }
  | .copying n fault =>
    if fault = true ∧ n ≠ 0 then some (s.finish .efault)
    else
      let data := (List.range' s.off n).map s.dev.pktRx
      some ({ s with off := s.off + n, chunk := s.chunk ++ data }.finish (.data data))
  | .ending => some { s with dev := { s.dev with pktRxAvail := 0 }, pc := .cleared }
  | .cleared => some { s with off := 0, pc := .rewound }
  | .rewound =>
    some { s with
      dev := { s.dev with descRx := { s.dev.descRx with
        opts1 := s.dev.descRx.opts1 ||| descOwn ||| BitVec.ofNat 32 pktSize } }
      pc := .recycled
      chunk := []
      packets := s.packets ++ [s.chunk] }
  | .recycled => some ({ s with dev := s.dev.hwEnableIntr intrRxDescUnavail }.finish .endOfPacket)

end Reading

/-- One step of the system. -/
def readingStep (s : Reading) : ReadingEvent → Option Reading
  | .receive f =>
    if WholePacket f then
      (s.dev.nicReceive f).map fun dev => { s with dev := dev, received := s.received ++ [f.bytes] }
    else none
  | .latchOther bits => some { s with dev := s.dev.latchOther bits }
  | .handler =>
    some { s with
      dev := (handlerStep s.dev s.handler).1
      handler := (handlerStep s.dev s.handler).2 }
  | .read len fault => if s.pc = .idle then some { s with pc := .entered len fault } else none
  | .next => s.next

/-! ## A read alone -/

namespace Reading

/-- **A read alone**: with nothing in between, the steps of a read amount to `exptRead`. -/
theorem read_alone {s : Reading} (hidle : s.pc = .idle) (len : ℕ) (fault : Bool) :
    ∃ n t, run readingStep s (.read len fault :: List.replicate n .next) = some t ∧
      t.pc = .idle ∧ t.results = s.results ++ [(s.dev.exptRead s.off len fault).2.2] ∧
      t.dev = (s.dev.exptRead s.off len fault).1 ∧
      t.off = (s.dev.exptRead s.off len fault).2.1 := by
  have hread : ∀ es, run readingStep s (.read len fault :: es) =
      run readingStep { s with pc := .entered len fault } es :=
    fun es => run_cons (if_pos hidle) es
  simp only [hread, DevPriv.exptRead]
  by_cases havail : s.dev.pktRxAvail = 0
  · refine ⟨1, s.finish .eagain, ?_, rfl, ?_⟩
    · simp [run, readingStep, next, finish, havail]
    · simp [finish, havail]
  by_cases hend : s.dev.rxPktSize ≤ s.off
  · refine ⟨6, { s with
      dev := s.dev.recycle, off := 0, chunk := [], packets := s.packets ++ [s.chunk] }.finish
        .endOfPacket, ?_, rfl, ?_⟩
    · simp only [run, readingStep, next, finish, havail, hend, if_false, if_true,
        List.replicate, Option.bind_some]
      rfl
    · simp [finish, havail, hend]
  by_cases hfault : fault = true ∧ min len (s.dev.rxPktSize - s.off) ≠ 0
  · refine ⟨4, s.finish .efault, ?_, rfl, ?_⟩
    · simp only [run, readingStep, next, finish, havail, hend, if_false, if_pos hfault,
        List.replicate, Option.bind_some]
    · simp only [finish, havail, hend, if_false, if_pos hfault, and_self]
  · obtain ⟨n, hn⟩ : ∃ n, n = min len (s.dev.rxPktSize - s.off) := ⟨_, rfl⟩
    refine ⟨4, { s with
      off := s.off + n, chunk := s.chunk ++ (List.range' s.off n).map s.dev.pktRx }.finish
        (.data ((List.range' s.off n).map s.dev.pktRx)), ?_, rfl, ?_⟩
    · simp only [run, readingStep, next, finish, havail, hend, if_false, if_neg hfault,
        List.replicate, Option.bind_some, hn]
    · simp only [finish, havail, hend, if_false, if_neg hfault, and_self, hn]

end Reading

/-! ## The phases of a packet -/

namespace Reading

/-- What was read between two recyclings is a packet: the packets received, in their order, and
none left out but the last. What was read since then is the beginning of the next one. `DescOwn`
is clear while a packet is offered, and the NIC has room for every packet while it is set. -/
structure InOrder (s : Reading) : Prop where
  packets : s.packets <+: s.received
  last : s.received.length ≤ s.packets.length + 1
  chunk : s.chunk = [] ∨ ∃ p, s.received = s.packets ++ [p] ∧ s.chunk <+: p
  unowned : s.dev.pktRxAvail ≠ 0 → s.dev.descRx.own = false
  room : s.dev.descRx.own = true → ∀ f, WholePacket f → (s.dev.nicReceive f).isSome = true

end Reading

/-- The reader relies on no packet. -/
def ReadPc.Outside : ReadPc → Prop
  | .idle | .entered _ _ | .recycled => True
  | _ => False

/-- The reader relies on the packet that is offered. -/
def ReadPc.Inside : ReadPc → Prop
  | .available _ _ | .inside _ _ | .copying _ _ | .ending => True
  | _ => False

/-- The buffer has the bytes of `p`. -/
def DevPriv.Stores (s : DevPriv) (p : List (BitVec 8)) : Prop :=
  ∀ k < p.length, s.pktRx k = p.getD k 0#8

namespace Reading

/-- The NIC has the descriptor: every packet received was given back. -/
structure AtNic (s : Reading) : Prop where
  own : s.dev.descRx.own = true
  room : pktSize ≤ (lenField s.dev.descRx.opts1).toNat
  avail : s.dev.pktRxAvail = 0
  pending : rxPending s.dev s.handler = 0
  received : s.received = s.packets
  chunk : s.chunk = []
  off : s.off = 0
  pc : s.pc.Outside

/-- The packet `p` is in the buffer, and the handler has not offered it yet. -/
structure Arrived (s : Reading) (p : List (BitVec 8)) : Prop where
  own : s.dev.descRx.own = false
  avail : s.dev.pktRxAvail = 0
  pending : rxPending s.dev s.handler = 1
  length : (lenField s.dev.descRx.opts1).toNat = p.length
  size : ∀ st, s.handler = .rxInc st → s.dev.rxPktSize = p.length
  stores : s.dev.Stores p
  received : s.received = s.packets ++ [p]
  chunk : s.chunk = []
  off : s.off = 0
  pc : s.pc.Outside

/-- The packet `p` is offered, and was read up to the offset. -/
structure Offered (s : Reading) (p : List (BitVec 8)) : Prop where
  own : s.dev.descRx.own = false
  avail : s.dev.pktRxAvail = 1
  pending : rxPending s.dev s.handler = 0
  size : s.dev.rxPktSize = p.length
  stores : s.dev.Stores p
  received : s.received = s.packets ++ [p]
  off : s.off ≤ p.length
  chunk : s.chunk = p.take s.off
  pc : match s.pc with
    | .copying n _ => s.off + n ≤ p.length
    | .ending => s.off = p.length
    | .cleared | .rewound => False
    | _ => True

/-- The packet `p` was read, and is on its way back. -/
structure Returning (s : Reading) (p : List (BitVec 8)) : Prop where
  own : s.dev.descRx.own = false
  avail : s.dev.pktRxAvail = 0
  pending : rxPending s.dev s.handler = 0
  received : s.received = s.packets ++ [p]
  chunk : s.chunk = p
  pc : s.pc = .cleared ∨ s.pc = .rewound ∧ s.off = 0

/-- The system is in one of the phases, and the handler acknowledges what is latched. -/
structure Phased (s : Reading) : Prop where
  ack : s.handler.ToAckRx → s.dev.Latched intrRxOkBit
  phase : s.AtNic ∨ ∃ p, s.Arrived p ∨ s.Offered p ∨ s.Returning p

variable {s t : Reading} {p : List (BitVec 8)}

theorem AtNic.receives (h : s.AtNic) {f : RxFrame} (hf : WholePacket f) :
    s.dev.nicReceive f = some { s.dev with
      descRx := { s.dev.descRx with opts1 := f.writeBack s.dev.descRx.opts1 }
      pktRx := fun k => f.bytes.getD k (s.dev.pktRx k)
      intrStatus := s.dev.intrStatus ||| intrRxOkBit } := by
  have hroom := h.room
  refine if_pos ⟨h.own, ?_, hf.2.trans hroom⟩
  rw [BitVec.le_def, hf.1]
  exact hf.2.trans hroom

theorem Phased.inOrder (h : s.Phased) : s.InOrder := by
  rcases h.phase with hn | ⟨p, ha | ho | hr⟩
  · refine ⟨by rw [hn.received], by simp [hn.received], .inl hn.chunk, ?_, ?_⟩
    · exact fun hne => absurd hn.avail hne
    · intro _ f hf
      rw [hn.receives hf]
      rfl
  · refine ⟨by simp [ha.received], by simp [ha.received], .inl ha.chunk, ?_, ?_⟩
    · exact fun _ => ha.own
    · exact fun hown => absurd hown (by simp [ha.own])
  · refine ⟨by simp [ho.received], by simp [ho.received], .inr ⟨p, ho.received, ?_⟩, ?_, ?_⟩
    · rw [ho.chunk]
      exact List.take_prefix _ _
    · exact fun _ => ho.own
    · exact fun hown => absurd hown (by simp [ho.own])
  · refine ⟨by simp [hr.received], by simp [hr.received], .inr ⟨p, hr.received, ?_⟩, ?_, ?_⟩
    · rw [hr.chunk]
    · exact fun _ => hr.own
    · exact fun hown => absurd hown (by simp [hr.own])

/-! ## One step -/

/-- A packet is received into the descriptor of the NIC. -/
theorem Phased.receive (h : s.Phased) {f : RxFrame} (hf : WholePacket f) {dev : DevPriv}
    (hdev : s.dev.nicReceive f = some dev) :
    Phased { s with dev := dev, received := s.received ++ [f.bytes] } := by
  have hown : s.dev.descRx.own = true := by
    by_contra hno
    rw [DevPriv.nicReceive, if_neg (by simp [hno])] at hdev
    cases hdev
  have hn : s.AtNic := by
    rcases h.phase with hn | ⟨p, ha | ho | hr⟩
    · exact hn
    · exact absurd hown (by simp [ha.own])
    · exact absurd hown (by simp [ho.own])
    · exact absurd hown (by simp [hr.own])
  rw [hn.receives hf, Option.some.injEq] at hdev
  subst hdev
  refine ⟨fun hack => (h.ack hack).latch _, .inr ⟨f.bytes, .inl ?_⟩⟩
  refine ⟨RxFrame.writeBack_own _ _, hn.avail, rxPending_latch hn.pending, ?_, ?_, ?_, ?_,
    hn.chunk, hn.off, hn.pc⟩
  · dsimp only
    rw [RxFrame.writeBack_lenField, hf.1]
  · intro st hst
    have hnone := hn.pending
    simp only at hst
    rw [rxPending, hst] at hnone
    simp [HandlerPc.inRx] at hnone
  · intro k hk
    simp [List.getElem?_eq_getElem hk]
  · simp [hn.received]

/-- What leaves the packet and its counts alone keeps the phase. -/
theorem Phased.of_same (h : s.Phased) {dev : DevPriv} {handler : HandlerPc}
    (hdesc : dev.descRx = s.dev.descRx) (hpkt : dev.pktRx = s.dev.pktRx)
    (hsize : dev.rxPktSize = s.dev.rxPktSize) (havail : dev.pktRxAvail = s.dev.pktRxAvail)
    (hpend : rxPending dev handler = rxPending s.dev s.handler)
    (hinc : ∀ st, handler = .rxInc st → s.handler = .rxInc st)
    (hack : handler.ToAckRx → dev.Latched intrRxOkBit) :
    Phased { s with dev := dev, handler := handler } := by
  have hown : dev.descRx.own = s.dev.descRx.own := by rw [hdesc]
  have hfield : lenField dev.descRx.opts1 = lenField s.dev.descRx.opts1 := by rw [hdesc]
  have hstores : ∀ p, s.dev.Stores p → dev.Stores p := by
    intro p hp k hk
    rw [hpkt]
    exact hp k hk
  refine ⟨hack, ?_⟩
  rcases h.phase with hn | ⟨p, ha | ho | hr⟩
  · exact .inl { hn with
      own := hown.trans hn.own
      room := hfield ▸ hn.room
      avail := havail.trans hn.avail
      pending := hpend.trans hn.pending }
  · exact .inr ⟨p, .inl { ha with
      own := hown.trans ha.own
      avail := havail.trans ha.avail
      pending := hpend.trans ha.pending
      length := hfield ▸ ha.length
      size := fun st hst => hsize.trans (ha.size st (hinc st hst))
      stores := hstores p ha.stores }⟩
  · exact .inr ⟨p, .inr (.inl { ho with
      own := hown.trans ho.own
      avail := havail.trans ho.avail
      pending := hpend.trans ho.pending
      size := hsize.trans ho.size
      stores := hstores p ho.stores })⟩
  · exact .inr ⟨p, .inr (.inr { hr with
      own := hown.trans hr.own
      avail := havail.trans hr.avail
      pending := hpend.trans hr.pending })⟩

/-- Another cause of an interrupt is latched. -/
theorem Phased.latchOther (h : s.Phased) (bits : BitVec 16) :
    Phased { s with dev := s.dev.latchOther bits } := by
  have hother : bits &&& ~~~intrRxOkBit &&& intrRxOkBit = 0#16 := by
    rw [BitVec.and_assoc, BitVec.not_and_self]
    exact BitVec.and_zero
  have hlatched : (s.dev.latchOther bits).Latched intrRxOkBit ↔ s.dev.Latched intrRxOkBit :=
    DevPriv.latch_latched hother
  refine h.of_same rfl rfl rfl rfl (rxPending_congr hlatched) (fun _ => id) ?_
  intro hack
  exact hlatched.mpr (h.ack hack)

/-- The handler has a packet in hand only when one has arrived. -/
theorem Phased.arrived_of_inRx (h : s.Phased) (hpc : s.handler.inRx = true) : ∃ p, s.Arrived p := by
  have hpos : rxPending s.dev s.handler ≠ 0 := by
    rw [rxPending, hpc]
    simp
  rcases h.phase with hn | ⟨p, ha | ho | hr⟩
  · exact absurd hn.pending hpos
  · exact ⟨p, ha⟩
  · exact absurd ho.pending hpos
  · exact absurd hr.pending hpos

/-- The handler counts the packet that has arrived. -/
theorem Arrived.offered (h : s.Arrived p) {st : BitVec 16} (hpc : s.handler = .rxInc st) :
    Offered { s with
      dev := { s.dev with pktRxAvail := s.dev.pktRxAvail + 1 }
      handler := .err st } p := by
  -- what is pending is the packet in the hand of the handler, so that nothing is latched
  have hlatched : ¬ s.dev.Latched intrRxOkBit := by
    intro hlatched
    have hone := h.pending
    rw [rxPending, if_pos hlatched, hpc] at hone
    cases hone
  have hlatched' : ¬ DevPriv.Latched { s.dev with pktRxAvail := s.dev.pktRxAvail + 1 }
      intrRxOkBit := hlatched
  refine ⟨h.own, ?_, ?_, h.size st hpc, h.stores, h.received, ?_, ?_, ?_⟩
  · simp [h.avail]
  · simp only [rxPending, if_neg hlatched']
    rfl
  · simp [h.off]
  · simp [h.off, h.chunk]
  · have hout := h.pc
    revert hout
    dsimp only
    cases s.pc <;> simp [ReadPc.Outside]

/-- A step of the handler. -/
theorem Phased.handle (h : s.Phased) :
    Phased { s with
      dev := (handlerStep s.dev s.handler).1
      handler := (handlerStep s.dev s.handler).2 } := by
  have hack := handlerStep_toAckRx h.ack
  rcases handlerStep_rxPending h.ack with
      ⟨st, hpc, hpc', hdev⟩ | ⟨st, hpc, hpc', hdev⟩ | ⟨hne, hsize, havail, hpend⟩
  · obtain ⟨p, ha⟩ := h.arrived_of_inRx (by rw [hpc]; rfl)
    refine ⟨hack, .inr ⟨p, .inr (.inl ?_)⟩⟩
    rw [hpc', hdev]
    exact ha.offered hpc
  · obtain ⟨p, ha⟩ := h.arrived_of_inRx (by rw [hpc]; rfl)
    refine ⟨hack, .inr ⟨p, .inl ?_⟩⟩
    have hone := ha.pending
    rw [hpc] at hone
    rw [hpc', hdev]
    exact { ha with pending := hone, size := fun _ _ => ha.length }
  · obtain ⟨hdesc, hpkt⟩ := handlerStep_descRx s.dev s.handler
    exact h.of_same hdesc hpkt hsize havail hpend (fun st hst => absurd hst (hne st)) hack

/-- The reader goes on to `pc`, which relies on no packet. -/
theorem Phased.outside (h : s.Phased) (hpc : s.pc.Outside) (pc : ReadPc) (hpc' : pc.Outside)
    (results : List ReadResult) : Phased { s with pc := pc, results := results } := by
  refine ⟨h.ack, ?_⟩
  rcases h.phase with hn | ⟨p, ha | ho | hr⟩
  · exact .inl { hn with pc := hpc' }
  · exact .inr ⟨p, .inl { ha with pc := hpc' }⟩
  · refine .inr ⟨p, .inr (.inl { ho with pc := ?_ })⟩
    revert hpc'
    cases pc <;> simp [ReadPc.Outside]
  · rcases hr.pc with hpc'' | ⟨hpc'', -⟩
    · rw [hpc''] at hpc
      cases hpc
    · rw [hpc''] at hpc
      cases hpc

/-- The reader has a packet. -/
theorem Phased.offered (h : s.Phased) (havail : s.dev.pktRxAvail ≠ 0) : ∃ p, s.Offered p := by
  rcases h.phase with hn | ⟨p, ha | ho | hr⟩
  · exact absurd hn.avail havail
  · exact absurd ha.avail havail
  · exact ⟨p, ho⟩
  · exact absurd hr.avail havail

/-- The packet on its way back. -/
theorem Phased.returning (h : s.Phased) (hpc : s.pc = .cleared ∨ s.pc = .rewound) :
    ∃ p, s.Returning p := by
  rcases h.phase with hn | ⟨p, ha | ho | hr⟩
  · have hout := hn.pc
    rcases hpc with hpc | hpc <;> rw [hpc] at hout <;> cases hout
  · have hout := ha.pc
    rcases hpc with hpc | hpc <;> rw [hpc] at hout <;> cases hout
  · have hout := ho.pc
    rcases hpc with hpc | hpc <;> rw [hpc] at hout <;> cases hout
  · exact ⟨p, hr⟩

/-- The reader is inside a packet. -/
theorem Phased.inside (h : s.Phased) {pc : ReadPc} (hpc : s.pc = pc) (hin : pc.Inside) :
    ∃ p, s.Offered p := by
  rw [← hpc] at hin
  rcases h.phase with hn | ⟨p, ha | ho | hr⟩
  · have hout := hn.pc
    revert hin hout
    cases s.pc <;> simp [ReadPc.Inside, ReadPc.Outside]
  · have hout := ha.pc
    revert hin hout
    cases s.pc <;> simp [ReadPc.Inside, ReadPc.Outside]
  · exact ⟨p, ho⟩
  · rcases hr.pc with hr | ⟨hr, -⟩
    · rw [hr] at hin
      cases hin
    · rw [hr] at hin
      cases hin

/-- The bytes of a copy are the next bytes of the packet. -/
theorem Offered.copied (h : s.Offered p) {n : ℕ} (hn : s.off + n ≤ p.length) :
    s.chunk ++ (List.range' s.off n).map s.dev.pktRx = p.take (s.off + n) := by
  have hdata : (List.range' s.off n).map s.dev.pktRx = (p.drop s.off).take n := by
    refine List.ext_getElem (by simp; omega) ?_
    intro k hk hk'
    simp only [List.length_map, List.length_range'] at hk
    have hlt : s.off + k < p.length := by omega
    simp [h.stores (s.off + k) hlt, List.getElem?_eq_getElem hlt]
  rw [h.chunk, hdata, List.take_add]

theorem Phased.next (h : s.Phased) (hnext : s.next = some t) : t.Phased := by
  unfold Reading.next at hnext
  split at hnext
  · cases hnext
  · next len fault hpc =>
    have hout : s.pc.Outside := by rw [hpc]; trivial
    split_ifs at hnext with havail
    · cases hnext
      exact h.outside hout .idle trivial _
    · cases hnext
      obtain ⟨p, ho⟩ := h.offered havail
      exact ⟨h.ack, .inr ⟨p, .inr (.inl { ho with pc := trivial })⟩⟩
  · next len fault hpc =>
    obtain ⟨p, ho⟩ := h.inside hpc trivial
    split_ifs at hnext with hend
    · cases hnext
      rw [ho.size] at hend
      exact ⟨h.ack, .inr ⟨p, .inr (.inl { ho with pc := le_antisymm ho.off hend })⟩⟩
    · cases hnext
      exact ⟨h.ack, .inr ⟨p, .inr (.inl { ho with pc := trivial })⟩⟩
  · next len fault hpc =>
    obtain ⟨p, ho⟩ := h.inside hpc trivial
    cases hnext
    refine ⟨h.ack, .inr ⟨p, .inr (.inl { ho with pc := ?_ })⟩⟩
    have hoff := ho.off
    have hmin := min_le_right len (s.dev.rxPktSize - s.off)
    rw [ho.size] at hmin ⊢
    dsimp only
    omega
  · next n fault hpc =>
    obtain ⟨p, ho⟩ := h.inside hpc trivial
    split_ifs at hnext
    · cases hnext
      exact ⟨h.ack, .inr ⟨p, .inr (.inl { ho with pc := trivial })⟩⟩
    · cases hnext
      have hn := ho.pc
      rw [hpc] at hn
      exact ⟨h.ack, .inr ⟨p, .inr (.inl { ho with
        off := hn, chunk := ho.copied hn, pc := trivial })⟩⟩
  · next hpc =>
    obtain ⟨p, ho⟩ := h.inside hpc trivial
    cases hnext
    have hend := ho.pc
    rw [hpc] at hend
    refine ⟨h.ack, .inr ⟨p, .inr (.inr ⟨ho.own, rfl, ho.pending, ho.received, ?_, .inl rfl⟩)⟩⟩
    simp only [ho.chunk, hend, List.take_length]
  · next hpc =>
    obtain ⟨p, hr⟩ := h.returning (.inl hpc)
    cases hnext
    exact ⟨h.ack, .inr ⟨p, .inr (.inr { hr with pc := .inr ⟨rfl, rfl⟩ })⟩⟩
  · next hpc =>
    obtain ⟨p, hr⟩ := h.returning (.inr hpc)
    cases hnext
    have hoff : s.off = 0 := by
      rcases hr.pc with hpc' | hpc'
      · rw [hpc] at hpc'
        cases hpc'
      · exact hpc'.2
    refine ⟨h.ack, .inl ⟨?_, ?_, hr.avail, hr.pending, ?_, rfl, hoff, trivial⟩⟩
    · simp [Rtl8101.Desc.own, Rtl8101.hasBits_or, Rtl8101.hasBits_self Rtl8101.isFlag_descOwn]
    · simp only [lenField_or, BitVec.toNat_or]
      exact Nat.right_le_or
    · simp only [hr.received, hr.chunk]
  · next hpc =>
    cases hnext
    have hout : s.pc.Outside := by rw [hpc]; trivial
    have henabled : Phased { s with dev := s.dev.hwEnableIntr intrRxDescUnavail } :=
      h.of_same rfl rfl rfl rfl rfl (fun _ => id) h.ack
    exact henabled.outside hout .idle trivial _

theorem Phased.step {e : ReadingEvent} (h : s.Phased) (hstep : readingStep s e = some t) :
    t.Phased := by
  cases e with
  | receive f =>
    simp only [readingStep] at hstep
    split_ifs at hstep with hf
    obtain ⟨dev, hdev, rfl⟩ := Option.map_eq_some_iff.mp hstep
    exact h.receive hf hdev
  | latchOther bits =>
    cases hstep
    exact h.latchOther bits
  | handler =>
    cases hstep
    exact h.handle
  | read len fault =>
    simp only [readingStep] at hstep
    split_ifs at hstep with hidle
    cases hstep
    exact h.outside (by rw [hidle]; trivial) (.entered len fault) trivial s.results
  | next => exact h.next hstep

theorem phased_start {dev : DevPriv} (hok : ¬ dev.Latched intrRxOkBit) (phyPktRx : BitVec 64) :
    (start (dev.setupBuffers phyPktRx)).Phased := by
  have hset : ¬ (dev.setupBuffers phyPktRx).Latched intrRxOkBit := hok
  refine ⟨False.elim, .inl ⟨?_, ?_, rfl, ?_, rfl, rfl, rfl, trivial⟩⟩
  · show Rtl8101.hasBits (descOwn ||| Rtl8101.ringEnd ||| BitVec.ofNat 32 pktSize) descOwn = true
    decide
  · show pktSize ≤ (lenField (descOwn ||| Rtl8101.ringEnd ||| BitVec.ofNat 32 pktSize)).toNat
    decide
  · show rxPending (dev.setupBuffers phyPktRx) .idle = 0
    rw [rxPending, if_neg hset]
    rfl

end Reading

/-- **One reader**: after the set-up, through receptions of packets of at most `RX_PKT_SIZE` bytes,
interrupts, and reads of any lengths by one reader, in any order, what is read between two
recyclings of the descriptor is the next packet that was received. -/
theorem inOrder_always {dev : DevPriv} (hok : ¬ dev.Latched intrRxOkBit) (phyPktRx : BitVec 64)
    (es : List ReadingEvent) :
    Always readingStep Reading.InOrder (.start (dev.setupBuffers phyPktRx)) es :=
  (always_of_step (fun _ _ _ h hst => Reading.Phased.step h hst)
    (Reading.phased_start hok phyPktRx) es).mono fun _ h => h.inOrder

/-- A packet of 3 bytes is read in pieces of 2, while another one arrives as soon as the descriptor
is given back. -/
def twoPackets : List ReadingEvent :=
  [.receive ⟨3#32, [1#8, 2#8, 3#8]⟩, .handler, .handler, .handler, .handler, .handler, .handler,
    .read 2 false, .next, .next, .next, .next, .read 2 true, .next, .next, .next, .next,
    .read 2 false, .next, .next, .next, .next, .read 2 false, .next, .next, .next, .next, .next,
    .receive ⟨1#32, [4#8]⟩, .next]

/-- The two packets, with a read that fails in between. -/
theorem inOrder_always_two :
    ¬ DevPriv.loaded.Latched intrRxOkBit ∧
      ((run readingStep (.start (DevPriv.loaded.setupBuffers 0x2000#64)) twoPackets).map fun t =>
        (t.results, t.packets, t.received)) =
        some ([.data [1#8, 2#8], .efault, .data [3#8], .endOfPacket], [[1#8, 2#8, 3#8]],
          [[1#8, 2#8, 3#8], [4#8]]) ∧
      Always readingStep Reading.InOrder (.start (DevPriv.loaded.setupBuffers 0x2000#64))
        twoPackets :=
  ⟨by decide, by decide, inOrder_always (by decide) _ _⟩

end Expt
