import NanoCell.Rtl8101.Registers

/-!
# Restarting the chip

`rtl8101_hw_reset` and `rtl8101_hw_init` run while the chip moves. The atomic `Chip.hwReset` and
`Chip.hwInit` of the device model are what they do, up to moves of the chip before and after: from
the reset to the write that enables them both engines stand still, and the ring addresses, which are
written in halves, are never seen half written.

## Main definitions

* `Guarded p`: an engine that is enabled works on the rings of `p`
* `HwStopped h c`, `ChipStarted h p c`: the ends of `rtl8101_hw_reset` and of `rtl8101_hw_init`,
  entered with the chip `c`

## Main results

* `hwReset_triple`: every interleaving of `rtl8101_hw_reset` is an atomic reset
* `restarts_iff`: in every interleaving `rtl8101_hw_init` restarts the chip on the rings, and no
  engine works on anything else, exactly when the chip resets within 100 polls and neither ring
  lies at the bus address 0
* `getMacAddress_triple`: reading the station address changes it, on a chip that takes single bytes
-/

namespace Rtl8101

open Mmio

variable {h : Silicon} {c : Chip} {g : Config}

/-! ## Resetting the chip -/

/-- The configuration directs the engines to the rings of `p`, and limits a received frame to the
size of the buffers. -/
structure Aimed (p : RingAddrs) (g : Config) : Prop where
  txBase : g.txBase = p.txPhyAddr
  rxBase : g.rxBase = p.rxPhyAddr
  rxMaxSize : g .rxMaxSize = p.rxBufSz.setWidth 16

/-- An engine that is enabled works on the rings of `p`. -/
def Guarded (p : RingAddrs) (s : Regs) : Prop :=
  s.chip.txEnb = true ∨ s.chip.rxEnb = true → Aimed p s.config

/-- The chip `c` moved on its own, with no reset under way. -/
structure Entered (p : RingAddrs) (c : Chip) (s : Regs) : Prop where
  idle : s.resetLeft = none
  guarded : Guarded p s
  moved : Moved c s.chip

/-- The chip `c` moved on its own, and its interrupts were masked and perhaps acknowledged. -/
structure Masked (p : RingAddrs) (c : Chip) (s : Regs) : Prop where
  idle : s.resetLeft = none
  guarded : Guarded p s
  moved : ∃ c₀ status, Moved c c₀ ∧
    s.chip = { c₀ with intrMask := 0#16, intrStatus := status }

/-- The chip `c` moved on its own and was told to reset; fewer than `n` polls will see the reset
under way. -/
def Resetting (h : Silicon) (c : Chip) (n : ℕ) (s : Regs) : Prop :=
  ∃ c₀, Moved c c₀ ∧
    ((∃ k < n, s.resetLeft = some k ∧ ∃ status, s.chip =
        { c₀ with txEnb := false, rxEnb := false, intrMask := 0#16, intrStatus := status }) ∨
      ∃ g, Stopped c₀ (h.afterReset g) s)

variable {p : RingAddrs}

theorem Guarded.of_off {s : Regs} (htx : s.chip.txEnb = false) (hrx : s.chip.rxEnb = false) :
    Guarded p s := by
  intro hon
  simp [htx, hrx] at hon

/-- The moves of an idle chip leave its engines and its configuration. -/
theorem Guarded.move {s t : Regs} (hs : Guarded p s) (hmove : ChipMove s.chip t.chip)
    (hconfig : t.config = s.config) : Guarded p t := by
  have hengines : t.chip.txEnb = s.chip.txEnb ∧ t.chip.rxEnb = s.chip.rxEnb := by
    generalize s.chip = d, t.chip = d' at hmove
    cases hmove <;> exact ⟨rfl, rfl⟩
  unfold Guarded
  rw [hengines.1, hengines.2, hconfig]
  exact hs

theorem Entered.stable (h : Silicon) (p : RingAddrs) (c : Chip) :
    Stable h.device (Entered p c) := by
  intro s e t hs hstep
  obtain ⟨hmove, hidle, hconfig⟩ := Silicon.step_idle hs.idle hstep
  exact ⟨hidle, hs.guarded.move hmove hconfig, hs.moved.tail hmove⟩

theorem Masked.stable (h : Silicon) (p : RingAddrs) (c : Chip) :
    Stable h.device (Masked p c) := by
  intro s e t hs hstep
  obtain ⟨hmove, hidle, hconfig⟩ := Silicon.step_idle hs.idle hstep
  refine ⟨hidle, hs.guarded.move hmove hconfig, ?_⟩
  obtain ⟨c₀, status, hmoved, hchip⟩ := hs.moved
  rw [hchip] at hmove
  generalize t.chip = d at hmove
  cases hmove with
  | latch bits => exact ⟨c₀, _, hmoved, rfl⟩
  | rx nic hen => exact ⟨{ c₀ with rxNic := nic }, status, hmoved.tail (.rx nic hen), rfl⟩
  | tx nic hen => exact ⟨{ c₀ with txNic := nic }, status, hmoved.tail (.tx nic hen), rfl⟩

/-- The end of a reset. -/
theorem Stopped.of_finishReset (h : Silicon) {s : Regs} {c₀ : Chip}
    (hchip : ∃ status, s.chip =
      { c₀ with txEnb := false, rxEnb := false, intrMask := 0#16, intrStatus := status }) :
    Stopped c₀ (h.afterReset s.config) (h.finishReset s) := by
  obtain ⟨status, hchip⟩ := hchip
  refine ⟨⟨status, ?_⟩, rfl, rfl⟩
  show s.chip.nicReset = _
  rw [hchip]
  rfl

theorem Resetting.stable (h : Silicon) (c : Chip) (n : ℕ) :
    Stable h.device (Resetting h c n) := by
  intro s e t hs hstep
  obtain ⟨c₀, hmoved, ⟨k, hk, hleft, status, hchip⟩ | ⟨g, hstopped⟩⟩ := hs
  · rcases Silicon.step_resetting hleft hstep with ⟨bits, rfl⟩ | rfl
    · refine ⟨c₀, hmoved, .inl ⟨k, hk, hleft, status ||| bits, ?_⟩⟩
      show { s.chip with intrStatus := s.chip.intrStatus ||| bits } = _
      rw [hchip]
    · exact ⟨c₀, hmoved, .inr ⟨_, .of_finishReset h ⟨status, hchip⟩⟩⟩
  · exact ⟨c₀, hmoved, .inr ⟨g, Stopped.stable h c₀ _ s e t hstopped hstep⟩⟩

theorem Stopped.guarded {s : Regs} (hs : Stopped c g s) : Guarded p s := .of_off hs.txEnb hs.rxEnb

theorem Resetting.guarded {n : ℕ} {s : Regs} (hs : Resetting h c n s) : Guarded p s := by
  obtain ⟨c₀, -, ⟨k, -, -, status, hchip⟩ | ⟨g, hstopped⟩⟩ := hs
  · exact .of_off (by rw [hchip]) (by rw [hchip])
  · exact hstopped.guarded

/-- The chip was stopped at some point of its moves, and has the configuration of a reset. -/
def HwStopped (h : Silicon) (c : Chip) (s : Regs) : Prop :=
  ∃ c₀ g, Moved c c₀ ∧ Stopped c₀ (h.afterReset g) s

theorem HwStopped.stable (h : Silicon) (c : Chip) : Stable h.device (HwStopped h c) := by
  rintro s e t ⟨c₀, g, hmoved, hstopped⟩ hstep
  exact ⟨c₀, g, hmoved, Stopped.stable h c₀ _ s e t hstopped hstep⟩

theorem HwStopped.guarded {s : Regs} (hs : HwStopped h c s) : Guarded p s := by
  obtain ⟨c₀, g, -, hstopped⟩ := hs
  exact hstopped.guarded

/-- Whether a poll sees the reset under way. -/
theorem Silicon.chipCmd_reset (s : Regs) :
    (Silicon.chipCmd s &&& cmdReset = 0#8) ↔ s.resetLeft = none := by
  unfold Silicon.chipCmd
  cases hl : s.resetLeft <;> cases s.chip.rxEnb <;> cases s.chip.txEnb <;> simp <;> decide

/-- The polling loop of `rtl8101_nic_reset`: a chip that resets in time is stopped. -/
theorem poll_triple (h : Silicon) (p : RingAddrs) (c : Chip) (n : ℕ) :
    Triple h.device (Guarded p) (Resetting h c n)
      (.poll .chipCmd (fun v => v &&& cmdReset = 0#8) n) fun _ => HwStopped h c := by
  refine Triple.poll (fun n => Resetting.stable h c n) (HwStopped.stable h c)
    (fun n s hs => hs.guarded) (fun s hs => hs.guarded) ?_ ?_ ?_ n
  · rintro s ⟨c₀, hmoved, ⟨k, hk, -⟩ | ⟨g, hstopped⟩⟩
    · exact absurd hk (Nat.not_lt_zero k)
    · exact ⟨c₀, g, hmoved, hstopped⟩
  -- a value without `CmdReset`: the chip has finished, now or before
  · rintro n s ⟨c₀, hmoved, ⟨k, hk, hleft, hchip⟩ | ⟨g, hstopped⟩⟩ hdone
    · cases k with
      | zero =>
        have hread : (h.device.read s .chipCmd).2 = h.finishReset s := by
          simp [Silicon.device, Silicon.read, hleft]
        rw [hread]
        exact ⟨c₀, _, hmoved, .of_finishReset h hchip⟩
      | succ k =>
        have hread : (h.device.read s .chipCmd).1 =
            Silicon.chipCmd { s with resetLeft := some k } := by
          simp [Silicon.device, Silicon.read, hleft]
        rw [hread, decide_eq_true_eq, Silicon.chipCmd_reset] at hdone
        cases hdone
    · have hread : (h.device.read s .chipCmd).2 = s := by
        simp [Silicon.device, Silicon.read, hstopped.idle]
      rw [hread]
      exact ⟨c₀, g, hmoved, hstopped⟩
  -- a value with `CmdReset`: one poll less will see the reset under way
  · rintro n s ⟨c₀, hmoved, ⟨k, hk, hleft, hchip⟩ | ⟨g, hstopped⟩⟩ hdone
    · cases k with
      | zero =>
        have hread : (h.device.read s .chipCmd).1 = Silicon.chipCmd (h.finishReset s) := by
          simp [Silicon.device, Silicon.read, hleft]
        rw [hread, decide_eq_false_iff_not, Silicon.chipCmd_reset] at hdone
        exact absurd rfl hdone
      | succ k =>
        have hread : (h.device.read s .chipCmd).2 = { s with resetLeft := some k } := by
          simp [Silicon.device, Silicon.read, hleft]
        rw [hread]
        exact ⟨c₀, hmoved, .inl ⟨k, by omega, rfl, hchip⟩⟩
    · have hread : (h.device.read s .chipCmd).1 = Silicon.chipCmd s := by
        simp [Silicon.device, Silicon.read, hstopped.idle]
      rw [hread, decide_eq_false_iff_not, Silicon.chipCmd_reset] at hdone
      exact absurd hstopped.idle hdone

/-- **`rtl8101_hw_reset`**: whatever the chip does in between, it ends as an atomic reset leaves it,
if a reset is over within 100 polls. -/
theorem hwReset_triple {h : Silicon} (hlat : h.latency < 100) (p : RingAddrs) (c : Chip) :
    Triple h.device (Guarded p) (Entered p c) Mac.hwReset fun _ => HwStopped h c := by
  refine Triple.write (Entered.stable h p c) (fun s hs => hs.guarded)
    (R := Masked p c) ?_ ?_
  · intro s hs
    exact ⟨hs.idle, hs.guarded, s.chip, _, hs.moved, rfl⟩
  refine Triple.read (Masked.stable h p c) (fun s hs => hs.guarded) ?_
  intro s hs
  generalize (h.device.read s .intrStatus).1 = bits
  refine Triple.write (Masked.stable h p c) (fun s hs => hs.guarded)
    (R := Masked p c) ?_ ?_ s hs
  · rintro s ⟨hidle, hguarded, c₀, status, hmoved, hchip⟩
    refine ⟨hidle, hguarded, c₀, status &&& ~~~bits, hmoved, ?_⟩
    show s.chip.ackIntr bits = _
    rw [hchip]
    rfl
  refine Triple.write (Masked.stable h p c) (fun s hs => hs.guarded)
    (R := Masked p c) ?_ ?_
  · rintro s ⟨hidle, hguarded, hmoved⟩
    refine ⟨hidle, ?_, hmoved⟩
    intro hon
    obtain ⟨htx, hrx, hsize⟩ := hguarded hon
    exact ⟨htx, hrx, hsize⟩
  refine Triple.write (Masked.stable h p c) (fun s hs => hs.guarded)
    (R := Resetting h c 100) ?_ (poll_triple h p c 100)
  rintro s ⟨-, -, c₀, status, hmoved, hchip⟩
  refine ⟨c₀, hmoved, .inl ⟨h.latency, hlat, rfl, status, ?_⟩⟩
  show { s.chip with txEnb := false, rxEnb := false } = _
  rw [hchip]

/-! ## Restarting the chip -/

/-- What `rtl8101_hw_init` writes to the configuration: both halves of both ring addresses, the
limit on received frames, and a filter that accepts broadcasts, multicasts and its own address. -/
def RingAddrs.config (p : RingAddrs) : Config
  | .mar0 => ~~~0#32
  | .mar4 => ~~~0#32
  | .txDescStartAddrLow => p.txPhyAddr.setWidth 32
  | .txDescStartAddrHigh => (p.txPhyAddr >>> 32).setWidth 32
  | .txConfig => txDmaUnlimited ||| txIfg96
  | .rxConfig =>
    rxFifoNone ||| rxDmaUnlimited ||| acceptBroadcast ||| acceptMulticast ||| acceptMyPhys
  | .cfg9346 => cfg9346Lock
  | .rxMaxSize => p.rxBufSz.setWidth 16
  | .rxDescAddrLow => p.rxPhyAddr.setWidth 32
  | .rxDescAddrHigh => (p.rxPhyAddr >>> 32).setWidth 32
  | .mtps => 0x3F#8

/-- What it leaves there, after a reset to `g`: a chip that takes no `TxConfig` while the
transmitter is off has the one of the reset. -/
def Silicon.configured (h : Silicon) (p : RingAddrs) (g : Config) : Config :=
  if h.takesTxConfig then p.config else Function.update p.config .txConfig (g .txConfig)

/-- The end of `rtl8101_hw_init`, entered with the chip `c`: an atomic restart of the chip, with
moves of the chip before and after it. -/
structure ChipStarted (h : Silicon) (p : RingAddrs) (c : Chip) (s : Regs) : Prop where
  chip : ∃ c₀, Moved c c₀ ∧ Moved c₀.hwInit s.chip
  idle : s.resetLeft = none
  config : ∃ g, s.config = h.configured p (h.afterReset g)

/-- Both halves of an address make up the address. -/
theorem append_halves (a : BitVec 64) : (a >>> 32).setWidth 32 ++ a.setWidth 32 = a := by
  apply BitVec.eq_of_getLsbD_eq
  intro i hi
  rw [BitVec.getLsbD_append]
  by_cases hlow : i < 32
  · simp [hlow]
  · simp [hlow, show i - 32 < 32 by omega, show 32 + (i - 32) = i by omega]

theorem Silicon.configured_of_ne (h : Silicon) (p : RingAddrs) (g : Config) {r : CfgReg}
    (hr : r ≠ .txConfig) : h.configured p g r = p.config r := by
  unfold Silicon.configured
  split
  · rfl
  · exact Function.update_of_ne hr _ _

theorem Silicon.aimed_configured (h : Silicon) (p : RingAddrs) (g : Config) :
    Aimed p (h.configured p g) := by
  have hne := fun r => h.configured_of_ne p g (r := r)
  refine ⟨?_, ?_, hne .rxMaxSize (by decide)⟩
  · rw [Config.txBase, hne _ (by decide), hne _ (by decide)]
    exact append_halves p.txPhyAddr
  · rw [Config.rxBase, hne _ (by decide), hne _ (by decide)]
    exact append_halves p.rxPhyAddr

/-- The low half, as the driver cuts it off. -/
theorem setWidth_and_dmaBitMask32 (a : BitVec 64) :
    (a &&& dmaBitMask32).setWidth 32 = a.setWidth 32 := by
  apply BitVec.eq_of_toNat_eq
  rw [BitVec.toNat_setWidth, BitVec.toNat_setWidth, BitVec.toNat_and]
  have hmask : dmaBitMask32.toNat = 2 ^ 32 - 1 := rfl
  rw [hmask, Nat.and_two_pow_sub_one_eq_mod, Nat.mod_mod]

/-- `rtl8101_hw_init` between the reset and the start of the engines writes every register of the
configuration. -/
theorem cfgExec_configure (h : Silicon) (htx : p.txPhyAddr ≠ 0#64) (hrx : p.rxPhyAddr ≠ 0#64)
    (g : Config) : cfgExec h (Mac.configure p) g = some ((), h.configured p g) := by
  unfold Mac.configure Mac.descAddrFill
  rw [if_neg (by simp [htx, hrx]), setWidth_and_dmaBitMask32, setWidth_and_dmaBitMask32]
  have hmode : rxDmaUnlimited &&& rxConfigMask ||| (rxFifoNone ||| rxDmaUnlimited) |||
      (acceptBroadcast ||| acceptMulticast ||| acceptMyPhys) =
        rxFifoNone ||| rxDmaUnlimited ||| acceptBroadcast ||| acceptMulticast ||| acceptMyPhys := by
    decide
  refine congrArg (fun g => some ((), g)) (funext fun r => ?_)
  obtain ⟨latency, afterReset, takesTxConfig, takesMacByte, hbase⟩ := h
  cases takesTxConfig <;> cases r
  case true.rxConfig | false.rxConfig => exact hmode
  all_goals rfl

/-- With an address that is zero the base registers are left alone. -/
theorem cfgExec_configure_of_zero (h : Silicon) (h0 : p.txPhyAddr = 0#64 ∨ p.rxPhyAddr = 0#64)
    (g : Config) :
    ∃ g', cfgExec h (Mac.configure p) g = some ((), g') ∧ g'.txBase = g.txBase := by
  unfold Mac.configure Mac.descAddrFill
  rw [if_pos h0]
  refine ⟨_, rfl, ?_⟩
  obtain ⟨latency, afterReset, takesTxConfig, takesMacByte, hbase⟩ := h
  cases takesTxConfig <;> rfl

/-- Both engines are enabled by one write. -/
theorem Silicon.write_engines (h : Silicon) (s : Regs) :
    h.write s .chipCmd (cmdTxEnb ||| cmdRxEnb) =
      { s with chip := { s.chip with txEnb := true, rxEnb := true } } := rfl

/-- The engines were started on the rings, and the interrupts not yet unmasked. -/
structure EnginesOn (h : Silicon) (p : RingAddrs) (c : Chip) (s : Regs) : Prop where
  chip : ∃ c₀, Moved c c₀ ∧ Moved { c₀.hwReset with txEnb := true, rxEnb := true } s.chip
  idle : s.resetLeft = none
  config : ∃ g, s.config = h.configured p (h.afterReset g)

theorem ChipStarted.stable (h : Silicon) (p : RingAddrs) (c : Chip) :
    Stable h.device (ChipStarted h p c) := by
  intro s e t hs hstep
  obtain ⟨hmove, hidle, hconfig⟩ := Silicon.step_idle hs.idle hstep
  obtain ⟨c₀, hmoved, hchip⟩ := hs.chip
  exact ⟨⟨c₀, hmoved, hchip.tail hmove⟩, hidle, hs.config.imp fun _ => hconfig.trans⟩

theorem EnginesOn.stable (h : Silicon) (p : RingAddrs) (c : Chip) :
    Stable h.device (EnginesOn h p c) := by
  intro s e t hs hstep
  obtain ⟨hmove, hidle, hconfig⟩ := Silicon.step_idle hs.idle hstep
  obtain ⟨c₀, hmoved, hchip⟩ := hs.chip
  exact ⟨⟨c₀, hmoved, hchip.tail hmove⟩, hidle, hs.config.imp fun _ => hconfig.trans⟩

theorem guarded_of_config {s : Regs} (hs : ∃ g, s.config = h.configured p (h.afterReset g)) :
    Guarded p s := by
  intro _
  obtain ⟨g, hg⟩ := hs
  rw [hg]
  exact h.aimed_configured p _

/-- **`rtl8101_hw_init`**: whatever the chip does in between, it ends as an atomic restart leaves
it, configured for the rings. -/
theorem hwInit_triple {h : Silicon} (hlat : h.latency < 100) (htx : p.txPhyAddr ≠ 0#64)
    (hrx : p.rxPhyAddr ≠ 0#64) (c : Chip) :
    Triple h.device (Guarded p) (Entered p c) (Mac.hwInit p) fun _ => ChipStarted h p c := by
  refine (hwReset_triple hlat p c).bind fun _ => ?_
  -- the chip is stopped: only its status register moves while the configuration is written
  rintro s ⟨c₀, g, hmoved, hstopped⟩
  have hconfigure := Stopped.triple_of_cfgExec (h := h) (c := c₀) (I := Guarded p)
    (fun g s hs => hs.guarded) (cfgExec_configure h htx hrx (h.afterReset g))
  refine (hconfigure.bind fun _ => ?_) s hstopped
  refine Triple.write (Stopped.stable h c₀ _) (fun s hs => hs.guarded)
    (R := EnginesOn h p c) ?_ ?_
  · rintro s ⟨⟨status, hchip⟩, hidle, hconfig⟩
    refine ⟨⟨c₀, hmoved, ?_⟩, hidle, g, hconfig⟩
    have hclear : c₀.hwReset.intrStatus = 0#16 := by
      simp [Chip.hwReset, Chip.nicReset, Chip.disableNClearInterrupts, Chip.ackIntr]
    have hlatched := Moved.latched { c₀.hwReset with txEnb := true, rxEnb := true } status hclear
    show Moved _ (h.write s .chipCmd (cmdTxEnb ||| cmdRxEnb)).chip
    rw [Silicon.write_engines, hchip]
    exact hlatched
  refine Triple.write (EnginesOn.stable h p c) (fun s hs => guarded_of_config hs.config)
    (R := ChipStarted h p c) ?_ ?_
  · rintro s ⟨⟨c₀, hmoved, hchip⟩, hidle, hconfig⟩
    exact ⟨⟨c₀, hmoved, hchip.withMask intrEnMask⟩, hidle, hconfig⟩
  · exact Triple.ret (Q := fun _ => ChipStarted h p c) (ChipStarted.stable h p c)
      fun s hs => guarded_of_config hs.config

/-- The polling loop on a chip that makes no move: `n` polls see the end of a reset that fewer than
`n` polls see under way. -/
theorem exec_poll (h : Silicon) (n : ℕ) {s : Regs} {k : ℕ} (hs : s.resetLeft = some k) :
    (exec h.device (.poll .chipCmd (fun v => v &&& cmdReset = 0#8) n) s).2 =
      if k < n then h.finishReset s else { s with resetLeft := some (k - n) } := by
  induction n generalizing s k with
  | zero =>
    rw [if_neg (Nat.not_lt_zero k), Nat.sub_zero, ← hs]
    rfl
  | succ n ih =>
    cases k with
    | zero =>
      have hread : h.device.read s .chipCmd =
          (Silicon.chipCmd (h.finishReset s), h.finishReset s) := by
        simp [Silicon.device, Silicon.read, hs]
      have hdone := (Silicon.chipCmd_reset (h.finishReset s)).mpr rfl
      rw [if_pos (Nat.succ_pos n), Prog.poll, exec, hread]
      simp only [hdone, decide_true, if_true]
      rfl
    | succ k =>
      have hread : h.device.read s .chipCmd = (Silicon.chipCmd { s with resetLeft := some k },
          { s with resetLeft := some k }) := by
        simp [Silicon.device, Silicon.read, hs]
      have hbusy : ¬ Silicon.chipCmd { s with resetLeft := some k } &&& cmdReset = 0#8 := by
        rw [Silicon.chipCmd_reset]
        simp
      rw [Prog.poll, exec, hread]
      simp only [hbusy, decide_false, Bool.false_eq_true, if_false]
      rw [ih rfl, Nat.succ_sub_succ]
      simp only [Nat.succ_lt_succ_iff]
      rfl

/-- `rtl8101_hw_reset` on a chip that makes no move: in time or not, the transmitter is off and its
ring address stays. -/
theorem exec_hwReset (h : Silicon) (s : Regs) :
    (exec h.device Mac.hwReset s).2.chip.txEnb = false ∧
      (exec h.device Mac.hwReset s).2.config.txBase = s.config.txBase ∧
      (100 ≤ h.latency → (exec h.device Mac.hwReset s).2.resetLeft ≠ none) := by
  generalize ht : h.write (h.write (h.write (h.write s .intrMask 0x0000#16) .intrStatus
    s.chip.intrStatus) (.cfg .rxConfig) rxDmaUnlimited) .chipCmd cmdReset = t
  have hexec : exec h.device Mac.hwReset s =
      exec h.device (.poll .chipCmd (fun v => v &&& cmdReset = 0#8) 100) t := by
    rw [← ht]
    rfl
  have hleft : t.resetLeft = some h.latency := by
    rw [← ht]
    rfl
  have hbase : t.config.txBase = s.config.txBase := by
    rw [← ht]
    rfl
  have hoff : t.chip.txEnb = false := by
    rw [← ht]
    rfl
  rw [hexec, exec_poll h 100 hleft]
  split_ifs with hlat
  · exact ⟨rfl, (h.txBase_afterReset _).trans hbase, fun hge => absurd hlat (not_lt.mpr hge)⟩
  · exact ⟨hoff, hbase, fun _ => by simp⟩

/-- `rtl8101_hw_init` on a chip that makes no move, by what `rtl8101_hw_reset` leaves. -/
theorem exec_hwInit (h : Silicon) (p : RingAddrs) (s : Regs) :
    (exec h.device (Mac.hwInit p) s).2.resetLeft =
        (exec h.device Mac.hwReset s).2.resetLeft ∧
      (p.txPhyAddr = 0#64 ∨ p.rxPhyAddr = 0#64 →
        (exec h.device (Mac.hwInit p) s).2.config.txBase = s.config.txBase) := by
  have hexec : exec h.device (Mac.hwInit p) s = exec h.device
      ((Mac.configure p).bind fun _ => .write .chipCmd (cmdTxEnb ||| cmdRxEnb)
        (.write .intrMask intrEnMask (.ret ()))) (exec h.device Mac.hwReset s).2 := by
    exact exec_bind h.device Mac.hwReset _ s
  obtain ⟨hoff, hbase, -⟩ := exec_hwReset h s
  rw [hexec, exec_bind]
  generalize (exec h.device Mac.hwReset s).2 = t at hoff hbase
  by_cases h0 : p.txPhyAddr = 0#64 ∨ p.rxPhyAddr = 0#64
  · obtain ⟨g', hg', hkeep⟩ := cfgExec_configure_of_zero h h0 t.config
    rw [exec_of_cfgExec h hg' rfl hoff]
    exact ⟨rfl, fun _ => hkeep.trans hbase⟩
  · push Not at h0
    rw [exec_of_cfgExec h (cfgExec_configure h h0.1 h0.2 t.config) rfl hoff]
    exact ⟨rfl, fun h => absurd h (by simp [h0])⟩

/-- A chip that is off, with a Tx base register that is not the one of `p`. -/
def Regs.elsewhere (p : RingAddrs) : Regs where
  chip := Device.registered.chip
  resetLeft := none
  mac _ := 0#8
  config := Function.update p.config .txDescStartAddrLow (~~~p.txPhyAddr.setWidth 32)

theorem elsewhere_txBase (p : RingAddrs) : (Regs.elsewhere p).config.txBase ≠ p.txPhyAddr := by
  intro heq
  have hbit : (Regs.elsewhere p).config.txBase.getLsbD 0 = p.txPhyAddr.getLsbD 0 := by rw [heq]
  have hlow : (Regs.elsewhere p).config .txDescStartAddrLow = ~~~p.txPhyAddr.setWidth 32 := rfl
  rw [Config.txBase, BitVec.getLsbD_append, if_pos (by decide), hlow, BitVec.getLsbD_not,
    BitVec.getLsbD_setWidth] at hbit
  simp at hbit

/-- **Restarting the chip**: entered with no reset under way and no engine enabled but on the rings
of `p`, in every interleaving with the moves of the chip, `rtl8101_hw_init` ends with the chip
restarted and configured for the rings, and at no point an engine that is enabled works on anything
but these rings, exactly when the chip finishes a reset before the last poll and neither ring lies
at the bus address 0. Whether `TxConfig` is the one that the driver writes depends on the chip. -/
theorem restarts_iff (h : Silicon) (p : RingAddrs) :
    (∀ s, s.resetLeft = none → Guarded p s →
        Safe h.device (Guarded p) (fun _ => ChipStarted h p s.chip) (Mac.hwInit p) s) ↔
      h.latency < 100 ∧ p.txPhyAddr ≠ 0#64 ∧ p.rxPhyAddr ≠ 0#64 := by
  constructor
  · intro hsafe
    have hend := (hsafe (.elsewhere p) rfl (.of_off rfl rfl)).exec
    obtain ⟨hleft, hzero⟩ := exec_hwInit h p (.elsewhere p)
    have hlat : h.latency < 100 := by
      by_contra hge
      exact (exec_hwReset h (.elsewhere p)).2.2 (not_lt.mp hge) (hleft.symm.trans hend.idle)
    have hplaced : ¬ (p.txPhyAddr = 0#64 ∨ p.rxPhyAddr = 0#64) := by
      intro h0
      have hbase := hzero h0
      obtain ⟨g, hg⟩ := hend.config
      rw [hg, (h.aimed_configured p _).txBase] at hbase
      exact elsewhere_txBase p hbase.symm
    push Not at hplaced
    exact ⟨hlat, hplaced⟩
  · rintro ⟨hlat, htx, hrx⟩ s hidle hguarded
    exact hwInit_triple hlat htx hrx s.chip s ⟨hidle, hguarded, .refl⟩

/-- A chip of the datasheet is restarted on rings at the addresses `0x10000` and `0x20000`, from
other ones. -/
theorem restarts_iff_datasheet :
    let p : RingAddrs := ⟨0x10000#64, 0x20000#64, 1536#32⟩
    Safe Silicon.datasheet.device (Guarded p)
      (fun _ => ChipStarted .datasheet p (Regs.elsewhere p).chip) (Mac.hwInit p) (.elsewhere p) :=
  (restarts_iff .datasheet ⟨0x10000#64, 0x20000#64, 1536#32⟩).mpr (by decide) _ rfl
    (.of_off rfl rfl)

/-! ## The station address -/

/-- No reset is under way, and the station address is `mac`. -/
def HasMac (mac : Fin 6 → BitVec 8) (s : Regs) : Prop := s.resetLeft = none ∧ s.mac = mac

theorem Silicon.step_mac {h : Silicon} {s t : Regs} {e : ChipEvent} (hstep : h.step s e = some t) :
    t.mac = s.mac := by
  cases e with
  | latch bits => cases hstep; rfl
  | rx nic | tx nic | resetDone =>
    simp only [Silicon.step] at hstep
    split_ifs at hstep
    cases hstep
    rfl

theorem HasMac.stable (h : Silicon) (mac : Fin 6 → BitVec 8) : Stable h.device (HasMac mac) := by
  rintro s e t ⟨hidle, hmac⟩ hstep
  exact ⟨(Silicon.step_idle hidle hstep).2.1, (Silicon.step_mac hstep).trans hmac⟩

/-- The loop of `rtl8101_get_mac_address` reads the bytes that are left. -/
theorem readMac_triple (h : Silicon) (mac : Fin 6 → BitVec 8) (is : List (Fin 6))
    (devAddr : Fin 6 → BitVec 8) :
    Triple h.device (fun _ => True) (HasMac mac) (Mac.readMac is devAddr) fun addr s =>
      (∀ i, addr i = if i ∈ is then mac i else devAddr i) ∧ HasMac mac s := by
  induction is generalizing devAddr with
  | nil =>
    have hstable : Stable h.device fun s =>
        (∀ i, devAddr i = if i ∈ ([] : List (Fin 6)) then mac i else devAddr i) ∧ HasMac mac s :=
      fun s e t hs hstep => ⟨hs.1, HasMac.stable h mac s e t hs.2 hstep⟩
    refine (Triple.ret (Q := fun addr s => (∀ i, addr i = if i ∈ ([] : List (Fin 6)) then mac i
      else devAddr i) ∧ HasMac mac s) hstable fun _ _ => trivial).conseq ?_ fun _ _ hs => hs
    intro s hs
    exact ⟨fun i => by simp, hs⟩
  | cons i is ih =>
    refine Triple.read (HasMac.stable h mac) (fun _ _ => trivial) ?_
    intro s hs
    have hbyte : (h.device.read s (.mac i)).1 = mac i := congrFun hs.2 i
    rw [hbyte]
    refine (ih (Function.update devAddr i (mac i))).conseq (fun _ hs => hs) ?_ s hs
    rintro addr t ⟨haddr, ht⟩
    refine ⟨?_, ht⟩
    intro j
    rw [haddr j]
    by_cases hj : j = i
    · subst hj
      simp
    · simp [hj]

/-- The station address that a registration leaves on the chip `h`: a chip that takes no single
bytes keeps the one it has. -/
def Silicon.nextMac (h : Silicon) (mac : Fin 6 → BitVec 8) : Fin 6 → BitVec 8 :=
  if h.takesMacByte then Rtl8101.nextMac mac else mac

/-- The write of the first byte, counted up. -/
theorem Silicon.write_mac (h : Silicon) {s : Regs} (hlock : s.config .cfg9346 = cfg9346Unlock) :
    h.write s (.mac 0) (s.mac 0 + 1#8) = { s with mac := h.nextMac s.mac } := by
  simp only [Silicon.write, Silicon.nextMac, hlock, true_and]
  split <;> rfl

/-- **`rtl8101_get_mac_address`**: in every interleaving with the moves of the chip, the address of
the net device is the one the chip has from then on, which is the one it had with its first byte
counted up, on a chip that takes single bytes. -/
theorem getMacAddress_triple (h : Silicon) (mac devAddr : Fin 6 → BitVec 8) :
    Triple h.device (fun _ => True) (HasMac mac) (Mac.getMacAddress devAddr) fun addr s =>
      addr = h.nextMac mac ∧ HasMac (h.nextMac mac) s := by
  have hstable := HasMac.stable h mac
  have hunlocked : Stable h.device fun s => HasMac mac s ∧ s.config .cfg9346 = cfg9346Unlock := by
    rintro s e t ⟨hs, hlock⟩ hstep
    refine ⟨hstable s e t hs hstep, ?_⟩
    rw [(Silicon.step_idle hs.1 hstep).2.2]
    exact hlock
  refine Triple.write hstable (fun _ _ => trivial)
    (R := fun s => HasMac mac s ∧ s.config .cfg9346 = cfg9346Unlock) ?_ ?_
  · intro s hs
    exact ⟨hs, rfl⟩
  refine Triple.read hunlocked (fun _ _ => trivial) ?_
  rintro s ⟨hs, hlock⟩
  have hbyte : (h.device.read s (.mac 0)).1 = mac 0 := congrFun hs.2 0
  rw [hbyte]
  refine Triple.write hunlocked (fun _ _ => trivial) (R := HasMac (h.nextMac mac)) ?_ ?_ s
    ⟨hs, hlock⟩
  · rintro s ⟨⟨hidle, rfl⟩, hlock⟩
    simp only [Function.update_self]
    have hwrite : h.device.write s (.mac 0) (s.mac 0 + 1#8) = { s with mac := h.nextMac s.mac } :=
      h.write_mac hlock
    rw [hwrite]
    exact ⟨hidle, rfl⟩
  refine Triple.write (HasMac.stable h _) (fun _ _ => trivial) (R := HasMac (h.nextMac mac))
    (fun s hs => hs) ?_
  refine (readMac_triple h (h.nextMac mac) _ _).conseq (fun _ hs => hs) ?_
  rintro addr t ⟨haddr, ht⟩
  refine ⟨funext fun i => ?_, ht⟩
  rw [haddr i, if_pos (List.mem_finRange i)]

end Rtl8101
