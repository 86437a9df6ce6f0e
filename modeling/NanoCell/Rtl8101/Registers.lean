import Mathlib.Logic.Relation
import NanoCell.Lib.Mmio
import NanoCell.Rtl8101.Device

/-!
# The registers of the chip

`mac.c` access by access. While the driver resets and configures the chip, the chip goes on: it
latches interrupts, moves through the rings as long as its engines are enabled, and takes a while to
finish a reset, which the driver polls for at most 100 times. A reset leaves the start address of
the Tx ring and may change every other configuration register. Writes of the configuration take
effect at once, but for two of the driver that the datasheets rule out: `TxConfig` is written while
the transmitter is off, and the station address byte by byte. Each chip takes them or does not.

## Main definitions

* `Regs`, `Silicon`, `Silicon.device`: the registers, and the chip behind them
* `Silicon.datasheet`: a chip that takes no write that its datasheet rules out
* `Mac.hwReset`, `Mac.hwInit`, `Mac.getMacAddress`: the functions of `mac.c`, as programs
* `nextMac`, `groupBit`: the station address after a registration, and its group bit
* `Moved`: what the chip does on its own
* `Stopped c g`: the chip `c` after a reset, configured with `g`

## Main results

* `Silicon.step_idle`, `Silicon.step_resetting`: the moves of a chip, inverted
* `Stopped.triple_of_cfgExec`: on a stopped chip the accesses to the configuration can be run
  without looking at its moves
-/

namespace Rtl8101

open Mmio

/-! ## Registers -/

/-- The registers that hold what is written to them. -/
inductive CfgReg where
  | mar0
  | mar4
  | txDescStartAddrLow
  | txDescStartAddrHigh
  | txConfig
  | rxConfig
  | cfg9346
  | rxMaxSize
  | rxDescAddrLow
  | rxDescAddrHigh
  | mtps
  deriving DecidableEq

/-- The number of bits of a register. -/
@[reducible] def CfgReg.width : CfgReg → ℕ
  | .cfg9346 | .mtps => 8
  | .rxMaxSize => 16
  | _ => 32

/-- The registers of `mac.c`. -/
inductive Reg where
  | chipCmd
  | intrMask
  | intrStatus
  | mac (i : Fin 6)
  | cfg (r : CfgReg)

@[reducible] def Reg.width : Reg → ℕ
  | .chipCmd => 8
  | .intrMask | .intrStatus => 16
  | .mac _ => 8
  | .cfg r => r.width

/-- The values of a register. -/
abbrev Reg.Val (r : Reg) : Type := BitVec r.width

/-- The contents of the registers that hold what is written to them. -/
abbrev Config : Type := (r : CfgReg) → BitVec r.width

/-- `CmdReset`. -/
def cmdReset : BitVec 8 := 0x10#8

/-- `CmdRxEnb`. -/
def cmdRxEnb : BitVec 8 := 0x08#8

/-- `CmdTxEnb`. -/
def cmdTxEnb : BitVec 8 := 0x04#8

/-- `Cfg9346_Lock`. -/
def cfg9346Lock : BitVec 8 := 0x00#8

/-- `Cfg9346_Unlock`. -/
def cfg9346Unlock : BitVec 8 := 0xC0#8

/-- `TxIFG96`. -/
def txIfg96 : BitVec 32 := 3#32 <<< 24

/-- `TxDMAUnlimited`. -/
def txDmaUnlimited : BitVec 32 := 6#32 <<< 8

/-- `RxFIFONone`. -/
def rxFifoNone : BitVec 32 := 7#32 <<< 13

/-- `RxDMAUnlimited`. -/
def rxDmaUnlimited : BitVec 32 := 6#32 <<< 8

/-- `AcceptBroadcast`. -/
def acceptBroadcast : BitVec 32 := 0x08#32

/-- `AcceptMulticast`. -/
def acceptMulticast : BitVec 32 := 0x04#32

/-- `AcceptMyPhys`. -/
def acceptMyPhys : BitVec 32 := 0x02#32

/-- `RxConfigMask`. -/
def rxConfigMask : BitVec 32 := 0xFF7E1880#32

/-- `DMA_BIT_MASK(32)`. -/
def dmaBitMask32 : BitVec 64 := 0xFFFFFFFF#64

/-- The state of the chip: what the device model keeps of it, the polls of `ChipCmd` that still show
a reset under way, the station address and the configuration. -/
structure Regs where
  chip : Chip
  resetLeft : Option ℕ
  mac : Fin 6 → BitVec 8
  config : Config

/-- The ring base registers. -/
def Config.txBase (g : Config) : BitVec 64 := g .txDescStartAddrHigh ++ g .txDescStartAddrLow

def Config.rxBase (g : Config) : BitVec 64 := g .rxDescAddrHigh ++ g .rxDescAddrLow

/-! ## The chip behind the registers -/

/-- What differs from chip to chip. -/
structure Silicon where
  /-- The polls that see a reset under way. -/
  latency : ℕ
  /-- What a reset makes of the configuration. -/
  afterReset : Config → Config
  /-- `TxConfig` can be written while the transmitter is off. -/
  takesTxConfig : Bool
  /-- The station address can be written byte by byte. -/
  takesMacByte : Bool
  txBase_afterReset : ∀ g, (afterReset g).txBase = g.txBase

/-- The moves of a chip. -/
inductive ChipEvent where
  | latch (bits : BitVec 16)
  | rx (nic : RxNic)
  | tx (nic : TxNic)
  | resetDone

namespace Silicon

/-- A chip of the datasheet. A reset, which is over with the fourth poll, clears what it need not
keep; `TxConfig` can only be changed with the transmitter enabled, and the station address only four
bytes at a time. -/
def datasheet : Silicon where
  latency := 3
  afterReset g
    | .mar0 => g .mar0
    | .mar4 => g .mar4
    | .txDescStartAddrLow => g .txDescStartAddrLow
    | .txDescStartAddrHigh => g .txDescStartAddrHigh
    | .rxDescAddrLow => g .rxDescAddrLow
    | .rxDescAddrHigh => g .rxDescAddrHigh
    | .txConfig | .rxConfig | .cfg9346 | .rxMaxSize | .mtps => 0
  takesTxConfig := false
  takesMacByte := false
  txBase_afterReset _ := rfl

variable (h : Silicon)

/-- The end of a reset. -/
def finishReset (s : Regs) : Regs :=
  { s with resetLeft := none, chip := s.chip.nicReset, config := h.afterReset s.config }

/-- The value of `ChipCmd`. -/
def chipCmd (s : Regs) : BitVec 8 :=
  (if s.resetLeft.isSome then cmdReset else 0#8) ||| (if s.chip.rxEnb then cmdRxEnb else 0#8) |||
    (if s.chip.txEnb then cmdTxEnb else 0#8)

/-- Reading a register. `CmdReset` reads as one until the reset is finished. -/
def read (s : Regs) : (r : Reg) → r.Val × Regs
  | .chipCmd =>
    let t := match s.resetLeft with
      | none => s
      | some 0 => h.finishReset s
      | some (n + 1) => { s with resetLeft := some n }
    (chipCmd t, t)
  | .intrMask => (s.chip.intrMask, s)
  | .intrStatus => (s.chip.intrStatus, s)
  | .mac i => (s.mac i, s)
  | .cfg r => (s.config r, s)

/-- A write of the configuration, with the transmitter enabled or not. -/
def cfgWrite (txEnb : Bool) (g : Config) : (r : CfgReg) → BitVec r.width → Config
  | .txConfig, v => if txEnb || h.takesTxConfig then Function.update g .txConfig v else g
  | r, v => Function.update g r v

/-- Writing a register. `CmdReset` stops both engines at once; the station address can be written
while the configuration is unlocked, if the chip takes a single byte. -/
def write (s : Regs) : (r : Reg) → r.Val → Regs
  | .chipCmd, v =>
    if v &&& cmdReset ≠ 0#8 then
      { s with chip := { s.chip with txEnb := false, rxEnb := false }, resetLeft := some h.latency }
    else
      { s with chip := { s.chip with
        txEnb := decide (v &&& cmdTxEnb ≠ 0#8)
        rxEnb := decide (v &&& cmdRxEnb ≠ 0#8) } }
  | .intrMask, v => { s with chip := s.chip.enableInterrupts v }
  | .intrStatus, v => { s with chip := s.chip.ackIntr v }
  | .mac i, v =>
    if s.config .cfg9346 = cfg9346Unlock ∧ h.takesMacByte = true then
      { s with mac := Function.update s.mac i v }
    else s
  | .cfg r, v => { s with config := h.cfgWrite s.chip.txEnb s.config r v }

/-- The moves of the chip: it works on a ring only with the engine enabled and no reset under
way. -/
def step (s : Regs) : ChipEvent → Option Regs
  | .latch bits => some { s with chip := { s.chip with intrStatus := s.chip.intrStatus ||| bits } }
  | .rx nic =>
    if s.chip.rxEnb = true ∧ s.resetLeft = none then
      some { s with chip := { s.chip with rxNic := nic } }
    else none
  | .tx nic =>
    if s.chip.txEnb = true ∧ s.resetLeft = none then
      some { s with chip := { s.chip with txNic := nic } }
    else none
  | .resetDone => if s.resetLeft.isSome then some (h.finishReset s) else none

/-- The chip as a device. -/
def device : Mmio.Device Regs ChipEvent Reg Reg.Val := ⟨h.read, h.write, h.step⟩

end Silicon

/-! ## The functions of `mac.c` -/

/-- A function that accesses the registers. -/
abbrev RegProg (α : Type) : Type := Prog Reg Reg.Val α

/-- `REG_R8`, `REG_R16` and `REG_R32`. -/
def regR (r : Reg) : RegProg r.Val := .get r

/-- `REG_W8`, `REG_W16` and `REG_W32`. -/
def regW (r : Reg) (v : r.Val) : RegProg Unit := .put r v

/-- The fields of `DrvPvt` that `rtl8101_hw_init` writes to the chip. -/
structure RingAddrs where
  txPhyAddr : BitVec 64
  rxPhyAddr : BitVec 64
  rxBufSz : BitVec 32

namespace Mac

/-- `rtl8101_enable_interrupts`. -/
def enableInterrupts (mask : BitVec 16) : RegProg Unit := regW .intrMask mask

/-- `rtl8101_disable_n_clear_interrupts`. -/
def disableNClearInterrupts : RegProg Unit := do
  regW .intrMask 0x0000#16
  let status ← regR .intrStatus
  regW .intrStatus status

/-- `rtl8101_nic_reset`. -/
def nicReset : RegProg Unit := do
  regW (.cfg .rxConfig) rxDmaUnlimited
  regW .chipCmd cmdReset
  .poll .chipCmd (fun v => v &&& cmdReset = 0#8) 100

/-- `rtl8101_hw_reset`. -/
def hwReset : RegProg Unit := do
  disableNClearInterrupts
  nicReset

/-- `rtl8101_desc_addr_fill`. -/
def descAddrFill (p : RingAddrs) : RegProg Unit :=
  if p.txPhyAddr = 0#64 ∨ p.rxPhyAddr = 0#64 then pure ()
  else do
    regW (.cfg .txDescStartAddrLow) ((p.txPhyAddr &&& dmaBitMask32).setWidth 32)
    regW (.cfg .txDescStartAddrHigh) ((p.txPhyAddr >>> 32).setWidth 32)
    regW (.cfg .rxDescAddrLow) ((p.rxPhyAddr &&& dmaBitMask32).setWidth 32)
    regW (.cfg .rxDescAddrHigh) ((p.rxPhyAddr >>> 32).setWidth 32)

/-- `rtl8101_set_rx_mode`. -/
def setRxMode : RegProg Unit := do
  let rxMode ← regR (.cfg .rxConfig)
  let rxMode := rxMode &&& rxConfigMask
  let rxMode := rxMode ||| (rxFifoNone ||| rxDmaUnlimited)
  let rxMode := rxMode ||| (acceptBroadcast ||| acceptMulticast ||| acceptMyPhys)
  regW (.cfg .rxConfig) rxMode
  regW (.cfg .mar0) (~~~0#32)
  regW (.cfg .mar4) (~~~0#32)

/-- `rtl8101_hw_init` between the reset and the start of the engines. -/
def configure (p : RingAddrs) : RegProg Unit := do
  regW (.cfg .cfg9346) cfg9346Unlock
  descAddrFill p
  regW (.cfg .mtps) 0x3F#8
  regW (.cfg .txConfig) (txDmaUnlimited ||| txIfg96)
  regW (.cfg .rxConfig) rxDmaUnlimited
  regW (.cfg .rxMaxSize) (p.rxBufSz.setWidth 16)
  setRxMode
  regW (.cfg .cfg9346) cfg9346Lock

/-- `rtl8101_hw_init`. -/
def hwInit (p : RingAddrs) : RegProg Unit := do
  hwReset
  configure p
  regW .chipCmd (cmdTxEnb ||| cmdRxEnb)
  enableInterrupts intrEnMask

/-- The loop of `rtl8101_get_mac_address` over the bytes that are left. -/
def readMac : List (Fin 6) → (Fin 6 → BitVec 8) → RegProg (Fin 6 → BitVec 8)
  | [], devAddr => pure devAddr
  | i :: is, devAddr => do
    let byte ← regR (.mac i)
    readMac is (Function.update devAddr i byte)

/-- `rtl8101_get_mac_address`: the new `dev_addr`, which is also `perm_addr`. -/
def getMacAddress (devAddr : Fin 6 → BitVec 8) : RegProg (Fin 6 → BitVec 8) := do
  regW (.cfg .cfg9346) cfg9346Unlock
  let byte ← regR (.mac 0)
  let devAddr := Function.update devAddr 0 byte
  let devAddr := Function.update devAddr 0 (devAddr 0 + 1#8)
  regW (.mac 0) (devAddr 0)
  regW (.cfg .cfg9346) cfg9346Lock
  readMac (List.finRange 6) devAddr

end Mac

/-! ## The station address -/

/-- The station address that a registration leaves, with its first byte counted up. -/
def nextMac (mac : Fin 6 → BitVec 8) : Fin 6 → BitVec 8 := Function.update mac 0 (mac 0 + 1#8)

/-- The group bit of a station address, which makes it a multicast address. -/
def groupBit (addr : Fin 6 → BitVec 8) : Bool := (addr 0).getLsbD 0

/-! ## What the chip does on its own -/

/-- One move of the chip, as the device model sees it. -/
inductive ChipMove : Chip → Chip → Prop
  | latch (c : Chip) (bits : BitVec 16) :
      ChipMove c { c with intrStatus := c.intrStatus ||| bits }
  | rx {c : Chip} (nic : RxNic) : c.rxEnb = true → ChipMove c { c with rxNic := nic }
  | tx {c : Chip} (nic : TxNic) : c.txEnb = true → ChipMove c { c with txNic := nic }

/-- Some moves of the chip. -/
def Moved : Chip → Chip → Prop := Relation.ReflTransGen ChipMove

section Moved

variable {c c' : Chip}

/-- The moves do not look at the interrupt mask. -/
theorem ChipMove.withMask (h : ChipMove c c') (m : BitVec 16) :
    ChipMove { c with intrMask := m } { c' with intrMask := m } := by
  cases h with
  | latch bits => exact .latch { c with intrMask := m } bits
  | rx nic hen => exact .rx (c := { c with intrMask := m }) nic hen
  | tx nic hen => exact .tx (c := { c with intrMask := m }) nic hen

theorem Moved.withMask (h : Moved c c') (m : BitVec 16) :
    Moved { c with intrMask := m } { c' with intrMask := m } := by
  induction h with
  | refl => exact .refl
  | tail _ hmove ih => exact ih.tail (hmove.withMask m)

/-- The interrupts that a chip latched are moves of it. -/
theorem Moved.latched (c : Chip) (status : BitVec 16) (h : c.intrStatus = 0#16) :
    Moved c { c with intrStatus := status } := by
  have hmove := ChipMove.latch c status
  rw [h, BitVec.zero_or] at hmove
  exact .single hmove

end Moved

/-- A move of the chip with no reset under way. -/
theorem Silicon.step_idle {h : Silicon} {s t : Regs} {e : ChipEvent} (hidle : s.resetLeft = none)
    (hstep : h.step s e = some t) :
    ChipMove s.chip t.chip ∧ t.resetLeft = none ∧ t.config = s.config := by
  cases e with
  | latch bits =>
    cases hstep
    exact ⟨.latch _ _, hidle, rfl⟩
  | rx nic =>
    simp only [Silicon.step] at hstep
    split_ifs at hstep with hguard
    cases hstep
    exact ⟨.rx nic hguard.1, hidle, rfl⟩
  | tx nic =>
    simp only [Silicon.step] at hstep
    split_ifs at hstep with hguard
    cases hstep
    exact ⟨.tx nic hguard.1, hidle, rfl⟩
  | resetDone =>
    simp [Silicon.step, hidle] at hstep

/-- A move of the chip during a reset. -/
theorem Silicon.step_resetting {h : Silicon} {s t : Regs} {e : ChipEvent} {n : ℕ}
    (hreset : s.resetLeft = some n) (hstep : h.step s e = some t) :
    (∃ bits, t = { s with chip := { s.chip with intrStatus := s.chip.intrStatus ||| bits } }) ∨
      t = h.finishReset s := by
  cases e with
  | latch bits =>
    cases hstep
    exact .inl ⟨bits, rfl⟩
  | rx nic => simp [Silicon.step, hreset] at hstep
  | tx nic => simp [Silicon.step, hreset] at hstep
  | resetDone =>
    simp only [Silicon.step, hreset, Option.isSome_some, if_true, Option.some.injEq] at hstep
    exact .inr hstep.symm

/-! ## Configuring a chip that is stopped -/

/-- The run of a program that accesses nothing but the configuration, on a chip whose transmitter is
off. -/
def cfgExec (h : Silicon) {α : Type} : RegProg α → Config → Option (α × Config)
  | .ret a, g => some (a, g)
  | .read (.cfg r) k, g => cfgExec h (k (g r)) g
  | .write (.cfg r) v k, g => cfgExec h k (h.cfgWrite false g r v)
  | _, _ => none

/-- On a chip that makes no move it is what the program does. -/
theorem exec_of_cfgExec (h : Silicon) {α : Type} {p : RegProg α} {g g' : Config} {a : α}
    (hp : cfgExec h p g = some (a, g')) {s : Regs} (hs : s.config = g)
    (hoff : s.chip.txEnb = false) :
    exec h.device p s = (a, { s with config := g' }) := by
  induction p generalizing g s with
  | ret b =>
    cases hp
    rw [← hs]
    rfl
  | read r k ih =>
    cases r with
    | cfg r =>
      subst hs
      exact ih _ hp rfl hoff
    | chipCmd | intrMask | intrStatus | mac => cases hp
  | write r v k ih =>
    cases r with
    | cfg r =>
      subst hs
      rw [cfgExec, ← hoff] at hp
      exact ih (s := { s with config := h.cfgWrite s.chip.txEnb s.config r v }) hp rfl hoff
    | chipCmd | intrMask | intrStatus | mac => cases hp

/-- The chip is the chip `c` after a reset, up to the interrupts it has latched since, and is
configured with `g`. -/
structure Stopped (c : Chip) (g : Config) (s : Regs) : Prop where
  chip : ∃ status, s.chip = { c.hwReset with intrStatus := status }
  idle : s.resetLeft = none
  config : s.config = g

variable {h : Silicon} {c : Chip} {g : Config}

theorem Stopped.txEnb {s : Regs} (hs : Stopped c g s) : s.chip.txEnb = false := by
  obtain ⟨status, hchip⟩ := hs.chip
  rw [hchip]
  rfl

theorem Stopped.rxEnb {s : Regs} (hs : Stopped c g s) : s.chip.rxEnb = false := by
  obtain ⟨status, hchip⟩ := hs.chip
  rw [hchip]
  rfl

/-- A chip that is stopped only latches interrupts. -/
theorem Stopped.stable (h : Silicon) (c : Chip) (g : Config) : Stable h.device (Stopped c g) := by
  intro s e t hs hstep
  obtain ⟨hmove, hidle, hconfig⟩ := Silicon.step_idle hs.idle hstep
  refine ⟨?_, hidle, hconfig.trans hs.config⟩
  obtain ⟨status, hchip⟩ := hs.chip
  rw [hchip] at hmove
  generalize t.chip = d at hmove
  cases hmove with
  | latch bits => exact ⟨status ||| bits, rfl⟩
  | rx nic hen => cases hen
  | tx nic hen => cases hen

/-- **Configuring a stopped chip**: no interleaving with its moves matters. -/
theorem Stopped.triple_of_cfgExec {I : Regs → Prop} (hI : ∀ g s, Stopped c g s → I s) {α : Type}
    {p : RegProg α} {g g' : Config} {a : α} (hp : cfgExec h p g = some (a, g')) :
    Triple h.device I (Stopped c g) p fun _ => Stopped c g' := by
  induction p generalizing g with
  | ret b =>
    cases hp
    exact Triple.ret (Q := fun _ => Stopped c g') (Stopped.stable h c g') (hI g')
  | read r k ih =>
    cases r with
    | cfg r =>
      refine Triple.read (Stopped.stable h c g) (hI g) ?_
      intro s hs
      have hv : (h.device.read s (.cfg r)).1 = g r := congrFun hs.config r
      rw [hv]
      exact ih (g r) hp s hs
    | chipCmd | intrMask | intrStatus | mac => cases hp
  | write r v k ih =>
    cases r with
    | cfg r =>
      refine Triple.write (Stopped.stable h c g) (hI g) ?_ (ih hp)
      intro s hs
      refine ⟨hs.chip, hs.idle, ?_⟩
      show h.cfgWrite s.chip.txEnb s.config r v = h.cfgWrite false g r v
      rw [hs.config, hs.txEnb]
    | chipCmd | intrMask | intrStatus | mac => cases hp

end Rtl8101
